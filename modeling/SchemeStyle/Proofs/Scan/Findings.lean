import Mathlib.Data.List.Induction
import SchemeStyle.Proofs.Scan.Checks
import SchemeStyle.Proofs.Scan.Lockstep

/-!
# Where a line breaks one rule

A line is checked for many rules in one pass, and its findings come out in the order of the checks.
To ask for one rule is to ask for the columns of its findings (`columnsOf`), and what they should be
is said of the line alone: the columns of its characters that stand behind the right text
(`columnsIn`).

Most checks look for other rules than the one that is asked for (`FoundBy.columnsOf_eq_nil`). Of
tabs, spaces in a row and the marks of a comment, a character of code is found for the first two
only, and before it is looked at as code (`columnsOf_step`). A scan ends in one of three ways
(`scan_cases`), so what is to be found of a character by one step, and of a comment behind it, is
what is found of a line (`columnsOf_scan`).
-/

namespace SchemeStyle

variable {style : Style} {aligned : Bool} {cur : Cursor} {st : State} {violation : Violation}
  {accepts : List Char → Char → Bool}

/-! ### Columns of findings -/

/-- The columns of the findings of a violation, in order and counted from one. -/
def columnsOf (violation : Violation) (found : List Finding) : List Nat :=
  (found.filter (·.violation = violation)).map (·.index + 1)

@[simp] theorem columnsOf_append (violation : Violation) (a b : List Finding) :
    columnsOf violation (a ++ b) = columnsOf violation a ++ columnsOf violation b := by
  rw [columnsOf, List.filter_append, List.map_append]
  rfl

theorem columnsOf_eq_nil {found : List Finding}
    (h : ∀ finding ∈ found, finding.violation ≠ violation) : columnsOf violation found = [] := by
  have hfilter : found.filter (·.violation = violation) = [] :=
    List.filter_eq_nil_iff.2 fun finding hmem ↦ by simpa using h finding hmem
  rw [columnsOf, hfilter]
  rfl

theorem columnsOf_findingIf_self (violation : Violation) (condition : Bool) (index : Nat) :
    columnsOf violation (findingIf condition index violation) =
      if condition then [index + 1] else [] := by
  cases condition <;> simp [columnsOf, findingIf]

theorem columnsOf_findingIf_of_ne {other : Violation} (h : other ≠ violation) (condition : Bool)
    (index : Nat) : columnsOf violation (findingIf condition index other) = [] := by
  cases condition <;> simp [columnsOf, findingIf, h]

/-! ### Columns of characters -/

/-- The columns of the characters of a text that the test accepts behind what is before them, in
order and counted from one. -/
def columnsIn (accepts : List Char → Char → Bool) (text : List Char) : List Nat :=
  ((List.range text.length).filter fun i ↦ text[i]?.any (accepts (text.take i))).map (· + 1)

@[simp] theorem columnsIn_nil (accepts : List Char → Char → Bool) : columnsIn accepts [] = [] :=
  rfl

theorem columnsIn_concat (accepts : List Char → Char → Bool) (text : List Char) (c : Char) :
    columnsIn accepts (text ++ [c]) =
      columnsIn accepts text ++ if accepts text c then [text.length + 1] else [] := by
  have hbefore : (List.range text.length).filter
      (fun i ↦ (text ++ [c])[i]?.any (accepts ((text ++ [c]).take i))) =
      (List.range text.length).filter fun i ↦ text[i]?.any (accepts (text.take i)) := by
    refine List.filter_congr fun i hi ↦ ?_
    have hlt := List.mem_range.1 hi
    rw [List.getElem?_append_left hlt, List.take_append_of_le_length (Nat.le_of_lt hlt)]
  rw [columnsIn, List.length_append, List.length_singleton, List.range_succ, List.filter_append,
    hbefore, List.map_append, columnsIn, List.append_cancel_left_eq]
  cases h : accepts text c <;> simp [h]

theorem columnsIn_append (accepts : List Char → Char → Bool) (a b : List Char) :
    columnsIn accepts (a ++ b) =
      columnsIn accepts a ++
        (columnsIn (fun before ↦ accepts (a ++ before)) b).map (a.length + ·) := by
  induction b using List.reverseRecOn with
  | nil => simp
  | append_singleton b c ih =>
    rw [← List.append_assoc, columnsIn_concat, columnsIn_concat, ih, List.map_append,
      List.append_assoc, List.length_append]
    split_ifs <;> simp [Nat.add_assoc]

theorem columnsIn_eq_nil {text : List Char}
    (h : ∀ before c rest, text = before ++ c :: rest → accepts before c = false) :
    columnsIn accepts text = [] := by
  induction text using List.reverseRecOn with
  | nil => rfl
  | append_singleton text c ih =>
    rw [columnsIn_concat, h text c [] rfl, ih]
    · rfl
    · intro before d rest htext
      exact h before d (rest ++ [c]) (by rw [htext]; simp)

theorem mem_columnsIn {text : List Char} {column : Nat} :
    column ∈ columnsIn accepts text ↔
      ∃ i c, text[i]? = some c ∧ accepts (text.take i) c = true ∧ i + 1 = column := by
  simp only [columnsIn, List.mem_map, List.mem_filter, List.mem_range, Option.any_eq_true]
  constructor
  · rintro ⟨i, ⟨-, c, hc, haccepts⟩, rfl⟩
    exact ⟨i, c, hc, haccepts, rfl⟩
  · rintro ⟨i, c, hc, haccepts, rfl⟩
    exact ⟨i, ⟨(List.getElem?_eq_some_iff.1 hc).1, c, hc, haccepts⟩, rfl⟩

/-- The columns up to a given one are those of the text up to there. -/
theorem filter_columnsIn (accepts : List Char → Char → Bool) (text : List Char) (n : Nat) :
    (columnsIn accepts text).filter (· ≤ n) = columnsIn accepts (text.take n) := by
  induction text using List.reverseRecOn with
  | nil => simp
  | append_singleton text c ih =>
    rw [columnsIn_concat, List.filter_append]
    rcases Nat.lt_or_ge text.length n with hn | hn
    · have hwhole : (columnsIn accepts text).filter (· ≤ n) = columnsIn accepts text :=
        List.filter_eq_self.2 fun column hmem ↦ by
          obtain ⟨i, d, hi, -, rfl⟩ := mem_columnsIn.1 hmem
          have := (List.getElem?_eq_some_iff.1 hi).1
          exact decide_eq_true (by omega)
      have hall : (text ++ [c]).length ≤ n := by rwa [List.length_append]
      rw [hwhole, List.take_of_length_le hall, columnsIn_concat]
      split_ifs
      · simp [Nat.succ_le_of_lt hn]
      · rfl
    · have hbehind : ¬text.length + 1 ≤ n := by omega
      rw [ih, List.take_append_of_le_length hn]
      split_ifs <;> simp [hbehind]

/-! ### What a step finds -/

/-- Checks of other kinds have nothing to do with a violation. -/
theorem FoundBy.columnsOf_eq_nil {checks : List Check} {found : List Finding}
    (h : FoundBy checks found) (hcheck : violation.check ∉ checks) :
    columnsOf violation found = [] :=
  SchemeStyle.columnsOf_eq_nil (h.ne hcheck)

/-- **Of what is not for code to find, nor about the indentation, a step finds tabs and spaces in a
row**, the latter in code only. -/
theorem columnsOf_step (hcheck : violation.check ∉ .indentation :: codeChecks) (style : Style)
    (aligned : Bool) (cur : Cursor) (c : Char) (st : State) :
    columnsOf violation (step style aligned cur c st).findings =
      columnsOf violation (findingIf (c == '\t') cur.index .tab) ++
        if cur.mode = .indent ∨ cur.mode = .string then []
        else columnsOf violation
          (findingIf (cur.gap && c != ' ' && c != ';') cur.index .twoSpaces) := by
  obtain ⟨hindentation, hcode⟩ := not_or.1 (List.mem_cons.not.1 hcheck)
  by_cases hstring : cur.mode = .string
  · rw [if_pos (.inr hstring)]
    simp only [step, hstring, Step.after, columnsOf_append]
    split_ifs <;> rfl
  by_cases hspace : cur.mode = .indent ∧ c = ' '
  · rw [if_pos (.inl hspace.1)]
    simp only [step, hspace.1, if_pos hspace.2, Step.after, columnsOf_append]
    rfl
  rw [step_of_code hstring fun hmode hc ↦ hspace ⟨hmode, hc⟩, Step.after, columnsOf_append,
    (foundBy_codeChar _ _ _ _ _).columnsOf_eq_nil hcode, List.append_nil, leadFindings,
    columnsOf_append]
  by_cases hindent : cur.mode = .indent
  · have hlead : cur.mode = .indent ∨ cur.mode = .string := .inl hindent
    rw [if_pos hindent, if_pos hlead]
    split_ifs
    · rw [(foundBy_alignLine cur.index st).columnsOf_eq_nil (List.mem_singleton.not.2 hindentation)]
    · rfl
  · rw [if_neg hindent, if_neg (not_or.2 ⟨hindent, hstring⟩)]

/-! ### What a scan finds -/

/-- What is found of each character that is scanned is found of all of them together. -/
theorem Scans.columnsOf_eq {text : List Char} {found : List Finding} {last : Cursor} {final : State}
    (h : Scans style aligned cur st text found last final)
    (hstep : ∀ before found mid s, Scans style aligned cur st before found mid s → ∀ c,
      columnsOf violation (step style aligned mid c s).findings =
        if accepts before c then [before.length + 1] else []) :
    columnsOf violation found = columnsIn accepts text := by
  refine h.induct_findings (P := fun before found _ _ ↦
    columnsOf violation found = columnsIn accepts before) rfl ?_
  intro before found mid s c mode hbefore ih _
  rw [columnsOf_append, ih, hstep before found mid s hbefore c, columnsIn_concat]

/-- **A scan goes over all of its text, or stops at a semicolon or at a delimiter**, and its
findings are those up to there. Behind a semicolon those of the comment follow. -/
theorem scan_cases (style : Style) (aligned : Bool) (cur : Cursor) (st : State)
    (text : List Char) :
    let o := scan style aligned cur st text
    (∃ last final, Scans style aligned cur st text o.findings last final ∧ o.error? = none) ∨
      ∃ before c rest found mid s, text = before ++ c :: rest ∧
        Scans style aligned cur st before found mid s ∧
        let a := step style aligned mid c s
        (a.next = .comment ∧ o.error? = none ∧
          o.findings = found ++ a.findings ++ commentFindings (mid.index + 1) rest) ∨
        ∃ e, a.next = .stop e ∧ o.error? = some (mid.index, e) ∧
          o.findings = found ++ a.findings := by
  intro o
  rcases scans_or_stops style aligned cur st text with
    ⟨found, last, final, h⟩ | ⟨before, c, rest, found, mid, s, rfl, h, hstops⟩
  · have ho : o = Outcome.after found { state := final } := by
      have hscan := h.scan_append []
      rwa [List.append_nil] at hscan
    refine .inl ⟨last, final, ?_, by rw [ho]; rfl⟩
    rw [ho, Outcome.after, List.append_nil]
    exact h
  · refine .inr ⟨before, c, rest, found, mid, s, rfl, h, ?_⟩
    have ho : o = ((step style aligned mid c s).outcome style aligned mid c rest).after found :=
      h.scan_append (c :: rest)
    rcases hnext : (step style aligned mid c s).next with mode | - | e
    · exact absurd hnext (hstops mode)
    · refine .inl ⟨hnext, ?_, ?_⟩ <;> rw [ho, Step.outcome, hnext] <;> simp [Outcome.after]
    · refine .inr ⟨e, hnext, ?_, ?_⟩ <;> rw [ho, Step.outcome, hnext] <;> rfl

/-- The character at which a scan stops for good is a delimiter. -/
theorem mem_of_scan_error {inString : Bool} {text : List Char} {index : Nat} {e : NestingError}
    (h : (scan style aligned (.start inString) st text).error? = some (index, e)) :
    ∃ c ∈ ['(', '[', ')', ']'], text[index]? = some c := by
  rcases scan_cases style aligned (.start inString) st text with
    ⟨last, final, -, hends⟩ | ⟨before, c, rest, found, mid, s, rfl, hscans, hstops⟩
  · rw [hends] at h
    cases h
  have hindex : mid.index = before.length := hscans.index_eq.trans (Nat.zero_add _)
  rcases hstops with ⟨-, hends, -⟩ | ⟨e', hnext, hends, -⟩ <;> rw [hends] at h
  · cases h
  · cases h
    have hmove := move_of_step style aligned mid c s
    rw [hnext] at hmove
    exact ⟨c, hmove.mem_of_stop, by rw [hindex]; simp⟩

/-- **A scan from the start of a line finds all that is found of its characters**, up to where it
leaves its bounds, if the same is looked for in a comment as in code. -/
theorem columnsOf_scan {inString : Bool}
    (hstep : ∀ before found mid s, Scans style aligned (.start inString) st before found mid s →
      ∀ c, columnsOf violation (step style aligned mid c s).findings =
        if accepts before c then [before.length + 1] else [])
    (hcomment : ∀ before rest, (Cursor.start inString).region.after before = .code →
      columnsIn accepts (before ++ ';' :: rest) = columnsIn accepts (before ++ [';']) ++
        columnsOf violation (commentFindings (before.length + 1) rest)) (text : List Char) :
    let o := scan style aligned (.start inString) st text
    columnsOf violation o.findings =
      match o.error? with
      | none => columnsIn accepts text
      | some (index, _) => (columnsIn accepts text).filter (· ≤ index + 1) := by
  intro o
  rcases scan_cases style aligned (.start inString) st text with
    ⟨last, final, h, hends⟩ | ⟨before, c, rest, found, mid, s, rfl, h, hstops⟩
  · rw [hends]
    exact h.columnsOf_eq hstep
  have hindex : mid.index = before.length := h.index_eq.trans (Nat.zero_add _)
  have hread : columnsOf violation (found ++ (step style aligned mid c s).findings) =
      columnsIn accepts (before ++ [c]) := by
    rw [columnsOf_append, h.columnsOf_eq hstep, hstep before found mid s h c, columnsIn_concat]
  rcases hstops with ⟨hnext, hends, hfound⟩ | ⟨e, -, hends, hfound⟩ <;> rw [hends, hfound]
  · have hmove := move_of_step style aligned mid c s
    rw [hnext] at hmove
    obtain rfl := hmove.eq_semicolon
    have hcode : (Cursor.start inString).region.after before = .code := by
      rw [← h.region_eq, Cursor.region_code hmove.mode_of_comment]
    rw [columnsOf_append, hread, hindex]
    exact (hcomment before rest hcode).symm
  · rw [hread, hindex]
    show _ = (columnsIn accepts (before ++ c :: rest)).filter (· ≤ before.length + 1)
    rw [filter_columnsIn, List.append_cons before c rest, List.take_left' (by simp)]

/-! ### What is found of a line -/

/-- **What is not of a line as a whole is found nowhere in a blank line**, in a comment line by its
own checks, and in any other line by its scan. -/
theorem columnsOf_lintLine_cases (violation : Violation)
    (hcheck : violation.check ∉ [.blanks, .extent]) (style : Style) (st : State)
    (content : List Char) :
    let o := lintLine style st content
    let scanned := scan style (style.aligns content) (.start st.inString) { st with blanks := 0 }
      (content ++ ['\n'])
    (isBlankLine content = true ∧ o.error? = none ∧ columnsOf violation o.findings = []) ∨
    ((content.head? = some ';' ∧ st.inString = false) ∧ o.error? = none ∧
      columnsOf violation o.findings =
        columnsOf violation (tabFindings 0 content ++ commentLineFindings st.line content)) ∨
    (¬(content.head? = some ';' ∧ st.inString = false) ∧ o.error? = scanned.error? ∧
      columnsOf violation o.findings = columnsOf violation scanned.findings) := by
  intro o scanned
  obtain ⟨hblanks, hextent⟩ := not_or.1 (List.mem_cons.not.1 hcheck)
  replace hextent : columnsOf violation (extentFindings style content) = [] :=
    (foundBy_extentFindings style content).columnsOf_eq_nil hextent
  by_cases hblank : isBlankLine content = true
  · have ho : o = (lintBlankLine st).count := by
      show lintLine style st content = _
      rw [lintLine, if_pos hblank]
      rfl
    refine .inl ⟨hblank, by rw [ho]; rfl, ?_⟩
    rw [ho]
    exact columnsOf_findingIf_of_ne (fun heq ↦ hblanks (congrArg Violation.check heq.symm)) _ 0
  have ho : o = (lintTextLine style st content).count := by
    show lintLine style st content = _
    rw [lintLine, if_neg hblank]
    rfl
  by_cases hcomment : content.head? = some ';' ∧ st.inString = false
  · have hcond : content.head? = some ';' ∧ ¬st.inString = true := by simpa using hcomment
    refine .inr (.inl ⟨hcomment, ?_, ?_⟩) <;> rw [ho, lintTextLine, if_pos hcond]
    · rfl
    · exact (columnsOf_append violation _ _).trans (congrArg (· ++ _) hextent)
  · have hcond : ¬(content.head? = some ';' ∧ ¬st.inString = true) := by simpa using hcomment
    refine .inr (.inr ⟨hcomment, ?_, ?_⟩) <;> rw [ho, lintTextLine, if_neg hcond]
    · rfl
    · exact (columnsOf_append violation _ _).trans (congrArg (· ++ _) hextent)

end SchemeStyle
