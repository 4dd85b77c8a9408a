import SchemeStyle.Proofs.Alignment.Bottom
import SchemeStyle.Proofs.Alignment.Mark
import SchemeStyle.Proofs.Scan.Findings

/-!
# Where diagnostics point to

A diagnostic is of use only if its place exists. Most checks report the character they look at, but
some report one that they remember: the start of the last word, that of the operator being read, or
the last column that a line may have. None of these lies behind the character at hand
(`Cursor.Inside`), and the last character there is to look at is the newline, so every finding lies
in its line, and so does the delimiter that takes the nesting out of its bounds
(`diagnostics_stateAfter`). The same holds of every line of a file, whether or not nesting left its
bounds on the lines before it.

Along with the places goes what is kept of them: lines are counted whatever happens on them, and a
state is flagged exactly if something was found on the way to it (`flagged_stateAfter`).
-/

namespace SchemeStyle

variable {style : Style} {aligned : Bool} {st : State} {cur : Cursor} {c : Char} {bound : Nat}
  {found : List Finding} {content : List Char}

/-! ### Findings up to a place -/

/-- None of the findings lies behind the index. -/
def UpTo (bound : Nat) (found : List Finding) : Prop :=
  ∀ finding ∈ found, finding.index ≤ bound

theorem upTo_nil (bound : Nat) : UpTo bound [] := List.forall_mem_nil _

namespace UpTo

theorem append {a b : List Finding} (ha : UpTo bound a) (hb : UpTo bound b) :
    UpTo bound (a ++ b) :=
  List.forall_mem_append.2 ⟨ha, hb⟩

theorem mono {bound' : Nat} (h : UpTo bound found) (hle : bound ≤ bound') : UpTo bound' found :=
  fun finding hmem ↦ Nat.le_trans (h finding hmem) hle

end UpTo

theorem upTo_findingIf {condition : Bool} {index : Nat}
    (h : condition = true → index ≤ bound) (violation : Violation) :
    UpTo bound (findingIf condition index violation) := by
  rintro finding hmem
  obtain ⟨hcondition, rfl⟩ := mem_findingIf.1 hmem
  exact h hcondition

/-! ### One character -/

/-- What the cursor remembers of the line lies on the way to its next character. -/
structure Cursor.Inside (cur : Cursor) : Prop where
  word : cur.word.start ≤ cur.index
  operator : ∀ token, cur.mode = .operator token → token.start ≤ cur.index

theorem Cursor.inside_start (inString : Bool) : (Cursor.start inString).Inside where
  word := Nat.le_refl 0
  operator token htoken := by cases inString <;> cases htoken

theorem upTo_alignLine (index : Nat) (st : State) : UpTo index (alignLine index st).1 := by
  rcases alignLine_eq index st with heq | heq <;> rw [heq]
  · exact List.forall_mem_singleton.2 (Nat.le_refl index)
  · exact upTo_nil index

theorem upTo_finishOperator {token : Token} (h : token.start ≤ bound) (style : Style) (index : Nat)
    (followed : Bool) (st : State) :
    UpTo bound (finishOperator style token index followed st).1 := by
  rw [finishOperator_eq]
  cases st.imports with
  | inImports => exact upTo_findingIf (fun _ ↦ h) _
  | outside | inSection | inDeclaration => exact upTo_nil bound

theorem upTo_nameFindings (h : cur.Inside) (st : State) :
    UpTo cur.index (nameFindings cur st) := by
  rw [nameFindings]
  split
  · exact upTo_findingIf (fun _ ↦ h.word) _
  · exact upTo_nil cur.index

theorem upTo_openForm (style : Style) (cur : Cursor) (c : Char) (st : State) :
    UpTo cur.index (openForm style cur c st).findings := by
  unfold openForm
  split
  · exact upTo_nil cur.index
  · exact upTo_findingIf (fun _ ↦ Nat.le_refl _) _

theorem upTo_closeForm (h : cur.Inside) (c : Char) (st : State) :
    UpTo cur.index (closeForm cur c st).findings := by
  have hhere (condition : Bool) (violation : Violation) :
      UpTo cur.index (findingIf condition cur.index violation) :=
    upTo_findingIf (fun _ ↦ Nat.le_refl _) violation
  unfold closeForm
  split <;> exact ((hhere _ _).append (hhere _ _)).append (upTo_nameFindings h st)

/-- A character of code is not found to be at fault behind itself. -/
theorem upTo_codeChar (h : cur.Inside) (style : Style) (c : Char) (st : State) :
    UpTo cur.index (codeChar style cur cur.mode.operator? c st).findings := by
  have hoperator {token : Token} (htoken : cur.mode.operator? = some token) (followed : Bool) :
      UpTo cur.index (finishOperator style token cur.index followed st).1 := by
    refine upTo_finishOperator (h.operator token ?_) style cur.index followed st
    rcases hmode : cur.mode with - | - | token' | - <;> rw [hmode] at htoken <;> cases htoken
    rfl
  unfold codeChar
  split_ifs
  · exact upTo_nil cur.index
  · rcases htoken : cur.mode.operator? with - | token
    · exact upTo_findingIf (fun _ ↦ Nat.le_refl _) _
    · exact (hoperator htoken false).append (upTo_findingIf (fun _ ↦ Nat.le_refl _) _)
  · exact upTo_openForm style cur c st
  · exact upTo_closeForm h c st
  · rcases htoken : cur.mode.operator? with - | token
    · exact upTo_nameFindings h st
    · exact hoperator htoken (c == ' ')
  · rcases cur.mode.operator? with - | token <;> exact upTo_nil cur.index

theorem upTo_leadFindings (aligned : Bool) (cur : Cursor) (c : Char) (st : State) :
    UpTo cur.index (leadFindings aligned cur c st) := by
  rw [leadFindings]
  refine (upTo_findingIf (fun _ ↦ Nat.le_refl _) _).append ?_
  split_ifs
  · exact upTo_alignLine cur.index st
  · exact upTo_nil cur.index
  · exact upTo_findingIf (fun _ ↦ Nat.le_refl _) _

/-- **Nothing is found behind the character at hand.** -/
theorem upTo_step (h : cur.Inside) (style : Style) (aligned : Bool) (c : Char) (st : State) :
    UpTo cur.index (step style aligned cur c st).findings := by
  have htab : UpTo cur.index (findingIf (c == '\t') cur.index .tab) :=
    upTo_findingIf (fun _ ↦ Nat.le_refl _) _
  by_cases hstring : cur.mode = .string
  · simp only [step, hstring, Step.after]
    split_ifs <;> exact htab.append (upTo_nil _)
  by_cases hspace : cur.mode = .indent ∧ c = ' '
  · simp only [step, hspace.1, if_pos hspace.2, Step.after]
    exact htab.append (upTo_nil _)
  rw [step_of_code hstring fun hmode hc ↦ hspace ⟨hmode, hc⟩]
  exact (upTo_leadFindings aligned cur c st).append (upTo_codeChar h style c _)

/-- What the cursor remembers stays inside the line: a word starts at the character at hand, and an
operator behind it. -/
theorem Move.inside {st' : State} {mode : Mode} (h : cur.Inside)
    (hmove : Move style cur c st st' (.go mode)) : (cur.advance mode c).Inside where
  word := by
    rw [Cursor.advance]
    dsimp only
    split_ifs
    · exact Nat.le_succ cur.index
    · exact Nat.le_succ_of_le h.word
  operator token htoken := by
    have htoken : mode = .operator token := htoken
    subst htoken
    cases hmove with
    | «open» => exact Nat.le_refl _
    | operator token' hmode => exact Nat.le_succ_of_le (h.operator token' hmode)

/-! ### One line -/

theorem upTo_tabFindings {index : Nat} {text : List Char} (h : index + text.length ≤ bound + 1) :
    UpTo bound (tabFindings index text) := by
  induction text generalizing index with
  | nil => exact upTo_nil bound
  | cons c text ih =>
    rw [List.length_cons] at h
    exact (upTo_findingIf (fun _ ↦ by omega) _).append (ih (by omega))

theorem upTo_commentFindings {index : Nat} {text : List Char}
    (h : index + text.length ≤ bound + 1) : UpTo bound (commentFindings index text) := by
  have hmarker {index : Nat} {c : Char} {text : List Char}
      (h : index + (text.length + 1) ≤ bound + 1) :
      UpTo bound (commentFindings.afterMarker index c text) :=
    ((upTo_findingIf (fun _ ↦ by omega) _).append (upTo_findingIf (fun _ ↦ by omega) _)).append
      (upTo_tabFindings (by omega))
  rw [commentFindings.eq_def]
  split
  · rw [List.length_cons, List.length_cons] at h
    exact hmarker (by omega)
  · rw [List.length_cons] at h
    exact hmarker h
  · exact upTo_nil bound

/-- **Nothing is found behind the last character that is scanned.** -/
theorem upTo_scan (h : cur.Inside) {text : List Char} (hbound : cur.index + text.length ≤ bound + 1)
    (style : Style) (aligned : Bool) (st : State) :
    UpTo bound (scan style aligned cur st text).findings := by
  induction text generalizing cur st with
  | nil => exact upTo_nil bound
  | cons c text ih =>
    rw [List.length_cons] at hbound
    have hstep : UpTo bound (step style aligned cur c st).findings :=
      (upTo_step h style aligned c st).mono (by omega)
    have hmove := move_of_step style aligned cur c st
    rw [scan]
    rcases hnext : (step style aligned cur c st).next with mode | - | e
    · rw [hnext] at hmove
      have hrest : (cur.advance mode c).index + text.length ≤ bound + 1 := by
        show cur.index + 1 + text.length ≤ bound + 1
        omega
      exact hstep.append (ih (hmove.inside h) hrest _)
    · exact hstep.append (upTo_commentFindings (by omega))
    · exact hstep

theorem upTo_extentFindings (style : Style) (content : List Char) :
    UpTo content.length (extentFindings style content) := by
  refine (upTo_findingIf (fun hlong ↦ ?_) _).append (upTo_findingIf (fun _ ↦ Nat.sub_le _ 1) _)
  have := of_decide_eq_true hlong
  omega

theorem upTo_commentLineFindings (line : Nat) (content : List Char) :
    UpTo content.length (commentLineFindings line content) := by
  rw [commentLineFindings]
  refine UpTo.append ?_ ?_
  · split_ifs
    · exact List.forall_mem_singleton.2 (Nat.zero_le _)
    · exact List.forall_mem_singleton.2 (Nat.zero_le _)
    · exact upTo_nil _
  · split
    · exact upTo_nil _
    · exact upTo_findingIf (fun _ ↦ (List.takeWhile_sublist _).length_le) _

/-- **What is found on a line lies in it**, its newline included. -/
theorem upTo_lintLine (style : Style) (st : State) (content : List Char) :
    UpTo content.length (lintLine style st content).findings := by
  rw [lintLine]
  split_ifs
  · exact upTo_findingIf (fun _ ↦ Nat.zero_le _) _
  · rw [lintTextLine]
    refine (upTo_extentFindings style content).append ?_
    split_ifs
    · exact (upTo_tabFindings (by omega)).append (upTo_commentLineFindings st.line content)
    · refine upTo_scan (Cursor.inside_start st.inString) ?_ style _ _
      show 0 + (content ++ ['\n']).length ≤ _
      rw [List.length_append, List.length_singleton]
      omega

/-- The delimiter that takes the nesting out of its bounds is a character of the line. -/
theorem index_le_of_error {index : Nat} {e : NestingError}
    (h : (lintLine style st content).error? = some (index, e)) : index ≤ content.length := by
  have hscan : (scan style (style.aligns content) (.start st.inString) { st with blanks := 0 }
      (content ++ ['\n'])).error? = some (index, e) := by
    rcases columnsOf_lintLine_cases .tab (by decide) style st content with
      ⟨-, hends, -⟩ | ⟨-, hends, -⟩ | ⟨-, hends, -⟩ <;> rw [hends] at h
    · cases h
    · cases h
    · exact h
  obtain ⟨c, -, hc⟩ := mem_of_scan_error hscan
  have hlt := (List.getElem?_eq_some_iff.1 hc).1
  rw [List.length_append, List.length_singleton] at hlt
  exact Nat.le_of_lt_succ hlt

/-! ### Lines in a row -/

/-- Every line so far is counted. -/
theorem line_stateAfter (style : Style) (lines : List (List Char)) :
    (stateAfter style lines).line = lines.length + 1 := by
  induction lines using List.reverseRecOn with
  | nil => rfl
  | append_singleton lines content ih =>
    rw [stateAfter_concat, line_lintLine, ih, List.length_append, List.length_singleton]

/-- **A state is flagged exactly if something was found on one of the lines before it.** -/
theorem flagged_stateAfter (style : Style) (lines : List (List Char)) :
    (stateAfter style lines).flagged = true ↔
      ∃ before content after, lines = before ++ content :: after ∧
        (lintLine style (stateAfter style before) content).findings ≠ [] := by
  induction lines using List.reverseRecOn with
  | nil => exact iff_of_false (by simp [stateAfter]) (by simp)
  | append_singleton lines content ih =>
    rw [stateAfter_concat, flagged_lintLine, Bool.or_eq_true, ih, Bool.not_eq_true',
      List.isEmpty_eq_false_iff]
    constructor
    · rintro (⟨before, line, after, rfl, hfound⟩ | hfound)
      · exact ⟨before, line, after ++ [content], by simp, hfound⟩
      · exact ⟨lines, content, [], rfl, hfound⟩
    · rintro ⟨before, line, after, hlines, hfound⟩
      rcases List.eq_nil_or_concat after with rfl | ⟨after, last, rfl⟩
      · obtain ⟨rfl, hline⟩ := List.append_inj' hlines rfl
        obtain rfl := List.singleton_inj.1 hline
        exact .inr hfound
      · rw [List.concat_eq_append, ← List.cons_append, ← List.append_assoc] at hlines
        exact .inl ⟨before, line, after, List.append_inj_left' hlines rfl, hfound⟩

/-- What a reader is told of a line: what was found on it, and the error that ended it. -/
def Outcome.reports (file : String) (line : Nat) (o : Outcome) : List Diagnostic :=
  o.diagnostics file line ++
    (o.error?.map fun (index, e) ↦
      Failure.toDiagnostic file ⟨line, index, e, o.findings⟩).toList

/-- The diagnostic stands in this line of the file, at a column that the line has. -/
structure Diagnostic.PointsInto (file : String) (line : Nat) (text : List Char) (d : Diagnostic) :
    Prop where
  file : d.file = file
  line : d.line = line
  column_pos : 1 ≤ d.column
  column_le : d.column ≤ text.length

/-- What is said of a line points into it. -/
theorem pointsInto_of_mem_reports {file : String} {line : Nat} {d : Diagnostic}
    (h : d ∈ (lintLine style st content).reports file line) :
    d.PointsInto file line (content ++ ['\n']) := by
  have hcolumn {index : Nat} (hindex : index ≤ content.length) :
      (1 : Int) ≤ index + 1 ∧ (index + 1 : Int) ≤ (content ++ ['\n']).length := by
    rw [List.length_append, List.length_singleton]
    omega
  rcases List.mem_append.1 h with h | h
  · obtain ⟨finding, hmem, rfl⟩ := List.mem_map.1 h
    obtain ⟨hpos, hle⟩ := hcolumn (upTo_lintLine style st content finding hmem)
    exact ⟨rfl, rfl, hpos, hle⟩
  · obtain ⟨⟨index, e⟩, herror, rfl⟩ := Option.map_eq_some_iff.1 (Option.mem_toList.1 h)
    obtain ⟨hpos, hle⟩ := hcolumn (index_le_of_error herror)
    exact ⟨rfl, rfl, hpos, hle⟩

/-- **Every diagnostic points into the line that it is about, and the state knows that there was
one.** All that is said of a line of a file, the error that ended it included, stands in that file
at the number of the line and at one of its columns, after whatever lines; the lines are counted up
to it, and from it on the state is flagged exactly if something was found on it or on one of those
before. -/
theorem diagnostics_stateAfter (style : Style) (file : String) (before : List (List Char))
    (content : List Char) :
    let st := stateAfter style before
    let o := lintLine style st content
    (∀ d ∈ o.reports file st.line, d.PointsInto file (before.length + 1) (content ++ ['\n'])) ∧
      o.state.line = before.length + 2 ∧
      (o.state.flagged = true ↔
        ∃ front line rest, before ++ [content] = front ++ line :: rest ∧
          (lintLine style (stateAfter style front) line).diagnostics file (front.length + 1) ≠
            []) := by
  intro st o
  refine ⟨fun d hd ↦ ?_, ?_, ?_⟩
  · rw [line_stateAfter] at hd
    exact pointsInto_of_mem_reports hd
  · rw [line_lintLine, line_stateAfter]
  · rw [← stateAfter_concat, flagged_stateAfter]
    simp only [Outcome.diagnostics, ne_eq, List.map_eq_nil_iff]

end SchemeStyle
