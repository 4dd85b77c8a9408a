import Mathlib.Data.List.Induction
import SchemeStyle.Proofs.Layout.Elements
import SchemeStyle.Proofs.Scan.Progress

/-!
# The column outside of all forms

Under the columns of the open forms lies the one at which code outside of all forms is expected. It
is meant to be zero for good, and it starts out as zero, but nothing in a state keeps it there: the
check of a line's start moves the innermost column, and where no form is open that is the bottom
one. Operators never reach it, since an operator has a form of its own (`base_of_move`).

So the bottom is moved by lines that start outside of all forms, and by two kinds of them only. One
that starts at column zero puts it back to zero. One that lines up with a quoted form moves it: the
column of the last quoted form is kept after the form is closed, and is then taken for the column of
a line that no form contains. The bottom is zero exactly as long as every line of the second kind is
followed by one of the first (`base_stateAfter_eq_zero_iff`).
-/

namespace SchemeStyle

variable {style : Style} {st st' : State} {cur : Cursor} {c : Char} {content : List Char}

/-! ### One character -/

/-- Inside a form the bottom is out of reach. -/
theorem base_finishOperator (h : st.frames ≠ []) (token : Token) (index : Nat) (followed : Bool) :
    (finishOperator style token index followed st).2.base = st.base := by
  rw [finishOperator_eq]
  exact if_neg (by simpa using h)

/-- An operator belongs to an open form. -/
def HasForm (mode : Mode) (st : State) : Prop :=
  ∀ token, mode = .operator token → st.frames ≠ []

/-- **No move touches the bottom**, whatever the character. -/
theorem base_of_move {next : Next} (h : Move style cur c st st' next)
    (hform : HasForm cur.mode st) :
    st'.base = st.base ∧ ∀ mode, next = .go mode → HasForm mode st' := by
  have hplain : ∀ {s : State} {mode : Mode}, mode.operator? = none →
      ∀ mode', Next.go mode = .go mode' → HasForm mode' s := by
    rintro s mode hmode mode' hnext token rfl
    cases hnext
    cases hmode
  cases h with
  | operatorComment token mode =>
    exact ⟨base_finishOperator (hform token mode) token cur.index false, by simp⟩
  | «open» => exact ⟨rfl, fun mode hnext token _ ↦ List.cons_ne_nil _ _⟩
  | endOperator token mode =>
    exact ⟨base_finishOperator (hform token mode) token cur.index (c == ' '), hplain rfl⟩
  | endWord => exact ⟨by rw [rememberName_eq], hplain rfl⟩
  | operator token mode =>
    exact ⟨rfl, fun mode' hnext token' _ ↦ hform token mode⟩
  | comment | tooDeep | unmatched => exact ⟨rfl, by simp⟩
  | _ => exact ⟨rfl, hplain rfl⟩

/-! ### The scan of a line -/

/-- The place of a scan from which the start of the line is not checked any more. -/
structure PastStart (aligned : Bool) (cur : Cursor) (st : State) : Prop where
  form : HasForm cur.mode st
  indent : aligned = true → cur.mode ≠ .indent

theorem PastStart.entered_eq {aligned : Bool} (h : PastStart aligned cur st) (c : Char) :
    entered aligned cur c st = st :=
  if_neg fun hentered ↦ h.indent hentered.2.2 hentered.1

/-- Past the check of the line's start the scan leaves the bottom alone. -/
theorem base_scan {aligned : Bool} (h : PastStart aligned cur st) (cs : List Char) :
    (scan style aligned cur st cs).state.base = st.base := by
  refine scan_induction (P := fun mid s ↦ PastStart aligned mid s ∧ s.base = st.base)
    (Q := fun s ↦ s.base = st.base) (fun _ _ h ↦ h.2) ?_ ?_ cs cur st ⟨h, rfl⟩
  · rintro mid d s mode ⟨hpast, hbase⟩ hnext
    have hmove := move_of_step style aligned mid d s
    rw [hpast.entered_eq, hnext] at hmove
    obtain ⟨hsame, hform⟩ := base_of_move hmove hpast.form
    have hindent : aligned = true → mode ≠ .indent := fun ha ↦
      hmove.mode_ne_indent fun hmode ↦ absurd hmode (hpast.indent ha)
    exact ⟨⟨hform mode rfl, hindent⟩, hsame.trans hbase⟩
  · rintro mid d s ⟨hpast, hbase⟩ -
    have hmove := move_of_step style aligned mid d s
    rw [hpast.entered_eq] at hmove
    exact (base_of_move hmove hpast.form).1.trans hbase

/-- The check of the line's start is all that moves the bottom. -/
theorem base_scan_cons (hmode : cur.mode = .indent) (hc : c ≠ ' ') (cs : List Char) :
    (scan style true cur st (c :: cs)).state.base = (alignLine cur.index st).2.base := by
  have hentered : entered true cur c st = (alignLine cur.index st).2 := if_pos ⟨hmode, hc, rfl⟩
  have hmove := move_of_step style true cur c st
  have hform : HasForm cur.mode (entered true cur c st) := by
    intro token htoken
    rw [hmode] at htoken
    cases htoken
  obtain ⟨hbase, hgo⟩ := base_of_move hmove hform
  rw [hentered] at hbase
  rw [scan]
  rcases hnext : (step style true cur c st).next with mode | - | e
  · rw [hnext] at hmove
    have hindent := hmove.mode_ne_indent fun _ ↦ hc
    exact (base_scan ⟨hgo mode hnext, fun _ ↦ hindent⟩ cs).trans hbase
  · exact hbase
  · exact hbase

/-! ### One line -/

/-- The line is checked for its start, and starts at the column. -/
structure StartsAt (style : Style) (st : State) (content : List Char) (column : Nat) : Prop where
  code : st.inString = false
  aligns : style.aligns content = true
  text : ∃ c rest, content = List.replicate column ' ' ++ c :: rest ∧ c ≠ ' ' ∧
    (column = 0 → c ≠ ';')

/-- A line that is not blank has a first character that is no space. -/
theorem exists_first_of_not_blank (h : isBlankLine content = false) :
    ∃ k c rest, content = List.replicate k ' ' ++ c :: rest ∧ c ≠ ' ' := by
  induction content with
  | nil => cases h
  | cons d content ih =>
    by_cases hd : d = ' '
    · subst hd
      obtain ⟨k, c, rest, rfl, hc⟩ := ih h
      exact ⟨k + 1, c, rest, by rw [List.replicate_succ, List.cons_append], hc⟩
    · exact ⟨0, d, content, rfl, hd⟩

theorem isBlankLine_of_first {k : Nat} {rest : List Char} (hc : c ≠ ' ') :
    isBlankLine (List.replicate k ' ' ++ c :: rest) = false := by
  rw [isBlankLine, List.all_eq_false]
  exact ⟨c, by simp, by simpa using hc⟩

theorem StartsAt.isBlankLine_eq {column : Nat} (h : StartsAt style st content column) :
    isBlankLine content = false := by
  obtain ⟨-, -, c, rest, rfl, hc, -⟩ := h
  exact isBlankLine_of_first hc

theorem StartsAt.head?_ne {column : Nat} (h : StartsAt style st content column) :
    content.head? ≠ some ';' := by
  obtain ⟨-, -, c, rest, rfl, -, hcolumn⟩ := h
  rcases column with - | column
  · simpa using hcolumn rfl
  · simp [List.replicate_succ]

/-- A line that is neither blank nor a comment, and begins at an indentation that is checked, starts
at some column. -/
theorem exists_startsAt (hblank : isBlankLine content = false)
    (hcomment : ¬(content.head? = some ';' ∧ ¬st.inString)) (haligns : style.aligns content = true)
    (hmode : (Cursor.start st.inString).mode = .indent) :
    ∃ column, StartsAt style st content column := by
  have hcode : st.inString = false := by
    cases hstring : st.inString
    · rfl
    · simp [Cursor.start, hstring] at hmode
  obtain ⟨k, c, rest, rfl, hc⟩ := exists_first_of_not_blank hblank
  refine ⟨k, hcode, haligns, ⟨c, rest, rfl, hc, ?_⟩⟩
  rintro rfl rfl
  exact hcomment ⟨rfl, by simp [hcode]⟩

/-- Where the start of a line is checked, the check is all that moves the bottom. -/
theorem base_lintLine_of_startsAt {column : Nat} (h : StartsAt style st content column) :
    (lintLine style st content).state.base = (alignLine column { st with blanks := 0 }).2.base := by
  have hhead := h.head?_ne
  obtain ⟨hcode, haligns, c, rest, rfl, hc, -⟩ := h
  obtain ⟨mid, hspaces, hmode, -, hindex⟩ := reads_spaces style { st with blanks := 0 } column
  have hscan : (scan style true (.start false) { st with blanks := 0 }
      (List.replicate column ' ' ++ c :: rest ++ ['\n'])).state.base =
      (alignLine column { st with blanks := 0 }).2.base := by
    rw [List.append_assoc, hspaces.scan_append (by simp), List.cons_append,
      base_scan_cons hmode hc, hindex]
  rw [lintLine, isBlankLine_of_first hc, if_neg Bool.false_ne_true,
    lintTextLine_of_code hcode hhead, haligns]
  exact hscan

/-- A line whose start is not checked leaves the bottom alone. -/
theorem base_lintLine_of_not_startsAt (h : ∀ column, ¬StartsAt style st content column) :
    (lintLine style st content).state.base = st.base := by
  rw [lintLine]
  split_ifs with hblank
  · rfl
  · show (lintTextLine style st content).state.base = st.base
    rw [lintTextLine]
    split_ifs with hcomment
    · rfl
    · refine base_scan ⟨fun token htoken ↦ ?_, fun haligns hmode ↦ ?_⟩ _
      · cases hstring : st.inString <;> simp [Cursor.start, hstring] at htoken
      · obtain ⟨column, hstarts⟩ : ∃ column, StartsAt style st content column :=
          exists_startsAt (by simpa using hblank) hcomment haligns hmode
        exact h column hstarts

/-! ### Lines that move the bottom -/

/-- Outside of all forms the line starts at the column kept of a quoted form, which is closed by
then. -/
def Strays (style : Style) (st : State) (content : List Char) : Prop :=
  ∃ column, StartsAt style st content column ∧ st.frames = [] ∧ column ≠ 0 ∧
    st.quotedAlign = some column

/-- Outside of all forms the line starts at column zero. -/
def Returns (style : Style) (st : State) (content : List Char) : Prop :=
  StartsAt style st content 0 ∧ st.frames = []

/-- Outside of all forms the column zero is open to every line. -/
theorem base_alignLine_zero (hframes : st.frames = []) : (alignLine 0 st).2.base = 0 := by
  rw [alignLine]
  split_ifs with hexpected hwrappers
  · simpa [State.expected, hframes] using hexpected.symm
  · simp [State.setExpected, hframes]
  · exact absurd ⟨rfl, by simp [State.allWrappers, hframes]⟩ hwrappers
  · exact absurd ⟨rfl, by simp [State.allWrappers, hframes]⟩ hwrappers

theorem base_alignLine_of_quotedAlign {column : Nat} (hframes : st.frames = [])
    (hcolumn : column ≠ 0) (hquoted : st.quotedAlign = some column) :
    (alignLine column st).2.base = column := by
  rw [alignLine]
  split_ifs with hexpected hwrappers
  · simpa [State.expected, hframes] using hexpected.symm
  · exact absurd hwrappers.1 hcolumn
  · simp [State.setExpected, hframes]

/-- Any other column is not taken, and inside of a form the bottom is out of reach. -/
theorem base_alignLine_of_ne {column : Nat}
    (h : st.frames = [] → column ≠ 0 ∧ st.quotedAlign ≠ some column) :
    (alignLine column st).2.base = st.base := by
  by_cases hframes : st.frames = []
  · obtain ⟨hcolumn, hquoted⟩ := h hframes
    rw [alignLine, if_neg (fun hwrappers : column = 0 ∧ _ ↦ hcolumn hwrappers.1), if_neg hquoted]
    split_ifs <;> rfl
  · obtain ⟨column', quoted, heq⟩ := exists_alignLine_eq column st
    rw [heq, State.setExpected_eq]
    exact if_neg (by simpa using hframes)

theorem base_of_strays (h : Strays style st content) :
    (lintLine style st content).state.base ≠ 0 := by
  obtain ⟨column, hstarts, hframes, hcolumn, hquoted⟩ := h
  have hbase : (alignLine column { st with blanks := 0 }).2.base = column :=
    base_alignLine_of_quotedAlign hframes hcolumn hquoted
  rw [base_lintLine_of_startsAt hstarts, hbase]
  exact Int.natCast_ne_zero.2 hcolumn

theorem base_of_returns (h : Returns style st content) :
    (lintLine style st content).state.base = 0 :=
  (base_lintLine_of_startsAt h.1).trans (base_alignLine_zero h.2)

theorem base_of_neither (hstrays : ¬Strays style st content)
    (hreturns : ¬Returns style st content) :
    (lintLine style st content).state.base = st.base := by
  by_cases hstarts : ∃ column, StartsAt style st content column
  · obtain ⟨column, hstarts⟩ := hstarts
    refine (base_lintLine_of_startsAt hstarts).trans (base_alignLine_of_ne fun hframes ↦ ?_)
    have hcolumn : column ≠ 0 := by
      rintro rfl
      exact hreturns ⟨hstarts, hframes⟩
    exact ⟨hcolumn, fun hquoted ↦ hstrays ⟨column, hstarts, hframes, hcolumn, hquoted⟩⟩
  · exact base_lintLine_of_not_startsAt fun column h ↦ hstarts ⟨column, h⟩

/-! ### Lines in a row -/

/-- The state after some lines of a file, linted one after the other whether or not nesting left its
bounds on one of them. -/
def stateAfter (style : Style) (lines : List (List Char)) : State :=
  lines.foldl (fun st content ↦ (lintLine style st content).state) {}

theorem stateAfter_concat (style : Style) (lines : List (List Char)) (content : List Char) :
    stateAfter style (lines ++ [content]) =
      (lintLine style (stateAfter style lines) content).state :=
  List.foldl_append ..

theorem reachable_stateAfter (style : Style) (lines : List (List Char)) :
    Reachable style (stateAfter style lines) := by
  induction lines using List.reverseRecOn with
  | nil => exact .start
  | append_singleton lines content ih =>
    rw [stateAfter_concat]
    exact .line content ih

/-- Every line that strays is followed by one that returns. -/
def Recovers (style : Style) (lines : List (List Char)) : Prop :=
  ∀ before line after, lines = before ++ line :: after →
    Strays style (stateAfter style before) line →
    ∃ between back rest, after = between ++ back :: rest ∧
      Returns style (stateAfter style (before ++ line :: between)) back

theorem recovers_concat_of_returns {lines : List (List Char)}
    (h : Returns style (stateAfter style lines) content) : Recovers style (lines ++ [content]) := by
  intro before line after hlines hstrays
  rcases List.eq_nil_or_concat after with rfl | ⟨after, last, rfl⟩
  · -- A line that returns starts at column zero, where no line strays.
    obtain ⟨rfl, hlast⟩ := List.append_inj' hlines rfl
    obtain rfl := List.singleton_inj.1 hlast
    exact absurd (base_of_returns h) (base_of_strays hstrays)
  · rw [List.concat_eq_append, ← List.cons_append, ← List.append_assoc] at hlines
    obtain ⟨rfl, hlast⟩ := List.append_inj' hlines rfl
    obtain rfl := List.singleton_inj.1 hlast
    exact ⟨after, content, [], by simp, h⟩

theorem recovers_concat_iff {lines : List (List Char)}
    (hstrays : ¬Strays style (stateAfter style lines) content)
    (hreturns : ¬Returns style (stateAfter style lines) content) :
    Recovers style (lines ++ [content]) ↔ Recovers style lines := by
  constructor
  · intro h before line after hlines hline
    obtain ⟨between, back, rest, hafter, hback⟩ :=
      h before line (after ++ [content]) (by rw [hlines]; simp) hline
    rcases List.eq_nil_or_concat rest with rfl | ⟨rest, last, rfl⟩
    · obtain ⟨rfl, hlast⟩ := List.append_inj' hafter rfl
      obtain rfl := List.singleton_inj.1 hlast
      exact absurd (hlines ▸ hback) hreturns
    · rw [List.concat_eq_append, ← List.cons_append, ← List.append_assoc] at hafter
      exact ⟨between, back, rest, List.append_inj_left' hafter rfl, hback⟩
  · intro h before line after hlines hline
    rcases List.eq_nil_or_concat after with rfl | ⟨after, last, rfl⟩
    · obtain ⟨rfl, hlast⟩ := List.append_inj' hlines rfl
      obtain rfl := List.singleton_inj.1 hlast
      exact absurd hline hstrays
    · rw [List.concat_eq_append, ← List.cons_append, ← List.append_assoc] at hlines
      obtain ⟨between, back, rest, hafter, hback⟩ :=
        h before line after (List.append_inj_left' hlines rfl) hline
      exact ⟨between, back, rest ++ [last], by rw [hafter]; simp, hback⟩

/-- **The bottom of the columns is zero exactly if every line that strayed was followed by one that
returned.** In particular it is zero as long as no line outside of all forms starts at the column
kept of a quoted form. -/
theorem base_stateAfter_eq_zero_iff (style : Style) (lines : List (List Char)) :
    (stateAfter style lines).base = 0 ↔ Recovers style lines := by
  induction lines using List.reverseRecOn with
  | nil => exact ⟨fun _ before line after h ↦ by simp at h, fun _ ↦ rfl⟩
  | append_singleton lines content ih =>
    rw [stateAfter_concat]
    by_cases hstrays : Strays style (stateAfter style lines) content
    · refine iff_of_false (base_of_strays hstrays) fun h ↦ ?_
      obtain ⟨between, back, rest, hafter, -⟩ := h lines content [] rfl hstrays
      simp at hafter
    · by_cases hreturns : Returns style (stateAfter style lines) content
      · exact iff_of_true (base_of_returns hreturns) (recovers_concat_of_returns hreturns)
      · rw [base_of_neither hstrays hreturns, recovers_concat_iff hstrays hreturns]
        exact ih

/-- A quoted form that is closed moves the bottom. -/
theorem base_after_closed_quotation :
    let st := stateAfter .standard ["'(a)".toList, "  b (c)".toList]
    Reachable .standard st ∧ st.frames = [] ∧ st.columns = [2] :=
  ⟨reachable_stateAfter _ _, by decide +kernel, by decide +kernel⟩

end SchemeStyle
