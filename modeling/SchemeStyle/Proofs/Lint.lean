import SchemeStyle.Lint
import SchemeStyle.Proofs.Scan.Moves

/-!
# Lines in a row

How the checks of single lines add up. Every line counts as one, whatever is found on it
(`line_lintLine`), and lines are linted to their end exactly if each of them is, in which case the
findings of a run are those of its two halves one after the other (`lintLines_append`), and those
under the number of a line are what is found on it (`filter_findings_lintLines`).

`Reachable` is every state between two lines, whatever the lines are and whether or not nesting left
its bounds on one of them. What a scan keeps and no count disturbs holds of all of them
(`lintLine_preserves`).
-/

namespace SchemeStyle

variable {style : Style} {st : State}

/-- Of what is counted from line to line the checks of a text line only end a run of blank lines. -/
theorem tally_lintTextLine (style : Style) (st : State) (content : List Char) :
    (lintTextLine style st content).state.tally = (st.line, 0, st.flagged) := by
  rw [lintTextLine]
  split_ifs
  · rfl
  · exact tally_scan style (style.aligns content) (content ++ ['\n']) (.start st.inString)
      { st with blanks := 0 }

/-- Every line is counted. -/
@[simp] theorem line_lintLine (content : List Char) :
    (lintLine style st content).state.line = st.line + 1 := by
  rw [lintLine]
  split_ifs
  · rfl
  · exact congrArg (·.1 + 1) (tally_lintTextLine style st content)

/-- A line that is not blank ends a run of blank lines. -/
theorem blanks_lintLine {content : List Char} (hblank : isBlankLine content = false) :
    (lintLine style st content).state.blanks = 0 := by
  rw [lintLine, if_neg (Bool.eq_false_iff.1 hblank)]
  exact congrArg (·.2.1) (tally_lintTextLine style st content)

/-- A line flags the state if something is found on it, and never takes the flag away. -/
theorem flagged_lintLine (style : Style) (st : State) (content : List Char) :
    (lintLine style st content).state.flagged =
      (st.flagged || !(lintLine style st content).findings.isEmpty) := by
  rw [lintLine]
  split_ifs
  · rfl
  · exact congrArg (·.2.2 || !(lintTextLine style st content).findings.isEmpty)
      (tally_lintTextLine style st content)

theorem lintLines_cons_of_error {content : List Char} {rest : List (List Char)} {index : Nat}
    {e : NestingError} (h : (lintLine style st content).error? = some (index, e)) :
    lintLines style st (content :: rest) =
      { state := (lintLine style st content).state
        failure? := some ⟨st.line, index, e, (lintLine style st content).findings⟩ } := by
  rw [lintLines]
  simp only [h]

theorem lintLines_cons_of_ok {content : List Char} {rest : List (List Char)}
    (h : (lintLine style st content).error? = none) :
    lintLines style st (content :: rest) =
      { lintLines style (lintLine style st content).state rest with
        findings := (lintLine style st content).findings.map (st.line, ·) ++
          (lintLines style (lintLine style st content).state rest).findings } := by
  rw [lintLines]
  simp only [h]

/-- Lines that are linted to their end end together with what follows them. -/
theorem lintLines_append {a b : List (List Char)} (h : (lintLines style st a).failure? = none) :
    lintLines style st (a ++ b) =
      { lintLines style (lintLines style st a).state b with
        findings := (lintLines style st a).findings ++
          (lintLines style (lintLines style st a).state b).findings } := by
  induction a generalizing st with
  | nil => rfl
  | cons content a ih =>
    rcases herror : (lintLine style st content).error? with - | ⟨index, e⟩
    · rw [lintLines_cons_of_ok herror] at h
      rw [List.cons_append, lintLines_cons_of_ok herror, lintLines_cons_of_ok herror, ih h]
      simp
    · rw [lintLines_cons_of_error herror] at h
      cases h

/-- Lines are linted to their end only if the first of them is. -/
theorem error_eq_none_of_lintLines {content : List Char} {rest : List (List Char)}
    (h : (lintLines style st (content :: rest)).failure? = none) :
    (lintLine style st content).error? = none := by
  rcases herror : (lintLine style st content).error? with - | ⟨index, e⟩
  · rfl
  · rw [lintLines_cons_of_error herror] at h
    cases h

/-- A part of some lines is linted to its end if the whole is. -/
theorem failure_eq_none_of_append {a b : List (List Char)}
    (h : (lintLines style st (a ++ b)).failure? = none) :
    (lintLines style st a).failure? = none := by
  induction a generalizing st with
  | nil => rfl
  | cons content a ih =>
    have herror := error_eq_none_of_lintLines h
    rw [List.cons_append, lintLines_cons_of_ok herror] at h
    rw [lintLines_cons_of_ok herror]
    exact ih h

/-- Lines that are not linted to their end are linted up to the one that fails, of which they keep
the findings. -/
theorem exists_append_of_failure {lines : List (List Char)} {f : Failure}
    (h : (lintLines style st lines).failure? = some f) :
    ∃ before content rest, lines = before ++ content :: rest ∧
      f.line = st.line + before.length ∧
      (lintLines style st before).failure? = none ∧
      (lintLines style st lines).findings = (lintLines style st before).findings ∧
      (lintLine style (lintLines style st before).state content).error? = some (f.index, f.error) ∧
      (lintLine style (lintLines style st before).state content).findings = f.findings := by
  induction lines generalizing st with
  | nil => cases h
  | cons content rest ih =>
    rcases herror : (lintLine style st content).error? with - | ⟨index, e⟩
    · rw [lintLines_cons_of_ok herror] at h
      obtain ⟨before, next, rest', rfl, hline, hends, hfindings, hfailing⟩ := ih h
      refine ⟨content :: before, next, rest', rfl, ?_, ?_, ?_, ?_⟩
      · rw [hline, line_lintLine, List.length_cons]
        omega
      · rw [lintLines_cons_of_ok herror]
        exact hends
      · rw [lintLines_cons_of_ok herror, lintLines_cons_of_ok herror, hfindings]
      · rw [lintLines_cons_of_ok herror]
        exact hfailing
    · rw [lintLines_cons_of_error herror] at h ⊢
      obtain rfl := Option.some.inj h
      exact ⟨[], content, rest, rfl, rfl, rfl, rfl, herror, rfl⟩

/-- Lines that are linted to their end are all counted. -/
theorem line_lintLines {lines : List (List Char)}
    (h : (lintLines style st lines).failure? = none) :
    (lintLines style st lines).state.line = st.line + lines.length := by
  induction lines generalizing st with
  | nil => rfl
  | cons content rest ih =>
    have herror := error_eq_none_of_lintLines h
    rw [lintLines_cons_of_ok herror] at h ⊢
    have hrest := ih h
    rw [line_lintLine] at hrest
    rw [List.length_cons]
    dsimp only
    omega

/-- What is found in some lines lies at the first of them or after it. -/
theorem line_le_of_mem_lintLines {lines : List (List Char)} {found : Nat × Finding}
    (h : found ∈ (lintLines style st lines).findings) : st.line ≤ found.1 := by
  induction lines generalizing st with
  | nil => cases h
  | cons content rest ih =>
    rcases herror : (lintLine style st content).error? with - | ⟨index, e⟩
    · rw [lintLines_cons_of_ok herror] at h
      rcases List.mem_append.1 h with h | h
      · obtain ⟨finding, -, rfl⟩ := List.mem_map.1 h
        exact Nat.le_refl st.line
      · have hrest := ih h
        rw [line_lintLine] at hrest
        exact Nat.le_of_succ_le hrest
    · rw [lintLines_cons_of_error herror] at h
      cases h

/-- What is found in some lines is found on one of them, in the state that those before it lead
to. -/
theorem exists_append_of_mem_lintLines {lines : List (List Char)} {found : Nat × Finding}
    (h : found ∈ (lintLines style st lines).findings) :
    ∃ before content after, lines = before ++ content :: after ∧
      found.1 = st.line + before.length ∧
      found.2 ∈ (lintLine style (lintLines style st before).state content).findings := by
  induction lines generalizing st with
  | nil => cases h
  | cons content rest ih =>
    rcases herror : (lintLine style st content).error? with - | ⟨index, e⟩
    · rw [lintLines_cons_of_ok herror] at h
      rcases List.mem_append.1 h with h | h
      · obtain ⟨finding, hmem, rfl⟩ := List.mem_map.1 h
        exact ⟨[], content, rest, rfl, rfl, hmem⟩
      · obtain ⟨before, next, after, rfl, hline, hmem⟩ := ih h
        refine ⟨content :: before, next, after, rfl, ?_, ?_⟩
        · rw [hline, line_lintLine, List.length_cons]
          omega
        · rw [lintLines_cons_of_ok herror]
          exact hmem
    · rw [lintLines_cons_of_error herror] at h
      cases h

/-- **Under the number of a line the report has what is found on that line**, if the lines are
linted to their end. -/
theorem filter_findings_lintLines {before after : List (List Char)} {content : List Char}
    (h : (lintLines style st (before ++ content :: after)).failure? = none) :
    (lintLines style st (before ++ content :: after)).findings.filter
        (·.1 = st.line + before.length) =
      (lintLine style (lintLines style st before).state content).findings.map
        (st.line + before.length, ·) := by
  induction before generalizing st with
  | nil =>
    have herror := error_eq_none_of_lintLines h
    rw [List.nil_append, lintLines_cons_of_ok herror, List.filter_append]
    have hafter : (lintLines style (lintLine style st content).state after).findings.filter
        (·.1 = st.line + ([] : List (List Char)).length) = [] :=
      List.filter_eq_nil_iff.2 fun found hmem ↦ by
        have hle := line_le_of_mem_lintLines hmem
        rw [line_lintLine] at hle
        simpa using Nat.ne_of_gt hle
    rw [hafter, List.append_nil]
    exact List.filter_eq_self.2 fun found hmem ↦ by
      obtain ⟨finding, -, rfl⟩ := List.mem_map.1 hmem
      simp
  | cons first before ih =>
    have herror := error_eq_none_of_lintLines h
    rw [List.cons_append, lintLines_cons_of_ok herror] at h
    rw [List.cons_append, lintLines_cons_of_ok herror, lintLines_cons_of_ok herror,
      List.filter_append]
    have hfirst : ((lintLine style st first).findings.map (st.line, ·)).filter
        (·.1 = st.line + (first :: before).length) = [] :=
      List.filter_eq_nil_iff.2 fun found hmem ↦ by
        obtain ⟨finding, -, rfl⟩ := List.mem_map.1 hmem
        simp
    have hline : st.line + (first :: before).length =
        (lintLine style st first).state.line + before.length := by
      rw [line_lintLine, List.length_cons]
      omega
    rw [hfirst, List.nil_append, hline]
    exact ih h

/-! ### Reachable states -/

/-- The states that lines lead to from the start of a file. A line may have a newline inside, and
linting goes on after a line whose nesting left its bounds. -/
inductive Reachable (style : Style) : State → Prop where
  | start : Reachable style {}
  | line {st : State} (content : List Char) (h : Reachable style st) :
      Reachable style (lintLine style st content).state

/-- Lines in a row lead from one reachable state to another, whether or not they are linted to their
end. -/
theorem Reachable.lintLines (h : Reachable style st) (lines : List (List Char)) :
    Reachable style (lintLines style st lines).state := by
  induction lines generalizing st with
  | nil => exact h
  | cons content rest ih =>
    rcases herror : (lintLine style st content).error? with - | ⟨index, e⟩
    · rw [lintLines_cons_of_ok herror]
      exact ih (.line content h)
    · rw [lintLines_cons_of_error herror]
      exact .line content h

/-- **What every scan keeps is kept by every line**, as long as it does not look at the counts. -/
theorem lintLine_preserves {Q : State → Prop}
    (htally : ∀ (s : State) (line blanks : Nat) (flagged : Bool), Q s →
      Q { s with line := line, blanks := blanks, flagged := flagged })
    (hscan : ∀ (s : State) (aligned : Bool) (cs : List Char), Q s →
      Q (scan style aligned (.start s.inString) s cs).state)
    (content : List Char) (h : Q st) : Q (lintLine style st content).state := by
  rw [lintLine]
  split_ifs
  · exact htally st (st.line + 1) (st.blanks + 1)
      (st.flagged || !(lintBlankLine st).findings.isEmpty) h
  · have h' : Q { st with blanks := 0 } := htally st st.line 0 st.flagged h
    refine htally _ _ _ _ ?_
    rw [lintTextLine]
    split_ifs
    · exact h'
    · exact hscan _ _ _ h'

end SchemeStyle
