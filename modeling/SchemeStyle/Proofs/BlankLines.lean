import Mathlib.Data.List.DropRight
import SchemeStyle.Proofs.Scan.Checks

/-!
# Blank lines in a row

Of a run of blank lines the second is reported, and no other: the first is the end of a paragraph,
and what follows the second is not reported again. The linter counts blank lines to tell which is
which, and its count is the length of the run that the lines so far end in, whatever stands before
that run (`blanks_lintLines`). Inside a string the count goes on, but nothing is reported.

The report therefore says of every line of a file, by its number, what the two lines before it
decide (`diagnostics_of_blankLines`), and blank lines are reported for nothing else.
-/

namespace SchemeStyle

variable {style : Style} {st : State} {lines front : List (List Char)} {content : List Char}
  {k : Nat}

/-! ### Lines by their numbers -/

/-- The line of this number. Lines count from one. -/
def lineAt? (lines : List (List Char)) : Nat → Option (List Char)
  | 0 => none
  | k + 1 => lines[k]?

/-- Whether there is a line of this number, and it has no character but spaces. -/
def isBlankAt (lines : List (List Char)) (k : Nat) : Bool :=
  (lineAt? lines k).any isBlankLine

theorem isBlankAt_append (h : k ≤ front.length) (rest : List (List Char)) :
    isBlankAt (front ++ rest) k = isBlankAt front k := by
  cases k with
  | zero => rfl
  | succ k => rw [isBlankAt, isBlankAt, lineAt?, lineAt?, List.getElem?_append_left h]

theorem isBlankAt_behind (front : List (List Char)) (content : List Char)
    (rest : List (List Char)) :
    isBlankAt (front ++ content :: rest) (front.length + 1) = isBlankLine content := by
  simp [isBlankAt, lineAt?]

/-- Only a line of the text can be blank. -/
theorem exists_append_of_isBlankAt (h : isBlankAt lines k = true) :
    ∃ front content rest, lines = front ++ content :: rest ∧ k = front.length + 1 ∧
      isBlankLine content = true := by
  obtain ⟨content, hline, hblank⟩ := (Option.any_eq_true _ _).1 h
  cases k with
  | zero => cases hline
  | succ k =>
    obtain ⟨hk, hcontent⟩ := List.getElem?_eq_some_iff.1 hline
    refine ⟨lines.take k, content, lines.drop (k + 1), ?_, ?_, hblank⟩
    · rw [← hcontent, List.getElem_cons_drop, List.take_append_drop]
    · rw [List.length_take_of_le (Nat.le_of_lt hk)]

/-! ### The run that lines end in -/

/-- **The count of blank lines is the length of the run that the lines end in.** -/
theorem blanks_lintLines (h : (lintLines style {} lines).failure? = none) :
    (lintLines style {} lines).state.blanks = (lines.rtakeWhile isBlankLine).length := by
  induction lines using List.reverseRecOn with
  | nil => rfl
  | append_singleton lines content ih =>
    have hbefore := failure_eq_none_of_append h
    have herror : (lintLine style (lintLines style {} lines).state content).error? = none := by
      rw [lintLines_append hbefore] at h
      exact error_eq_none_of_lintLines h
    rw [lintLines_append hbefore, lintLines_cons_of_ok herror, List.rtakeWhile_concat]
    show (lintLine style _ content).state.blanks = _
    split_ifs with hblank
    · rw [lintLine, if_pos hblank, List.length_append, ← ih hbefore]
      rfl
    · exact blanks_lintLine (Bool.eq_false_iff.2 hblank)

/-- The run is empty where the last line is not blank. -/
theorem rtakeWhile_isBlankLine_eq_nil_iff (lines : List (List Char)) :
    lines.rtakeWhile isBlankLine = [] ↔ isBlankAt lines lines.length = false := by
  rcases List.eq_nil_or_concat lines with rfl | ⟨front, last, rfl⟩
  · exact iff_of_true rfl rfl
  · rw [List.concat_eq_append, List.length_append, List.length_singleton, isBlankAt_behind,
      List.rtakeWhile_concat]
    cases isBlankLine last <;> simp

/-- The run is a single line where the last line is blank and the one before it is not. -/
theorem length_rtakeWhile_isBlankLine_eq_one_iff (lines : List (List Char)) :
    (lines.rtakeWhile isBlankLine).length = 1 ↔
      isBlankAt lines lines.length = true ∧ isBlankAt lines (lines.length - 1) = false := by
  rcases List.eq_nil_or_concat lines with rfl | ⟨front, last, rfl⟩
  · exact iff_of_false (by simp) (by simp [isBlankAt, lineAt?])
  · rw [List.concat_eq_append, List.length_append, List.length_singleton, isBlankAt_behind,
      Nat.add_sub_cancel, isBlankAt_append (Nat.le_refl _), ← rtakeWhile_isBlankLine_eq_nil_iff,
      List.rtakeWhile_concat]
    cases isBlankLine last <;> simp

/-! ### What is found on a line -/

/-- A blank line is found to be the second of its run, or nothing is found on it. -/
theorem findings_lintLine_of_isBlankLine (hblank : isBlankLine content = true) :
    (lintLine style st content).findings =
      findingIf (!st.inString && st.blanks == 1) 0 .blankLines := by
  rw [lintLine, if_pos hblank]
  rfl

/-- What is looked for on a line that is not blank. -/
def textChecks (aligned : Bool) : List Check :=
  .extent :: .commentLine :: scanChecks aligned

theorem foundBy_lintTextLine (style : Style) (st : State) (content : List Char) :
    FoundBy (textChecks (style.aligns content)) (lintTextLine style st content).findings := by
  rw [lintTextLine]
  refine FoundBy.append ((foundBy_extentFindings style content).mono (by simp [textChecks])) ?_
  split_ifs
  · refine FoundBy.append ((foundBy_tabFindings 0 content).mono ?_)
      ((foundBy_commentLineFindings st.line content).mono (by simp [textChecks]))
    cases style.aligns content <;> decide
  · exact (foundBy_scan style (style.aligns content) _ _ _).mono (by simp [textChecks])

/-- Only blank lines are found to follow another. -/
theorem isBlankLine_of_blankLines {finding : Finding}
    (h : finding ∈ (lintLine style st content).findings)
    (hviolation : finding.violation = .blankLines) : isBlankLine content = true := by
  rw [lintLine] at h
  split_ifs at h with hblank
  · exact hblank
  · refine absurd hviolation ((foundBy_lintTextLine style st content).ne ?_ finding h)
    cases style.aligns content <;> decide

/-- No other violation is worded like that of blank lines. -/
theorem Violation.eq_blankLines_of_message {violation : Violation}
    (h : violation.message = "multiple blank lines") : violation = .blankLines := by
  have hwords : "multiple".toList.isPrefixOf violation.message.toList =
      (violation == .blankLines) := by
    cases violation with
    | tooLong | expectedSpaceBefore | unexpectedSpaceBefore | wrapperCloser | idOrder
    | nameOrder =>
      delta Violation.message
      simp only [String.toList_append]
      rfl
    | _ => rfl
  rw [h] at hwords
  exact beq_iff_eq.1 hwords.symm

/-! ### What is reported of a file -/

/-- The diagnostics of a report that are about the line of a number. -/
def Report.diagnosticsAt (file : String) (k : Nat) (r : Report) : List Diagnostic :=
  (r.diagnostics file).filter (·.line = k)

/-- Under the number of a line the diagnostics are about what is found on it. -/
theorem diagnosticsAt_lintLines {rest : List (List Char)}
    (h : (lintLines style {} (front ++ content :: rest)).failure? = none) (file : String) :
    (lintLines style {} (front ++ content :: rest)).diagnosticsAt file (front.length + 1) =
      (lintLine style (lintLines style {} front).state content).findings.map
        (.ofFinding file (front.length + 1)) := by
  have hline (found : Nat × Finding) :
      (Diagnostic.ofFinding file found.1 found.2).line = (front.length + 1 : Nat) ↔
        found.1 = 1 + front.length := by
    rw [Nat.add_comm 1]
    exact Int.natCast_inj
  rw [Report.diagnosticsAt, Report.diagnostics, List.filter_map]
  refine (congrArg (List.map _) (List.filter_congr (q := (·.1 = 1 + front.length))
    fun found _ ↦ decide_eq_decide.2 (hline found))).trans ?_
  rw [filter_findings_lintLines h, List.map_map]
  exact List.map_congr_left fun finding _ ↦ by rw [Nat.add_comm]; rfl

/-- Only under the number of a blank line is there a diagnostic about blank lines. -/
theorem isBlankAt_of_mem_diagnosticsAt {file : String} {d : Diagnostic}
    (h : d ∈ (lintLines style {} lines).diagnosticsAt file k)
    (hmessage : d.message = "multiple blank lines") : isBlankAt lines k = true := by
  obtain ⟨hmem, hline⟩ := List.mem_filter.1 h
  obtain ⟨⟨line, finding⟩, hfound, rfl⟩ := List.mem_map.1 hmem
  obtain ⟨front, content, rest, rfl, hnumber, hfinding⟩ := exists_append_of_mem_lintLines hfound
  have hk : k = front.length + 1 := by
    have hline : (line : Int) = k := of_decide_eq_true hline
    have hnumber : line = 1 + front.length := hnumber
    omega
  rw [hk, isBlankAt_behind]
  exact isBlankLine_of_blankLines hfinding (Violation.eq_blankLines_of_message hmessage)

/-- Under the number of a blank line there is a single diagnostic, or none: it depends on the run
that the lines before it end in. -/
theorem diagnosticsAt_of_isBlankLine {rest : List (List Char)}
    (h : (lintLines style {} (front ++ content :: rest)).failure? = none)
    (hblank : isBlankLine content = true) (file : String) :
    (lintLines style {} (front ++ content :: rest)).diagnosticsAt file (front.length + 1) =
      if (lintLines style {} front).state.inString = false ∧
          (front.rtakeWhile isBlankLine).length = 1 then
        [⟨file, (front.length + 1 : Nat), 1, "multiple blank lines"⟩]
      else [] := by
  rw [diagnosticsAt_lintLines h, findings_lintLine_of_isBlankLine hblank,
    blanks_lintLines (failure_eq_none_of_append h), findingIf]
  simp only [Bool.and_eq_true, Bool.not_eq_true', beq_iff_eq]
  split_ifs <;> rfl

/-- **Of every run of blank lines outside of strings the second is reported, and no other.** So a
line is reported if it is blank, the one before it is blank, the one before that is not, and no
string is open. Such a line is reported once, in its first column, and a blank line is reported for
nothing else. -/
theorem diagnostics_of_blankLines (h : (lintLines style {} lines).failure? = none) (file : String)
    (k : Nat) :
    let found := (lintLines style {} lines).diagnosticsAt file k
    let second := isBlankAt lines k = true ∧ isBlankAt lines (k - 1) = true ∧
      isBlankAt lines (k - 2) = false ∧
      (lintLines style {} (lines.take (k - 1))).state.inString = false
    ((∃ d ∈ found, d.message = "multiple blank lines") ↔ second) ∧
      (second → found = [⟨file, k, 1, "multiple blank lines"⟩]) ∧
      (isBlankAt lines k = true → ∀ d ∈ found, d.message = "multiple blank lines") := by
  intro found second
  by_cases hblank : isBlankAt lines k = true
  · obtain ⟨front, content, rest, rfl, rfl, hcontent⟩ := exists_append_of_isBlankAt hblank
    have hfound := diagnosticsAt_of_isBlankLine h hcontent file
    have hsecond : second ↔ (lintLines style {} front).state.inString = false ∧
        (front.rtakeWhile isBlankLine).length = 1 := by
      have htwo : front.length + 1 - 2 = front.length - 1 := rfl
      rw [length_rtakeWhile_isBlankLine_eq_one_iff, and_comm]
      simp only [second, hblank, true_and, Nat.add_sub_cancel, htwo, List.take_left,
        isBlankAt_append (Nat.le_refl _), isBlankAt_append (Nat.sub_le _ 1), and_assoc]
    simp only [found, hfound, hsecond]
    split_ifs with hcond <;> simp [hcond]
  · refine ⟨iff_of_false ?_ fun hsecond ↦ hblank hsecond.1, fun hsecond ↦ absurd hsecond.1 hblank,
      fun h ↦ absurd h hblank⟩
    rintro ⟨d, hd, hmessage⟩
    exact hblank (isBlankAt_of_mem_diagnosticsAt hd hmessage)

/-- Blank lines at the start of a file, around a string, in it and at the end. -/
theorem diagnostics_of_blankLines_around_string :
    let lines := ["".toList, "  ".toList, "".toList, "(f \"".toList, "".toList, " ".toList,
      "\")".toList, " ".toList, "".toList]
    let found := (lintLines .standard {} lines).diagnosticsAt "f.ss"
    (lintLines .standard {} lines).failure? = none ∧
      found 2 = [⟨"f.ss", 2, 1, "multiple blank lines"⟩] ∧ found 3 = [] ∧ found 6 = [] ∧
      found 9 = [⟨"f.ss", 9, 1, "multiple blank lines"⟩] := by
  intro lines found
  have hends : (lintLines .standard {} lines).failure? = none := by decide +kernel
  exact ⟨hends, (diagnostics_of_blankLines hends "f.ss" 2).2.1 (by decide +kernel),
    by decide +kernel, by decide +kernel,
    (diagnostics_of_blankLines hends "f.ss" 9).2.1 (by decide +kernel)⟩

end SchemeStyle
