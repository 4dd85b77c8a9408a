import SchemeStyle.Proofs.Lockstep

/-!
# Comment lines between other lines

A comment line that is itself in order leaves next to no trace: nothing is found on it, and of all
that lines pass on it changes only the number of the next line and the count of blank lines in a
row (`lintLine_plainComment`). It does not even change where a string or a form stands, since a
comment line is one only outside of strings, and its text is not read as code.

So it can be inserted anywhere in a file, inside of forms and imports too, and what follows is found
to break the same rules one line further down (`lintLines_insert_plainComment`). Two lines are the
exception. The first line of a file may be a banner, and is no longer one behind a comment; and of
two blank lines in a row the second is reported, but not if a comment stands between them.
-/

namespace SchemeStyle

variable {style : Style} {st : State} {content comment : List Char} {a b : List (List Char)}

/-! ### The comment line -/

/-- A comment line as the style guide wants it: one or two semicolons, a space and a text, without
tabs, without a space at the end, and not too long. -/
structure PlainComment (style : Style) (content : List Char) : Prop where
  marker : ∃ text, content = ';' :: ' ' :: text ∨ content = ';' :: ';' :: ' ' :: text
  tab : '\t' ∉ content
  space : content.getLast? ≠ some ' '
  length : content.length ≤ style.maxColumns

/-- Nothing is wrong with the semicolons of a plain comment line. -/
theorem PlainComment.commentLineFindings_eq_nil (h : PlainComment style content) (line : Nat) :
    commentLineFindings line content = [] := by
  obtain ⟨text, rfl | rfl⟩ := h.marker <;> simp [commentLineFindings, findingIf]

/-- **A plain comment line is counted and ends a run of blank lines**, and does nothing else. -/
theorem lintLine_plainComment (h : PlainComment style content) (hstring : st.inString = false) :
    lintLine style st content = { state := { st with line := st.line + 1, blanks := 0 } } := by
  have hblank : isBlankLine content = false := by
    obtain ⟨text, rfl | rfl⟩ := h.marker <;> simp [isBlankLine]
  have hcomment : content.head? = some ';' ∧ ¬st.inString := by
    refine ⟨?_, by simp [hstring]⟩
    obtain ⟨text, rfl | rfl⟩ := h.marker <;> rfl
  rw [lintLine, if_neg (Bool.eq_false_iff.1 hblank), lintTextLine]
  simp [hcomment, tabFindings_eq_nil h.tab, h.commentLineFindings_eq_nil,
    extentFindings_eq_nil h.length h.space, Outcome.after]

/-! ### What follows it -/

/-- Only a blank line looks at the blank lines before it. -/
theorem lintLine_blanks (hblank : isBlankLine content = false) (n : Nat) :
    lintLine style { st with blanks := n } content = lintLine style st content := by
  have hblank := Bool.eq_false_iff.1 hblank
  rw [lintLine, lintLine, if_neg hblank, if_neg hblank]
  rfl

/-- Lines that do not start with a blank one are linted alike after any run of blank lines. -/
theorem findings_lintLines_blanks
    (hfirst : st.blanks = 0 ∨ ∀ first ∈ b.head?, isBlankLine first = false) :
    (lintLines style { st with blanks := 0 } b).findings = (lintLines style st b).findings ∧
      (lintLines style { st with blanks := 0 } b).failure? = (lintLines style st b).failure? := by
  rcases hfirst with hzero | hfirst
  · rw [← hzero]
    exact ⟨rfl, rfl⟩
  · rcases b with - | ⟨first, rest⟩
    · exact ⟨rfl, rfl⟩
    · have hsame : lintLines style { st with blanks := 0 } (first :: rest) =
          lintLines style st (first :: rest) := by
        rw [lintLines, lintLines, lintLine_blanks (hfirst first rfl)]
      rw [hsame]
      exact ⟨rfl, rfl⟩

/-- What comes after a comment line is found to be what it would be without it, one line further
down. -/
theorem lintLines_cons_plainComment (hcomment : PlainComment style comment)
    (hstring : st.inString = false) (hline : 1 < st.line)
    (hblank : st.blanks = 0 ∨ ∀ first ∈ b.head?, isBlankLine first = false) (file : String) :
    (lintLines style st (comment :: b)).diagnostics file =
        ((lintLines style st b).diagnostics file).map (Diagnostic.below 1) ∧
      (lintLines style st (comment :: b)).failure? =
        (lintLines style st b).failure?.map (Failure.below 1) := by
  -- Up to the count of blank lines, the lines after the comment start where they would without it.
  have halike : (lintLines style { st with blanks := 0 } b).Alike Recounted 1
      (lintLines style { st with line := st.line + 1, blanks := 0 } b) :=
    lineLockstep_recounted.lintLines_alike ⟨st.line + 1, st.flagged, rfl⟩ rfl
      (.inr ⟨Nat.lt_of_succ_lt hline, fun hone ↦ absurd hone (Nat.ne_of_gt hline)⟩)
      (.inl Recounted.depth_eq)
  have hinserted := lintLine_plainComment hcomment hstring
  obtain ⟨hfindings, hfailure⟩ :
      (lintLines style { st with blanks := 0 } b).findings = (lintLines style st b).findings ∧
        (lintLines style { st with blanks := 0 } b).failure? = (lintLines style st b).failure? :=
    findings_lintLines_blanks hblank
  have hdiagnostics := halike.diagnostics file
  rw [lintLines_cons_of_ok (by rw [hinserted]), hinserted]
  rw [Report.diagnostics, Report.diagnostics, hfindings] at hdiagnostics
  exact ⟨hdiagnostics, hfailure ▸ halike.failure?⟩

/-- **A comment line can be inserted anywhere in a file** but at its start or in a string, as long
as it parts no two blank lines. What comes after it is found to be what it was, one line further
down, to the end or to the same failure. -/
theorem lintLines_insert_plainComment (hcomment : PlainComment style comment) (hne : a ≠ [])
    (hends : (lintLines style {} a).failure? = none)
    (hstring : (lintLines style {} a).state.inString = false)
    (hblank : (lintLines style {} a).state.blanks = 0 ∨
      ∀ first ∈ b.head?, isBlankLine first = false) (file : String) :
    let before := lintLines style {} a
    let after := lintLines style before.state b
    let whole := lintLines style {} (a ++ comment :: b)
    whole.diagnostics file =
        before.diagnostics file ++ (after.diagnostics file).map (Diagnostic.below 1) ∧
      whole.failure? = after.failure?.map (Failure.below 1) := by
  have hline : 1 < (lintLines style {} a).state.line := by
    have hlength : 0 < a.length := List.length_pos_iff.2 hne
    rw [line_lintLines hends]
    exact Nat.lt_add_of_pos_right hlength
  obtain ⟨hdiagnostics, hfailure⟩ :=
    lintLines_cons_plainComment hcomment hstring hline hblank file
  dsimp only
  rw [lintLines_append hends, ← hdiagnostics]
  exact ⟨by rw [Report.diagnostics, List.map_append]; rfl, hfailure⟩

/-- A comment amid the names of an import declaration, behind a blank line. The names are out of
order, and the last line closes a form too many. -/
theorem lintLines_insert_plainComment_names :
    let a := ["(Chapter 1".toList, "  (use (:1 b".toList, "".toList]
    let comment := ";; no longer in order".toList
    let b := ["           a".toList, "            c))))".toList]
    let before := lintLines .standard {} a
    let after := lintLines .standard before.state b
    let whole := lintLines .standard {} (a ++ comment :: b)
    (PlainComment .standard comment ∧ a ≠ [] ∧ before.failure? = none ∧
        before.state.inString = false ∧
        (before.state.blanks = 0 ∨ ∀ first ∈ b.head?, isBlankLine first = false)) ∧
      after.diagnostics "f.ss" =
        [⟨"f.ss", 4, 12, "incorrect import name ordering: b > a"⟩] ∧
      after.failure? = some ⟨5, 16, .unmatched, [⟨12, .indentation⟩]⟩ ∧
      whole.diagnostics "f.ss" =
        before.diagnostics "f.ss" ++ (after.diagnostics "f.ss").map (Diagnostic.below 1) ∧
      whole.failure? = after.failure?.map (Failure.below 1) := by
  intro a comment b before after whole
  have hcomment : PlainComment .standard comment :=
    ⟨⟨"no longer in order".toList, .inr rfl⟩, by decide, by decide, by decide⟩
  have hends : before.failure? = none := by decide +kernel
  have hstring : before.state.inString = false := by decide +kernel
  have hblank : before.state.blanks = 0 ∨ ∀ first ∈ b.head?, isBlankLine first = false :=
    .inr (by decide)
  exact ⟨⟨hcomment, by decide, hends, hstring, hblank⟩, by decide +kernel, by decide +kernel,
    lintLines_insert_plainComment hcomment (by decide) hends hstring hblank "f.ss"⟩

end SchemeStyle
