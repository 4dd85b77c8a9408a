import SchemeStyle.Proofs.Consistency
import SchemeStyle.Proofs.Lockstep

/-!
# Files in pieces

Where all forms are closed a file starts anew, as far as the linter is concerned. Of what a line can
leave for the next one, the open forms are gone, and with them the import forms and the last id and
name that were kept for their order (`Reachable.imports_eq_outside`); the column for lines outside
of all forms, the column kept for a quoted form and the blank lines in a row have to be those of a
fresh file (`State.Closed`). What is left is the number of the line and whether anything was found,
and those decide nothing but the places of later findings (`lineLockstep_recounted`).

So a file in two pieces is linted as its pieces are, each by itself
(`lintLines_append_of_closed`).
-/

namespace SchemeStyle

variable {style : Style} {st : State} {a b : List (List Char)}

/-- All forms and strings are closed, and the next line is expected where the first one is. -/
structure State.Closed (st : State) : Prop where
  depth : st.depth = 0
  inString : st.inString = false
  expected : st.expected = 0
  quotedAlign : st.quotedAlign = none
  blanks : st.blanks = 0

/-- **Where all forms are closed the state is that of a fresh file**, up to its line and to what was
found so far. -/
theorem Reachable.recounted_of_closed (h : Reachable style st) (hclosed : st.Closed) :
    Recounted {} st := by
  have himports := h.imports_eq_outside hclosed.depth
  have hframes : st.frames = [] := List.eq_nil_of_length_eq_zero hclosed.depth
  have hbase : st.base = 0 := by
    rw [← hclosed.expected, State.expected, hframes]
  refine ⟨st.line, st.flagged, ?_⟩
  obtain ⟨line, flagged, blanks, inString, quotedAlign, base, frames, imports⟩ := st
  obtain ⟨-, rfl, -, rfl, rfl⟩ := hclosed
  simp only at himports hframes hbase
  rw [himports, hframes, hbase]

/-- **What follows a closed piece of a file is linted as a file of its own**, on other lines, to its
end or to the same failure. Only a banner at the start of the second piece would not be the same. -/
theorem lintLines_append_of_closed (hends : (lintLines style {} a).failure? = none)
    (hclosed : (lintLines style {} a).state.Closed) (hbanner : ∀ first ∈ b.head?, ¬IsBanner first)
    (file : String) :
    let whole := lintLines style {} (a ++ b)
    let alone := lintLines style {} b
    whole.diagnostics file = (lintLines style {} a).diagnostics file ++
        (alone.diagnostics file).map (Diagnostic.below a.length) ∧
      whole.failure? = alone.failure?.map (Failure.below a.length) := by
  have hreachable : Reachable style (lintLines style {} a).state := Reachable.start.lintLines a
  have hline : (lintLines style {} a).state.line = 1 + a.length := line_lintLines hends
  have halike : (lintLines style {} b).Alike Recounted a.length
      (lintLines style (lintLines style {} a).state b) :=
    lineLockstep_recounted.lintLines_alike (hreachable.recounted_of_closed hclosed) hline
      (.inr ⟨Nat.one_pos, fun _ ↦ hbanner⟩) (.inl Recounted.depth_eq)
  dsimp only
  rw [lintLines_append hends, ← halike.diagnostics file, ← halike.failure?]
  exact ⟨by rw [Report.diagnostics, List.map_append]; rfl, rfl⟩

/-- A comment and a definition before a piece that is misindented and closes a form too many. -/
theorem lintLines_append_of_closed_definition :
    let a := ["; squares".toList, "(define (square x)".toList, "  (* x x))".toList]
    let b := ["(square".toList, "  2))".toList]
    let whole := lintLines .standard {} (a ++ b)
    let alone := lintLines .standard {} b
    ((lintLines .standard {} a).failure? = none ∧ (lintLines .standard {} a).state.Closed ∧
        ∀ first ∈ b.head?, ¬IsBanner first) ∧
      alone.failure? = some ⟨2, 4, .unmatched, [⟨2, .indentation⟩]⟩ ∧
      whole.diagnostics "f.ss" = (lintLines .standard {} a).diagnostics "f.ss" ++
        (alone.diagnostics "f.ss").map (Diagnostic.below a.length) ∧
      whole.failure? = alone.failure?.map (Failure.below a.length) := by
  have hends : (lintLines .standard {}
      ["; squares".toList, "(define (square x)".toList, "  (* x x))".toList]).failure? = none := by
    decide +kernel
  have hclosed : (lintLines .standard {}
      ["; squares".toList, "(define (square x)".toList, "  (* x x))".toList]).state.Closed :=
    ⟨by decide +kernel, by decide +kernel, by decide +kernel, by decide +kernel,
      by decide +kernel⟩
  have hbanner : ∀ first ∈ ["(square".toList, "  2))".toList].head?, ¬IsBanner first := by decide
  exact ⟨⟨hends, hclosed, hbanner⟩, by decide +kernel,
    lintLines_append_of_closed hends hclosed hbanner "f.ss"⟩

end SchemeStyle
