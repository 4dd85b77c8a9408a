import SchemeStyle.Text.Lines

/-!
# Line endings

A text that comes out of a file may end its lines in three ways, each line in its own, and need not
end the last one. `HasLines` says of a text what its lines are without a look at how they are found:
it is built from the lines and their endings. Reading finds just those lines (`hasLines_iff`), so
texts that are built from the same lines are the same to everything that reads lines.
-/

namespace SchemeStyle

variable {c : Char} {line text : List Char} {lines : List (List Char)}

/-- The ways to end a line. -/
inductive LineEnding where
  | newline
  | carriageReturn
  | carriageReturnNewline
  deriving DecidableEq, Repr

/-- The characters that end a line. -/
def LineEnding.chars : LineEnding → List Char
  | newline => ['\n']
  | carriageReturn => ['\r']
  | carriageReturnNewline => ['\r', '\n']

/-- None of the characters ends a line. -/
def IsUnbroken (line : List Char) : Prop :=
  '\n' ∉ line ∧ '\r' ∉ line

/-- The text is made of the lines and their endings. The last line may go without one if it is not
empty. A carriage return is an ending of its own only where no newline follows. -/
inductive HasLines : List (List Char) → List Char → Prop where
  | nil : HasLines [] []
  | unended {line : List Char} (ne : line ≠ []) (unbroken : IsUnbroken line) :
      HasLines [line] line
  | ended {line text : List Char} {lines : List (List Char)} (ending : LineEnding)
      (unbroken : IsUnbroken line)
      (apart : ending = .carriageReturn → text.head? ≠ some '\n') (rest : HasLines lines text) :
      HasLines (line :: lines) (line ++ (ending.chars ++ text))

/-! ### Lines are found -/

theorem normalizeNewlines_cons (h : c ≠ '\r') (text : List Char) :
    normalizeNewlines (c :: text) = c :: normalizeNewlines text := by
  rw [normalizeNewlines, if_neg h]
  rintro cs rfl
  exact absurd rfl h

theorem normalizeNewlines_append (h : '\r' ∉ line) (text : List Char) :
    normalizeNewlines (line ++ text) = line ++ normalizeNewlines text := by
  induction line with
  | nil => rfl
  | cons c line ih =>
    obtain ⟨hc, hline⟩ := not_or.1 (mt List.mem_cons.2 h)
    rw [List.cons_append, normalizeNewlines_cons (Ne.symm hc), ih hline, List.cons_append]

theorem normalizeNewlines_ending (ending : LineEnding)
    (apart : ending = .carriageReturn → text.head? ≠ some '\n') :
    normalizeNewlines (ending.chars ++ text) = '\n' :: normalizeNewlines text := by
  cases ending with
  | newline => exact normalizeNewlines_cons (by decide) text
  | carriageReturnNewline => rfl
  | carriageReturn =>
    have happart := apart rfl
    show normalizeNewlines ('\r' :: text) = _
    rw [normalizeNewlines, if_pos rfl]
    rintro cs - rfl
    exact happart rfl

theorem splitLines_of_notMem (hne : line ≠ []) (h : '\n' ∉ line) : splitLines line = [line] := by
  induction line with
  | nil => exact absurd rfl hne
  | cons c line ih =>
    obtain ⟨hc, hline⟩ := not_or.1 (mt List.mem_cons.2 h)
    rw [splitLines, if_neg (Ne.symm hc)]
    rcases line with - | ⟨d, line⟩
    · rfl
    · rw [ih (List.cons_ne_nil d line) hline]

/-- The lines that a text is made of are found. -/
theorem HasLines.splitLines_eq (h : HasLines lines text) :
    splitLines (normalizeNewlines text) = lines := by
  induction h with
  | nil => rfl
  | @unended line ne unbroken =>
    have hline := normalizeNewlines_append unbroken.2 []
    rw [normalizeNewlines, List.append_nil] at hline
    rw [hline, splitLines_of_notMem ne unbroken.1]
  | ended ending unbroken apart rest ih =>
    rw [normalizeNewlines_append unbroken.2, normalizeNewlines_ending ending apart,
      splitLines_append_newline unbroken.1, ih]

/-! ### Every text is made of its lines -/

theorem HasLines.eq_nil (h : HasLines [] text) : text = [] := by
  cases h
  rfl

/-- A character that ends no line belongs to the first one. -/
theorem HasLines.cons (h : HasLines (line :: lines) text) (hnewline : c ≠ '\n')
    (hreturn : c ≠ '\r') : HasLines ((c :: line) :: lines) (c :: text) := by
  have hunbroken : IsUnbroken line → IsUnbroken (c :: line) := fun h ↦
    ⟨by simpa [Ne.symm hnewline] using h.1, by simpa [Ne.symm hreturn] using h.2⟩
  cases h with
  | unended ne unbroken => exact .unended (List.cons_ne_nil c line) (hunbroken unbroken)
  | ended ending unbroken apart rest => exact .ended ending (hunbroken unbroken) apart rest

/-- An ending, by itself, is an empty line. -/
theorem HasLines.break (h : HasLines lines text) (ending : LineEnding)
    (apart : ending = .carriageReturn → text.head? ≠ some '\n') :
    HasLines ([] :: lines) (ending.chars ++ text) :=
  .ended ending ⟨List.not_mem_nil, List.not_mem_nil⟩ apart h

/-- Every text is made of the lines that are found in it. -/
theorem hasLines_splitLines (text : List Char) :
    HasLines (splitLines (normalizeNewlines text)) text := by
  induction text using normalizeNewlines.induct with
  | case1 => exact .nil
  | case2 cs ih => exact ih.break .carriageReturnNewline (by simp)
  | case3 c cs hapart ih =>
    by_cases hreturn : c = '\r'
    · subst hreturn
      have apart : cs.head? ≠ some '\n' := by
        intro hhead
        obtain ⟨rest, hrest⟩ := List.head?_eq_some_iff.1 hhead
        exact hapart rest rfl hrest
      have hlines := ih.break .carriageReturn fun _ ↦ apart
      have hnormal : normalizeNewlines ('\r' :: cs) = '\n' :: normalizeNewlines cs :=
        normalizeNewlines_ending .carriageReturn fun _ ↦ apart
      rw [hnormal, splitLines, if_pos rfl]
      exact hlines
    rw [normalizeNewlines_cons hreturn, splitLines]
    by_cases hnewline : c = '\n'
    · rw [if_pos hnewline, hnewline]
      exact ih.break .newline (by simp)
    rw [if_neg hnewline]
    rcases hsplit : splitLines (normalizeNewlines cs) with - | ⟨line, rest⟩ <;> rw [hsplit] at ih
    · obtain rfl := ih.eq_nil
      refine .unended (List.cons_ne_nil c []) ?_
      simp [IsUnbroken, Ne.symm hnewline, Ne.symm hreturn]
    · exact ih.cons hnewline hreturn

/-- **Reading finds the lines that a text is made of**, and no others. -/
theorem hasLines_iff : HasLines lines text ↔ splitLines (normalizeNewlines text) = lines :=
  ⟨HasLines.splitLines_eq, fun h ↦ h ▸ hasLines_splitLines text⟩

end SchemeStyle
