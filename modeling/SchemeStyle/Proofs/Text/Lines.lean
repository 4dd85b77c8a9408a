import SchemeStyle.Text.Lines

/-!
# Lines and columns of a text

A text is linted line by line, while what is said of its nesting and of its layout is said of the
text as a whole. `joinLines` puts lines back together, each with its newline, and is undone by
`splitLines` (`splitLines_joinLines`); the other way round only the newline of an unended last line
is added (`joinLines_splitLines`). `columnAfter` tells how far into its line a piece of text leads.
-/

namespace SchemeStyle

/-! ### Joining lines -/

/-- The text of some lines, each ended by a newline. -/
def joinLines (lines : List (List Char)) : List Char :=
  lines.flatMap (· ++ ['\n'])

@[simp] theorem joinLines_nil : joinLines [] = [] := rfl

@[simp] theorem joinLines_cons (line : List Char) (lines : List (List Char)) :
    joinLines (line :: lines) = line ++ '\n' :: joinLines lines := by
  simp [joinLines]

@[simp] theorem joinLines_append (a b : List (List Char)) :
    joinLines (a ++ b) = joinLines a ++ joinLines b :=
  List.flatMap_append

/-- Splitting undoes joining. -/
theorem splitLines_joinLines {lines : List (List Char)} (h : ∀ line ∈ lines, '\n' ∉ line) :
    splitLines (joinLines lines) = lines := by
  induction lines with
  | nil => rfl
  | cons line lines ih =>
    rw [joinLines_cons, splitLines_append_newline (h line List.mem_cons_self),
      ih fun l hl ↦ h l (List.mem_cons_of_mem _ hl)]

/-- Joining the lines of a text gives the text back, up to a newline at its end. -/
theorem joinLines_splitLines (cs : List Char) :
    joinLines (splitLines cs) = cs ∨ joinLines (splitLines cs) = cs ++ ['\n'] := by
  induction cs with
  | nil => exact .inl rfl
  | cons c cs ih =>
    rw [splitLines]
    split
    case isTrue hc =>
      rw [hc]
      exact ih.imp (congrArg ('\n' :: ·)) (congrArg ('\n' :: ·))
    case isFalse =>
      split
      case h_1 h =>
        rw [h] at ih
        have hcs : cs = [] := by simpa using ih
        exact .inr (by simp [hcs])
      case h_2 line rest h =>
        rw [h] at ih
        exact ih.imp (congrArg (c :: ·)) (congrArg (c :: ·))

/-- The lines of a text whose last line is not ended are joined to that text and a newline. -/
theorem joinLines_splitLines_of_unended {cs : List Char} (hne : cs ≠ [])
    (h : cs.getLast? ≠ some '\n') : joinLines (splitLines cs) = cs ++ ['\n'] := by
  refine (joinLines_splitLines cs).resolve_left fun heq ↦ ?_
  rcases List.eq_nil_or_concat (splitLines cs) with hnil | ⟨init, last, hlast⟩
  · rw [hnil] at heq
    exact hne heq.symm
  · rw [hlast, List.concat_eq_append, joinLines_append, joinLines_cons, joinLines_nil] at heq
    rw [← heq] at h
    simp at h

/-- The lines of a text that a newline ends are joined to that text. -/
theorem joinLines_splitLines_concat (cs : List Char) :
    joinLines (splitLines (cs ++ ['\n'])) = cs ++ ['\n'] := by
  induction cs with
  | nil => rfl
  | cons c cs ih =>
    rw [List.cons_append, splitLines]
    split
    case isTrue hc => rw [joinLines_cons, ih, hc, List.nil_append]
    case isFalse =>
      split
      case h_1 h =>
        rw [h] at ih
        simp at ih
      case h_2 line rest h =>
        rw [h] at ih
        rw [← ih, joinLines_cons, joinLines_cons, List.cons_append]

/-! ### Columns -/

/-- The column that a text leads to from a column: a newline leads to the start of a line. -/
def columnAfter (column : Nat) (text : List Char) : Nat :=
  text.foldl (fun column c ↦ if c = '\n' then 0 else column + 1) column

@[simp] theorem columnAfter_nil (column : Nat) : columnAfter column [] = column := rfl

theorem columnAfter_cons (column : Nat) (c : Char) (text : List Char) :
    columnAfter column (c :: text) = columnAfter (if c = '\n' then 0 else column + 1) text := rfl

@[simp] theorem columnAfter_append (column : Nat) (a b : List Char) :
    columnAfter column (a ++ b) = columnAfter (columnAfter column a) b :=
  List.foldl_append

@[simp] theorem columnAfter_newline (column : Nat) (text : List Char) :
    columnAfter column ('\n' :: text) = columnAfter 0 text := rfl

/-- Within a line every character takes one column. -/
theorem columnAfter_of_notMem {text : List Char} (h : '\n' ∉ text) (column : Nat) :
    columnAfter column text = column + text.length := by
  induction text generalizing column with
  | nil => rfl
  | cons c text ih =>
    obtain ⟨hc, htext⟩ := not_or.1 (fun hm ↦ h (List.mem_cons.2 hm))
    rw [columnAfter_cons, if_neg (Ne.symm hc), ih htext, List.length_cons]
    omega

end SchemeStyle
