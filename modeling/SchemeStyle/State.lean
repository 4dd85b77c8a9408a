import SchemeStyle.Import.Context

/-!
# What is remembered from line to line

A file is checked one line at a time, and everything that one line can tell a later one is in a
`State`: the open forms with the columns at which their contents are expected, the open import
forms, and four small facts about the lines before. Nesting is bounded on both sides, so opening
and closing a form can fail; those failures are the only ones that a text can cause.
-/

namespace SchemeStyle

/-- Nesting left its bounds. -/
inductive NestingError where
  /-- A form was opened at the greatest depth, one below `limit`. -/
  | tooDeep (limit : Nat)
  /-- A form was closed where none is open. -/
  | unmatched
  deriving DecidableEq, Repr

/-- The words of a report. -/
def NestingError.message : NestingError → String
  | tooDeep limit => s!"nesting too deep: more than {limit - 1} open parens"
  | unmatched => "unmatched ')'"

/-- An open form. -/
structure Frame where
  /-- The column at which a new line inside the form is expected to start. -/
  column : Int
  /-- Whether the form is a wrapper. -/
  wrapper : Bool := false
  deriving DecidableEq, Repr

/-- What is known between two lines of a file. -/
structure State where
  /-- The number of the next line. -/
  line : Nat := 1
  /-- Whether anything was found so far. -/
  flagged : Bool := false
  /-- How many lines in a row were blank. -/
  blanks : Nat := 0
  /-- Whether the last line ended inside a string. -/
  inString : Bool := false
  /-- Where the contents of the last opened form may also be aligned, if that form is quoted. -/
  quotedAlign : Option Nat := none
  /-- The column at which a line outside all forms is expected to start. -/
  base : Int := 0
  /-- The open forms, innermost first. -/
  frames : List Frame := []
  /-- The open import forms. -/
  imports : ImportContext := .outside
  deriving DecidableEq, Repr

namespace State

instance : Inhabited State := ⟨{}⟩

/-! ### Views -/

/-- The number of open forms. -/
def depth (st : State) : Nat := st.frames.length

/-- The expected columns, outermost first, from the one outside all forms on. -/
def columns (st : State) : List Int :=
  st.base :: (st.frames.map Frame.column).reverse

/-- The column at which the next line is expected to start. -/
def expected (st : State) : Int :=
  match st.frames with
  | [] => st.base
  | frame :: _ => frame.column

/-- The depths of the wrappers among some open forms, outermost first. -/
def wrapperDepthsOf : List Frame → List Nat
  | [] => []
  | frame :: outer =>
    wrapperDepthsOf outer ++ if frame.wrapper then [outer.length + 1] else []

/-- The depths of the open wrappers, outermost first. -/
def wrapperDepths (st : State) : List Nat :=
  wrapperDepthsOf st.frames

/-- Whether every open form is a wrapper, so that code is as good as outside all forms. -/
def allWrappers (st : State) : Bool :=
  st.frames.all Frame.wrapper

/-! ### Changes -/

/-- Moves the column at which the contents of the innermost form are expected. -/
def setExpected (column : Int) (st : State) : State :=
  match st.frames with
  | [] => { st with base := column }
  | frame :: outer => { st with frames := { frame with column := column } :: outer }

/-- Makes the innermost form a wrapper. -/
def markWrapper (st : State) : State :=
  match st.frames with
  | [] => st
  | frame :: outer => { st with frames := { frame with wrapper := true } :: outer }

/-- Opens a form whose contents are expected at the given column. The depth stays below `limit`. -/
def push (limit : Nat) (column : Int) (st : State) : Except NestingError State :=
  if st.depth + 1 < limit then .ok { st with frames := ⟨column, false⟩ :: st.frames }
  else .error (.tooDeep limit)

/-- Closes the innermost form. -/
def pop (st : State) : Except NestingError State :=
  match st.frames with
  | [] => .error .unmatched
  | _ :: outer => .ok { st with frames := outer }

/-- Opens the next import form at the present depth. -/
def enterImports (st : State) : State :=
  { st with imports := st.imports.enter st.depth }

/-- Closes the innermost import form if it began at this depth. -/
def leaveImports (depth : Nat) (st : State) : Option ImportBlock × State :=
  let (left, imports) := st.imports.leave depth
  (left, { st with imports := imports })

/-! ### Views after changes -/

/-- What moves is the column of the innermost form, or the one outside all forms if none is open. -/
theorem setExpected_eq (column : Int) (st : State) :
    st.setExpected column = { st with
      base := if st.frames.isEmpty then column else st.base
      frames := st.frames.modifyHead fun frame ↦ { frame with column := column } } := by
  rcases st with ⟨_, _, _, _, _, _, _ | _, _⟩ <;> rfl

/-- What is marked is the innermost form, if one is open. -/
theorem markWrapper_eq (st : State) :
    st.markWrapper = { st with
      frames := st.frames.modifyHead fun frame ↦ { frame with wrapper := true } } := by
  rcases st with ⟨_, _, _, _, _, _, _ | _, _⟩ <;> rfl

@[simp] theorem depth_setExpected (column : Int) (st : State) :
    (st.setExpected column).depth = st.depth := by
  rw [setExpected_eq]
  exact List.length_modifyHead

theorem push_eq_ok_iff {limit : Nat} {column : Int} {st pushed : State} :
    st.push limit column = .ok pushed ↔
      st.depth + 1 < limit ∧ pushed = { st with frames := ⟨column, false⟩ :: st.frames } := by
  unfold push
  split
  case isTrue h => simp [h, eq_comm]
  case isFalse h => simp [h]

theorem push_eq_error_iff {limit : Nat} {column : Int} {st : State} {e : NestingError} :
    st.push limit column = .error e ↔ limit ≤ st.depth + 1 ∧ e = .tooDeep limit := by
  unfold push
  split
  case isTrue h => simp [Nat.not_le.2 h]
  case isFalse h => simp [Nat.not_lt.1 h, eq_comm]

theorem depth_of_push {limit : Nat} {column : Int} {st pushed : State}
    (h : st.push limit column = .ok pushed) : pushed.depth = st.depth + 1 := by
  obtain ⟨-, rfl⟩ := push_eq_ok_iff.1 h
  rfl

theorem length_wrapperDepthsOf (frames : List Frame) :
    (wrapperDepthsOf frames).length = frames.countP Frame.wrapper := by
  induction frames with
  | nil => rfl
  | cons frame outer ih => by_cases h : frame.wrapper <;> simp [wrapperDepthsOf, h, ih]

/-- Every open form is a wrapper exactly if there are as many open wrappers as open forms. -/
theorem allWrappers_iff {st : State} : st.allWrappers ↔ st.wrapperDepths.length = st.depth := by
  simp [allWrappers, wrapperDepths, length_wrapperDepthsOf, depth, List.countP_eq_length]

end State

end SchemeStyle
