import SchemeStyle.Proofs.Scan.Effects

/-!
# What one character can do

`step` decides by mode and character, and most of what it computes are findings. `Move` is its
effect on the state of the file alone, one constructor for each effect, with the circumstances under
which it arises; `move_of_step` says that there is no other. Whatever every move preserves is
preserved by a scan (`scan_induction`), so a fact about the state needs no second look at `step`.
-/

namespace SchemeStyle

/-- The operator being read, if there is one. -/
def Mode.operator? : Mode → Option Token
  | .operator token => some token
  | _ => none

/-- A character that means nothing in code but itself. -/
def IsPlain (c : Char) : Prop :=
  c ∉ ['"', ';', '(', '[', ')', ']', ' ', '\n']

/-- The effect of a character on the state, and where the scan goes. -/
inductive Move (style : Style) (cur : Cursor) (c : Char) (st : State) : State → Next → Prop where
  | indent (mode : cur.mode = .indent) (space : c = ' ') : Move style cur c st st (.go .indent)
  | string (mode : cur.mode = .string) (inside : c = '"' → cur.escaped) :
      Move style cur c st st (.go .string)
  | closeString (mode : cur.mode = .string) (quote : c = '"') (ends : cur.escaped = false) :
      Move style cur c st { st with inString := false } (.go .code)
  | openString (mode : cur.mode ≠ .string) (quote : c = '"') :
      Move style cur c st { st with inString := true } (.go .string)
  | comment (mode : cur.mode.operator? = none) (code : cur.mode ≠ .string) (semicolon : c = ';') :
      Move style cur c st st .comment
  | operatorComment (token : Token) (mode : cur.mode = .operator token) (semicolon : c = ';') :
      Move style cur c st (finishOperator style token cur.index false st).2 .comment
  | tooDeep (mode : cur.mode ≠ .string) (opener : c = '(' ∨ c = '[')
      (full : style.maxDepth ≤ st.depth + 1) :
      Move style cur c st st (.stop (.tooDeep style.maxDepth))
  | open (mode : cur.mode ≠ .string) (opener : c = '(' ∨ c = '[')
      (room : st.depth + 1 < style.maxDepth) (align : Option Nat) :
      Move style cur c st
        { st with frames := ⟨(cur.index + 1 : Nat), false⟩ :: st.frames, quotedAlign := align }
        (.go (.operator ⟨cur.index + 1, []⟩))
  | unmatched (mode : cur.mode ≠ .string) (closer : c = ')' ∨ c = ']') (empty : st.frames = []) :
      Move style cur c st st (.stop .unmatched)
  | close (mode : cur.mode ≠ .string) (closer : c = ')' ∨ c = ']') (frame : Frame)
      (outer : List Frame) (frames : st.frames = frame :: outer) :
      Move style cur c st
        { st with frames := outer, imports := (st.imports.leave st.depth).2 } (.go .code)
  | endOperator (token : Token) (mode : cur.mode = .operator token) (blank : c = ' ' ∨ c = '\n') :
      Move style cur c st (finishOperator style token cur.index (c == ' ') st).2 (.go .code)
  | endWord (mode : cur.mode.operator? = none) (code : cur.mode ≠ .string)
      (blank : c = ' ' ∨ c = '\n') :
      Move style cur c st (rememberName cur st) (.go .code)
  | operator (token : Token) (mode : cur.mode = .operator token) (plain : IsPlain c) :
      Move style cur c st st (.go (.operator (token.push c)))
  | code (mode : cur.mode.operator? = none) (code : cur.mode ≠ .string) (plain : IsPlain c) :
      Move style cur c st st (.go .code)

/-- Only a semicolon starts a comment. -/
theorem Move.eq_semicolon {style : Style} {cur : Cursor} {c : Char} {st st' : State}
    (h : Move style cur c st st' .comment) : c = ';' := by
  cases h with
  | comment mode code semicolon => exact semicolon
  | operatorComment token mode semicolon => exact semicolon

/-- Only a delimiter takes the nesting out of its bounds. -/
theorem Move.mem_of_stop {style : Style} {cur : Cursor} {c : Char} {st st' : State}
    {e : NestingError} (h : Move style cur c st st' (.stop e)) : c ∈ ['(', '[', ')', ']'] := by
  cases h with
  | tooDeep mode opener => rcases opener with rfl | rfl <;> simp
  | unmatched mode closer => rcases closer with rfl | rfl <;> simp

/-- No move touches what is counted from line to line. -/
theorem Move.tally_eq {style : Style} {cur : Cursor} {c : Char} {st st' : State} {next : Next}
    (h : Move style cur c st st' next) : st'.tally = st.tally := by
  cases h with
  | operatorComment token => exact tally_finishOperator style token cur.index false st
  | endOperator token => exact tally_finishOperator style token cur.index (c == ' ') st
  | endWord => exact tally_rememberName cur st
  | _ => rfl

/-- Opening a form is a move. -/
theorem move_of_openForm {cur : Cursor} {c : Char} (mode : cur.mode ≠ .string)
    (opener : c = '(' ∨ c = '[') (style : Style) (st : State) :
    Move style cur c st (openForm style cur c st).state (openForm style cur c st).next := by
  unfold openForm
  split
  case h_1 e h =>
    obtain ⟨full, rfl⟩ := State.push_eq_error_iff.1 h
    exact .tooDeep mode opener full
  case h_2 pushed h =>
    obtain ⟨room, rfl⟩ := State.push_eq_ok_iff.1 h
    exact .open mode opener room _

/-- Closing a form is a move. -/
theorem move_of_closeForm {cur : Cursor} {c : Char} (mode : cur.mode ≠ .string)
    (closer : c = ')' ∨ c = ']') (style : Style) (st : State) :
    Move style cur c st (closeForm cur c st).state (closeForm cur c st).next := by
  rcases hframes : st.frames with - | ⟨frame, outer⟩
  · have hpop : st.pop = .error .unmatched := by rw [State.pop, hframes]
    rw [closeForm, hpop]
    exact .unmatched mode closer hframes
  · have hpop : st.pop = .ok { st with frames := outer } := by rw [State.pop, hframes]
    rw [closeForm, hpop]
    exact .close mode closer frame outer hframes

/-- A character of code makes a move. -/
theorem move_of_codeChar (style : Style) (cur : Cursor) (mode : cur.mode ≠ .string) (c : Char)
    (st : State) :
    Move style cur c st (codeChar style cur cur.mode.operator? c st).state
      (codeChar style cur cur.mode.operator? c st).next := by
  unfold codeChar
  split_ifs with quote semicolon opener closer blank
  · exact .openString mode quote
  · rcases hmode : cur.mode with - | - | token | -
    · exact .comment (by rw [hmode]; rfl) mode semicolon
    · exact .comment (by rw [hmode]; rfl) mode semicolon
    · exact .operatorComment token hmode semicolon
    · exact absurd hmode mode
  · exact move_of_openForm mode opener style st
  · exact move_of_closeForm mode closer style st
  · rcases hmode : cur.mode with - | - | token | -
    · exact .endWord (by rw [hmode]; rfl) mode blank
    · exact .endWord (by rw [hmode]; rfl) mode blank
    · exact .endOperator token hmode blank
    · exact absurd hmode mode
  · have plain : IsPlain c := by simp_all [IsPlain]
    rcases hmode : cur.mode with - | - | token | -
    · exact .code (by rw [hmode]; rfl) mode plain
    · exact .code (by rw [hmode]; rfl) mode plain
    · exact .operator token hmode plain
    · exact absurd hmode mode

/-- The state that a character meets: with the first character of its text that is none of the
spaces before it, a line may have been checked for its start. -/
def entered (aligned : Bool) (cur : Cursor) (c : Char) (st : State) : State :=
  if cur.mode = .indent ∧ c ≠ ' ' ∧ aligned then (alignLine cur.index st).2 else st

/-- Whether or not it was checked, the start of a line moves the expected column at most, and
forgets the one kept for a quoted form at most. -/
theorem exists_entered_eq (aligned : Bool) (cur : Cursor) (c : Char) (st : State) :
    ∃ (column : Int) (quoted : Option Nat),
      entered aligned cur c st = { st.setExpected column with quotedAlign := quoted } := by
  rw [entered]
  split_ifs
  · exact exists_alignLine_eq cur.index st
  · exact ⟨st.expected, st.quotedAlign, by rw [State.setExpected_expected]⟩

@[simp] theorem depth_entered (aligned : Bool) (cur : Cursor) (c : Char) (st : State) :
    (entered aligned cur c st).depth = st.depth := by
  obtain ⟨column, quoted, h⟩ := exists_entered_eq aligned cur c st
  rw [h]
  exact State.depth_setExpected column st

@[simp] theorem inString_entered (aligned : Bool) (cur : Cursor) (c : Char) (st : State) :
    (entered aligned cur c st).inString = st.inString := by
  obtain ⟨column, quoted, h⟩ := exists_entered_eq aligned cur c st
  rw [h]
  exact State.inString_setExpected column st

@[simp] theorem imports_entered (aligned : Bool) (cur : Cursor) (c : Char) (st : State) :
    (entered aligned cur c st).imports = st.imports := by
  obtain ⟨column, quoted, h⟩ := exists_entered_eq aligned cur c st
  rw [h]
  exact State.imports_setExpected column st

@[simp] theorem tally_entered (aligned : Bool) (cur : Cursor) (c : Char) (st : State) :
    (entered aligned cur c st).tally = st.tally := by
  obtain ⟨column, quoted, h⟩ := exists_entered_eq aligned cur c st
  rw [h]
  exact State.tally_setExpected column st

/-- **Every step is a move**, made from the state that the check of the line's start leaves. -/
theorem move_of_step (style : Style) (aligned : Bool) (cur : Cursor) (c : Char) (st : State) :
    Move style cur c (entered aligned cur c st)
      (step style aligned cur c st).state (step style aligned cur c st).next := by
  rcases hmode : cur.mode with - | - | token | -
  · by_cases hc : c = ' '
    · simp only [step, hmode, hc, entered, Step.after]
      exact .indent hmode rfl
    · have h := move_of_codeChar style cur (by simp [hmode]) c (entered aligned cur c st)
      cases aligned <;> simpa [step, hmode, hc, entered, Step.after, Mode.operator?] using h
  · have h := move_of_codeChar style cur (by simp [hmode]) c st
    simpa [step, hmode, entered, Step.after, Mode.operator?] using h
  · have h := move_of_codeChar style cur (by simp [hmode]) c st
    simpa [step, hmode, entered, Step.after, Mode.operator?] using h
  · by_cases hc : c = '"' ∧ ¬cur.escaped
    · obtain ⟨rfl, ends⟩ := hc
      have ends : cur.escaped = false := by simpa using ends
      simpa [step, hmode, ends, entered, Step.after] using Move.closeString hmode rfl ends
    · have stays : ¬(c = '"' ∧ cur.escaped = false) := by simpa using hc
      have inside : c = '"' → cur.escaped := by simpa using hc
      simpa [step, hmode, stays, entered, Step.after] using Move.string hmode inside

/-! ### Invariants of a scan -/

/-- **What every step preserves holds after a scan.** `P` is what holds between two characters of a
line and `Q` what is left of it once the line has ended, in whatever way. -/
theorem scan_induction {P : Cursor → State → Prop} {Q : State → Prop} {style : Style}
    {aligned : Bool} (hQ : ∀ cur st, P cur st → Q st)
    (hgo : ∀ cur c st mode, P cur st → (step style aligned cur c st).next = .go mode →
      P (cur.advance mode c) (step style aligned cur c st).state)
    (hend : ∀ cur c st, P cur st → (∀ mode, (step style aligned cur c st).next ≠ .go mode) →
      Q (step style aligned cur c st).state)
    (cs : List Char) : ∀ cur st, P cur st → Q (scan style aligned cur st cs).state := by
  induction cs with
  | nil => exact hQ
  | cons c cs ih =>
    intro cur st h
    rw [scan]
    rcases hnext : (step style aligned cur c st).next with mode | - | e
    · exact ih _ _ (hgo cur c st mode h hnext)
    · exact hend cur c st h (by simp [hnext])
    · exact hend cur c st h (by simp [hnext])

theorem tally_step (style : Style) (aligned : Bool) (cur : Cursor) (c : Char) (st : State) :
    (step style aligned cur c st).state.tally = st.tally := by
  rw [(move_of_step style aligned cur c st).tally_eq, tally_entered]

/-- What is counted from line to line is not counted by the scan. -/
theorem tally_scan (style : Style) (aligned : Bool) (cs : List Char) (cur : Cursor) (st : State) :
    (scan style aligned cur st cs).state.tally = st.tally := by
  refine scan_induction (P := fun _ s ↦ s.tally = st.tally) (Q := fun s ↦ s.tally = st.tally)
    (fun _ _ h ↦ h) ?_ ?_ cs cur st rfl
  · intro cur c s mode h _
    rw [tally_step, h]
  · intro cur c s h _
    rw [tally_step, h]

end SchemeStyle
