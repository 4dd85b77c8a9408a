import Mathlib.Tactic.SplitIfs
import SchemeStyle.Scan

/-!
# What the checks change

The checks that a scan makes on its way change a state in few places, and of each check one equation
says in which: the check of a line's start moves a column and may use up the column kept for a
quoted form (`exists_alignLine_eq`), an operator gives its form a column and marks it
(`finishOperator_eq`) and may open an import form (`importOperator_eq`), and a word in a declaration
becomes the last name (`rememberName_eq`). What an equation does not name stays as it is, so the
views of a state after a check follow from its equation.

None of the checks opens or closes a form or a string, and what is counted from line to line
(`State.tally`) they leave alone altogether. The one change that matters for nesting is that an
operator may open an import form at the present depth (`depths_finishOperator`).
-/

namespace SchemeStyle

/-! ### The innermost form -/

namespace State

/-- What is counted from line to line: the lines, the blank ones in a row, and whether anything was
found. -/
def tally (st : State) : Nat × Nat × Bool :=
  (st.line, st.blanks, st.flagged)

@[simp] theorem tally_setExpected (column : Int) (st : State) :
    (st.setExpected column).tally = st.tally := by
  rw [setExpected_eq]
  rfl

@[simp] theorem inString_setExpected (column : Int) (st : State) :
    (st.setExpected column).inString = st.inString := by
  rw [setExpected_eq]

@[simp] theorem imports_setExpected (column : Int) (st : State) :
    (st.setExpected column).imports = st.imports := by
  rw [setExpected_eq]

@[simp] theorem allWrappers_setExpected (column : Int) (st : State) :
    (st.setExpected column).allWrappers = st.allWrappers := by
  rcases st with ⟨_, _, _, _, _, _, _ | _, _⟩ <;> rfl

@[simp] theorem setExpected_expected (st : State) : st.setExpected st.expected = st := by
  rcases st with ⟨_, _, _, _, _, _, _ | _, _⟩ <;> rfl

@[simp] theorem setExpected_setExpected (column column' : Int) (st : State) :
    (st.setExpected column).setExpected column' = st.setExpected column' := by
  rcases st with ⟨_, _, _, _, _, _, _ | _, _⟩ <;> rfl

end State

/-! ### The start of a line -/

/-- The check of a line's start moves the expected column at most, and forgets the one kept for a
quoted form at most. -/
theorem exists_alignLine_eq (index : Nat) (st : State) : ∃ (column : Int) (quoted : Option Nat),
    (alignLine index st).2 = { st.setExpected column with quotedAlign := quoted } := by
  have hsame : st = { st.setExpected st.expected with quotedAlign := st.quotedAlign } := by
    rw [State.setExpected_expected]
  rw [alignLine]
  split_ifs
  · exact ⟨_, _, hsame⟩
  · exact ⟨0, _, rfl⟩
  · exact ⟨index, none, rfl⟩
  · exact ⟨_, _, hsame⟩

@[simp] theorem depth_alignLine (index : Nat) (st : State) :
    (alignLine index st).2.depth = st.depth := by
  obtain ⟨column, quoted, h⟩ := exists_alignLine_eq index st
  rw [h]
  exact State.depth_setExpected column st

/-! ### Operators -/

/-- What an operator does to the import forms, in a form that begins at the depth. -/
def ImportContext.operate (style : Style) (token : Token) (depth : Nat) (ctx : ImportContext) :
    ImportContext :=
  match ctx with
  | outside => if style.importBlock token.text token.start = .section then ctx.enter depth else ctx
  | inSection _ =>
    if style.importBlock token.text token.start = .imports then ctx.enter depth else ctx
  | inImports .. => (ctx.enter depth).setLastId token.text
  | inDeclaration .. => ctx

/-- An operator opens at most one import form, at the depth of its own form. -/
theorem ImportContext.depths_operate (style : Style) (token : Token) (depth : Nat)
    (ctx : ImportContext) :
    (ctx.operate style token depth).depths = ctx.depths ∨
      (ctx.operate style token depth).depths = ctx.depths ++ [depth] := by
  cases ctx with
  | outside | inSection =>
    rw [operate]
    split_ifs
    · exact .inr rfl
    · exact .inl rfl
  | inImports => exact .inr rfl
  | inDeclaration => exact .inl rfl

/-- What is found about an operator: inside the form of imports it is an id, and may be out of
order. -/
def ImportContext.idFindings (token : Token) : ImportContext → List Finding
  | inImports _ _ last =>
    findingIf (!idsInOrder last token.text) token.start (.idOrder last token.text)
  | _ => []

/-- An operator is judged by the import forms, and changes nothing else. -/
theorem importOperator_eq (style : Style) (token : Token) (st : State) :
    importOperator style token st =
      (st.imports.idFindings token,
        { st with imports := st.imports.operate style token st.depth }) := by
  obtain ⟨line, flagged, blanks, inString, quotedAlign, base, frames, imports⟩ := st
  cases imports with
  | outside | inSection s =>
    dsimp only [importOperator, ImportContext.operate]
    split_ifs <;> rfl
  | inImports s u last => rfl
  | inDeclaration s u d last name => rfl

/-- An open form, once its operator is known. -/
def Frame.operate (style : Style) (token : Token) (index : Nat) (followed : Bool) (frame : Frame) :
    Frame :=
  let flags := style.rules.lookup token.text token.start
  { column := (bodyColumn? flags token index followed).elim frame.column Nat.cast
    wrapper := frame.wrapper || flags.wrapper }

/-- The end of an operator gives its form a column and makes it a wrapper, as far as the operator
asks for it, and may open an import form. -/
theorem finishOperator_eq (style : Style) (token : Token) (index : Nat) (followed : Bool)
    (st : State) :
    let flags := style.rules.lookup token.text token.start
    finishOperator style token index followed st =
      (st.imports.idFindings token,
        { st with
          base :=
            if st.frames.isEmpty then
              (bodyColumn? flags token index followed).elim st.base Nat.cast
            else st.base
          frames := st.frames.modifyHead (Frame.operate style token index followed)
          imports := st.imports.operate style token st.depth }) := by
  intro flags
  have haligned : ∀ (column? : Option Nat) (wrapper : Bool),
      column?.elim (if wrapper then st.markWrapper else st)
          (fun column ↦ (if wrapper then st.markWrapper else st).setExpected column) =
        { st with
          base := if st.frames.isEmpty then column?.elim st.base Nat.cast else st.base
          frames := st.frames.modifyHead fun frame ↦
            ⟨column?.elim frame.column Nat.cast, frame.wrapper || wrapper⟩ } := by
    rintro (_ | column) (_ | _) <;>
      rcases st with ⟨_, _, _, _, _, _, _ | ⟨⟨_, _ | _⟩, _⟩, _⟩ <;> rfl
  have hfinish : finishOperator style token index followed st = importOperator style token
      ((bodyColumn? flags token index followed).elim (if flags.wrapper then st.markWrapper else st)
        fun column ↦ (if flags.wrapper then st.markWrapper else st).setExpected column) := by
    rw [finishOperator]
    cases bodyColumn? flags token index followed <;> rfl
  rw [hfinish, haligned, importOperator_eq]
  simp only [State.depth, List.length_modifyHead]
  rfl

@[simp] theorem depth_finishOperator (style : Style) (token : Token) (index : Nat)
    (followed : Bool) (st : State) :
    (finishOperator style token index followed st).2.depth = st.depth := by
  rw [finishOperator_eq]
  exact List.length_modifyHead

@[simp] theorem inString_finishOperator (style : Style) (token : Token) (index : Nat)
    (followed : Bool) (st : State) :
    (finishOperator style token index followed st).2.inString = st.inString := by
  rw [finishOperator_eq]

@[simp] theorem tally_finishOperator (style : Style) (token : Token) (index : Nat)
    (followed : Bool) (st : State) :
    (finishOperator style token index followed st).2.tally = st.tally := by
  rw [finishOperator_eq]
  rfl

theorem depths_finishOperator (style : Style) (token : Token) (index : Nat) (followed : Bool)
    (st : State) :
    (finishOperator style token index followed st).2.imports.depths = st.imports.depths ∨
      (finishOperator style token index followed st).2.imports.depths =
        st.imports.depths ++ [st.depth] := by
  rw [finishOperator_eq]
  exact st.imports.depths_operate style token st.depth

/-! ### Names -/

/-- A word that ends changes nothing but the last name. -/
theorem rememberName_eq (cur : Cursor) (st : State) :
    rememberName cur st = { st with
      imports :=
        if cur.word.isBlank then st.imports else st.imports.setLastName cur.word.text } := by
  rw [rememberName]
  split_ifs <;> rfl

@[simp] theorem depth_rememberName (cur : Cursor) (st : State) :
    (rememberName cur st).depth = st.depth := by
  rw [rememberName_eq]
  rfl

@[simp] theorem inString_rememberName (cur : Cursor) (st : State) :
    (rememberName cur st).inString = st.inString := by
  rw [rememberName_eq]

@[simp] theorem tally_rememberName (cur : Cursor) (st : State) :
    (rememberName cur st).tally = st.tally := by
  rw [rememberName_eq]
  rfl

@[simp] theorem depths_rememberName (cur : Cursor) (st : State) :
    (rememberName cur st).imports.depths = st.imports.depths := by
  rw [rememberName_eq]
  dsimp only
  split_ifs
  · rfl
  · exact ImportContext.depths_setLastName _ _

/-- Closing at a depth forgets the import form that began there. -/
theorem depths_leave (depth : Nat) (ctx : ImportContext) :
    (ctx.leave depth).2.depths =
      if ctx.depths.getLast? = some depth then ctx.depths.dropLast else ctx.depths := by
  rw [ImportContext.leave]
  split_ifs
  · exact ImportContext.depths_outer ctx
  · rfl

end SchemeStyle
