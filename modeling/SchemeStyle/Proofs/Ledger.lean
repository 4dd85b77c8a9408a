import SchemeStyle.Ledger
import SchemeStyle.Proofs.Consistency

/-!
# Accounts that are kept apart agree

A ledger keeps its accounts of the open forms in lists of their own, which are written at different
times. They agree all the same between any two lines, also after a line whose nesting left its
bounds (`Ledger.consistent_of_reachable`).

To see that, a ledger is compared with a state, which has these accounts in one: every state has a
ledger (`State.toLedger`), and the checks of a line do to the ledger what they do to the state
(`Ledger.lintLine_toLedger`). That is so for each event by itself, with one proviso. To mark the
innermost form as a wrapper puts down its depth once more each time, so the two part if a form is
marked twice. It is not, since the form whose operator is being read has no mark yet
(`State.InnermostUnmarked`): a delimiter opens it without, and its operator ends only once.
-/

namespace SchemeStyle

variable {style : Style} {st st' : State} {cur : Cursor} {c : Char} {mode : Mode}

/-! ### The ledger of a state -/

namespace State

/-- The accounts of a state, each by itself. -/
def toLedger (st : State) : Ledger where
  line := st.line
  flagged := st.flagged
  blanks := st.blanks
  inString := st.inString
  quotedAlign := st.quotedAlign
  stack := st.columns
  wrappers := st.wrapperDepths
  importDepths := st.imports.depths
  lastId := st.imports.lastId
  lastName := st.imports.lastName

/-- There is an open form, and the innermost one is not marked as a wrapper. -/
def InnermostUnmarked (st : State) : Prop :=
  ∃ frame outer, st.frames = frame :: outer ∧ frame.wrapper = false

theorem columns_eq_concat {frame : Frame} {outer : List Frame} (h : st.frames = frame :: outer) :
    st.columns = ({ st with frames := outer } : State).columns ++ [frame.column] := by
  simp [columns, h]

end State

/-- The step of the ledger. -/
def Step.toLedger (s : Step) : Ledger.Step := ⟨s.findings, s.state.toLedger, s.next⟩

/-- The outcome for the ledger. -/
def Outcome.toLedger (o : Outcome) : Ledger.Outcome := ⟨o.state.toLedger, o.findings, o.error?⟩

namespace Ledger

@[simp] theorem depth_toLedger (st : State) : st.toLedger.depth = st.depth := by
  simp [depth, State.toLedger, State.columns, State.depth]

@[simp] theorem expected_toLedger (st : State) : st.toLedger.expected = st.expected := by
  show st.columns.getLastD 0 = st.expected
  rw [State.expected]
  split
  case h_1 h => simp [State.columns, h]
  case h_2 h => rw [State.columns_eq_concat h, List.getLastD_concat]

@[simp] theorem block_toLedger (st : State) : st.toLedger.block = st.imports.block := by
  rcases st with ⟨_, _, _, _, _, _, _, _ | _ | _ | _⟩ <;> rfl

/-- As many wrappers as open forms: all open forms are wrappers. -/
theorem depth_eq_length_wrappers_iff (st : State) :
    st.toLedger.depth = st.toLedger.wrappers.length ↔ st.allWrappers = true := by
  rw [depth_toLedger, State.allWrappers_iff, eq_comm]
  rfl

/-! ### Changes -/

@[simp] theorem setExpected_toLedger (column : Int) (st : State) :
    st.toLedger.setExpected column = (st.setExpected column).toLedger := by
  rcases hframes : st.frames with - | ⟨frame, outer⟩
  · simp [setExpected, State.toLedger, State.setExpected, State.columns, State.wrapperDepths,
      hframes]
  · have hmoved : (st.setExpected column).frames = { frame with column := column } :: outer := by
      simp [State.setExpected, hframes]
    have hstack : st.columns.dropLast ++ [column] = (st.setExpected column).columns := by
      rw [State.columns_eq_concat hframes, List.dropLast_concat, State.columns_eq_concat hmoved]
      simp [State.columns, State.setExpected, hframes]
    show ({ st.toLedger with stack := st.columns.dropLast ++ [column] } : Ledger) = _
    rw [hstack]
    simp [State.toLedger, State.setExpected, State.wrapperDepths, State.wrapperDepthsOf, hframes]

/-- A form that is marked for the first time has its depth put down behind all others. -/
theorem markWrapper_toLedger (h : st.InnermostUnmarked) :
    st.toLedger.markWrapper = st.markWrapper.toLedger := by
  obtain ⟨frame, outer, hframes, hunmarked⟩ := h
  rw [markWrapper, depth_toLedger]
  simp [State.toLedger, State.markWrapper, State.wrapperDepths, State.wrapperDepthsOf,
    State.columns, State.depth, hframes, hunmarked]

theorem push_toLedger (limit : Nat) (column : Int) (st : State) :
    st.toLedger.push limit column = (st.push limit column).map State.toLedger := by
  rw [push, State.push, depth_toLedger]
  split_ifs
  · simp [Except.map, State.toLedger, State.columns, State.wrapperDepths, State.wrapperDepthsOf]
  · rfl

/-- With the innermost form its depth is taken off the wrappers, if it is one of them. -/
theorem pop_toLedger (st : State) : st.toLedger.pop = st.pop.map State.toLedger := by
  rw [pop, State.pop, depth_toLedger, State.depth]
  rcases hframes : st.frames with - | ⟨frame, outer⟩
  · rfl
  have hstack : st.columns.dropLast = ({ st with frames := outer } : State).columns := by
    rw [State.columns_eq_concat hframes, List.dropLast_concat]
  have hwrappers : (if st.wrapperDepths.getLast? = some (outer.length + 1)
      then st.wrapperDepths.dropLast else st.wrapperDepths) = State.wrapperDepthsOf outer := by
    rw [State.wrapperDepths, hframes, State.wrapperDepthsOf]
    cases frame.wrapper with
    | true => simp
    | false =>
      have hle : (State.wrapperDepthsOf outer).getLast? ≠ some (outer.length + 1) := fun hlast ↦
        absurd (pos_and_le_of_mem_wrapperDepthsOf (List.mem_of_getLast? hlast)).2 (by omega)
      simp [hle]
  rw [if_neg (by simp), List.length_cons]
  show Except.ok ({ st.toLedger with
    stack := st.columns.dropLast
    wrappers := if st.wrapperDepths.getLast? = some (outer.length + 1)
      then st.wrapperDepths.dropLast else st.wrapperDepths } : Ledger) = _
  rw [hstack, hwrappers]
  rfl

theorem enterImports_toLedger (h : st.imports.block ≠ .declaration) :
    st.toLedger.enterImports = st.enterImports.toLedger := by
  rw [enterImports, depth_toLedger]
  rcases himports : st.imports with - | s | ⟨s, u, id⟩ | ⟨s, u, d, id, name⟩
  case inDeclaration => exact absurd (by rw [himports]; rfl) h
  all_goals
    simp [State.toLedger, State.enterImports, State.columns, State.wrapperDepths, himports,
      ImportContext.enter, ImportContext.depths, ImportContext.lastId, ImportContext.lastName]

theorem leaveImports_toLedger (depth : Nat) (st : State) :
    (st.toLedger.leaveImports depth).2 = (st.leaveImports depth).2.toLedger := by
  rw [leaveImports, State.leaveImports, ImportContext.leave, block_toLedger]
  show Prod.snd (if st.imports.depths.getLast? = some depth then _ else _) = _
  by_cases hlast : st.imports.depths.getLast? = some depth
  · rw [if_pos hlast, if_pos hlast]
    rcases himports : st.imports with - | s | ⟨s, u, id⟩ | ⟨s, u, d, id, name⟩ <;>
      simp [State.toLedger, State.columns, State.wrapperDepths, himports, ImportContext.outer,
        ImportContext.block, ImportContext.depths, ImportContext.lastId, ImportContext.lastName]
  · rw [if_neg hlast, if_neg hlast]

/-! ### Checks -/

theorem alignLine_toLedger (index : Nat) (st : State) :
    st.toLedger.alignLine index =
      ((SchemeStyle.alignLine index st).1, (SchemeStyle.alignLine index st).2.toLedger) := by
  rw [alignLine, SchemeStyle.alignLine]
  simp only [depth_eq_length_wrappers_iff, expected_toLedger, setExpected_toLedger]
  show (if _ then _ else if _ then _ else if st.quotedAlign = some index then _ else _) = _
  split_ifs <;> rfl

theorem importOperator_toLedger (style : Style) (token : Token) (st : State) :
    st.toLedger.importOperator style token =
      ((SchemeStyle.importOperator style token st).1,
        (SchemeStyle.importOperator style token st).2.toLedger) := by
  have henter := @enterImports_toLedger st
  rw [importOperator, SchemeStyle.importOperator, block_toLedger]
  rcases himports : st.imports with - | s | ⟨s, u, id⟩ | ⟨s, u, d, id, name⟩ <;>
    rw [himports] at henter <;> dsimp only [ImportContext.block]
  · rw [henter (by simp [ImportContext.block])]
    split_ifs <;> rfl
  · rw [henter (by simp [ImportContext.block])]
    split_ifs <;> rfl
  · rw [henter (by simp [ImportContext.block])]
    simp [State.toLedger, himports, State.enterImports, ImportContext.enter,
      ImportContext.setLastId, ImportContext.lastId, ImportContext.lastName, State.columns,
      State.wrapperDepths, ImportContext.depths]

/-- The operator of a form is finished alike in both if the form is not marked yet. -/
theorem finishOperator_toLedger (h : st.InnermostUnmarked) (style : Style) (token : Token)
    (index : Nat) (followed : Bool) :
    st.toLedger.finishOperator style token index followed =
      ((SchemeStyle.finishOperator style token index followed st).1,
        (SchemeStyle.finishOperator style token index followed st).2.toLedger) := by
  have hmarked : (if (style.rules.lookup token.text token.start).wrapper
      then st.toLedger.markWrapper else st.toLedger) =
      (if (style.rules.lookup token.text token.start).wrapper
        then st.markWrapper else st).toLedger := by
    rw [markWrapper_toLedger h]
    split_ifs <;> rfl
  rw [finishOperator, SchemeStyle.finishOperator, ← importOperator_toLedger, hmarked]
  cases bodyColumn? (style.rules.lookup token.text token.start) token index followed with
  | none => rfl
  | some column => exact congrArg (importOperator style token) (setExpected_toLedger column _)

theorem nameFindings_toLedger (cur : Cursor) (st : State) :
    st.toLedger.nameFindings cur = SchemeStyle.nameFindings cur st := by
  rw [nameFindings, SchemeStyle.nameFindings, block_toLedger]
  rcases himports : st.imports with - | s | ⟨s, u, id⟩ | ⟨s, u, d, id, name⟩ <;>
    simp [State.toLedger, himports, ImportContext.block, ImportContext.lastName]

theorem rememberName_toLedger (cur : Cursor) (st : State) :
    st.toLedger.rememberName cur = (SchemeStyle.rememberName cur st).toLedger := by
  rw [rememberName, SchemeStyle.rememberName, block_toLedger]
  rcases himports : st.imports with - | s | ⟨s, u, id⟩ | ⟨s, u, d, id, name⟩ <;>
    cases cur.word.isBlank <;>
      simp [State.toLedger, himports, ImportContext.block, ImportContext.setLastName, State.columns,
        State.wrapperDepths, ImportContext.depths, ImportContext.lastId, ImportContext.lastName]

/-! ### One character -/

theorem openForm_toLedger (style : Style) (cur : Cursor) (c : Char) (st : State) :
    st.toLedger.openForm style cur c = (SchemeStyle.openForm style cur c st).toLedger := by
  rw [openForm, SchemeStyle.openForm, push_toLedger]
  cases st.push style.maxDepth (cur.index + 1) <;> rfl

theorem closeForm_toLedger (cur : Cursor) (c : Char) (st : State) :
    st.toLedger.closeForm cur c = (SchemeStyle.closeForm cur c st).toLedger := by
  have hwrapped : (!st.toLedger.wrappers.isEmpty &&
      st.toLedger.depth == st.toLedger.wrappers.length) =
      (!st.frames.isEmpty && st.allWrappers) := by
    have hdepth : st.toLedger.depth = st.frames.length := depth_toLedger st
    rw [Bool.eq_iff_iff, Bool.and_eq_true, Bool.and_eq_true, beq_iff_eq,
      ← depth_eq_length_wrappers_iff, and_congr_left_iff]
    intro hall
    rw [Bool.not_eq_true', Bool.not_eq_true', List.isEmpty_eq_false_iff, List.isEmpty_eq_false_iff,
      ← List.length_pos_iff, ← List.length_pos_iff, ← hall, hdepth]
  rw [closeForm, SchemeStyle.closeForm, pop_toLedger, nameFindings_toLedger, Bool.and_assoc,
    Bool.and_assoc, hwrapped, depth_toLedger]
  rcases st.pop with e | popped
  · rfl
  · exact congrArg (fun l ↦ (⟨_, l, _⟩ : Step)) (leaveImports_toLedger st.depth popped)

/-- An operator is being read only in a form that is not marked. -/
theorem codeChar_toLedger {operator? : Option Token}
    (h : ∀ token, operator? = some token → st.InnermostUnmarked) (style : Style) (cur : Cursor)
    (c : Char) :
    st.toLedger.codeChar style cur operator? c =
      (SchemeStyle.codeChar style cur operator? c st).toLedger := by
  unfold codeChar SchemeStyle.codeChar
  rw [openForm_toLedger, closeForm_toLedger, nameFindings_toLedger, rememberName_toLedger]
  rcases operator? with - | token
  · dsimp only
    split_ifs <;> rfl
  · simp only [finishOperator_toLedger (h token rfl)]
    split_ifs <;> rfl

theorem step_toLedger (h : ∀ token, cur.mode = .operator token → st.InnermostUnmarked)
    (style : Style) (aligned : Bool) (c : Char) :
    st.toLedger.step style aligned cur c = (SchemeStyle.step style aligned cur c st).toLedger := by
  unfold step SchemeStyle.step
  rcases hmode : cur.mode with - | - | token | -
  · dsimp only
    split_ifs
    · rfl
    · rw [alignLine_toLedger, codeChar_toLedger (by simp)]
      rfl
    · rw [codeChar_toLedger (by simp)]
      rfl
  · dsimp only
    rw [codeChar_toLedger (by simp)]
    rfl
  · dsimp only
    rw [codeChar_toLedger fun _ _ ↦ h token hmode]
    rfl
  · dsimp only
    split_ifs <;> rfl

/-! ### Lines -/

/-- Where an operator is read next, its form was opened at this character, or its operator was being
read before. -/
theorem innermostUnmarked_of_move (hmove : Move style cur c st st' (.go mode))
    (h : ∀ token, cur.mode = .operator token → st.InnermostUnmarked) (token : Token)
    (hmode : mode = .operator token) : st'.InnermostUnmarked := by
  cases hmove with
  | «open» => exact ⟨_, _, rfl, rfl⟩
  | operator before hbefore => exact h before hbefore
  | _ => cases hmode

/-- **A scan does to the ledger of a state what it does to the state.** -/
theorem scan_toLedger (h : ∀ token, cur.mode = .operator token → st.InnermostUnmarked)
    (style : Style) (aligned : Bool) (text : List Char) :
    scan style aligned cur st.toLedger text =
      (SchemeStyle.scan style aligned cur st text).toLedger := by
  induction text generalizing cur st with
  | nil => rfl
  | cons c text ih =>
    have hmove := move_of_step style aligned cur c st
    rw [scan, SchemeStyle.scan, step_toLedger h, Step.toLedger]
    rcases hnext : (SchemeStyle.step style aligned cur c st).next with mode | - | e
    · rw [hnext] at hmove
      have hentered : ∀ token, cur.mode = .operator token →
          (entered aligned cur c st).InnermostUnmarked := by
        intro token hmode
        rw [entered, if_neg fun hindent ↦ by cases hmode.symm.trans hindent.1]
        exact h token hmode
      have hnext : ∀ token, (cur.advance mode c).mode = .operator token →
          (SchemeStyle.step style aligned cur c st).state.InnermostUnmarked :=
        innermostUnmarked_of_move hmove hentered
      exact congrArg (Outcome.after _) (ih hnext)
    · rfl
    · rfl

/-- **The checks of a line do to the ledger of a state what they do to the state.** -/
theorem lintLine_toLedger (style : Style) (st : State) (content : List Char) :
    st.toLedger.lintLine style content = (SchemeStyle.lintLine style st content).toLedger := by
  have htext : st.toLedger.lintTextLine style content =
      (SchemeStyle.lintTextLine style st content).toLedger := by
    have hstart (token : Token) (hmode : (Cursor.start st.inString).mode = .operator token) :
        ({ st with blanks := 0 } : State).InnermostUnmarked := by
      cases hstring : st.inString <;> rw [hstring] at hmode <;> cases hmode
    have hscan := scan_toLedger hstart style (style.aligns content) (content ++ ['\n'])
    rw [lintTextLine, SchemeStyle.lintTextLine]
    show Outcome.after _ (if content.head? = some ';' ∧ ¬st.inString then _ else _) = _
    split_ifs
    · rfl
    · exact congrArg (Outcome.after _) hscan
  rw [lintLine, SchemeStyle.lintLine]
  split_ifs
  · rfl
  · rw [htext]
    rfl

/-! ### Ledgers between lines -/

/-- The ledgers that lines lead to from the start of a file. A line may have a newline inside, and
linting goes on after a line whose nesting left its bounds. -/
inductive Reachable (style : Style) : Ledger → Prop where
  | start : Reachable style {}
  | line {l : Ledger} (content : List Char) (h : Reachable style l) :
      Reachable style (l.lintLine style content).ledger

/-- Every ledger that lines lead to is that of a state that they lead to. -/
theorem Reachable.exists_state {l : Ledger} (h : Reachable style l) :
    ∃ st, SchemeStyle.Reachable style st ∧ l = st.toLedger := by
  induction h with
  | start => exact ⟨{}, .start, rfl⟩
  | line content _ ih =>
    obtain ⟨st, hst, rfl⟩ := ih
    exact ⟨_, .line content hst, by rw [lintLine_toLedger]; rfl⟩

/-- The accounts of the open forms between two lines. -/
structure Consistent (limit : Nat) (l : Ledger) : Prop where
  stack_ne_nil : l.stack ≠ []
  depth_lt : l.depth < limit
  wrappers_increasing : l.wrappers.Pairwise (· < ·)
  wrappers_mem : ∀ d ∈ l.wrappers, 1 ≤ d ∧ d ≤ l.depth
  /-- There are as many wrappers as open forms only if every open form is a wrapper. -/
  wrappers_length : l.wrappers.length = l.depth ↔ ∀ d, 1 ≤ d → d ≤ l.depth → d ∈ l.wrappers
  imports_increasing : l.importDepths.Pairwise (· < ·)
  imports_mem : ∀ d ∈ l.importDepths, 1 ≤ d ∧ d ≤ l.depth
  imports_length : l.importDepths.length ≤ 3
  lastName : l.lastName ≠ "" → l.block = .declaration
  lastId : l.lastId ≠ "" → l.block = .imports ∨ l.block = .declaration
  /-- Outside of all forms nothing is left of any account. -/
  empty : l.depth = 0 →
    l.wrappers = [] ∧ l.importDepths = [] ∧ l.lastId = "" ∧ l.lastName = ""

/-- All forms are wrappers if each depth is that of one. -/
theorem all_wrapper_iff_mem (frames : List Frame) : frames.all Frame.wrapper = true ↔
    ∀ d, 1 ≤ d → d ≤ frames.length → d ∈ State.wrapperDepthsOf frames := by
  induction frames with
  | nil =>
    exact iff_of_true rfl fun d hpos hle ↦
      absurd (Nat.le_trans hpos hle) (Nat.not_succ_le_zero 0)
  | cons frame outer ih =>
    have hinner (d : Nat) (hle : d ≤ outer.length) :
        d ∈ State.wrapperDepthsOf (frame :: outer) ↔ d ∈ State.wrapperDepthsOf outer := by
      have hne : d ≠ outer.length + 1 := by omega
      cases hw : frame.wrapper <;> simp [State.wrapperDepthsOf, hw, hne]
    have hlast : outer.length + 1 ∈ State.wrapperDepthsOf (frame :: outer) ↔
        frame.wrapper = true := by
      have hnot : outer.length + 1 ∉ State.wrapperDepthsOf outer := fun hmem ↦
        absurd (pos_and_le_of_mem_wrapperDepthsOf hmem).2 (by omega)
      cases hw : frame.wrapper <;> simp [State.wrapperDepthsOf, hw, hnot]
    rw [List.all_cons, Bool.and_eq_true, ih, ← hlast]
    constructor
    · rintro ⟨hframe, houter⟩ d hpos hle
      rcases Nat.le_succ_iff.1 hle with hle | rfl
      · exact (hinner d hle).2 (houter d hpos hle)
      · exact hframe
    · intro hall
      refine ⟨hall _ (Nat.succ_pos _) (Nat.le_refl _), fun d hpos hle ↦ ?_⟩
      exact (hinner d hle).1 (hall d hpos (Nat.le_succ_of_le hle))

theorem consistent_toLedger {limit : Nat} (h : st.Nested limit) : st.toLedger.Consistent limit where
  stack_ne_nil := List.cons_ne_nil _ _
  depth_lt := by rw [depth_toLedger]; exact h.depth_lt
  wrappers_increasing := wrapperDepthsOf_increasing st.frames
  wrappers_mem d hd := by rw [depth_toLedger]; exact pos_and_le_of_mem_wrapperDepthsOf hd
  wrappers_length := by
    rw [eq_comm, depth_eq_length_wrappers_iff, depth_toLedger]
    exact all_wrapper_iff_mem st.frames
  imports_increasing := h.imports.increasing
  imports_mem d hd := by rw [depth_toLedger]; exact ⟨h.imports.pos d hd, h.imports.le d hd⟩
  imports_length := ImportContext.length_depths_le st.imports
  lastName hname := by rw [block_toLedger]; exact ImportContext.block_of_lastName_ne hname
  lastId hid := by rw [block_toLedger]; exact ImportContext.block_of_lastId_ne hid
  empty hzero := by
    rw [depth_toLedger] at hzero
    have hframes : st.frames = [] := List.eq_nil_of_length_eq_zero hzero
    have himports := h.imports_eq_outside hzero
    simp [State.toLedger, State.wrapperDepths, State.wrapperDepthsOf, hframes, himports,
      ImportContext.depths, ImportContext.lastId, ImportContext.lastName]

/-- **The accounts of the open forms agree in every ledger that lines lead to.** -/
theorem consistent_of_reachable {l : Ledger} (h : Reachable style l) :
    l.Consistent style.maxDepth := by
  obtain ⟨st, hst, rfl⟩ := h.exists_state
  exact consistent_toLedger hst.nested

/-- An import declaration read after a line whose nesting left its bounds. -/
theorem consistent_in_declaration :
    let failed := lintLine .standard {} "(library) (a))".toList
    let opened := lintLine .standard failed.ledger "(Chapter 1".toList
    let l := (lintLine .standard opened.ledger "  (use (:1 a b".toList).ledger
    failed.error? = some (13, .unmatched) ∧ l.importDepths = [1, 2, 3] ∧ l.lastId = ":1" ∧
      l.lastName = "b" ∧ Reachable .standard l ∧ l.Consistent Style.standard.maxDepth :=
  have hreachable := .line _ (.line _ (.line _ .start))
  ⟨by decide +kernel, by decide +kernel, by decide +kernel, by decide +kernel, hreachable,
    consistent_of_reachable hreachable⟩

end Ledger

end SchemeStyle
