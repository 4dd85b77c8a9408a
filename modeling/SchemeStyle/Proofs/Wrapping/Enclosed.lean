import SchemeStyle.Proofs.Lockstep

/-!
# Inside one more wrapper

The same lines may stand at the top of a file or inside a wrapper that starts at column zero. The
states they lead to differ throughout by one form: the wrapper lies below all others, what would be
the column outside of all forms is the column of the wrapper, and every import form is one level
deeper (`State.enclosed`). No check sees a difference between the two (`lineLockstep_encloses`): the
innermost column is the same, all open forms are wrappers in one state if they are in the other, and
the same delimiters close the import forms.

Two things do tell the states apart, and neither is a check. A delimiter that closes a form too many
in one state closes the wrapper in the other, and the wrapper takes one level of the depth there is.
So the wrapper is not noticed by lines that are linted to their end outside of it and leave a level
of the depth unused (`lintDepths`); inside of it they are linted to their end too, and alike
(`lintLines_alike_of_encloses`).
-/

namespace SchemeStyle

variable {style : Style} {aligned : Bool} {s t : State} {cur : Cursor} {c : Char}
  {content : List Char} {lines : List (List Char)} {k : Nat}

/-! ### Imports one level deeper -/

namespace ImportContext

/-- The same import forms, one level deeper. -/
def deeper : ImportContext → ImportContext
  | outside => outside
  | inSection s => inSection (s + 1)
  | inImports s u id => inImports (s + 1) (u + 1) id
  | inDeclaration s u d id name => inDeclaration (s + 1) (u + 1) (d + 1) id name

@[simp] theorem block_deeper (ctx : ImportContext) : ctx.deeper.block = ctx.block := by
  cases ctx <;> rfl

@[simp] theorem lastId_deeper (ctx : ImportContext) : ctx.deeper.lastId = ctx.lastId := by
  cases ctx <;> rfl

@[simp] theorem lastName_deeper (ctx : ImportContext) : ctx.deeper.lastName = ctx.lastName := by
  cases ctx <;> rfl

@[simp] theorem depths_deeper (ctx : ImportContext) :
    ctx.deeper.depths = ctx.depths.map (· + 1) := by
  cases ctx <;> rfl

theorem deeper_setLastId (id : String) (ctx : ImportContext) :
    (ctx.setLastId id).deeper = ctx.deeper.setLastId id := by
  cases ctx <;> rfl

theorem deeper_setLastName (name : String) (ctx : ImportContext) :
    (ctx.setLastName name).deeper = ctx.deeper.setLastName name := by
  cases ctx <;> rfl

theorem deeper_enter (depth : Nat) (ctx : ImportContext) :
    (ctx.enter depth).deeper = ctx.deeper.enter (depth + 1) := by
  cases ctx <;> rfl

theorem deeper_outer (ctx : ImportContext) : ctx.outer.deeper = ctx.deeper.outer := by
  cases ctx <;> rfl

/-- An import form is left one level deeper exactly if it is left here. -/
theorem deeper_leave (depth : Nat) (ctx : ImportContext) :
    (ctx.leave depth).2.deeper = (ctx.deeper.leave (depth + 1)).2 := by
  have hlast : ctx.deeper.depths.getLast? = some (depth + 1) ↔
      ctx.depths.getLast? = some depth := by
    rw [depths_deeper, List.getLast?_map]
    cases ctx.depths.getLast? <;> simp
  rw [leave, leave]
  simp only [hlast]
  split_ifs
  · exact deeper_outer ctx
  · rfl

end ImportContext

/-! ### One more wrapper below -/

namespace State

/-- The state with a wrapper around all that is open. -/
def enclosed (st : State) : State :=
  { st with
    base := 0
    frames := st.frames ++ [⟨st.base, true⟩]
    imports := st.imports.deeper }

@[simp] theorem depth_enclosed (st : State) : st.enclosed.depth = st.depth + 1 := by
  simp [depth, enclosed]

@[simp] theorem expected_enclosed (st : State) : st.enclosed.expected = st.expected := by
  rcases st with ⟨_, _, _, _, _, _, _ | _, _⟩ <;> rfl

@[simp] theorem allWrappers_enclosed (st : State) : st.enclosed.allWrappers = st.allWrappers := by
  simp [allWrappers, enclosed]

theorem enclosed_setExpected (column : Int) (st : State) :
    (st.setExpected column).enclosed = st.enclosed.setExpected column := by
  rcases st with ⟨_, _, _, _, _, _, _ | _, _⟩ <;> rfl

theorem enclosed_markWrapper (st : State) : st.markWrapper.enclosed = st.enclosed.markWrapper := by
  rcases st with ⟨_, _, _, _, _, _, _ | _, _⟩ <;> rfl

theorem enclosed_enterImports (st : State) :
    st.enterImports.enclosed = st.enclosed.enterImports := by
  rw [enterImports, enterImports, depth_enclosed]
  simp only [enclosed, ImportContext.deeper_enter]

/-- What closes a form closes it inside the wrapper too. -/
theorem enclosed_closed {st : State} {frame : Frame} {outer : List Frame}
    (h : st.frames = frame :: outer) :
    st.enclosed.frames = frame :: (outer ++ [⟨st.base, true⟩]) ∧
      enclosed { st with frames := outer, imports := (st.imports.leave st.depth).2 } =
        { st.enclosed with
          frames := outer ++ [⟨st.base, true⟩]
          imports := (st.enclosed.imports.leave st.enclosed.depth).2 } := by
  rw [depth_enclosed]
  simp [enclosed, h, ImportContext.deeper_leave]

end State

theorem alignLine_enclosed (index : Nat) (st : State) :
    alignLine index st.enclosed = ((alignLine index st).1, (alignLine index st).2.enclosed) := by
  have hquoted : st.enclosed.quotedAlign = st.quotedAlign := rfl
  rw [alignLine, alignLine, State.expected_enclosed, State.allWrappers_enclosed, hquoted]
  split_ifs
  · rfl
  · rw [State.enclosed_setExpected]
  · rw [← State.enclosed_setExpected]
    rfl
  · rfl

/-- The second state is the first one inside one more wrapper, on some other line. -/
def Encloses (s t : State) : Prop :=
  Recounted s.enclosed t

/-- **No check sees the wrapper around all that is open.** -/
theorem lineLockstep_encloses : LineLockstep Encloses where
  allWrappers {s _} h :=
    (State.allWrappers_enclosed s).symm.trans (lineLockstep_recounted.allWrappers h)
  block {s _} h :=
    (ImportContext.block_deeper s.imports).symm.trans (lineLockstep_recounted.block h)
  lastId {s _} h :=
    (ImportContext.lastId_deeper s.imports).symm.trans (lineLockstep_recounted.lastId h)
  lastName {s _} h :=
    (ImportContext.lastName_deeper s.imports).symm.trans (lineLockstep_recounted.lastName h)
  setString b h := lineLockstep_recounted.setString b h
  setExpected {s _} column h := by
    rw [Encloses, State.enclosed_setExpected]
    exact lineLockstep_recounted.setExpected column h
  markWrapper {s _} h := by
    rw [Encloses, State.enclosed_markWrapper]
    exact lineLockstep_recounted.markWrapper h
  enterImports {s _} h := by
    rw [Encloses, State.enclosed_enterImports]
    exact lineLockstep_recounted.enterImports h
  setLastId {s _} id h := by
    have hset := lineLockstep_recounted.setLastId id h
    rw [State.enclosed, ← ImportContext.deeper_setLastId] at hset
    exact hset
  setLastName {s _} name h := by
    have hset := lineLockstep_recounted.setLastName name h
    rw [State.enclosed, ← ImportContext.deeper_setLastName] at hset
    exact hset
  opened {s _} frame align align' halign h :=
    lineLockstep_recounted.opened (s := s.enclosed) frame align align' halign h
  closed {s _ _ _ _ _} h hs ht := by
    obtain ⟨hframes, hclosed⟩ := State.enclosed_closed hs
    rw [Encloses, hclosed]
    exact lineLockstep_recounted.closed h hframes ht
  start index s t h := by
    have hstart := startsAlike_recounted index h
    rw [alignLine_enclosed] at hstart
    exact hstart
  inString {s _} h := lineLockstep_recounted.inString (s := s.enclosed) h
  blanks {s _} h := lineLockstep_recounted.blanks (s := s.enclosed) h
  counted {s _} h line line' blanks flagged flagged' :=
    lineLockstep_recounted.counted (s := s.enclosed) h line line' blanks flagged flagged'

/-! ### The depths of a run -/

/-- The depths that a scan passes through, one after each of its characters. -/
def scanDepths (style : Style) (aligned : Bool) : Cursor → State → List Char → List Nat
  | _, _, [] => []
  | cur, st, c :: cs =>
    let s := step style aligned cur c st
    s.state.depth ::
      match s.next with
      | .go mode => scanDepths style aligned (cur.advance mode c) s.state cs
      | .comment | .stop _ => []

/-- The depths that the linter passes through on a line. -/
def lineDepths (style : Style) (st : State) (content : List Char) : List Nat :=
  if isBlankLine content ∨ (content.head? = some ';' ∧ ¬st.inString) then []
  else
    scanDepths style (style.aligns content) (.start st.inString) { st with blanks := 0 }
      (content ++ ['\n'])

/-- The depths that the linter passes through on lines in a row. -/
def lintDepths (style : Style) : State → List (List Char) → List Nat
  | _, [] => []
  | st, content :: rest =>
    lineDepths style st content ++ lintDepths style (lintLine style st content).state rest

/-! ### The bounds inside -/

theorem Encloses.depth_eq (h : Encloses s t) : t.depth = s.depth + 1 := by
  rw [← Recounted.depth_eq h, State.depth_enclosed]

/-- With a level to spare, no character leaves the bounds inside the wrapper that keeps them
outside. -/
theorem step_inBounds_of_encloses (h : Encloses s t)
    (hin : (step style aligned cur c s).InBounds)
    (hroom : (step style aligned cur c s).state.depth + 2 ≤ style.maxDepth) :
    (step style aligned cur c t).InBounds := by
  intro e hnext
  have hdepth := h.depth_eq
  have hentered := depth_entered aligned cur c t
  have hmove := move_of_step style aligned cur c t
  rw [hnext] at hmove
  generalize (step style aligned cur c t).state = t' at hmove
  cases hmove with
  | tooDeep mode opener full =>
    obtain ⟨hstate, hgoes⟩ := step_of_opener mode (isOpener_iff.2 opener) style aligned s
    rw [Step.InBounds, hgoes] at hin
    rw [hstate] at hroom
    unfold openForm at hin hroom
    split at hin
    case h_1 e' hpush => exact hin e' rfl
    case h_2 pushed hpush =>
      rw [hpush] at hroom
      have hpushed := State.depth_of_push hpush
      rw [depth_entered] at hpushed
      have hroom : pushed.depth + 2 ≤ style.maxDepth := hroom
      omega
  | unmatched mode closer empty =>
    rw [State.depth, empty, List.length_nil] at hentered
    omega

/-- With a level to spare, no scan leaves the bounds inside the wrapper that keeps them outside. -/
theorem error_scan_of_encloses (h : Encloses s t) {cs : List Char}
    (hends : (scan style aligned cur s cs).error? = none)
    (hroom : ∀ d ∈ scanDepths style aligned cur s cs, d + 2 ≤ style.maxDepth) :
    (scan style aligned cur t cs).error? = none := by
  induction cs generalizing cur s t with
  | nil => rfl
  | cons c cs ih =>
    rw [scan_cons] at hends ⊢
    have hin := Step.inBounds_of_outcome hends
    have hin' := step_inBounds_of_encloses h hin (hroom _ List.mem_cons_self)
    have halike := lineLockstep_encloses.step_alike h (fun _ _ ↦ lineLockstep_encloses.start)
      (.inr ⟨hin, hin'⟩)
    rw [scanDepths] at hroom
    rw [Step.outcome] at hends ⊢
    rw [← halike.next]
    rcases hnext : (step style aligned cur c s).next with mode | - | e
    · rw [hnext] at hends
      simp only [hnext] at hroom
      exact ih halike.state hends fun d hd ↦ hroom d (List.mem_cons_of_mem _ hd)
    · rfl
    · exact absurd hnext (hin e)

theorem error_lintLine_of_encloses (h : Encloses s t)
    (hends : (lintLine style s content).error? = none)
    (hroom : ∀ d ∈ lineDepths style s content, d + 2 ≤ style.maxDepth) :
    (lintLine style t content).error? = none := by
  have hstring := lineLockstep_encloses.inString h
  have hR : Encloses { s with blanks := 0 } { t with blanks := 0 } :=
    lineLockstep_encloses.counted h s.line t.line 0 s.flagged t.flagged
  unfold lintLine lintTextLine at hends ⊢
  unfold lineDepths at hroom
  by_cases hblank : isBlankLine content = true
  · rw [if_pos hblank]
    rfl
  by_cases hcomment : content.head? = some ';' ∧ ¬s.inString
  · have hcomment' : content.head? = some ';' ∧ ¬t.inString := hstring ▸ hcomment
    simp only [if_neg hblank, if_pos hcomment']
    rfl
  · have hcomment' : ¬(content.head? = some ';' ∧ ¬t.inString) := hstring ▸ hcomment
    simp only [if_neg hblank, if_neg hcomment] at hends
    simp only [hblank, hcomment, false_or, if_false, Bool.false_eq_true] at hroom
    simp only [if_neg hblank, if_neg hcomment']
    rw [← congrArg Cursor.start hstring]
    exact error_scan_of_encloses hR hends hroom

/-! ### Lines inside -/

/-- **Lines that leave a level of the depth unused are linted inside the wrapper as outside of it**,
and to their end. -/
theorem lintLines_alike_of_encloses (h : Encloses s t) (hline : t.line = s.line + k)
    (hbanner : 0 < s.line ∧ (s.line = 1 → ∀ first ∈ lines.head?, ¬IsBanner first))
    (hends : (lintLines style s lines).failure? = none)
    (hroom : ∀ d ∈ lintDepths style s lines, d + 2 ≤ style.maxDepth) :
    (lintLines style s lines).Alike Encloses k (lintLines style t lines) ∧
      (lintLines style t lines).failure? = none := by
  suffices hends' : (lintLines style t lines).failure? = none from
    ⟨lineLockstep_encloses.lintLines_alike h hline (.inr hbanner) (.inr ⟨hends, hends'⟩), hends'⟩
  induction lines generalizing s t with
  | nil => rfl
  | cons content rest ih =>
    obtain ⟨hfirst, hrest⟩ := List.forall_mem_append.1 hroom
    have herror := error_eq_none_of_lintLines hends
    have herror' := error_lintLine_of_encloses h herror hfirst
    have halike := lineLockstep_encloses.lintLine_alike h (line_eq_one_iff hline (.inr hbanner))
      (.inr ⟨herror, herror'⟩)
    rw [lintLines_cons_of_ok herror] at hends
    rw [lintLines_cons_of_ok herror']
    exact ih halike.state (by rw [line_lintLine, line_lintLine]; omega)
      ⟨by rw [line_lintLine]; omega, by rw [line_lintLine]; omega⟩ hends hrest

end SchemeStyle
