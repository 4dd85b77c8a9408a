import SchemeStyle.Proofs.Scan.Progress

/-!
# Two scans side by side

What a scan finds depends on little of the state that it starts in. To say so of some part of the
state is to compare two scans of the same characters from states that differ in that part, and to
show that they never part: character by character they find the same, go on in the same way, and
lead to states that differ in nothing else.

A relation between states is a `Lockstep` if the few operations on states that code is made of keep
it, and if the views that findings are made of do not tell related states apart. Every character
then does the same to related states (`Lockstep.step_alike`), and so does every scan
(`Lockstep.scan_alike`). Where a line starts is looked at once in a line only, so what that check
sees of the state is asked for separately (`StartsAlike`). Related states may be open at different
depths; their scans then agree as long as neither of them leaves its bounds.
-/

namespace SchemeStyle

variable {R : State → State → Prop} {style : Style} {aligned : Bool} {s t : State} {cur : Cursor}
  {c : Char}

/-! ### The same step, the same outcome -/

/-- Two steps with the same findings, which go on in the same way to related states. -/
structure Step.Alike (R : State → State → Prop) (a b : Step) : Prop where
  findings : a.findings = b.findings
  next : a.next = b.next
  state : R a.state b.state

theorem Step.Alike.after {a b : Step} (h : a.Alike R b) (found : List Finding) :
    (a.after found).Alike R (b.after found) :=
  ⟨congrArg (found ++ ·) h.findings, h.next, h.state⟩

/-- The step does not take the nesting out of its bounds. -/
def Step.InBounds (a : Step) : Prop :=
  ∀ e, a.next ≠ .stop e

/-- Two outcomes with the same findings and the same error, which leave related states. -/
structure Outcome.Alike (R : State → State → Prop) (o o' : Outcome) : Prop where
  findings : o.findings = o'.findings
  error? : o.error? = o'.error?
  state : R o.state o'.state

theorem Outcome.Alike.after {o o' : Outcome} (h : o.Alike R o') (found : List Finding) :
    (o.after found).Alike R (o'.after found) :=
  ⟨congrArg (found ++ ·) h.findings, h.error?, h.state⟩

/-- The outcome of a scan from one of its steps on, which is made at the character before `cs`. -/
def Step.outcome (style : Style) (aligned : Bool) (cur : Cursor) (c : Char) (cs : List Char)
    (a : Step) : Outcome :=
  match a.next with
  | .go mode => (scan style aligned (cur.advance mode c) a.state cs).after a.findings
  | .comment =>
    { state := a.state, findings := a.findings ++ commentFindings (cur.index + 1) cs }
  | .stop e => { state := a.state, findings := a.findings, error? := some (cur.index, e) }

theorem scan_cons (style : Style) (aligned : Bool) (cur : Cursor) (st : State) (c : Char)
    (cs : List Char) :
    scan style aligned cur st (c :: cs) =
      (step style aligned cur c st).outcome style aligned cur c cs := rfl

theorem Step.outcome_after (a : Step) (found : List Finding) (cs : List Char) :
    (a.after found).outcome style aligned cur c cs =
      (a.outcome style aligned cur c cs).after found := by
  obtain ⟨findings, state, mode | - | e⟩ := a <;>
    simp [outcome, Step.after, Outcome.after, List.append_assoc]

/-- A scan is not stopped by its first step if it is not stopped at all. -/
theorem Step.inBounds_of_outcome {a : Step} {cs : List Char}
    (h : (a.outcome style aligned cur c cs).error? = none) : a.InBounds := by
  intro e hnext
  rw [outcome, hnext] at h
  cases h

/-- Steps that are alike lead to outcomes that are alike, if the rest of the scan does. -/
theorem Step.Alike.outcome {a b : Step} (h : a.Alike R b) {aligned' : Bool} {cs : List Char}
    (hrest : ∀ mode, a.next = .go mode →
      (scan style aligned (cur.advance mode c) a.state cs).Alike R
        (scan style aligned' (cur.advance mode c) b.state cs)) :
    (a.outcome style aligned cur c cs).Alike R (b.outcome style aligned' cur c cs) := by
  unfold Step.outcome
  rw [← h.next, ← h.findings]
  rcases hnext : a.next with mode | - | e
  · exact (hrest mode hnext).after _
  · exact ⟨rfl, rfl, h.state⟩
  · exact ⟨rfl, rfl, h.state⟩

/-! ### What code asks of a relation -/

/-- The checks of code keep the relation, and see nothing in which related states differ. -/
structure Lockstep (R : State → State → Prop) : Prop where
  allWrappers : ∀ {s t}, R s t → s.allWrappers = t.allWrappers
  block : ∀ {s t}, R s t → s.imports.block = t.imports.block
  lastId : ∀ {s t}, R s t → s.imports.lastId = t.imports.lastId
  lastName : ∀ {s t}, R s t → s.imports.lastName = t.imports.lastName
  setString : ∀ {s t} (b : Bool), R s t → R { s with inString := b } { t with inString := b }
  setExpected : ∀ {s t} (column : Int), R s t → R (s.setExpected column) (t.setExpected column)
  markWrapper : ∀ {s t}, R s t → R s.markWrapper t.markWrapper
  enterImports : ∀ {s t}, R s t → R s.enterImports t.enterImports
  setLastId : ∀ {s t} (id : String), R s t →
    R { s with imports := s.imports.setLastId id } { t with imports := t.imports.setLastId id }
  setLastName : ∀ {s t} (name : String), R s t →
    R { s with imports := s.imports.setLastName name }
      { t with imports := t.imports.setLastName name }
  /-- The column kept for a quoted form need not be the same if it was not the same before. -/
  opened : ∀ {s t} (frame : Frame) (align align' : Option Nat),
    (s.quotedAlign = t.quotedAlign → align = align') → R s t →
    R { s with frames := frame :: s.frames, quotedAlign := align }
      { t with frames := frame :: t.frames, quotedAlign := align' }
  closed : ∀ {s t} {frame frame' : Frame} {outer outer' : List Frame}, R s t →
    s.frames = frame :: outer → t.frames = frame' :: outer' →
    R { s with frames := outer, imports := (s.imports.leave s.depth).2 }
      { t with frames := outer', imports := (t.imports.leave t.depth).2 }

/-- The check of a line's start does not tell related states apart, and keeps the relation. -/
def StartsAlike (R : State → State → Prop) : Prop :=
  ∀ (index : Nat) {s t : State}, R s t →
    (alignLine index s).1 = (alignLine index t).1 ∧ R (alignLine index s).2 (alignLine index t).2

/-- What an operator does to the imports is decided by the innermost import form and the last
id. -/
theorem importOperator_eq_of_block (style : Style) (token : Token) (st : State) :
    importOperator style token st =
      match st.imports.block with
      | .outside =>
        if style.importBlock token.text token.start = .section then ([], st.enterImports)
        else ([], st)
      | .section =>
        if style.importBlock token.text token.start = .imports then ([], st.enterImports)
        else ([], st)
      | .imports =>
        (findingIf (!idsInOrder st.imports.lastId token.text) token.start
            (.idOrder st.imports.lastId token.text),
          { st.enterImports with imports := st.enterImports.imports.setLastId token.text })
      | .declaration => ([], st) := by
  rw [importOperator]
  cases himports : st.imports <;> rfl

theorem nameFindings_eq_of_block (cur : Cursor) (st : State) :
    nameFindings cur st =
      if st.imports.block = .declaration then
        findingIf (!cur.word.isBlank && !namesInOrder st.imports.lastName cur.word.text)
          cur.word.start (.nameOrder st.imports.lastName cur.word.text)
      else [] := by
  rw [nameFindings]
  cases himports : st.imports <;> rfl

namespace Lockstep

/-! ### Operators and names -/

theorem importOperator_alike (h : Lockstep R) (hR : R s t) (style : Style) (token : Token) :
    (importOperator style token s).1 = (importOperator style token t).1 ∧
      R (importOperator style token s).2 (importOperator style token t).2 := by
  rw [importOperator_eq_of_block, importOperator_eq_of_block, ← h.block hR, ← h.lastId hR]
  cases s.imports.block with
  | outside | «section» =>
    dsimp only
    split_ifs
    · exact ⟨rfl, h.enterImports hR⟩
    · exact ⟨rfl, hR⟩
  | imports => exact ⟨rfl, h.setLastId token.text (h.enterImports hR)⟩
  | declaration => exact ⟨rfl, hR⟩

theorem finishOperator_alike (h : Lockstep R) (hR : R s t) (style : Style) (token : Token)
    (index : Nat) (followed : Bool) :
    (finishOperator style token index followed s).1 =
        (finishOperator style token index followed t).1 ∧
      R (finishOperator style token index followed s).2
        (finishOperator style token index followed t).2 := by
  dsimp only [finishOperator]
  refine h.importOperator_alike ?_ style token
  have hmarked : ∀ wrapper : Bool,
      R (if wrapper then s.markWrapper else s) (if wrapper then t.markWrapper else t) := by
    rintro (_ | _)
    · exact hR
    · exact h.markWrapper hR
  split
  · exact h.setExpected _ (hmarked _)
  · exact hmarked _

theorem nameFindings_eq (h : Lockstep R) (hR : R s t) (cur : Cursor) :
    nameFindings cur s = nameFindings cur t := by
  rw [nameFindings_eq_of_block, nameFindings_eq_of_block, h.block hR, h.lastName hR]

theorem rememberName_alike (h : Lockstep R) (hR : R s t) (cur : Cursor) :
    R (rememberName cur s) (rememberName cur t) := by
  rw [rememberName, rememberName]
  split_ifs
  · exact hR
  · exact h.setLastName cur.word.text hR

/-! ### Delimiters -/

theorem openForm_alike (h : Lockstep R) (hR : R s t)
    (hbounds : s.depth = t.depth ∨
      (openForm style cur c s).InBounds ∧ (openForm style cur c t).InBounds) :
    (openForm style cur c s).Alike R (openForm style cur c t) := by
  unfold openForm at hbounds ⊢
  rcases hs : s.push style.maxDepth (cur.index + 1) with e | s' <;>
    rcases ht : t.push style.maxDepth (cur.index + 1) with e' | t' <;>
    rw [hs, ht] at hbounds
  · obtain ⟨-, rfl⟩ := State.push_eq_error_iff.1 hs
    obtain ⟨-, rfl⟩ := State.push_eq_error_iff.1 ht
    exact ⟨rfl, rfl, hR⟩
  · -- One state has room for the form and the other has not, so their depths differ.
    have hfull := (State.push_eq_error_iff.1 hs).1
    have hroom := (State.push_eq_ok_iff.1 ht).1
    rcases hbounds with hdepth | ⟨hin, -⟩
    · omega
    · exact absurd rfl (hin e)
  · have hroom := (State.push_eq_ok_iff.1 hs).1
    have hfull := (State.push_eq_error_iff.1 ht).1
    rcases hbounds with hdepth | ⟨-, hin⟩
    · omega
    · exact absurd rfl (hin e')
  · obtain ⟨-, rfl⟩ := State.push_eq_ok_iff.1 hs
    obtain ⟨-, rfl⟩ := State.push_eq_ok_iff.1 ht
    exact ⟨rfl, rfl, h.opened _ _ _ (fun halign ↦ by rw [halign]) hR⟩

theorem closeForm_alike (h : Lockstep R) (hR : R s t)
    (hbounds : s.depth = t.depth ∨ (closeForm cur c s).InBounds ∧ (closeForm cur c t).InBounds) :
    (closeForm cur c s).Alike R (closeForm cur c t) := by
  unfold closeForm at hbounds ⊢
  rw [h.nameFindings_eq hR, h.allWrappers hR] at hbounds ⊢
  rcases hs : s.frames with - | ⟨frame, outer⟩ <;>
    rcases ht : t.frames with - | ⟨frame', outer'⟩ <;>
    simp only [State.pop, hs, ht] at hbounds ⊢
  · exact ⟨rfl, rfl, hR⟩
  · rcases hbounds with hdepth | ⟨hin, -⟩
    · simp [State.depth, hs, ht] at hdepth
    · exact absurd rfl (hin .unmatched)
  · rcases hbounds with hdepth | ⟨-, hin⟩
    · simp [State.depth, hs, ht] at hdepth
    · exact absurd rfl (hin .unmatched)
  · exact ⟨rfl, rfl, h.closed hR hs ht⟩

/-! ### One character -/

theorem codeChar_alike (h : Lockstep R) (hR : R s t) {operator? : Option Token}
    (hbounds : s.depth = t.depth ∨
      (codeChar style cur operator? c s).InBounds ∧ (codeChar style cur operator? c t).InBounds) :
    (codeChar style cur operator? c s).Alike R (codeChar style cur operator? c t) := by
  unfold codeChar at hbounds ⊢
  split_ifs at hbounds ⊢
  · exact ⟨rfl, rfl, h.setString true hR⟩
  · rcases operator? with - | token
    · exact ⟨rfl, rfl, hR⟩
    · obtain ⟨hfound, hstate⟩ := h.finishOperator_alike hR style token cur.index false
      exact ⟨congrArg (· ++ _) hfound, rfl, hstate⟩
  · exact h.openForm_alike hR hbounds
  · exact h.closeForm_alike hR hbounds
  · rcases operator? with - | token
    · exact ⟨h.nameFindings_eq hR cur, rfl, h.rememberName_alike hR cur⟩
    · obtain ⟨hfound, hstate⟩ := h.finishOperator_alike hR style token cur.index (c == ' ')
      exact ⟨hfound, rfl, hstate⟩
  · rcases operator? with - | token <;> exact ⟨rfl, rfl, hR⟩

/-- **A character does the same to related states**, if none of them is taken out of bounds by it or
both have the same room. -/
theorem step_alike (h : Lockstep R) (hR : R s t)
    (hstart : aligned = true → cur.mode = .indent → StartsAlike R)
    (hbounds : s.depth = t.depth ∨
      (step style aligned cur c s).InBounds ∧ (step style aligned cur c t).InBounds) :
    (step style aligned cur c s).Alike R (step style aligned cur c t) := by
  by_cases hstring : cur.mode = .string
  · simp only [step, hstring]
    refine Step.Alike.after ?_ _
    split_ifs
    · exact ⟨rfl, rfl, h.setString false hR⟩
    · exact ⟨rfl, rfl, hR⟩
  by_cases hspace : cur.mode = .indent ∧ c = ' '
  · simp only [step, hspace.1, if_pos hspace.2]
    refine Step.Alike.after ?_ _
    exact ⟨rfl, rfl, hR⟩
  have hcode : cur.mode = .indent → c ≠ ' ' := fun hmode hc ↦ hspace ⟨hmode, hc⟩
  rw [step_of_code hstring hcode, step_of_code hstring hcode] at hbounds ⊢
  have hlead : leadFindings aligned cur c s = leadFindings aligned cur c t ∧
      R (entered aligned cur c s) (entered aligned cur c t) := by
    by_cases hcheck : aligned = true ∧ cur.mode = .indent
    · obtain ⟨hfound, hstate⟩ := hstart hcheck.1 hcheck.2 cur.index hR
      refine ⟨by rw [leadFindings, leadFindings, hfound], ?_⟩
      have hentered : cur.mode = .indent ∧ c ≠ ' ' ∧ aligned = true :=
        ⟨hcheck.2, hcode hcheck.2, hcheck.1⟩
      rwa [entered, entered, if_pos hentered, if_pos hentered]
    · have hsame : ∀ st, entered aligned cur c st = st := fun st ↦
        if_neg fun hentered ↦ hcheck ⟨hentered.2.2, hentered.1⟩
      have hfound : leadFindings aligned cur c s = leadFindings aligned cur c t := by
        rw [leadFindings, leadFindings]
        split_ifs with hmode ha
        · exact absurd ⟨ha, hmode⟩ hcheck
        · rfl
        · rfl
      exact ⟨hfound, by rwa [hsame, hsame]⟩
  rw [hlead.1]
  refine (h.codeChar_alike hlead.2 ?_).after _
  rwa [depth_entered, depth_entered]

/-! ### The scan -/

/-- **A scan does the same to related states**, if neither leaves its bounds or related states are
equally deep. -/
theorem scan_alike (h : Lockstep R) (hR : R s t)
    (hstart : aligned = true → cur.mode = .indent → StartsAlike R) {cs : List Char}
    (hbounds : (∀ {s t}, R s t → s.depth = t.depth) ∨
      (scan style aligned cur s cs).error? = none ∧ (scan style aligned cur t cs).error? = none) :
    (scan style aligned cur s cs).Alike R (scan style aligned cur t cs) := by
  induction cs generalizing cur s t with
  | nil => exact ⟨rfl, rfl, hR⟩
  | cons c cs ih =>
    rw [scan_cons, scan_cons] at hbounds ⊢
    have halike : (step style aligned cur c s).Alike R (step style aligned cur c t) :=
      h.step_alike hR hstart (hbounds.imp (fun hdepth ↦ hdepth hR)
        (.imp Step.inBounds_of_outcome Step.inBounds_of_outcome))
    refine halike.outcome fun mode hnext ↦ ih halike.state (fun ha hmode ↦ ?_) ?_
    · -- The scan is still at the start of the line only if it was before.
      have hmove := move_of_step style aligned cur c s
      have hindent : mode = .indent := hmode
      rw [hnext, hindent] at hmove
      exact hstart ha hmove.of_indent.1
    · rw [Step.outcome, Step.outcome, ← halike.next, hnext] at hbounds
      exact hbounds

end Lockstep

end SchemeStyle
