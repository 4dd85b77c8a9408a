import SchemeStyle.Proofs.Wrapping.Marking

/-!
# How far up a line reaches

A line opens and closes forms, and what it closes may have been opened on lines before. How deep it
nests is read off its text (`Region.depthAfter`), and so is the smallest depth that it reaches on
the way (`Region.lowest`). The forms up to that depth are open throughout, so they are `Around` all
of the line.

Past the check of a line's start they are out of reach as well: all that a character changes is the
innermost form, and the one change that does not close it, the end of an operator, is made in a form
that was opened on the same line (`Move.around`). So a scan leaves the forms around it as they are,
their columns and their marks (`Around.scan`).
-/

namespace SchemeStyle

variable {style : Style} {aligned : Bool} {st st' final : State} {cur last : Cursor} {c : Char}
  {next : Next} {text : List Char} {outer : List Frame}

/-- Whether a character closes a form. -/
def isCloser (c : Char) : Bool :=
  c == ')' || c == ']'

/-! ### Depths of a text -/

namespace Region

/-- The depth after one more character. Delimiters count in code only. -/
def shift (region : Region) (depth : Nat) (c : Char) : Nat :=
  match region with
  | .code => if isOpener c then depth + 1 else if isCloser c then depth - 1 else depth
  | _ => depth

/-- The depth after a piece of a line. -/
def depthAfter : Region → Nat → List Char → Nat
  | _, depth, [] => depth
  | region, depth, c :: text => (region.read c).depthAfter (region.shift depth c) text

/-- The smallest of the depths from the start to the end of a piece of a line. -/
def lowest : Region → Nat → List Char → Nat
  | _, depth, [] => depth
  | region, depth, c :: text => min depth ((region.read c).lowest (region.shift depth c) text)

theorem shift_of_not_delimiter (region : Region) (depth : Nat) (hopener : isOpener c = false)
    (hcloser : isCloser c = false) : region.shift depth c = depth := by
  cases region <;> simp [shift, hopener, hcloser]

theorem depthAfter_append (region : Region) (depth : Nat) (a b : List Char) :
    region.depthAfter depth (a ++ b) =
      (region.after a).depthAfter (region.depthAfter depth a) b := by
  induction a generalizing region depth with
  | nil => rfl
  | cons c a ih => exact ih (region.read c) (region.shift depth c)

theorem lowest_le (region : Region) (depth : Nat) (text : List Char) :
    region.lowest depth text ≤ depth := by
  cases text with
  | nil => exact Nat.le_refl depth
  | cons c text => exact Nat.min_le_left _ _

/-- No depth that a text reaches is smaller than the smallest. -/
theorem lowest_le_depthAfter (region : Region) (depth : Nat) (text : List Char) :
    region.lowest depth text ≤ region.depthAfter depth text := by
  induction text generalizing region depth with
  | nil => exact Nat.le_refl depth
  | cons c text ih => exact Nat.le_trans (Nat.min_le_right _ _) (ih _ _)

theorem lowest_append (region : Region) (depth : Nat) (a b : List Char) :
    region.lowest depth (a ++ b) =
      min (region.lowest depth a) ((region.after a).lowest (region.depthAfter depth a) b) := by
  induction a generalizing region depth with
  | nil => exact (Nat.min_eq_right (lowest_le region depth b)).symm
  | cons c a ih =>
    show min depth ((region.read c).lowest (region.shift depth c) (a ++ b)) = _
    rw [ih, ← Nat.min_assoc]
    rfl

/-- The newline that ends a line opens and closes nothing. -/
theorem lowest_append_newline (region : Region) (depth : Nat) (text : List Char) :
    region.lowest depth (text ++ ['\n']) = region.lowest depth text := by
  rw [lowest_append]
  refine Nat.min_eq_left ?_
  show _ ≤ min _ ((region.after text).shift _ '\n')
  rw [shift_of_not_delimiter _ _ rfl rfl, Nat.min_self]
  exact lowest_le_depthAfter region depth text

theorem after_spaces (k : Nat) : Region.code.after (List.replicate k ' ') = .code := by
  induction k with
  | zero => rfl
  | succ k ih => exact ih

theorem depthAfter_spaces (depth k : Nat) :
    Region.code.depthAfter depth (List.replicate k ' ') = depth := by
  induction k with
  | zero => rfl
  | succ k ih => exact ih

/-- Nothing plain opens or closes a form, nor leads out of code. -/
theorem after_of_isPlain (h : ∀ d ∈ text, IsPlain d) : Region.code.after text = .code := by
  induction text with
  | nil => rfl
  | cons d text ih =>
    obtain ⟨hd, htext⟩ := List.forall_mem_cons.1 h
    simp only [IsPlain, List.mem_cons, not_or] at hd
    rw [after_cons, read_code hd.1 hd.2.1]
    exact ih htext

end Region

/-! ### Depths of a scan -/

theorem IsPlain.not_delimiter (h : IsPlain c) : isOpener c = false ∧ isCloser c = false := by
  simp only [IsPlain, List.mem_cons, List.not_mem_nil, or_false, not_or] at h
  simp [isOpener, isCloser, h]

theorem Region.depthAfter_of_isPlain (h : ∀ d ∈ text, IsPlain d) (depth : Nat) :
    Region.code.depthAfter depth text = depth := by
  induction text with
  | nil => rfl
  | cons d text ih =>
    obtain ⟨hd, htext⟩ := List.forall_mem_cons.1 h
    have hcode : Region.code.read d = .code := after_of_isPlain (List.forall_mem_singleton.2 hd)
    rw [depthAfter, hcode, shift_of_not_delimiter _ _ hd.not_delimiter.1 hd.not_delimiter.2]
    exact ih htext

/-- The depth is that of the text. -/
theorem Move.depth_eq {mode : Mode} (h : Move style cur c st st' (.go mode)) :
    st'.depth = cur.region.shift st.depth c := by
  have hplain : isOpener c = false → isCloser c = false → st.depth = cur.region.shift st.depth c :=
    fun hopener hcloser ↦ (Region.shift_of_not_delimiter _ _ hopener hcloser).symm
  cases h with
  | indent _ space => subst space; exact hplain rfl rfl
  | string mode => rw [Cursor.region, if_pos mode]; rfl
  | closeString _ quote | openString _ quote => subst quote; exact hplain rfl rfl
  | «open» mode opener =>
    rw [Cursor.region_code mode]
    exact (if_pos (isOpener_iff.2 opener)).symm
  | close mode closer frame outer frames =>
    have hdepth : st.depth = outer.length + 1 := congrArg List.length frames
    rw [Cursor.region_code mode, hdepth]
    rcases closer with rfl | rfl <;> rfl
  | endOperator token _ blank =>
    rw [depth_finishOperator]
    rcases blank with rfl | rfl <;> exact hplain rfl rfl
  | endWord _ _ blank =>
    rw [depth_rememberName]
    rcases blank with rfl | rfl <;> exact hplain rfl rfl
  | operator _ _ plain | code _ _ plain => exact hplain plain.not_delimiter.1 plain.not_delimiter.2

/-- A scan leads to the depth of what it gets over. -/
theorem Scans.depth_eq {found : List Finding}
    (h : Scans style aligned cur st text found last final) :
    final.depth = cur.region.depthAfter st.depth text := by
  refine h.induct (P := fun before _ s ↦ s.depth = cur.region.depthAfter st.depth before) rfl ?_
  intro before found mid s c mode hbefore hdepth next
  have hmove := move_of_step style aligned mid c s
  rw [next] at hmove
  rw [hmove.depth_eq, depth_entered, hdepth, hbefore.region_eq, Region.depthAfter_append]
  rfl

/-! ### The forms around a scan -/

/-- **The end of an operator gives its form a column and makes it a wrapper**, as far as the
operator asks for it, and leaves all other forms alone. -/
theorem frames_finishOperator {frame : Frame} (h : st.frames = frame :: outer) (style : Style)
    (token : Token) (index : Nat) (followed : Bool) :
    let flags := style.rules.lookup token.text token.start
    (finishOperator style token index followed st).2.frames =
      { column := (bodyColumn? flags token index followed).elim frame.column Nat.cast
        wrapper := frame.wrapper || flags.wrapper } :: outer := by
  rw [finishOperator_eq, h]
  rfl

/-- The forms are around a place of a line: they are open there, and if an operator is being read,
it belongs to a form further in. -/
structure Around (outer : List Frame) (mode : Mode) (st : State) : Prop where
  suffix : outer <:+ st.frames
  operator : ∀ token, mode = .operator token → outer.length < st.depth

namespace Around

/-- Outside of an operator it is enough that the forms are open. -/
theorem of_suffix {mode : Mode} (h : outer <:+ st.frames)
    (hmode : ∀ token, mode ≠ .operator token) : Around outer mode st :=
  ⟨h, fun token htoken ↦ absurd htoken (hmode token)⟩

/-- Forms that are around a place stay around it when the innermost form is left out. -/
theorem suffix_of_lt {frame : Frame} {frames : List Frame} (h : outer <:+ frame :: frames)
    (hlength : outer.length ≤ frames.length) : outer <:+ frames := by
  rcases List.suffix_cons_iff.1 h with rfl | h
  · exact absurd hlength (Nat.not_succ_le_self _)
  · exact h

theorem finishOperator {token : Token} (h : Around outer (.operator token) st) (style : Style)
    (index : Nat) (followed : Bool) :
    outer <:+ (finishOperator style token index followed st).2.frames := by
  have hlength := h.operator token rfl
  rcases hframes : st.frames with - | ⟨frame, frames⟩
  · rw [State.depth, hframes] at hlength
    exact absurd hlength (Nat.not_lt_zero _)
  · rw [frames_finishOperator hframes]
    rw [State.depth, hframes] at hlength
    exact (suffix_of_lt (hframes ▸ h.suffix) (Nat.le_of_lt_succ hlength)).trans
      (List.suffix_cons _ frames)

end Around

/-- **No character changes the forms around it**, unless it closes one of them. -/
theorem Move.around (h : Move style cur c st st' next) (haround : Around outer cur.mode st)
    (hdepth : outer.length ≤ cur.region.shift st.depth c) :
    outer <:+ st'.frames ∧ ∀ mode, next = .go mode → Around outer mode st' := by
  -- Where the forms stay as they are, what follows is no operator, or the one that was read.
  have hgo : ∀ {s : State} {mode : Mode}, outer <:+ s.frames → mode.operator? = none →
      outer <:+ s.frames ∧ ∀ mode', Next.go mode = .go mode' → Around outer mode' s := by
    intro s mode hsuffix hmode
    refine ⟨hsuffix, fun mode' hnext ↦ .of_suffix hsuffix ?_⟩
    rintro token rfl
    cases hnext
    cases hmode
  cases h with
  | operatorComment token mode =>
    exact ⟨(mode ▸ haround).finishOperator style cur.index false, by simp⟩
  | endOperator token mode =>
    exact hgo ((mode ▸ haround).finishOperator style cur.index (c == ' ')) rfl
  | «open» =>
    have hsuffix : outer <:+ (⟨(cur.index + 1 : Nat), false⟩ :: st.frames : List Frame) :=
      haround.suffix.trans (List.suffix_cons _ _)
    exact ⟨hsuffix, fun mode hnext ↦
      ⟨hsuffix, fun _ _ ↦ Nat.lt_succ_of_le haround.suffix.length_le⟩⟩
  | close mode closer frame frames hframes =>
    rw [Cursor.region_code mode, State.depth, hframes] at hdepth
    have hlength : outer.length ≤ frames.length := by rcases closer with rfl | rfl <;> exact hdepth
    exact hgo (Around.suffix_of_lt (hframes ▸ haround.suffix) hlength) rfl
  | endWord =>
    rw [rememberName_eq]
    exact hgo haround.suffix rfl
  | operator token mode =>
    exact ⟨haround.suffix, fun mode' _ ↦ ⟨haround.suffix, fun _ _ ↦ haround.operator token mode⟩⟩
  | comment | tooDeep | unmatched => exact ⟨haround.suffix, by simp⟩
  | _ => exact hgo haround.suffix rfl

/-- **A scan past the check of its line's start leaves the forms around it alone**: those up to the
smallest depth that it reaches. -/
theorem Around.scan (h : Around outer cur.mode st) (hindent : aligned = true → cur.mode ≠ .indent)
    (hdepth : outer.length ≤ cur.region.lowest st.depth text) (style : Style) :
    outer <:+ (scan style aligned cur st text).state.frames := by
  induction text generalizing cur st with
  | nil => exact h.suffix
  | cons c text ih =>
    have hmove := move_of_step style aligned cur c st
    rw [entered, if_neg fun hentered ↦ hindent hentered.2.2 hentered.1] at hmove
    have hrest : outer.length ≤ (cur.region.read c).lowest (cur.region.shift st.depth c) text :=
      Nat.le_trans hdepth (Nat.min_le_right _ _)
    obtain ⟨hsuffix, hgo⟩ := hmove.around h (Nat.le_trans hrest (Region.lowest_le _ _ _))
    rw [SchemeStyle.scan]
    rcases hnext : (step style aligned cur c st).next with mode | - | e
    · rw [hnext] at hmove
      refine ih (hgo mode hnext) (fun ha ↦ ?_) ?_
      · exact hmove.mode_ne_indent fun hmode ↦ absurd hmode (hindent ha)
      · rwa [region_advance hmove, hmove.depth_eq]
    · exact hsuffix
    · exact hsuffix

end SchemeStyle
