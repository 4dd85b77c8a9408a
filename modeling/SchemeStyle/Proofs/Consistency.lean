import SchemeStyle.Proofs.Lint

/-!
# Nested import forms in nested forms

A state keeps two accounts of the open forms that could part: the forms themselves, and the depths
at which the import forms among them began. A form is opened at its delimiter, but whether it is
an import form is known only when its operator ends. They agree all the same, between any two lines
(`Reachable.nested`): nesting stays below its limit, and the import forms began one inside the
other, among the open forms.

What ties them together within a line is that an operator being read belongs to the innermost form,
and that no import form began there yet (`Accounts.operator`).
-/

namespace SchemeStyle

/-! ### Wrappers -/

theorem pos_and_le_of_mem_wrapperDepthsOf {frames : List Frame} {d : Nat}
    (h : d ∈ State.wrapperDepthsOf frames) : 1 ≤ d ∧ d ≤ frames.length := by
  induction frames with
  | nil => cases h
  | cons frame outer ih =>
    rcases List.mem_append.1 h with h | h
    · have := ih h
      simp only [List.length_cons]
      omega
    · by_cases hw : frame.wrapper <;> simp [hw] at h
      simp [h]

/-- Inner wrappers are deeper than outer ones. -/
theorem wrapperDepthsOf_increasing (frames : List Frame) :
    (State.wrapperDepthsOf frames).Pairwise (· < ·) := by
  induction frames with
  | nil => exact .nil
  | cons frame outer ih =>
    refine List.pairwise_append.2 ⟨ih, ?_, fun a ha b hb ↦ ?_⟩
    · split_ifs <;> simp
    · have := pos_and_le_of_mem_wrapperDepthsOf ha
      by_cases hw : frame.wrapper <;> simp [hw] at hb
      omega

/-! ### Import forms -/

/-- The open import forms began one inside the other, none of them deeper than `bound`. -/
structure ImportContext.Nested (bound : Nat) (ctx : ImportContext) : Prop where
  increasing : ctx.depths.Pairwise (· < ·)
  pos : ∀ d ∈ ctx.depths, 1 ≤ d
  le : ∀ d ∈ ctx.depths, d ≤ bound

namespace ImportContext.Nested

variable {bound : Nat} {ctx ctx' : ImportContext}

theorem mono {bound' : Nat} (h : ctx.Nested bound) (hle : bound ≤ bound') : ctx.Nested bound' where
  increasing := h.increasing
  pos := h.pos
  le d hd := Nat.le_trans (h.le d hd) hle

theorem congr (h : ctx.Nested bound) (heq : ctx'.depths = ctx.depths) : ctx'.Nested bound where
  increasing := heq ▸ h.increasing
  pos := heq ▸ h.pos
  le := heq ▸ h.le

/-- A further import form begins in a form that has none yet. -/
theorem concat (h : ctx.Nested bound) (heq : ctx'.depths = ctx.depths ++ [bound + 1]) :
    ctx'.Nested (bound + 1) where
  increasing := by
    rw [heq, List.pairwise_append]
    refine ⟨h.increasing, List.pairwise_singleton _ _, fun a ha b hb ↦ ?_⟩
    obtain rfl := List.mem_singleton.1 hb
    exact Nat.lt_succ_of_le (h.le a ha)
  pos d hd := by
    rw [heq] at hd
    rcases List.mem_append.1 hd with hd | hd
    · exact h.pos d hd
    · obtain rfl := List.mem_singleton.1 hd
      exact Nat.succ_pos bound
  le d hd := by
    rw [heq] at hd
    rcases List.mem_append.1 hd with hd | hd
    · exact Nat.le_succ_of_le (h.le d hd)
    · exact Nat.le_of_eq (List.mem_singleton.1 hd)

/-- With the innermost form the import form that began there is left, if there is one. -/
theorem leave (h : ctx.Nested (bound + 1)) : (ctx.leave (bound + 1)).2.Nested bound := by
  have hdepths := depths_leave (bound + 1) ctx
  rcases List.eq_nil_or_concat ctx.depths with hnil | ⟨outer, last, hlast⟩
  · rw [hnil] at hdepths
    exact ⟨by simp [hdepths], by simp [hdepths], by simp [hdepths]⟩
  · rw [List.concat_eq_append] at hlast
    obtain ⟨houter, -, hlt⟩ := List.pairwise_append.1 (hlast ▸ h.increasing)
    have hlt : ∀ d ∈ outer, d < last := fun d hd ↦ hlt d hd last (by simp)
    have hle : last ≤ bound + 1 := h.le last (by simp [hlast])
    have hpos : ∀ d ∈ outer ++ [last], 1 ≤ d := hlast ▸ h.pos
    by_cases heq : last = bound + 1
    · have hdepths : (ctx.leave (bound + 1)).2.depths = outer := by simp [hdepths, hlast, heq]
      refine ⟨hdepths ▸ houter, ?_, ?_⟩ <;> rw [hdepths] <;> intro d hd
      · exact hpos d (List.mem_append_left _ hd)
      · have := hlt d hd
        omega
    · have hdepths : (ctx.leave (bound + 1)).2.depths = ctx.depths := by simp [hdepths, hlast, heq]
      refine ⟨hdepths ▸ h.increasing, hdepths ▸ h.pos, ?_⟩
      rw [hdepths, hlast]
      intro d hd
      rcases List.mem_append.1 hd with hd | hd
      · have := hlt d hd
        omega
      · obtain rfl := List.mem_singleton.1 hd
        omega

end ImportContext.Nested

/-- An id is remembered only inside the imports, a name only inside a declaration. -/
theorem ImportContext.block_of_lastName_ne {ctx : ImportContext} (h : ctx.lastName ≠ "") :
    ctx.block = .declaration := by
  cases ctx with
  | inDeclaration => rfl
  | _ => exact absurd rfl h

theorem ImportContext.block_of_lastId_ne {ctx : ImportContext} (h : ctx.lastId ≠ "") :
    ctx.block = .imports ∨ ctx.block = .declaration := by
  cases ctx with
  | inImports => exact .inl rfl
  | inDeclaration => exact .inr rfl
  | _ => exact absurd rfl h

/-! ### The accounts within a line -/

/-- Nesting stays below its limit, and the import forms began among the open forms. -/
structure State.Nested (limit : Nat) (st : State) : Prop where
  depth_lt : st.depth < limit
  imports : st.imports.Nested st.depth

/-- The accounts of the open forms while a line is read in a mode. -/
structure Accounts (limit : Nat) (mode : Mode) (st : State) : Prop extends st.Nested limit where
  /-- The form whose operator is being read opened no import form yet. -/
  operator : ∀ token, mode = .operator token →
    ∃ outer, st.depth = outer + 1 ∧ st.imports.Nested outer

namespace Accounts

variable {style : Style} {limit : Nat} {mode mode' : Mode} {st st' : State}

/-- Outside of an operator the accounts need only the depth and the import forms. -/
theorem of_ne (h : st.Nested limit) (hmode : ∀ token, mode' ≠ .operator token)
    (hdepth : st'.depth = st.depth) (hdepths : st'.imports.depths = st.imports.depths) :
    Accounts limit mode' st' where
  depth_lt := hdepth ▸ h.depth_lt
  imports := hdepth ▸ h.imports.congr hdepths
  operator token htoken := absurd htoken (hmode token)

/-- Checking the start of a line touches no account. -/
theorem entered {aligned : Bool} {cur : Cursor} {c : Char} (h : Accounts limit mode st) :
    Accounts limit mode (entered aligned cur c st) where
  depth_lt := by rw [depth_entered]; exact h.depth_lt
  imports := by rw [depth_entered, imports_entered]; exact h.imports
  operator := by rw [depth_entered, imports_entered]; exact h.operator

/-- The end of an operator may open an import form, in the innermost form. -/
theorem finishOperator {token : Token} (h : Accounts limit (.operator token) st) (index : Nat)
    (followed : Bool) :
    (finishOperator style token index followed st).2.Nested limit where
  depth_lt := by rw [depth_finishOperator]; exact h.depth_lt
  imports := by
    rw [depth_finishOperator]
    rcases depths_finishOperator style token index followed st with heq | heq
    · exact h.imports.congr heq
    · obtain ⟨outer, hdepth, hnested⟩ := h.operator token rfl
      rw [hdepth] at heq ⊢
      exact hnested.concat heq

/-- What a line goes on with is all there is to keep. -/
theorem of_go (h : Accounts limit mode st) :
    st.Nested limit ∧ ∀ mode', Next.go mode = .go mode' → Accounts limit mode' st :=
  ⟨h.toNested, fun _ heq ↦ by cases heq; exact h⟩

/-- **Every move keeps the accounts**, those that end the scan of the line included. -/
theorem move {cur : Cursor} {c : Char} {next : Next} (h : Accounts style.maxDepth cur.mode st)
    (hmove : Move style cur c st st' next) :
    st'.Nested style.maxDepth ∧ ∀ mode, next = .go mode → Accounts style.maxDepth mode st' := by
  cases hmove with
  | indent mode space => exact of_go (of_ne h.toNested (by simp) rfl rfl)
  | string mode inside => exact of_go (of_ne h.toNested (by simp) rfl rfl)
  | closeString mode quote ends => exact of_go (of_ne h.toNested (by simp) rfl rfl)
  | openString mode quote => exact of_go (of_ne h.toNested (by simp) rfl rfl)
  | comment mode code semicolon => exact ⟨h.toNested, by simp⟩
  | operatorComment token mode semicolon =>
    exact ⟨(mode ▸ h).finishOperator cur.index false, by simp⟩
  | tooDeep mode opener full => exact ⟨h.toNested, by simp⟩
  | «open» mode opener room align =>
    -- The new form is the one place where an operator is read next; nothing began there yet.
    exact of_go ⟨⟨room, h.imports.mono (Nat.le_succ _)⟩, fun _ _ ↦ ⟨st.depth, rfl, h.imports⟩⟩
  | unmatched mode closer empty => exact ⟨h.toNested, by simp⟩
  | close mode closer frame outer frames =>
    have hdepth : st.depth = outer.length + 1 := by rw [State.depth, frames, List.length_cons]
    have hnested : (st.imports.leave st.depth).2.Nested outer.length := by
      rw [hdepth]
      exact (hdepth ▸ h.imports).leave
    exact of_go ⟨⟨Nat.lt_of_succ_lt (hdepth ▸ h.depth_lt), hnested⟩, by simp⟩
  | endOperator token mode blank =>
    have hnested : (SchemeStyle.finishOperator style token cur.index (c == ' ') st).2.Nested
        style.maxDepth := (mode ▸ h).finishOperator cur.index (c == ' ')
    exact of_go ⟨hnested, by simp⟩
  | endWord mode code blank =>
    exact of_go
      (of_ne h.toNested (by simp) (depth_rememberName cur st) (depths_rememberName cur st))
  | operator token mode plain => exact of_go ⟨h.toNested, fun _ _ ↦ h.operator token mode⟩
  | code mode code plain => exact of_go (of_ne h.toNested (by simp) rfl rfl)

end Accounts

/-! ### The accounts between lines -/

/-- No import form is open outside of all forms. -/
theorem State.Nested.imports_eq_outside {limit : Nat} {st : State} (h : st.Nested limit)
    (hdepth : st.depth = 0) : st.imports = .outside := by
  have hdepths := h.imports.le
  have hpos := h.imports.pos
  rw [hdepth] at hdepths
  cases hctx : st.imports with
  | outside => rfl
  | inSection s | inImports s _ _ | inDeclaration s _ _ _ _ =>
    rw [hctx] at hdepths hpos
    exact absurd (hdepths s List.mem_cons_self) (Nat.not_le.2 (hpos s List.mem_cons_self))

/-- A scan from the start of a line keeps the accounts, whether or not nesting leaves its bounds. -/
theorem State.Nested.scan {style : Style} {st : State} (h : st.Nested style.maxDepth)
    (aligned : Bool) (cs : List Char) :
    (scan style aligned (.start st.inString) st cs).state.Nested style.maxDepth := by
  refine scan_induction (P := fun cur s ↦ Accounts style.maxDepth cur.mode s)
    (Q := State.Nested style.maxDepth) (fun _ _ h ↦ h.toNested) ?_ ?_ cs _ st ⟨h, ?_⟩
  · intro cur c s mode h hnext
    exact (h.entered.move (move_of_step style aligned cur c s)).2 mode hnext
  · intro cur c s h _
    exact (h.entered.move (move_of_step style aligned cur c s)).1
  · intro token htoken
    cases hstring : st.inString <;> rw [hstring] at htoken <;> cases htoken

theorem Reachable.nested {style : Style} {st : State} (h : Reachable style st) :
    st.Nested style.maxDepth := by
  induction h with
  | start =>
    exact ⟨Nat.lt_of_lt_of_le Nat.two_pos style.two_le_maxDepth,
      ⟨.nil, fun _ hd ↦ (nomatch hd), fun _ hd ↦ (nomatch hd)⟩⟩
  | line content _ ih =>
    exact lintLine_preserves (fun _ _ _ _ h ↦ ⟨h.depth_lt, h.imports⟩)
      (fun _ aligned cs h ↦ h.scan aligned cs) content ih

theorem Reachable.imports_eq_outside {style : Style} {st : State} (h : Reachable style st)
    (hdepth : st.depth = 0) : st.imports = .outside :=
  h.nested.imports_eq_outside hdepth

end SchemeStyle
