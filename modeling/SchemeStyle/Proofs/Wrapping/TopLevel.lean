import Mathlib.Data.List.Induction
import SchemeStyle.Proofs.Alignment.Bottom
import SchemeStyle.Proofs.Alignment.Quotation
import SchemeStyle.Proofs.Layout.Misindentation
import SchemeStyle.Proofs.Wrapping.Marking

/-!
# Wrappers inside of other forms

Wrappers are meant to stand outside of all forms or directly inside of wrappers, so every form
around a wrapper should be one too, and the depths of the open wrappers should be the numbers from
one on. Lines that are where they belong keep to that, as they start in column zero only where all
open forms are wrappers.

A line that is misindented may start in column zero inside of a form that is no wrapper, and what it
opens there is marked as a wrapper all the same (`Intrudes`). It is reported for its indentation,
unless it ends in the mark of the style (`indentation_mem_of_intrudes`), and the depths are out of
order as long as its form is open, but no longer and for no other reason
(`wrapperDepths_stateAfter_eq_range_iff`).
-/

namespace SchemeStyle

variable {style : Style} {aligned : Bool} {st st' : State} {cur : Cursor} {c : Char} {next : Next}
  {content text : List Char}

/-! ### Columns zero -/

/-- Inside of a form whose contents are expected in column zero, code is as good as outside of all
forms. -/
def ZeroInWrappers (frames : List Frame) : Prop :=
  ∀ frame outer, frame :: outer <:+ frames → frame.column = 0 →
    (frame :: outer).all Frame.wrapper = true

namespace ZeroInWrappers

variable {frame : Frame} {frames : List Frame}

theorem outer (h : ZeroInWrappers (frame :: frames)) : ZeroInWrappers frames :=
  fun frame' outer hsuffix ↦ h frame' outer (hsuffix.trans (List.suffix_cons frame frames))

theorem cons (h : ZeroInWrappers frames)
    (hframe : frame.column = 0 → (frame :: frames).all Frame.wrapper = true) :
    ZeroInWrappers (frame :: frames) := by
  intro frame' outer hsuffix hcolumn
  rcases List.suffix_cons_iff.1 hsuffix with heq | hsuffix
  · cases heq
    exact hframe hcolumn
  · exact h frame' outer hsuffix hcolumn

theorem setExpected {column : Int} (h : ZeroInWrappers st.frames)
    (hcolumn : column = 0 → st.allWrappers = true) :
    ZeroInWrappers (st.setExpected column).frames := by
  rcases st with ⟨_, _, _, _, _, _, _ | ⟨frame, outer⟩, _⟩
  · exact h
  · exact h.outer.cons hcolumn

theorem finishOperator (h : ZeroInWrappers st.frames) (token : Token) (index : Nat)
    (followed : Bool) :
    ZeroInWrappers (finishOperator style token index followed st).2.frames := by
  rw [finishOperator_eq]
  rcases hframes : st.frames with - | ⟨frame, frames⟩
  · rwa [hframes] at h
  · rw [hframes] at h
    refine h.outer.cons fun hzero ↦ ?_
    -- An operator never sets a column to zero, so it was zero before.
    have hcolumn : frame.column = 0 := by
      rw [Frame.operate, bodyColumn?] at hzero
      split_ifs at hzero <;> simp_all <;> omega
    have hall := h frame frames (List.suffix_refl _) hcolumn
    rw [List.all_cons, Bool.and_eq_true] at hall
    rw [List.all_cons, hall.2, Frame.operate, hall.1]
    rfl

theorem entered (h : ZeroInWrappers st.frames)
    (hquoted : cur.mode = .indent → st.quotedAlign ≠ some 0) :
    ZeroInWrappers (entered aligned cur c st).frames := by
  rw [SchemeStyle.entered]
  split_ifs with hstart
  · rw [alignLine]
    split_ifs with hexpected hzero hkept
    · exact h
    · exact h.setExpected fun _ ↦ hzero.2
    · refine h.setExpected fun hindex ↦ absurd hkept ?_
      rw [Int.natCast_eq_zero.1 hindex]
      exact hquoted hstart.1
    · exact h
  · exact h

end ZeroInWrappers

/-- No character moves a form that is no wrapper to column zero. -/
theorem Move.zeroInWrappers (h : Move style cur c st st' next) (hst : ZeroInWrappers st.frames) :
    ZeroInWrappers st'.frames := by
  cases h with
  | operatorComment token => exact hst.finishOperator token cur.index false
  | endOperator token => exact hst.finishOperator token cur.index (c == ' ')
  | «open» => exact hst.cons fun hzero ↦ by simp at hzero; omega
  | close _ _ frame outer frames => exact (frames ▸ hst).outer
  | endWord =>
    rw [rememberName_eq]
    exact hst
  | _ => exact hst

/-- A scan moves no form that is no wrapper to column zero, if no column zero was kept for a quoted
form: that could be taken where the line starts. -/
theorem ZeroInWrappers.scan (h : ZeroInWrappers st.frames)
    (hquoted : cur.mode = .indent → st.quotedAlign ≠ some 0) (text : List Char) :
    ZeroInWrappers (scan style aligned cur st text).state.frames := by
  have hstep : ∀ mid c s, ZeroInWrappers s.frames →
      (mid.mode = .indent → s.quotedAlign ≠ some 0) →
      ZeroInWrappers (step style aligned mid c s).state.frames :=
    fun mid c s hs hquoted ↦
      (move_of_step style aligned mid c s).zeroInWrappers (hs.entered hquoted)
  refine scan_induction
    (P := fun mid s ↦ ZeroInWrappers s.frames ∧ (mid.mode = .indent → s.quotedAlign ≠ some 0))
    (Q := fun s ↦ ZeroInWrappers s.frames) (fun _ _ h ↦ h.1) ?_ ?_ text cur st ⟨h, hquoted⟩
  · rintro mid c s mode ⟨hs, hquoted⟩ hnext
    refine ⟨hstep mid c s hs hquoted, ?_⟩
    rintro rfl
    have hmove := move_of_step style aligned mid c s
    rw [hnext] at hmove
    exact quotedAlign_step_ne_zero (hquoted hmove.of_indent.1)
  · rintro mid c s ⟨hs, hquoted⟩ -
    exact hstep mid c s hs hquoted

/-- **Where the contents of a form are expected in column zero, all forms around them are
wrappers.** -/
theorem Reachable.zeroInWrappers (h : Reachable style st) : ZeroInWrappers st.frames := by
  -- The column kept for a quoted form is taken at the start of a line only, so it is only there
  -- that it has to be other than zero.
  suffices hall : ZeroInWrappers st.frames ∧ st.quotedAlign ≠ some 0 from hall.1
  induction h with
  | start => exact ⟨by simp [ZeroInWrappers], by simp⟩
  | @line st content hst ih =>
    refine ⟨?_, (hst.line content).quotedAlign_ne_zero⟩
    refine (lintLine_preserves (Q := fun s ↦ ZeroInWrappers s.frames ∧ s.quotedAlign ≠ some 0)
      (fun _ _ _ _ h ↦ h) ?_ content ih).1
    rintro s aligned text ⟨hs, hquoted⟩
    refine ⟨?_, quotedAlign_scan_ne_zero hquoted text⟩
    exact hs.scan (fun _ ↦ hquoted) text

/-! ### Lines that intrude -/

/-- The line makes a wrapper inside of a form that is none. -/
structure Intrudes (style : Style) (st : State) (content : List Char) : Prop extends
    OpensWrapper style st content where
  inside : st.allWrappers = false

theorem indentation_mem_alignLine_zero (st : State) (hexpected : ((0 : Nat) : Int) ≠ st.expected)
    (hinside : st.allWrappers = false) (hquoted : st.quotedAlign ≠ some 0) :
    ⟨0, .indentation⟩ ∈ (alignLine 0 st).1 := by
  rw [alignLine, if_neg hexpected, if_neg fun h ↦ Bool.eq_false_iff.1 hinside h.2, if_neg hquoted]
  exact List.mem_singleton_self _

/-- **A line that intrudes is misindented**, and reported for that if its start is checked. -/
theorem indentation_mem_of_intrudes (hst : Reachable style st) (h : Intrudes style st content)
    (haligns : style.aligns content = true) :
    ⟨0, .indentation⟩ ∈ (lintLine style st content).findings := by
  obtain ⟨c, rest, htext, hopener, -⟩ := h.text
  have hspace : c ≠ ' ' := by rintro rfl; cases hopener
  obtain ⟨frame, outer, hframes⟩ : ∃ frame outer, st.frames = frame :: outer := by
    refine List.exists_cons_of_ne_nil fun hnil ↦ ?_
    have hinside := h.inside
    rw [State.allWrappers, hnil] at hinside
    cases hinside
  have hcolumn : frame.column ≠ 0 := by
    intro hzero
    have hall := hst.zeroInWrappers frame outer (hframes ▸ List.suffix_refl _) hzero
    rw [← hframes] at hall
    exact Bool.eq_false_iff.1 h.inside hall
  have hexpected : (0 : Int) ≠ st.expected := by
    rw [State.expected, hframes]
    exact hcolumn.symm
  have halign : ⟨0, .indentation⟩ ∈ (alignLine 0 { st with blanks := 0 }).1 :=
    indentation_mem_alignLine_zero { st with blanks := 0 } hexpected h.inside
      hst.quotedAlign_ne_zero
  obtain ⟨body, rfl⟩ : ∃ body, content = c :: body := by
    rcases content with - | ⟨d, body⟩
    · obtain rfl := (List.cons.inj htext).1
      cases hopener
    · exact ⟨body, congrArg (· :: body) (List.cons.inj htext).1⟩
  have hhead : (c :: body).head? ≠ some ';' := by
    rintro ⟨⟩
    cases hopener
  have hblank : isBlankLine (c :: body) = false := isBlankLine_of_first (k := 0) hspace
  rw [lintLine, hblank, if_neg Bool.false_ne_true, lintTextLine_of_code h.code hhead, haligns]
  exact List.mem_append_right _
    (mem_scan_of_mem_step (mem_step_of_mem_alignLine rfl hspace halign))

/-! ### Lines in a row -/

/-- Every wrapper that lines leave open was made by one of them, outside of it were the forms that
are outside of it now, and no line since has closed it. -/
theorem exists_opensWrapper_of_suffix {lines : List (List Char)} {outer : List Bool}
    (h : true :: outer <:+ (stateAfter style lines).wrapperFlags) :
    ∃ before line after, lines = before ++ line :: after ∧
      OpensWrapper style (stateAfter style before) line ∧
      (stateAfter style before).wrapperFlags = outer ∧
      ∀ between, between <+: after →
        true :: outer <:+ (stateAfter style (before ++ line :: between)).wrapperFlags := by
  induction lines using List.reverseRecOn with
  | nil => cases List.suffix_nil.1 h
  | append_singleton lines content ih =>
    by_cases hold : true :: outer <:+ (stateAfter style lines).wrapperFlags
    · obtain ⟨before, line, after, rfl, hopens, houter, hkept⟩ := ih hold
      refine ⟨before, line, after ++ [content], by simp, hopens, houter, fun between hbetween ↦ ?_⟩
      rcases List.prefix_concat_iff.1 hbetween with rfl | hbetween
      · simpa using h
      · exact hkept between hbetween
    · have hnew := h
      rw [stateAfter_concat] at hnew
      obtain ⟨hmade, hnone⟩ := noNewWrapper_lintLine style (stateAfter style lines) content
      have hopens : OpensWrapper style (stateAfter style lines) content := by
        by_contra hcontra
        exact hold (hnone hcontra outer hnew)
      have houter : (stateAfter style lines).wrapperFlags = outer := by
        rcases List.suffix_cons_iff.1 (hmade outer hnew) with heq | hsuffix
        · exact (List.cons.inj heq).2.symm
        · exact absurd hsuffix hold
      refine ⟨lines, content, [], rfl, hopens, houter, fun between hbetween ↦ ?_⟩
      rw [List.prefix_nil.1 hbetween]
      exact h

/-- A wrapper at the depth of one that was there before a line, or that the line made, is that
one. -/
theorem suffix_lintLine_of_mem {outer : List Bool}
    (h : true :: outer <:+ true :: st.wrapperFlags)
    (hmem : outer.length + 1 ∈ (lintLine style st content).state.wrapperDepths) :
    true :: outer <:+ (lintLine style st content).state.wrapperFlags := by
  obtain ⟨outer', houter', hlength⟩ := mem_wrapperDepthsOf_iff.1 hmem
  have hbefore := (noNewWrapper_lintLine style st content).1 outer' houter'
  have hsame : (true :: outer).length = (true :: outer').length := by
    rw [List.length_cons, List.length_cons, hlength]
  rw [(List.suffix_of_suffix_length_le h hbefore hsame.le).eq_of_length hsame]
  exact houter'

/-- A wrapper that is still there after every line is still inside of the same forms. -/
theorem suffix_of_forall_mem {before between : List (List Char)} {line : List Char}
    (h : ∀ front, front <+: between →
      (stateAfter style before).depth + 1 ∈
        (stateAfter style (before ++ line :: front)).wrapperDepths) :
    true :: (stateAfter style before).wrapperFlags <:+
      (stateAfter style (before ++ line :: between)).wrapperFlags := by
  have hlast := h between (List.prefix_refl _)
  rw [← State.length_wrapperFlags] at hlast
  induction between using List.reverseRecOn with
  | nil =>
    rw [stateAfter_concat] at hlast ⊢
    exact suffix_lintLine_of_mem (List.suffix_refl _) hlast
  | append_singleton between content ih =>
    have hfront : ∀ front, front <+: between → front <+: between ++ [content] :=
      fun front hfront ↦ hfront.trans (List.prefix_append _ _)
    rw [← List.cons_append, ← List.append_assoc, stateAfter_concat] at hlast ⊢
    refine suffix_lintLine_of_mem ?_ hlast
    refine (ih (fun front hf ↦ h front (hfront front hf)) ?_).trans (List.suffix_cons _ _)
    rw [State.length_wrapperFlags]
    exact h between (hfront between (List.prefix_refl _))

/-- Every line that intrudes is followed by lines that close its form again. -/
def Withdraws (style : Style) (lines : List (List Char)) : Prop :=
  ∀ before line after, lines = before ++ line :: after →
    Intrudes style (stateAfter style before) line →
    ∃ between, between <+: after ∧ (stateAfter style before).depth + 1 ∉
      (stateAfter style (before ++ line :: between)).wrapperDepths

theorem false_mem_wrapperFlags_iff : false ∈ st.wrapperFlags ↔ st.allWrappers = false := by
  simp [State.wrapperFlags, State.allWrappers]

/-- **The depths of the open wrappers are the numbers from one on exactly if the form of every line
that intruded was closed again**; and every line that intrudes is reported, unless the check of its
start is turned off. -/
theorem wrapperDepths_stateAfter_eq_range_iff (style : Style) (lines : List (List Char)) :
    let depths := (stateAfter style lines).wrapperDepths
    (depths = List.range' 1 depths.length ↔ Withdraws style lines) ∧
      ∀ before line after, lines = before ++ line :: after →
        Intrudes style (stateAfter style before) line → style.aligns line = true →
        ⟨0, .indentation⟩ ∈ (lintLine style (stateAfter style before) line).findings := by
  refine ⟨(wrapperDepthsOf_eq_range'_iff _).trans ⟨fun h ↦ ?_, fun h ↦ ?_⟩,
    fun before line _ _ hline ↦
      indentation_mem_of_intrudes (reachable_stateAfter style before) hline⟩
  · rintro before line after rfl hline
    by_contra! hopen
    exact h _ (suffix_of_forall_mem hopen) (false_mem_wrapperFlags_iff.2 hline.inside)
  · intro outer houter hfalse
    obtain ⟨before, line, after, rfl, hopens, rfl, hkept⟩ := exists_opensWrapper_of_suffix houter
    obtain ⟨between, hbetween, hclosed⟩ :=
      h before line after rfl ⟨hopens, false_mem_wrapperFlags_iff.1 hfalse⟩
    refine hclosed (mem_wrapperDepthsOf_iff.2 ⟨_, hkept between hbetween, ?_⟩)
    rw [State.length_wrapperFlags]

/-- A library that starts its line inside of another form intrudes, and is reported for that. -/
theorem indentation_mem_of_library :
    let st := stateAfter .standard ["(foo".toList]
    let line := "(library a".toList
    (Intrudes .standard st line ∧ Style.standard.aligns line = true) ∧
      ⟨0, .indentation⟩ ∈ (lintLine .standard st line).findings := by
  have haligns : Style.standard.aligns "(library a".toList = true := by decide +kernel
  have hends : EndsWrapper .standard [] "library a\n".toList :=
    ⟨"library".toList, ' ', "a\n".toList, by decide +kernel,
      by simp [IsPlain], by decide +kernel, by decide +kernel⟩
  have hline : Intrudes .standard (stateAfter .standard ["(foo".toList]) "(library a".toList :=
    { code := by decide +kernel
      room := by decide +kernel
      text := ⟨'(', "library a\n".toList, by decide +kernel, rfl, hends⟩
      inside := by decide +kernel }
  have hreported := (wrapperDepths_stateAfter_eq_range_iff .standard
    ["(foo".toList, "(library a".toList]).2 ["(foo".toList] "(library a".toList [] rfl hline haligns
  exact ⟨⟨hline, haligns⟩, hreported⟩

/-- A wrapper that starts its line inside of another form is open at depth two, with none around
it. -/
theorem wrapperDepths_after_intruder :
    let st := stateAfter .standard ["(foo".toList, "(library a".toList]
    Reachable .standard st ∧ st.wrapperDepths = [2] ∧
      st.wrapperDepths ≠ List.range' 1 st.wrapperDepths.length :=
  ⟨reachable_stateAfter _ _, by decide +kernel, by decide +kernel⟩

end SchemeStyle
