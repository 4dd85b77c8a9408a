import SchemeStyle.Proofs.Alignment.Columns

/-!
# What an operator asks of its form

A form is opened as no wrapper, with its contents expected right behind its delimiter. What its
operator asks for is applied later, where the operator has ended, and to the form that is innermost
then. It is the right one: while an operator is read, the form it belongs to stays innermost, as it
was opened (`Scans.frames_of_operator`).

What ends an operator decides whether it counts. A blank or a comment applies it; a string or
another delimiter leaves the form as it was opened (`Move.around_of_ends`). From there on the form
is around the rest of its line, as long as it is not closed, and no other operator is applied to it
(`suffix_scan_of_operator`). So what a line leaves of the forms that it opens is read off its text
(`opens_lintLine`).
-/

namespace SchemeStyle

variable {style : Style} {aligned : Bool} {st st' final : State} {cur last : Cursor}
  {content before name rest text : List Char} {c e : Char} {outer : List Frame} {frame : Frame}
  {token : Token}

/-! ### The demands of an operator -/

namespace Flags

/-- The column at which the contents of a form are expected after its line: its delimiter stands in
column `p`, and the character `e` in column `i` ends the operator. -/
def contentColumn (flags : Flags) (p i : Nat) (e : Char) : Nat :=
  if e = ' ' then if flags.special && !flags.uniform then p + 2 else i + 1
  else if (e = '\n' ∨ e = ';') ∧ flags.special then p + 2
  else p + 1

/-- Whether a form is a wrapper after its line. -/
def wraps (flags : Flags) (e : Char) : Bool :=
  [' ', '\n', ';'].contains e && flags.wrapper

/-- The form as its operator leaves it. -/
def openedFrame (flags : Flags) (p i : Nat) (e : Char) : Frame :=
  ⟨flags.contentColumn p i e, flags.wraps e⟩

end Flags

/-- Nothing is asked for where an operator ends in another way than at a blank or a comment. -/
theorem Flags.openedFrame_of_notMem (h : e ∉ [' ', '\n', ';']) (flags : Flags) (p i : Nat) :
    flags.openedFrame p i e = ⟨(p + 1 : Nat), false⟩ := by
  simp only [List.mem_cons, List.not_mem_nil, or_false, not_or] at h
  simp [openedFrame, contentColumn, wraps, h]

/-! ### Views of an open form -/

namespace State

theorem getElem?_columns_of_suffix (h : frame :: outer <:+ st.frames) :
    st.columns[outer.length + 1]? = some frame.column := by
  have hcolumns := take_columns h
  rw [List.length_cons] at hcolumns
  rw [← List.getElem?_take_of_lt (Nat.lt_succ_self _), hcolumns]
  simp

theorem mem_wrapperDepths_of_suffix (h : frame :: outer <:+ st.frames) :
    outer.length + 1 ∈ st.wrapperDepths ↔ frame.wrapper = true := by
  rw [wrapperDepths, mem_wrapperDepthsOf_iff]
  have hflags : frame.wrapper :: outer.map Frame.wrapper <:+ st.frames.map Frame.wrapper :=
    h.map Frame.wrapper
  constructor
  · rintro ⟨outer', houter, hlength⟩
    have hlengths : (true :: outer').length =
        (frame.wrapper :: outer.map Frame.wrapper).length := by
      rw [List.length_cons, List.length_cons, List.length_map, hlength]
    have heq : true :: outer' = frame.wrapper :: outer.map Frame.wrapper :=
      (List.suffix_of_suffix_length_le houter hflags (Nat.le_of_eq hlengths)).eq_of_length hlengths
    exact (List.cons.inj heq).1.symm
  · intro hwrapper
    rw [hwrapper] at hflags
    exact ⟨_, hflags, by rw [List.length_map]⟩

end State

/-! ### While an operator is read -/

/-- **The form that an operator belongs to stays innermost, as it was opened, while the operator is
read.** -/
theorem Scans.frames_of_operator {found : List Finding}
    (h : Scans style aligned (.start st.inString) st' text found last final)
    (hmode : last.mode = .operator token) :
    ∃ outer, final.frames = ⟨token.start, false⟩ :: outer := by
  refine h.induct (P := fun _ mid s ↦ ∀ token, mid.mode = .operator token →
    ∃ outer, s.frames = ⟨token.start, false⟩ :: outer) ?_ ?_ token hmode
  · intro token
    cases hstring : st.inString <;> simp [Cursor.start]
  · intro _ _ mid s c mode _ ih next token hmode
    have hmove := move_of_step style aligned mid c s
    obtain rfl : mode = .operator token := hmode
    rw [next] at hmove
    generalize (step style aligned mid c s).state = s' at hmove
    cases hmove with
    | «open» => exact ⟨_, rfl⟩
    | operator token hmid =>
      rw [entered, if_neg fun hentered ↦ by simp [hmid] at hentered]
      exact ih token hmid

/-- Where an operator ends, its form becomes what the operator asks for. -/
theorem frames_finishOperator_of_opened (hframes : st.frames = ⟨token.start, false⟩ :: outer)
    {p : Nat} (hstart : token.start = p + 1) (he : e = ' ' ∨ e = '\n' ∨ e = ';') (style : Style)
    (index : Nat) :
    (finishOperator style token index (e == ' ') st).2.frames =
      (style.rules.lookup token.text token.start).openedFrame p index e :: outer := by
  rw [frames_finishOperator hframes, hstart]
  generalize style.rules.lookup token.text _ = flags
  obtain ⟨special, wrapper, uniform⟩ := flags
  rcases he with rfl | rfl | rfl <;> cases special <;> cases uniform <;>
    simp [Flags.openedFrame, Flags.contentColumn, Flags.wraps, bodyColumn?, hstart, Int.add_assoc]

/-- **What ends an operator leaves its form as the operator asks for**, unless it closes the form.
The form is then around the rest of the line. -/
theorem Move.around_of_ends {next : Next} {p : Nat} (h : Move style cur e st st' next)
    (hmode : cur.mode = .operator token) (hstart : token.start = p + 1)
    (hframes : st.frames = ⟨token.start, false⟩ :: outer) (he : ¬IsPlain e)
    (hdepth : outer.length + 1 ≤ cur.region.shift st.depth e) :
    let opened := (style.rules.lookup token.text token.start).openedFrame p cur.index e :: outer
    opened <:+ st'.frames ∧ ∀ mode, next = .go mode → Around opened mode st' := by
  intro opened
  have hnone : cur.mode.operator? ≠ none := by simp [hmode, Mode.operator?]
  have hfinished : e = ' ' ∨ e = '\n' ∨ e = ';' →
      opened <:+ (finishOperator style token cur.index (e == ' ') st).2.frames := fun hblank ↦
    (frames_finishOperator_of_opened hframes hstart hblank style cur.index).symm ▸ List.suffix_rfl
  -- Where nothing is applied, the form stays as it was opened.
  have hsame : e ∉ [' ', '\n', ';'] → opened = st.frames := fun hother ↦ by
    rw [hframes, hstart]
    exact congrArg (· :: outer) (Flags.openedFrame_of_notMem hother _ p cur.index)
  cases h with
  | indent mode | string mode | closeString mode => rw [hmode] at mode; cases mode
  | comment mode | endWord mode | code mode => exact absurd mode hnone
  | operatorComment token' mode semicolon =>
    obtain rfl := Mode.operator.inj (hmode.symm.trans mode)
    subst semicolon
    exact ⟨hfinished (.inr (.inr rfl)), by simp⟩
  | endOperator token' mode blank =>
    obtain rfl := Mode.operator.inj (hmode.symm.trans mode)
    have hsuffix := hfinished (by rcases blank with rfl | rfl <;> simp)
    exact ⟨hsuffix, by rintro _ ⟨⟩; exact .of_suffix hsuffix (by simp)⟩
  | openString _ quote =>
    have hsuffix : opened <:+ st.frames := hsame (by simp [quote]) ▸ List.suffix_rfl
    exact ⟨hsuffix, by rintro _ ⟨⟩; exact .of_suffix hsuffix (by simp)⟩
  | «open» _ opener =>
    have heq := hsame (by rcases opener with rfl | rfl <;> simp)
    have hsuffix : opened <:+ (⟨(cur.index + 1 : Nat), false⟩ :: st.frames : List Frame) :=
      heq ▸ List.suffix_cons _ _
    exact ⟨hsuffix, fun _ _ ↦ ⟨hsuffix, fun _ _ ↦ heq ▸ Nat.lt_succ_self _⟩⟩
  | tooDeep _ opener =>
    exact ⟨hsame (by rcases opener with rfl | rfl <;> simp) ▸ List.suffix_rfl, by simp⟩
  | unmatched _ _ empty => rw [hframes] at empty; cases empty
  | close mode closer =>
    rw [Cursor.region_code mode, State.depth, hframes] at hdepth
    rcases closer with rfl | rfl <;> exact absurd hdepth (Nat.not_succ_le_self _)
  | operator _ _ plain => exact absurd plain he

/-- **The rest of a line leaves a form as its operator asks for**, however many forms it opens and
closes behind the operator, as long as it does not close that one. -/
theorem suffix_scan_of_operator {p : Nat} (hmode : cur.mode = .operator token)
    (hstart : token.start = p + 1) (hframes : st.frames = ⟨token.start, false⟩ :: outer)
    (he : ¬IsPlain e) (hdepth : outer.length + 1 ≤ cur.region.lowest st.depth (e :: rest))
    (style : Style) (aligned : Bool) :
    (style.rules.lookup token.text token.start).openedFrame p cur.index e :: outer <:+
      (scan style aligned cur st (e :: rest)).state.frames := by
  have hmove := move_of_step style aligned cur e st
  rw [entered, if_neg fun hentered ↦ by simp [hmode] at hentered] at hmove
  have hrest : outer.length + 1 ≤ (cur.region.read e).lowest (cur.region.shift st.depth e) rest :=
    Nat.le_trans hdepth (Nat.min_le_right _ _)
  obtain ⟨hsuffix, hgo⟩ := hmove.around_of_ends hmode hstart hframes he
    (Nat.le_trans hrest (Region.lowest_le _ _ _))
  rw [scan]
  rcases hnext : (step style aligned cur e st).next with mode | - | error
  · rw [hnext] at hmove
    refine (hgo mode hnext).scan (fun _ ↦ ?_) ?_ style
    · exact hmove.mode_ne_indent fun hindent ↦ by simp [hmode] at hindent
    · rwa [region_advance hmove, hmove.depth_eq]
  · exact hsuffix
  · exact hsuffix

/-! ### The forms that a line opens -/

/-- On the line a delimiter opens a form that is not closed any more. `before` is what precedes the
delimiter `c`, and `name` what follows it up to the first character, `e`, that is not plain. -/
structure OpensForm (st : State) (content before : List Char) (c : Char) (name : List Char)
    (e : Char) (rest : List Char) : Prop where
  text : content ++ ['\n'] = before ++ c :: (name ++ e :: rest)
  code : st.region.after before = .code
  opener : isOpener c = true
  plain : ∀ d ∈ name, IsPlain d
  ends : ¬IsPlain e
  stays : st.region.depthAfter st.depth before + 1 ≤
    Region.code.lowest (st.region.depthAfter st.depth before + 1) (name ++ e :: rest)

namespace OpensForm

theorem region_eq (h : OpensForm st content before c name e rest) :
    st.region.after (before ++ [c]) = .code := by
  rw [Region.after_append, h.code]
  rcases isOpener_iff.1 h.opener with rfl | rfl <;> rfl

theorem depth_eq (h : OpensForm st content before c name e rest) :
    st.region.depthAfter st.depth (before ++ [c]) = st.region.depthAfter st.depth before + 1 := by
  rw [Region.depthAfter_append, h.code]
  exact if_pos h.opener

/-- A delimiter of code stands on a line that is neither blank nor a comment. -/
theorem lintLine_eq (h : OpensForm st content before c name e rest) (style : Style) :
    lintLine style st content = (scanLine style st content).count := by
  have hopener := isOpener_iff.1 h.opener
  have hprefix : before ++ [c] <+: content := by
    have hline : before ++ [c] <+: content ++ ['\n'] :=
      ⟨name ++ e :: rest, by rw [h.text, List.append_assoc]; rfl⟩
    rcases List.prefix_concat_iff.1 hline with heq | hprefix
    · have hc : c = '\n' := List.singleton_inj.1 (List.append_inj' heq rfl).2
      rcases hopener with rfl | rfl <;> cases hc
    · exact hprefix
  have hblank : isBlankLine content = false := by
    rw [isBlankLine, List.all_eq_false]
    exact ⟨c, hprefix.subset (by simp), by rcases hopener with rfl | rfl <;> simp⟩
  exact lintLine_of_region_ne hblank hprefix (by simp) (by simp [h.region_eq]) style

/-- The form is open after the line, as its operator asks for. -/
theorem exists_suffix_lintLine (h : OpensForm st content before c name e rest)
    (hends : (lintLine style st content).error? = none) :
    ∃ outer, outer.length = st.region.depthAfter st.depth before ∧
      (style.rules.lookup (String.ofList name) (before.length + 1 : Nat)).openedFrame before.length
        (before.length + 1 + name.length) e :: outer <:+
          (lintLine style st content).state.frames := by
  have hline : content ++ ['\n'] = (before ++ [c] ++ name) ++ e :: rest := by simp [h.text]
  have hcode : st.region.after (before ++ [c] ++ name) = .code := by
    rw [Region.after_append, h.region_eq, Region.after_of_isPlain h.plain]
  have hdepth : st.region.depthAfter st.depth (before ++ [c] ++ name) =
      st.region.depthAfter st.depth before + 1 := by
    rw [Region.depthAfter_append, h.region_eq, h.depth_eq, Region.depthAfter_of_isPlain h.plain]
  rw [h.lintLine_eq] at hends ⊢
  have hends : (scan style (style.aligns content) (.start st.inString) { st with blanks := 0 }
      (before ++ [c] ++ name ++ e :: rest)).error? = none := hline ▸ hends
  obtain ⟨found, mid, s, hscans⟩ := exists_scans hends (by
    rw [Cursor.region_start, hcode]
    simp)
  have hmode : mid.mode = .operator ⟨before.length + 1, name.reverse⟩ :=
    hscans.mode_eq_operator_iff.2 ⟨before, c, name, by simp, h.opener, h.code, h.plain, rfl⟩
  obtain ⟨outer, hframes⟩ := hscans.frames_of_operator hmode
  have hindex : mid.index = before.length + 1 + name.length := by
    rw [hscans.index_eq]
    simp only [Cursor.start, List.length_append, List.length_singleton, Nat.zero_add]
  have hopen : s.depth = st.region.depthAfter st.depth before + 1 := by
    rw [hscans.depth_eq, Cursor.region_start]
    exact hdepth
  have houter : outer.length = st.region.depthAfter st.depth before := by
    rw [State.depth, hframes] at hopen
    exact Nat.succ.inj hopen
  have hstays : outer.length + 1 ≤ mid.region.lowest s.depth (e :: rest) := by
    have hstays := h.stays
    rw [Region.lowest_append, Region.after_of_isPlain h.plain,
      Region.depthAfter_of_isPlain h.plain] at hstays
    rw [Cursor.region_code (by simp [hmode]), hopen, houter]
    exact Nat.le_trans hstays (Nat.min_le_right _ _)
  have hsuffix := suffix_scan_of_operator hmode rfl hframes h.ends hstays style
    (style.aligns content)
  have hscan : (scanLine style st content).count.state.frames =
      (scan style (style.aligns content) mid s (e :: rest)).state.frames := by
    rw [scanLine, hline, hscans.scan_append]
    rfl
  rw [Token.text, List.reverse_reverse, hindex] at hsuffix
  exact ⟨outer, houter, hscan ▸ hsuffix⟩

end OpensForm

/-- **A line leaves each form that it opens with the column that its operator demands.** The column
is decided by the flags of the operator and by what ends it, and so is whether the form is a
wrapper, which it can be only at the start of the line. -/
theorem opens_lintLine (h : OpensForm st content before c name e rest)
    (hends : (lintLine style st content).error? = none) :
    let p := before.length
    let flags := style.rules.lookup (String.ofList name) (p + 1 : Nat)
    let depth := st.region.depthAfter st.depth before + 1
    let after := (lintLine style st content).state
    after.columns[depth]? = some (flags.contentColumn p (p + 1 + name.length) e : Int) ∧
      (depth ∈ after.wrapperDepths ↔ e ∈ [' ', '\n', ';'] ∧ flags.wrapper = true) ∧
      (flags.wrapper = true → p = 0) := by
  intro p flags depth after
  obtain ⟨outer, houter, hsuffix⟩ := h.exists_suffix_lintLine hends
  have hdepth : depth = outer.length + 1 := congrArg (· + 1) houter.symm
  refine ⟨?_, ?_, fun hwrapper ↦ ?_⟩
  · rw [hdepth]
    exact State.getElem?_columns_of_suffix hsuffix
  · rw [hdepth, State.mem_wrapperDepths_of_suffix hsuffix]
    simp [Flags.openedFrame, Flags.wraps, flags, p]
  · by_contra hp
    have hcolumn : ((p + 1 : Nat) : Int) ≠ 1 := by omega
    rw [wrapper_lookup_of_ne hcolumn] at hwrapper
    cases hwrapper

/-- Behind its operator the line opens and closes other forms and a string with a delimiter in it,
and ends in a comment; the form it starts with gets the column of its body all the same. -/
theorem opens_lintLine_of_let :
    let st := stateAfter .standard ["(define (f x)".toList]
    let content := "  (let ((y \")\")) (g [z 1] ; c".toList
    let after := (lintLine .standard st content).state
    Reachable .standard st ∧ OpensForm st content "  ".toList '(' "let".toList ' '
        "((y \")\")) (g [z 1] ; c\n".toList ∧
      (lintLine .standard st content).error? = none ∧ after.columns[2]? = some 4 ∧
      2 ∉ after.wrapperDepths := by
  intro st content after
  have hopens : OpensForm st content "  ".toList '(' "let".toList ' '
      "((y \")\")) (g [z 1] ; c\n".toList :=
    { text := by decide +kernel
      code := by decide +kernel
      opener := rfl
      plain := by simp [IsPlain]
      ends := by simp [IsPlain]
      stays := by decide +kernel }
  have hends : (lintLine .standard st content).error? = none := by decide +kernel
  obtain ⟨hcolumn, hwrapper, -⟩ := opens_lintLine hopens hends
  refine ⟨reachable_stateAfter _ _, hopens, hends, hcolumn, fun hmem ↦ ?_⟩
  exact Bool.false_ne_true (hwrapper.1 hmem).2

end SchemeStyle