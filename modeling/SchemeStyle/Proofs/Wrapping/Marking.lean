import Mathlib.Data.List.Basic
import SchemeStyle.Proofs.Scan.Progress

/-!
# Which forms become wrappers

A form is marked as a wrapper where its operator ends, and nothing else marks it: the operator has
to be that of a wrapper and to start in column one, which leaves the delimiter that starts the line.
So of all the forms that a line opens only the first can become a wrapper, and only if the line
starts with its delimiter and its operator (`noNewWrapper_lintLine`). What the forms around it are
is not asked.
-/

namespace SchemeStyle

variable {style : Style} {aligned : Bool} {st st' : State} {cur : Cursor} {c : Char} {next : Next}
  {content text : List Char}

/-! ### Open wrappers -/

/-- Which of the open forms are wrappers, innermost first. -/
def State.wrapperFlags (st : State) : List Bool :=
  st.frames.map Frame.wrapper

theorem State.length_wrapperFlags (st : State) : st.wrapperFlags.length = st.depth :=
  List.length_map _

theorem mem_wrapperDepthsOf_iff {frames : List Frame} {d : Nat} :
    d ∈ State.wrapperDepthsOf frames ↔
      ∃ outer, true :: outer <:+ frames.map Frame.wrapper ∧ d = outer.length + 1 := by
  induction frames with
  | nil => simp [State.wrapperDepthsOf]
  | cons frame rest ih =>
    simp only [State.wrapperDepthsOf, List.mem_append, ih, List.map_cons, List.suffix_cons_iff,
      List.cons.injEq]
    rcases frame with ⟨column, _ | _⟩
    · simp
    · simp only [if_true, List.mem_singleton, true_and]
      constructor
      · rintro (⟨outer, houter, rfl⟩ | rfl)
        · exact ⟨outer, .inr houter, rfl⟩
        · exact ⟨_, .inl rfl, by rw [List.length_map]⟩
      · rintro ⟨outer, rfl | houter, rfl⟩
        · exact .inr (by rw [List.length_map])
        · exact .inl ⟨outer, houter, rfl⟩

/-- The depths of the wrappers are the numbers from one on exactly if no wrapper has a form around
it that is none. -/
theorem wrapperDepthsOf_eq_range'_iff (frames : List Frame) :
    State.wrapperDepthsOf frames = List.range' 1 (State.wrapperDepthsOf frames).length ↔
      ∀ outer, true :: outer <:+ frames.map Frame.wrapper → false ∉ outer := by
  induction frames with
  | nil => simp [State.wrapperDepthsOf]
  | cons frame rest ih =>
    rw [List.map_cons]
    simp only [State.wrapperDepthsOf, List.suffix_cons_iff, or_imp, forall_and, ← ih,
      List.cons.injEq]
    rcases frame with ⟨column, _ | _⟩
    · simp
    · have hall : rest.length = (State.wrapperDepthsOf rest).length ↔
          false ∉ rest.map Frame.wrapper := by
        rw [State.length_wrapperDepthsOf, eq_comm, List.countP_eq_length]
        simp
      rw [if_pos rfl, List.length_append, List.length_singleton, List.range'_1_concat,
        List.append_singleton_inj]
      simp only [true_and, forall_eq, ← hall]
      rw [Nat.add_comm 1, Nat.add_right_cancel_iff, and_comm]

/-! ### What one character makes a wrapper -/

/-- Every wrapper among the open forms was one before, inside of the same forms. -/
def NoNewWrapper (before after : List Bool) : Prop :=
  ∀ outer, true :: outer <:+ after → true :: outer <:+ before

namespace NoNewWrapper

variable {a b d : List Bool}

theorem refl (a : List Bool) : NoNewWrapper a a := fun _ h ↦ h

theorem trans (h : NoNewWrapper a b) (h' : NoNewWrapper b d) : NoNewWrapper a d :=
  fun outer houter ↦ h outer (h' outer houter)

/-- A form that opens is no wrapper. -/
theorem opened (a : List Bool) : NoNewWrapper a (false :: a) := by
  intro outer houter
  rcases List.suffix_cons_iff.1 houter with h | h
  · cases h
  · exact h

/-- With a form that closes at most a wrapper is gone. -/
theorem closed (flag : Bool) (a : List Bool) : NoNewWrapper (flag :: a) a :=
  fun _ houter ↦ houter.trans (List.suffix_cons flag a)

end NoNewWrapper

/-- The operator of a wrapper marks the innermost form. -/
theorem wrapperFlags_finishOperator (style : Style) (token : Token) (index : Nat) (followed : Bool)
    (st : State) :
    (finishOperator style token index followed st).2.wrapperFlags =
      st.wrapperFlags.modifyHead (· || (style.rules.lookup token.text token.start).wrapper) := by
  rw [finishOperator_eq, State.wrapperFlags, State.wrapperFlags]
  cases st.frames <;> rfl

theorem wrapperFlags_entered (aligned : Bool) (cur : Cursor) (c : Char) (st : State) :
    (entered aligned cur c st).wrapperFlags = st.wrapperFlags := by
  obtain ⟨column, quoted, h⟩ := exists_entered_eq aligned cur c st
  rw [h, State.setExpected_eq, State.wrapperFlags, State.wrapperFlags]
  cases st.frames <;> rfl

/-- Operators that start in another column are those of no wrapper. -/
theorem wrapper_lookup_of_ne {name : String} {column : Int} (h : column ≠ 1) :
    (style.rules.lookup name column).wrapper = false := by
  rw [RuleTable.lookup]
  exact congrArg Flags.wrapper (if_neg h)

/-- No operator that starts in column one is being read, and none will be on this line. -/
structure PastOperator (cur : Cursor) : Prop where
  index : 0 < cur.index
  start : ∀ token, cur.mode = .operator token → token.start ≠ 1

/-- A character makes a wrapper only where it ends an operator that starts in column one. -/
theorem Move.noNewWrapper (h : Move style cur c st st' next)
    (hstart : ∀ token, cur.mode = .operator token → token.start ≠ 1) :
    NoNewWrapper st.wrapperFlags st'.wrapperFlags := by
  have hfinish : ∀ token, cur.mode = .operator token → ∀ followed,
      (finishOperator style token cur.index followed st).2.wrapperFlags = st.wrapperFlags := by
    intro token hmode followed
    have hcolumn : (token.start : Int) ≠ 1 := by exact_mod_cast hstart token hmode
    rw [wrapperFlags_finishOperator, wrapper_lookup_of_ne hcolumn]
    cases st.wrapperFlags <;> simp
  cases h with
  | operatorComment token mode => exact hfinish token mode false ▸ .refl _
  | endOperator token mode => exact hfinish token mode (c == ' ') ▸ .refl _
  | «open» => exact .opened _
  | close _ _ frame outer frames =>
    rw [State.wrapperFlags, frames]
    exact .closed frame.wrapper _
  | endWord =>
    rw [rememberName_eq]
    exact .refl _
  | _ => exact .refl _

theorem pastOperator_advance {mode : Mode} (hmode : ∀ token, mode ≠ .operator token) :
    PastOperator (cur.advance mode c) :=
  ⟨Nat.succ_pos _, fun token htoken ↦ absurd htoken (hmode token)⟩

/-- Behind the first character of a line all operators start in other columns. -/
theorem Move.pastOperator {mode : Mode} (h : Move style cur c st st' (.go mode))
    (hpast : PastOperator cur) : PastOperator (cur.advance mode c) := by
  cases h with
  | «open» =>
    refine ⟨Nat.succ_pos _, fun token htoken ↦ ?_⟩
    cases htoken
    exact Nat.succ_ne_succ_iff.2 (Nat.ne_of_gt hpast.index)
  | operator token hmode =>
    refine ⟨Nat.succ_pos _, fun token' htoken ↦ ?_⟩
    cases htoken
    exact hpast.start token hmode
  | _ => exact pastOperator_advance (by simp)

/-- A scan makes no wrapper where no operator that starts in column one is read. -/
theorem noNewWrapper_scan (h : PastOperator cur) (text : List Char) :
    NoNewWrapper st.wrapperFlags (scan style aligned cur st text).state.wrapperFlags := by
  have hstep : ∀ mid s d, PastOperator mid → NoNewWrapper st.wrapperFlags s.wrapperFlags →
      NoNewWrapper st.wrapperFlags (step style aligned mid d s).state.wrapperFlags := by
    intro mid s d hpast hs
    have hmove := (move_of_step style aligned mid d s).noNewWrapper hpast.start
    rw [wrapperFlags_entered] at hmove
    exact hs.trans hmove
  refine scan_induction
    (P := fun mid s ↦ PastOperator mid ∧ NoNewWrapper st.wrapperFlags s.wrapperFlags)
    (Q := fun s ↦ NoNewWrapper st.wrapperFlags s.wrapperFlags) (fun _ _ h ↦ h.2) ?_ ?_ text cur st
    ⟨h, .refl _⟩
  · rintro mid d s mode ⟨hpast, hs⟩ hnext
    have hmove := move_of_step style aligned mid d s
    rw [hnext] at hmove
    exact ⟨hmove.pastOperator hpast, hstep mid s d hpast hs⟩
  · rintro mid d s ⟨hpast, hs⟩ -
    exact hstep mid s d hpast hs

/-! ### The operator in column one -/

/-- The text goes on with an operator, of which the first characters are read, and ends it, and the
operator is that of a wrapper. -/
def EndsWrapper (style : Style) (read text : List Char) : Prop :=
  ∃ name e rest, text = name ++ e :: rest ∧ (∀ d ∈ name, IsPlain d) ∧ e ∈ [' ', ';', '\n'] ∧
    (style.rules.lookup (String.ofList (read ++ name)) 1).wrapper = true

theorem EndsWrapper.cons {read : List Char} (hc : IsPlain c)
    (h : EndsWrapper style (read ++ [c]) text) : EndsWrapper style read (c :: text) := by
  obtain ⟨name, e, rest, rfl, hname, he, hwrapper⟩ := h
  refine ⟨c :: name, e, rest, rfl, List.forall_mem_cons.2 ⟨hc, hname⟩, he, ?_⟩
  rwa [List.append_assoc] at hwrapper

/-- The scan stands in an operator that starts in column one. -/
structure InOperator (cur : Cursor) (token : Token) : Prop where
  mode : cur.mode = .operator token
  start : token.start = 1
  index : 0 < cur.index

/-- What an operator in column one leaves of the wrappers, where it is followed by a text: the form
that it belongs to is one of them at most if it ends as that of a wrapper. -/
structure Opened (style : Style) (read text : List Char) (outer after : List Bool) : Prop where
  wrapper : NoNewWrapper (true :: outer) after
  other : ¬EndsWrapper style read text → NoNewWrapper outer after

theorem Opened.of_noNewWrapper {read : List Char} {outer after : List Bool}
    (h : NoNewWrapper outer after) : Opened style read text outer after :=
  ⟨(NoNewWrapper.closed true outer).trans h, fun _ ↦ h⟩

theorem Opened.trans {read : List Char} {outer after final : List Bool}
    (h : Opened style read text outer after) (h' : NoNewWrapper after final) :
    Opened style read text outer final :=
  ⟨h.wrapper.trans h', fun hends ↦ (h.other hends).trans h'⟩

/-- The character that ends the operator marks its form, if it is that of a wrapper. -/
theorem opened_finishOperator {token : Token} {outer : List Bool} (hop : InOperator cur token)
    (hflags : st.wrapperFlags = false :: outer) (hc : c ∈ [' ', ';', '\n']) (followed : Bool)
    (text : List Char) :
    Opened style token.chars.reverse (c :: text) outer
      (finishOperator style token cur.index followed st).2.wrapperFlags := by
  rw [wrapperFlags_finishOperator, hflags, List.modifyHead_cons, hop.start, Bool.false_or]
  cases hwrapper : (style.rules.lookup token.text 1).wrapper with
  | true =>
    refine ⟨.refl _, fun hends ↦ absurd ⟨[], c, text, rfl, by simp, hc, ?_⟩ hends⟩
    rwa [List.append_nil]
  | false => exact .of_noNewWrapper (.opened outer)

/-- **An operator in column one makes its form a wrapper if it ends as that of one**, and the rest
of its line makes none. -/
theorem opened_scan {token : Token} {outer : List Bool} (hop : InOperator cur token)
    (hflags : st.wrapperFlags = false :: outer) (style : Style) (aligned : Bool)
    (text : List Char) :
    Opened style token.chars.reverse text outer
      (scan style aligned cur st text).state.wrapperFlags := by
  induction text generalizing cur st token with
  | nil =>
    rw [scan, hflags]
    exact .of_noNewWrapper (.opened outer)
  | cons d text ih =>
    have hindent : cur.mode ≠ .indent := by simp [hop.mode]
    have hmove := move_of_step style aligned cur d st
    rw [entered, if_neg fun hmode ↦ hindent hmode.1] at hmove
    have hnone : cur.mode.operator? ≠ none := by simp [hop.mode, Mode.operator?]
    -- The operator goes on, or it ends here for good; then the rest of the line is past it.
    have hend : ∀ s : State, Opened style token.chars.reverse (d :: text) outer s.wrapperFlags →
        ∀ mode, (∀ token', mode ≠ .operator token') →
        Opened style token.chars.reverse (d :: text) outer
          (scan style aligned (cur.advance mode d) s text).state.wrapperFlags :=
      fun s hs mode hmode ↦ hs.trans (noNewWrapper_scan (pastOperator_advance hmode) text)
    have hsame : Opened style token.chars.reverse (d :: text) outer st.wrapperFlags := by
      rw [hflags]
      exact .of_noNewWrapper (.opened outer)
    rw [scan]
    generalize hs : (step style aligned cur d st).state = s at hmove
    generalize hn : (step style aligned cur d st).next = next at hmove
    cases hmove with
    | indent mode => exact absurd mode hindent
    | string mode | closeString mode => rw [hop.mode] at mode; cases mode
    | comment mode | endWord mode | code mode => exact absurd mode hnone
    | openString => exact hend { st with inString := true } hsame .string (by simp)
    | tooDeep | unmatched => exact hsame
    | operatorComment token' mode semicolon =>
      obtain rfl := Mode.operator.inj (hop.mode.symm.trans mode)
      exact opened_finishOperator hop hflags (by simp [semicolon]) false text
    | endOperator token' mode blank =>
      obtain rfl := Mode.operator.inj (hop.mode.symm.trans mode)
      exact hend _ (opened_finishOperator hop hflags (by rcases blank with rfl | rfl <;> simp) _
        text) _ (by simp)
    | «open» =>
      refine .of_noNewWrapper (NoNewWrapper.trans ?_ (noNewWrapper_scan ⟨Nat.succ_pos _, ?_⟩ text))
      · show NoNewWrapper outer (false :: st.wrapperFlags)
        rw [hflags]
        exact (NoNewWrapper.opened outer).trans (.opened _)
      · intro token' htoken
        cases htoken
        exact Nat.succ_ne_succ_iff.2 (Nat.ne_of_gt hop.index)
    | close _ _ frame frames hframes =>
      have houter : frames.map Frame.wrapper = outer := by
        rw [State.wrapperFlags, hframes] at hflags
        exact (List.cons.inj hflags).2
      exact hend _ (.of_noNewWrapper (houter ▸ .refl _)) _ (by simp)
    | operator token' mode plain =>
      obtain rfl := Mode.operator.inj (hop.mode.symm.trans mode)
      have hnext : InOperator (cur.advance (.operator (token.push d)) d) (token.push d) :=
        ⟨rfl, hop.start, Nat.succ_pos _⟩
      have hrest := ih hnext hflags
      have hread : (token.push d).chars.reverse = token.chars.reverse ++ [d] := by
        simp [Token.push]
      rw [hread] at hrest
      exact ⟨hrest.wrapper, fun hends ↦ hrest.other fun h ↦ hends (h.cons plain)⟩

/-! ### One line -/

/-- The line starts with the delimiter of a wrapper and its operator. -/
structure OpensWrapper (style : Style) (st : State) (content : List Char) : Prop where
  code : st.inString = false
  room : st.depth + 1 < style.maxDepth
  text : ∃ c rest, content ++ ['\n'] = c :: rest ∧ isOpener c = true ∧ EndsWrapper style [] rest

/-- From the start of a line only the delimiter of a wrapper and its operator make one. -/
theorem noNewWrapper_scan_start (style : Style) (aligned : Bool) (st : State)
    (hcur : cur = .start false) (c : Char) (text : List Char) :
    let after := (scan style aligned cur st (c :: text)).state.wrapperFlags
    NoNewWrapper (true :: st.wrapperFlags) after ∧
      (¬(isOpener c = true ∧ st.depth + 1 < style.maxDepth ∧ EndsWrapper style [] text) →
        NoNewWrapper st.wrapperFlags after) := by
  subst hcur
  have hmove := move_of_step style aligned (.start false) c st
  have hflags : (entered aligned (.start false) c st).wrapperFlags = st.wrapperFlags :=
    wrapperFlags_entered aligned _ c st
  have hdepth : (entered aligned (.start false) c st).depth = st.depth := depth_entered ..
  generalize entered aligned (.start false) c st = s at hmove hflags hdepth
  have hkept := hmove.noNewWrapper (by simp [Cursor.start])
  rw [hflags] at hkept
  -- All but the operator of the form that opens here is past column one.
  have hother : ∀ {after : List Bool}, NoNewWrapper (step style aligned (.start false) c
      st).state.wrapperFlags after → NoNewWrapper (true :: st.wrapperFlags) after ∧
      (¬(isOpener c = true ∧ st.depth + 1 < style.maxDepth ∧ EndsWrapper style [] text) →
        NoNewWrapper st.wrapperFlags after) :=
    fun h ↦ ⟨(NoNewWrapper.closed true _).trans (hkept.trans h), fun _ ↦ hkept.trans h⟩
  dsimp only
  rw [scan]
  rcases hnext : (step style aligned (.start false) c st).next with mode | - | e
  · by_cases hmode : ∀ token, mode ≠ .operator token
    · exact hother (noNewWrapper_scan (pastOperator_advance hmode) text)
    · simp only [not_forall, not_not] at hmode
      obtain ⟨token, rfl⟩ := hmode
      rw [hnext] at hmove
      generalize (step style aligned (.start false) c st).state = s' at hmove
      cases hmove with
      | operator _ mode => cases mode
      | «open» mode opener room align =>
        have hop : InOperator ((Cursor.start false).advance (.operator ⟨1, []⟩) c) ⟨1, []⟩ :=
          ⟨rfl, rfl, Nat.one_pos⟩
        have hform : State.wrapperFlags
            { s with frames := ⟨1, false⟩ :: s.frames, quotedAlign := align } =
            false :: st.wrapperFlags := congrArg (false :: ·) hflags
        have hopened := opened_scan hop hform style aligned text
        exact ⟨hopened.wrapper, fun h ↦ hopened.other fun hends ↦
          h ⟨isOpener_iff.2 opener, hdepth ▸ room, hends⟩⟩
  · exact hother (.refl _)
  · exact hother (.refl _)

/-- A line that starts in a string makes no wrapper. -/
theorem noNewWrapper_scan_string (style : Style) (aligned : Bool) (st : State)
    (hstring : cur.mode = .string) (c : Char) (text : List Char) :
    NoNewWrapper st.wrapperFlags (scan style aligned cur st (c :: text)).state.wrapperFlags := by
  have hmove := move_of_step style aligned cur c st
  rw [entered, if_neg fun hmode ↦ absurd hmode.1 (by simp [hstring])] at hmove
  have hkept := hmove.noNewWrapper (by simp [hstring])
  rw [scan]
  rcases hnext : (step style aligned cur c st).next with mode | - | e
  · refine hkept.trans (noNewWrapper_scan (pastOperator_advance ?_) text)
    rintro token rfl
    rw [hnext] at hmove
    generalize (step style aligned cur c st).state = s at hmove
    cases hmove with
    | operator token mode => rw [hstring] at mode; cases mode
    | «open» mode => exact mode hstring
  · exact hkept
  · exact hkept

/-- **A line makes a wrapper only of the form that its first character opens.** -/
theorem noNewWrapper_lintLine (style : Style) (st : State) (content : List Char) :
    NoNewWrapper (true :: st.wrapperFlags) (lintLine style st content).state.wrapperFlags ∧
      (¬OpensWrapper style st content →
        NoNewWrapper st.wrapperFlags (lintLine style st content).state.wrapperFlags) := by
  -- What makes no wrapper at all is enough for both.
  have hnone : ∀ {after : List Bool}, NoNewWrapper st.wrapperFlags after →
      NoNewWrapper (true :: st.wrapperFlags) after ∧
        (¬OpensWrapper style st content → NoNewWrapper st.wrapperFlags after) :=
    fun h ↦ ⟨(NoNewWrapper.closed true _).trans h, fun _ ↦ h⟩
  obtain ⟨c, text, htext⟩ : ∃ c text, content ++ ['\n'] = c :: text :=
    List.exists_cons_of_ne_nil (by simp)
  have hscan : let after := (scan style (style.aligns content) (.start st.inString)
        { st with blanks := 0 } (content ++ ['\n'])).state.wrapperFlags
      NoNewWrapper (true :: st.wrapperFlags) after ∧
        (¬OpensWrapper style st content → NoNewWrapper st.wrapperFlags after) := by
    rw [htext]
    by_cases hstring : st.inString = true
    · exact hnone (noNewWrapper_scan_string style (style.aligns content) { st with blanks := 0 }
        (by simp [Cursor.start, hstring]) c text)
    · rw [Bool.not_eq_true] at hstring
      obtain ⟨hopened, hother⟩ := noNewWrapper_scan_start style (style.aligns content)
        { st with blanks := 0 } (congrArg Cursor.start hstring) c text
      refine ⟨hopened, fun h ↦ hother ?_⟩
      rintro ⟨hc, hroom, hends⟩
      exact h ⟨hstring, hroom, c, text, htext, hc, hends⟩
  rw [lintLine]
  split_ifs with hblank
  · exact hnone (.refl _)
  · show NoNewWrapper _ (lintTextLine style st content).state.wrapperFlags ∧
      (_ → NoNewWrapper _ (lintTextLine style st content).state.wrapperFlags)
    rw [lintTextLine]
    split_ifs with hcomment
    · exact hnone (.refl _)
    · exact hscan

end SchemeStyle
