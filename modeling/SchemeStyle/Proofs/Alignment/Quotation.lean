import Mathlib.Data.List.DropRight
import SchemeStyle.Proofs.Scan.Progress

/-!
# Which forms count as quoted

The column kept for a quoted form is written anew at every opening delimiter of code, so after a
line it tells of the last one (`quotedAlign_scan`). That delimiter may be quoted itself, or stand at
the end of a run of opening delimiters of which the first is quoted: the column is handed on from
delimiter to delimiter of the run (`InRun`).

What is handed on to the first delimiter of a run is decided by the character before it, and where a
line starts there is none. A run that starts a line is taken for quoted whenever a column was kept
from the lines before, although nothing on the line quotes it and the form that the column was kept
for may be closed long since. So the column that a line leaves is that of a quoted form
(`QuotedAt`) only up to this one exception (`quotedAlign_lintLine`).
-/

namespace SchemeStyle

variable {style : Style} {aligned : Bool} {st st' : State} {cur mid last : Cursor} {c : Char}
  {next : Next}

/-! ### Runs of opening delimiters -/

/-- The run of opening delimiters that ends at a place, told by what of the line is before it, is
quoted: a quote mark stands right before the run. -/
def QuotedAt (before : List Char) : Prop :=
  (before.rdropWhile isOpener).getLast? = some '\''

/-- Nothing but opening delimiters stands before the place. -/
def StartsRun (before : List Char) : Prop :=
  ∀ c ∈ before, isOpener c = true

instance : DecidablePred QuotedAt :=
  fun _ ↦ inferInstanceAs (Decidable (_ = _))

instance : DecidablePred StartsRun :=
  fun _ ↦ inferInstanceAs (Decidable (∀ _ ∈ _, _))

/-- The column kept for the form that opens at a place, if one was kept from the lines before and
`kept` is that. -/
def alignmentAt (kept : Option Nat) (before : List Char) : Option Nat :=
  if QuotedAt before ∨ (StartsRun before ∧ kept.isSome) then some (before.length + 1) else none

theorem quotedAt_concat_of_opener {before : List Char} (hc : isOpener c = true) :
    QuotedAt (before ++ [c]) ↔ QuotedAt before := by
  rw [QuotedAt, List.rdropWhile_concat_pos _ _ _ hc, QuotedAt]

theorem quotedAt_concat {before : List Char} (hc : isOpener c = false) :
    QuotedAt (before ++ [c]) ↔ c = '\'' := by
  rw [QuotedAt, List.rdropWhile_concat_neg _ _ _ (by simp [hc]), List.getLast?_concat]
  exact Option.some_inj

theorem startsRun_concat {before : List Char} :
    StartsRun (before ++ [c]) ↔ StartsRun before ∧ isOpener c = true := by
  simp [StartsRun, or_imp, forall_and]

theorem isSome_alignmentAt {kept : Option Nat} {before : List Char} :
    (alignmentAt kept before).isSome = true ↔
      QuotedAt before ∨ (StartsRun before ∧ kept.isSome = true) := by
  rw [alignmentAt]
  split_ifs with h
  · exact iff_of_true rfl h
  · exact iff_of_false Bool.false_ne_true h

/-! ### One character -/

/-- **Only opening delimiters write the column kept for a quoted form.** -/
theorem Move.quotedAlign_eq (h : Move style cur c st st' next) (hc : isOpener c = false) :
    st'.quotedAlign = st.quotedAlign := by
  cases h with
  | operatorComment token => rw [finishOperator_eq]
  | «open» mode opener => rw [isOpener_iff.2 opener] at hc; cases hc
  | endOperator token => rw [finishOperator_eq]
  | endWord => rw [rememberName_eq]
  | _ => rfl

/-- A form that opens keeps its column if it is quoted, or if it follows right after a form, or a
line's end, for which a column is kept. -/
theorem quotedAlign_openForm {mode : Mode} (hnext : (openForm style cur c st).next = .go mode) :
    (openForm style cur c st).state.quotedAlign =
      if cur.prev = some '\'' ∨ (st.quotedAlign.isSome ∧ cur.prev.all isOpener) then
        some (cur.index + 1)
      else none := by
  have hopener : (cur.prev == none || cur.prev == some '(' || cur.prev == some '[') =
      cur.prev.all isOpener := by
    rcases cur.prev with - | p <;> simp [isOpener]
  unfold openForm at hnext ⊢
  split at hnext
  · cases hnext
  · simp only [hopener, Bool.or_eq_true, Bool.and_eq_true, beq_iff_eq]

/-- The first column of a line is no column kept for a quoted form, so the check of a line that
starts there takes none. -/
theorem quotedAlign_alignLine_zero (h : st.quotedAlign ≠ some 0) :
    (alignLine 0 st).2.quotedAlign = st.quotedAlign := by
  rw [alignLine, if_neg h]
  split_ifs
  · rfl
  · rw [State.setExpected_eq]
  · rfl

/-! ### Pieces of a line -/

/-- The state in the midst of a line, as far as quoted forms go: what a form right here would be
handed on. -/
structure InRun (st : State) (before : List Char) (mid : Cursor) (s : State) : Prop where
  start : before = [] → s.quotedAlign = st.quotedAlign
  opener : ∀ front c, before = front ++ [c] → isOpener c = true → st.region.after front = .code →
    s.quotedAlign = alignmentAt st.quotedAlign front

/-- **An opening delimiter of code keeps its column exactly if its run is quoted**, or starts the
line after a column was kept. -/
theorem quotedAlign_step_of_opener {found : List Finding} {before : List Char} {s : State}
    {mode : Mode} (hpos : st.quotedAlign ≠ some 0)
    (h : Scans style aligned (.start st.inString) st before found mid s)
    (hrun : InRun st before mid s) (hc : isOpener c = true) (hcode : st.region.after before = .code)
    (hnext : (step style aligned mid c s).next = .go mode) :
    (step style aligned mid c s).state.quotedAlign = alignmentAt st.quotedAlign before := by
  have hregion := h.region_eq
  rw [Cursor.region_start, hcode] at hregion
  have hprev : mid.prev = before.getLast? := by
    rw [h.prev_eq]
    exact Option.or_none
  have hindex : mid.index = before.length := by
    rw [h.index_eq]
    exact Nat.zero_add _
  obtain ⟨hstate, hgo⟩ := step_of_opener (Cursor.mode_ne_string hregion) hc style aligned s
  rw [hgo] at hnext
  rw [hstate, quotedAlign_openForm hnext, hprev, hindex]
  refine if_congr ?_ rfl rfl
  rcases List.eq_nil_or_concat before with rfl | ⟨front, d, rfl⟩
  · -- Where the line starts there is no character to decide what is handed on.
    have hentered : (entered aligned mid c s).quotedAlign = st.quotedAlign := by
      rw [← hrun.start rfl, entered, hindex]
      split_ifs
      · exact quotedAlign_alignLine_zero (by rwa [hrun.start rfl])
      · rfl
    rw [hentered]
    simp [QuotedAt, StartsRun]
  · rw [List.concat_eq_append] at *
    rw [List.getLast?_concat, startsRun_concat, Option.some_inj]
    by_cases hd : isOpener d = true
    · -- Inside a run of opening delimiters all of it is code, and what is kept is handed on.
      have hquote : d ≠ '\'' := by rintro rfl; cases hd
      have hspace : d ≠ ' ' := by rintro rfl; cases hd
      have hindent : mid.mode ≠ .indent := fun hmode ↦ hspace (h.eq_space hmode d (by simp))
      have hfront : st.region.after front = .code := by
        rw [Region.after_append, Region.after_cons, Region.after_nil] at hcode
        exact Region.eq_code_of_read hcode (by rintro rfl; cases hd)
      have hentered : (entered aligned mid c s).quotedAlign = alignmentAt st.quotedAlign front := by
        rw [entered, if_neg fun hmode ↦ hindent hmode.1]
        exact hrun.opener front d rfl hd hfront
      rw [hentered, isSome_alignmentAt, quotedAt_concat_of_opener hd]
      simp [hd, hquote]
    · have hd := Bool.eq_false_iff.2 hd
      rw [quotedAt_concat hd]
      simp [hd]

/-- A scan from the start of a line hands on the column from delimiter to delimiter. -/
theorem Scans.inRun {found : List Finding} {before : List Char} {s : State}
    (hpos : st.quotedAlign ≠ some 0)
    (h : Scans style aligned (.start st.inString) st before found mid s) :
    InRun st before mid s := by
  refine h.induct ⟨fun _ ↦ rfl, by simp⟩ ?_
  intro before found mid s c mode hbefore hrun hnext
  refine ⟨by simp, fun front d hfront hd hcode ↦ ?_⟩
  obtain ⟨rfl, hc⟩ := List.append_inj' hfront rfl
  obtain rfl := List.singleton_inj.1 hc
  exact quotedAlign_step_of_opener hpos hbefore hrun hd hcode hnext

/-- Past the start of a line, what has no opening delimiter in code leaves the column kept. -/
theorem quotedAlign_scan {text : List Char} (hindent : cur.mode ≠ .indent)
    (hnone : ∀ front d rest, text = front ++ d :: rest → isOpener d = true →
      cur.region.after front ≠ .code) :
    (scan style aligned cur st text).state.quotedAlign = st.quotedAlign := by
  induction text generalizing cur st with
  | nil => rfl
  | cons d text ih =>
    have hmove := move_of_step style aligned cur d st
    rw [entered, if_neg fun hmode ↦ hindent hmode.1] at hmove
    have hstep : (step style aligned cur d st).state.quotedAlign = st.quotedAlign := by
      by_cases hd : isOpener d = true
      · -- In a string an opening delimiter opens nothing.
        have hmode : cur.mode = .string := by
          by_contra hmode
          exact hnone [] d text rfl hd (Cursor.region_code hmode)
        rw [step, hmode]
        dsimp only
        split_ifs <;> rfl
      · exact hmove.quotedAlign_eq (Bool.eq_false_iff.2 hd)
    rw [scan]
    rcases hnext : (step style aligned cur d st).next with mode | - | e
    · rw [hnext] at hmove
      refine (ih (hmove.mode_ne_indent fun hmode ↦ absurd hmode hindent) ?_).trans hstep
      intro front e rest htext he
      rw [region_advance hmove]
      exact hnone (d :: front) e rest (by rw [htext, List.cons_append]) he
    · exact hstep
    · exact hstep

/-! ### One line -/

theorem quotedAlign_step_ne_zero (h : st.quotedAlign ≠ some 0) :
    (step style aligned cur c st).state.quotedAlign ≠ some 0 := by
  have hentered : (entered aligned cur c st).quotedAlign ≠ some 0 := by
    rw [entered, alignLine]
    split_ifs <;> simp [State.setExpected_eq, h]
  have hmove := move_of_step style aligned cur c st
  by_cases hc : isOpener c = true
  · by_cases hmode : cur.mode = .string
    · rw [step, hmode]
      dsimp only
      split_ifs <;> exact h
    · obtain ⟨hstate, -⟩ := step_of_opener hmode hc style aligned st
      rw [hstate]
      rcases hnext : (openForm style cur c (entered aligned cur c st)).next with mode | - | e
      · rw [quotedAlign_openForm hnext]
        split_ifs <;> simp
      all_goals
        unfold openForm at hnext ⊢
        split at hnext
        · simp_all
        · cases hnext
  · rw [hmove.quotedAlign_eq (Bool.eq_false_iff.2 hc)]
    exact hentered

theorem quotedAlign_scan_ne_zero (h : st.quotedAlign ≠ some 0) (text : List Char) :
    (scan style aligned cur st text).state.quotedAlign ≠ some 0 :=
  scan_induction (P := fun _ s ↦ s.quotedAlign ≠ some 0) (Q := fun s ↦ s.quotedAlign ≠ some 0)
    (fun _ _ h ↦ h) (fun _ _ _ _ h _ ↦ quotedAlign_step_ne_zero h)
    (fun _ _ _ h _ ↦ quotedAlign_step_ne_zero h) text cur st h

/-- No line leaves the first column for a quoted form. -/
theorem Reachable.quotedAlign_ne_zero (h : Reachable style st) : st.quotedAlign ≠ some 0 := by
  induction h with
  | start => simp
  | line content _ ih =>
    exact lintLine_preserves (Q := fun s ↦ s.quotedAlign ≠ some 0) (fun _ _ _ _ h ↦ h)
      (fun _ _ text h ↦ quotedAlign_scan_ne_zero h text) content ih

/-- The character `c`, with `before` in front of it and `after` behind, is the last opening
delimiter of a line that is code. -/
structure LastOpener (region : Region) (before : List Char) (c : Char) (after : List Char) :
    Prop where
  opener : isOpener c = true
  code : region.after before = .code
  last : ∀ i, (h : i < after.length) → isOpener after[i] = true →
    region.after (before ++ c :: after.take i) ≠ .code

instance (region : Region) (before : List Char) (c : Char) (after : List Char) :
    Decidable (LastOpener region before c after) :=
  decidable_of_iff
    (isOpener c = true ∧ region.after before = .code ∧
      ∀ i, (h : i < after.length) → isOpener after[i] = true →
        region.after (before ++ c :: after.take i) ≠ .code)
    ⟨fun ⟨opener, code, last⟩ ↦ ⟨opener, code, last⟩, fun h ↦ ⟨h.opener, h.code, h.last⟩⟩

/-- **A line leaves the column of its last opening delimiter if that is quoted, or if the run it
belongs to starts the line and a column was kept from the lines before**; else it leaves none. -/
theorem quotedAlign_lintLine (h : Reachable style st) {before after : List Char}
    (hlast : LastOpener st.region before c after)
    (hends : (lintLine style st (before ++ c :: after)).error? = none) :
    (lintLine style st (before ++ c :: after)).state.quotedAlign =
      alignmentAt st.quotedAlign before := by
  have hopener := isOpener_iff.1 hlast.opener
  have hregion : st.region.after (before ++ [c]) = .code := by
    rw [Region.after_append, hlast.code]
    rcases hopener with rfl | rfl <;> rfl
  have hcomment : st.region.after (before ++ [c]) ≠ .comment := by
    rw [hregion]
    simp
  have hblank : isBlankLine (before ++ c :: after) = false := by
    rw [isBlankLine, List.all_eq_false]
    exact ⟨c, by simp, by rcases hopener with rfl | rfl <;> simp⟩
  have hline := lintLine_of_region_ne hblank (a := before ++ [c]) ⟨after, by simp⟩ (by simp)
    hcomment style
  have htext : before ++ c :: after ++ ['\n'] = before ++ [c] ++ (after ++ ['\n']) := by simp
  rw [hline] at hends ⊢
  dsimp only [Outcome.count, scanLine] at hends ⊢
  rw [htext] at hends ⊢
  -- The line is scanned up to its last opening delimiter, which writes the column kept.
  obtain ⟨found, mid, s, hscans⟩ := exists_scans (a := before ++ [c]) hends (by
    rwa [Cursor.region_start])
  have hkept : State.quotedAlign { st with blanks := 0 } ≠ some 0 := h.quotedAlign_ne_zero
  have hrun := Scans.inRun hkept hscans
  have hwritten := hrun.opener before c rfl hlast.opener hlast.code
  have hindent : mid.mode ≠ .indent := by
    intro hmode
    have hc := hscans.eq_space hmode c (by simp)
    rcases hopener with rfl | rfl <;> cases hc
  rw [hscans.scan_append]
  refine (quotedAlign_scan hindent ?_).trans hwritten
  intro front d rest hrest hd
  have hmid : mid.region = st.region.after (before ++ [c]) := by
    rw [hscans.region_eq, Cursor.region_start]
  rcases List.eq_nil_or_concat rest with rfl | ⟨rest, e, rfl⟩
  · have hd' := (List.append_inj' hrest rfl).2
    obtain rfl := List.singleton_inj.1 hd'
    cases hd
  · rw [List.concat_eq_append, ← List.cons_append, ← List.append_assoc] at hrest
    obtain rfl := List.append_inj_left' hrest rfl
    have hnext := hlast.last front.length (by simp) (by simpa using hd)
    rw [hmid, ← Region.after_append]
    simpa using hnext

/-- A run of two opening delimiters in the second line is quoted; those in a string and in a comment
are none of code. -/
theorem quotedAlign_after_quoted_run :
    let st := (lintLine .standard {} "(f '(a".toList).state
    let before := "  \"(\" '(".toList
    let after := "b c) ; (d".toList
    (Reachable .standard st ∧ LastOpener st.region before '[' after ∧
        (lintLine .standard st (before ++ '[' :: after)).error? = none) ∧
      (lintLine .standard st (before ++ '[' :: after)).state.quotedAlign =
        alignmentAt st.quotedAlign before ∧
      alignmentAt st.quotedAlign before = some 9 := by
  have hlast : LastOpener (lintLine .standard {} "(f '(a".toList).state.region
      "  \"(\" '(".toList '[' "b c) ; (d".toList := by decide +kernel
  exact ⟨⟨.line _ .start, hlast, by decide +kernel⟩,
    quotedAlign_lintLine (.line _ .start) hlast (by decide +kernel), by decide +kernel⟩

/-- A form that nothing quotes keeps a column, once a quoted form was closed on the line before. -/
theorem quotedAlign_of_unquoted :
    let st := (lintLine .standard {} "'(a)".toList).state
    Reachable .standard st ∧ LastOpener st.region [] '(' "b)".toList ∧ ¬QuotedAt [] ∧
      (lintLine .standard st "(b)".toList).error? = none ∧
      (lintLine .standard st "(b)".toList).state.quotedAlign = some 1 :=
  ⟨.line _ .start, by decide +kernel, by decide +kernel, by decide +kernel, by decide +kernel⟩

end SchemeStyle
