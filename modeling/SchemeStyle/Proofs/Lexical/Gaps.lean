import SchemeStyle.Proofs.Lexical.Strings
import SchemeStyle.Proofs.Scan.Findings

/-!
# Spaces in a row

A space in code that follows another opens a gap, which lasts for as long as spaces follow. What
ends it is reported, be it the start of a string or the end of the line, unless it starts a comment.
The spaces at the start of a line are no gap, and neither are those in a string or a comment.

What the cursor remembers of this is no more than what the text before it shows: that it ends in two
spaces of code behind something else (`Scans.gap_eq`). The cursor opens a gap at one character and
reports it at another, but no space leads into or out of code, so nothing is lost between the two.
The findings of a line are then its characters behind such spaces, each of which is found once
(`columnsOf_twoSpaces_lintLine`).
-/

namespace SchemeStyle

variable {style : Style} {aligned : Bool} {st st' final : State} {last : Cursor}
  {region : Region} {text : List Char} {found : List Finding}

/-! ### Gaps of a text -/

/-- The text leads to code that is not at the start of its line. -/
def Region.leadsToCode (region : Region) (text : List Char) : Bool :=
  region.after text == .code && !isBlankLine text

/-- The text ends in two spaces of code that are not among those at the start of its line. -/
def Region.endsInGap (region : Region) (text : List Char) : Bool :=
  [' ', ' '].isSuffixOf text && region.leadsToCode text

/-- The character ends a gap that the text before it ends in, and starts no comment. -/
def Region.endsGap (region : Region) (before : List Char) (c : Char) : Bool :=
  region.endsInGap before && c != ' ' && c != ';'

theorem Region.leadsToCode_concat_space (region : Region) (text : List Char) :
    region.leadsToCode (text ++ [' ']) = region.leadsToCode text := by
  have hcode : (region.after (text ++ [' ']) == .code) = (region.after text == .code) := by
    rw [after_append, after_cons, after_nil, Bool.eq_iff_iff, beq_iff_eq, beq_iff_eq]
    exact ⟨fun h ↦ eq_code_of_read h (by decide), fun h ↦ by rw [h]; rfl⟩
  have hblank : isBlankLine (text ++ [' ']) = isBlankLine text := by simp [isBlankLine]
  rw [leadsToCode, hcode, hblank]
  rfl

/-- A space of code goes on with a gap if it follows another that does not start the line. -/
theorem Region.endsInGap_concat (region : Region) (text : List Char) (c : Char) :
    region.endsInGap (text ++ [c]) =
      (c == ' ' && text.getLast? == some ' ' && region.leadsToCode text) := by
  have hsuffix : [' ', ' '].isSuffixOf (text ++ [c]) = (c == ' ' && text.getLast? == some ' ') := by
    have hends : [' '] ++ [' '] <:+ text ++ [c] ↔ [' '] <:+ text ∧ [' '] = [c] :=
      List.suffix_append_inj_of_length_eq rfl
    rw [Bool.eq_iff_iff, List.isSuffixOf_iff_suffix, Bool.and_eq_true, beq_iff_eq, beq_iff_eq,
      List.getLast?_eq_some_iff]
    refine hends.trans (and_comm.trans (and_congr ?_ ?_))
    · rw [List.singleton_inj, eq_comm]
    · exact exists_congr fun front ↦ eq_comm
  rw [endsInGap, hsuffix]
  rcases eq_or_ne c ' ' with rfl | hc
  · rw [leadsToCode_concat_space]
  · rw [beq_eq_false_iff_ne.2 hc]
    simp only [Bool.false_and]

/-! ### What the cursor remembers -/

/-- The spaces at the start of a line leave the scan where it started. -/
theorem Scans.mode_of_isBlankLine {inString : Bool}
    (h : Scans style aligned (.start inString) st text found last final)
    (hblank : isBlankLine text = true) : last.mode = (Cursor.start inString).mode := by
  refine h.induct (P := fun before mid _ ↦ isBlankLine before = true →
    mid.mode = (Cursor.start inString).mode) (fun _ ↦ rfl) ?_ hblank
  intro before found mid s c mode _ ih next hblank
  obtain ⟨hbefore, rfl⟩ : isBlankLine before = true ∧ c = ' ' := by
    simpa [isBlankLine] using hblank
  have hmode := ih hbefore
  show mode = _
  cases inString
  · simp only [step, hmode, Cursor.start] at next
    cases next
    rfl
  · simp only [step, hmode, Cursor.start] at next
    cases next
    rfl

/-- The scan takes for code what is code, and has left the start of the line by then. -/
theorem Scans.leadsToCode_iff
    (h : Scans style aligned (.start st.inString) st' text found last final) :
    st.region.leadsToCode text = true ↔ last.mode ≠ .indent ∧ last.mode ≠ .string := by
  have hregion : last.region = st.region.after text := by rw [h.region_eq, Cursor.region_start]
  rw [Region.leadsToCode, Bool.and_eq_true, beq_iff_eq, ← hregion, Bool.not_eq_true']
  constructor
  · rintro ⟨hcode, hblank⟩
    refine ⟨fun hindent ↦ ?_, Cursor.mode_ne_string hcode⟩
    have hspaces : isBlankLine text = true :=
      List.all_eq_true.2 fun c hc ↦ beq_iff_eq.2 (h.eq_space hindent c hc)
    rw [hspaces] at hblank
    cases hblank
  · rintro ⟨hindent, hstring⟩
    refine ⟨Cursor.region_code hstring, Bool.eq_false_iff.2 fun hblank ↦ ?_⟩
    have hmode := h.mode_of_isBlankLine hblank
    cases hinString : st.inString <;> rw [hinString] at hmode
    · exact hindent hmode
    · exact hstring hmode

/-- **The cursor is in a gap where the text is.** -/
theorem Scans.gap_eq (h : Scans style aligned (.start st.inString) st' text found last final) :
    last.gap = st.region.endsInGap text := by
  refine h.induct (P := fun before mid _ ↦ mid.gap = st.region.endsInGap before) rfl ?_
  intro before found mid s c mode hbefore hgap next
  rw [Region.endsInGap_concat]
  show mid.gapAfter c = _
  rcases hleads : st.region.leadsToCode before with - | -
  · -- In a string or at the start of the line there is no gap, and none is opened.
    have hkeeps : mid.gapAfter c = mid.gap := by
      rw [Cursor.gapAfter]
      rcases hmode : mid.mode with - | - | token | -
      · rfl
      · simp [hbefore.leadsToCode_iff.2 (by simp [hmode])] at hleads
      · simp [hbefore.leadsToCode_iff.2 (by simp [hmode])] at hleads
      · rfl
    rw [hkeeps, hgap, Region.endsInGap, hleads, Bool.and_false, Bool.and_false]
  · obtain ⟨hindent, hstring⟩ := hbefore.leadsToCode_iff.1 hleads
    have hprev : mid.prev = before.getLast? := by rw [hbefore.prev_eq]; exact Option.or_none
    have hmove := move_of_step style aligned mid c s
    rw [next] at hmove
    have hsemicolon : (c == ';') = false := beq_eq_false_iff_ne.2 (hmove.ne_semicolon hstring)
    rw [Cursor.gapAfter_code hindent hstring, hsemicolon, ← hprev]
    -- A gap that is open already ends in a space, so only that space and this one count.
    rcases hopen : mid.gap with - | -
    · simp
    · simp [hbefore.prev_of_gap hopen]

/-! ### What is found -/

theorem Scans.columnsOf_twoSpaces_step
    (h : Scans style aligned (.start st.inString) st' text found last final) (c : Char) :
    columnsOf .twoSpaces (step style aligned last c final).findings =
      if st.region.endsGap text c then [text.length + 1] else [] := by
  have hindex : last.index = text.length := h.index_eq.trans (Nat.zero_add _)
  rw [columnsOf_step (by decide), columnsOf_findingIf_of_ne (by simp), List.nil_append,
    columnsOf_findingIf_self, h.gap_eq, hindex, Region.endsGap, Region.endsInGap]
  rcases hleads : st.region.leadsToCode text with - | -
  · simp
  · obtain ⟨hindent, hstring⟩ := h.leadsToCode_iff.1 hleads
    rw [if_neg (not_or.2 ⟨hindent, hstring⟩)]

/-- Nothing ends a gap from the start of a comment on. -/
theorem columnsIn_endsGap_of_comment {before : List Char} (hcode : region.after before = .code)
    (rest : List Char) :
    columnsIn region.endsGap (before ++ ';' :: rest) = columnsIn region.endsGap before := by
  have hnone : columnsIn (fun behind ↦ region.endsGap (before ++ behind)) (';' :: rest) = [] := by
    refine columnsIn_eq_nil ?_
    rintro (- | ⟨d, behind⟩) c after h
    · obtain ⟨rfl, -⟩ := List.cons.inj h
      simp [Region.endsGap]
    · obtain ⟨rfl, -⟩ := List.cons.inj h
      have hcomment : region.after (before ++ ';' :: behind) = .comment := by
        rw [Region.after_append, hcode]
        exact Region.after_comment behind
      simp [Region.endsGap, Region.endsInGap, Region.leadsToCode, hcomment]
  rw [columnsIn_append, hnone, List.map_nil, List.append_nil]

/-- Nothing ends a gap in a blank line, not even its end. -/
theorem columnsIn_endsGap_of_isBlankLine (hblank : isBlankLine text = true) :
    columnsIn region.endsGap (text ++ ['\n']) = [] := by
  refine columnsIn_eq_nil fun before c rest h ↦ ?_
  have hfront : before <+: text := by
    refine (List.prefix_concat_iff.1 ⟨c :: rest, h.symm⟩).resolve_left fun hwhole ↦ ?_
    simp [hwhole] at h
  have hbefore : isBlankLine before = true :=
    List.all_eq_true.2 fun d hd ↦ List.all_eq_true.1 hblank d (hfront.subset hd)
  simp [Region.endsGap, Region.endsInGap, Region.leadsToCode, hbefore]

/-- A scan from the start of a line finds all that ends a gap, up to where it leaves its bounds. -/
theorem columnsOf_twoSpaces_scan (style : Style) (aligned : Bool) (st st' : State)
    (text : List Char) :
    let o := scan style aligned (.start st.inString) st' text
    columnsOf .twoSpaces o.findings =
      match o.error? with
      | none => columnsIn st.region.endsGap text
      | some (index, _) => (columnsIn st.region.endsGap text).filter (· ≤ index + 1) := by
  refine columnsOf_scan (fun _ _ _ _ h c ↦ h.columnsOf_twoSpaces_step c)
    (fun before rest hcode ↦ ?_) text
  rw [Cursor.region_start] at hcode
  rw [(foundBy_commentFindings _ _).columnsOf_eq_nil (by decide), List.append_nil,
    columnsIn_endsGap_of_comment hcode, columnsIn_endsGap_of_comment hcode]

/-! ### One line -/

/-- **What is reported for standing behind two spaces or more is each character of code that does**,
neither a space itself nor the start of a comment, in order and once. The end of the line is such a
character too, and the spaces at its start do not count. Of a line whose nesting leaves its bounds
that is so up to the delimiter at fault. -/
theorem columnsOf_twoSpaces_lintLine (style : Style) (st : State) (content : List Char) :
    let o := lintLine style st content
    columnsOf .twoSpaces o.findings =
      match o.error? with
      | none => columnsIn st.region.endsGap (content ++ ['\n'])
      | some (index, _) =>
        (columnsIn st.region.endsGap (content ++ ['\n'])).filter (· ≤ index + 1) := by
  intro o
  rcases columnsOf_lintLine_cases .twoSpaces (by decide) style st content with
    ⟨hblank, hends, hfound⟩ | ⟨hcomment, hends, hfound⟩ | ⟨-, hends, hfound⟩
  · rw [hends, hfound]
    exact (columnsIn_endsGap_of_isBlankLine hblank).symm
  · obtain ⟨rest, rfl⟩ := List.head?_eq_some_iff.1 hcomment.1
    have hcode : st.region.after [] = .code := by
      rw [Region.after_nil, State.region, hcomment.2]
      rfl
    rw [hends, hfound, columnsOf_append, 
      (foundBy_tabFindings 0 _).columnsOf_eq_nil (by decide),
      (foundBy_commentLineFindings _ _).columnsOf_eq_nil (by decide)]
    exact (columnsIn_endsGap_of_comment hcode (rest ++ ['\n'])).symm
  · rw [hends, hfound, columnsOf_twoSpaces_scan style _ st]

/-- A string may end a gap, which the spaces in it and those before the comment do not make. -/
example : columnsIn (State.region {}).endsGap "  (a   \"  b\"  c)  ; d\n".toList = [8, 15] := by
  decide +kernel

end SchemeStyle
