import SchemeStyle.Proofs.Alignment.Bottom
import SchemeStyle.Proofs.Alignment.Mark
import SchemeStyle.Proofs.Scan.Depth

/-!
# What a line does to the columns before it

A line is read in a state that holds the column of every open form, and under them that of no form.
It may close some of these forms, and reach a smallest depth; the columns up to that depth belong to
what is around all of the line. They are as they were after the line, with one exception. Where the
line starts at a column that is not expected but allowed all the same (`Realigns`), that column
takes the place of the expected one, and it stays if the line does not close the form that was
innermost at its start.

The check of the start is what moves the column, so it moves none on a line that is blank, a
comment, or starts in a string, and none on a line that is reported for its indentation
(`columns_lintLine`).
-/

namespace SchemeStyle

variable {style : Style} {st st' : State} {cur : Cursor} {c : Char} {content cs : List Char}
  {outer : List Frame} {column : Nat}

/-! ### Columns of a state -/

namespace State

theorem length_columns (st : State) : st.columns.length = st.depth + 1 := by
  simp [columns, depth]

/-- The columns up to a depth are those of the forms up to it. -/
theorem take_columns (h : outer <:+ st.frames) :
    st.columns.take (outer.length + 1) = st.base :: (outer.map Frame.column).reverse := by
  obtain ⟨inner, h⟩ := h
  rw [columns, ← h, List.map_append, List.reverse_append, List.take_succ_cons]
  exact congrArg _ (List.take_left' (by simp))

/-- States agree on their columns up to a depth if the forms of the one are open in the other. -/
theorem getElem?_columns_eq {m k : Nat} (hbase : st'.base = st.base)
    (h : ∀ outer, outer <:+ st.frames → outer.length = m → outer <:+ st'.frames)
    (hm : m ≤ st.depth) (hk : k ≤ m) : st'.columns[k]? = st.columns[k]? := by
  have hsuffix : st.frames.drop (st.depth - m) <:+ st.frames := List.drop_suffix _ _
  have hlength : (st.frames.drop (st.depth - m)).length = m := by
    rw [List.length_drop]
    exact Nat.sub_sub_self hm
  have hbefore := take_columns hsuffix
  have hafter := take_columns (h _ hsuffix hlength)
  rw [hlength] at hbefore hafter
  have htake : st'.columns.take (m + 1) = st.columns.take (m + 1) := by
    rw [hbefore, hafter, hbase]
  rw [← List.getElem?_take_of_lt (Nat.lt_succ_of_le hk), htake,
    List.getElem?_take_of_lt (Nat.lt_succ_of_le hk)]

/-- The expected column is the last of all. -/
theorem columns_setExpected (column : Int) (st : State) :
    (st.setExpected column).columns = st.columns.set st.depth column := by
  rcases st with ⟨_, _, _, _, _, base, _ | ⟨frame, outer⟩, _⟩
  · rfl
  · simp [setExpected, columns, depth]

end State

/-! ### The start of a line -/

/-- The line starts at a column that is not expected but allowed: column zero where all open forms
are wrappers, or the column kept for a quoted form. -/
structure Realigns (style : Style) (st : State) (content : List Char) (column : Nat) : Prop extends
    StartsAt style st content column where
  unexpected : (column : Int) ≠ st.expected
  allowed : (column = 0 ∧ st.allWrappers = true) ∨ st.quotedAlign = some column

/-- How many lines before were blank is nothing to the start of a line. -/
theorem Realigns.forget_blanks (h : Realigns style st content column) :
    Realigns style { st with blanks := 0 } content column :=
  ⟨⟨h.code, h.aligns, h.text⟩, h.unexpected, h.allowed⟩

theorem Realigns.alignLine_eq (h : Realigns style st content column) :
    (alignLine column st).1 = [] ∧
      (alignLine column st).2.columns = st.columns.set st.depth column := by
  rw [alignLine, if_neg h.unexpected]
  split_ifs with hwrappers hquoted
  · exact ⟨rfl, by rw [State.columns_setExpected, hwrappers.1]; rfl⟩
  · exact ⟨rfl, State.columns_setExpected column st⟩
  · exact absurd h.allowed (not_or.2 ⟨hwrappers, hquoted⟩)

/-- The check of any other start changes nothing. -/
theorem columns_alignLine_of_not_realigns (hstarts : StartsAt style st content column)
    (h : ¬Realigns style st content column) :
    (alignLine column { st with blanks := 0 }).2.columns = st.columns := by
  rw [alignLine]
  split_ifs with hexpected hwrappers hquoted
  · rfl
  · exact absurd ⟨hstarts, hexpected, .inl hwrappers⟩ h
  · exact absurd ⟨hstarts, hexpected, .inr hquoted⟩ h
  · rfl

/-- The scan of a line's text is one that starts without a check, in the state that the check
leaves. What the check finds comes right after the tab that the line may start with. -/
theorem exists_scan_eq (hmode : cur.mode = .indent) (hspace : c ≠ ' ') (style : Style) (st : State)
    (cs : List Char) :
    ∃ o : Outcome,
      scan style true cur st (c :: cs) =
        o.after (findingIf (c == '\t') cur.index .tab ++ (alignLine cur.index st).1) ∧
      scan style false cur (alignLine cur.index st).2 (c :: cs) =
        o.after (findingIf (c == '\t') cur.index .tab) := by
  have hstring : cur.mode ≠ .string := by simp [hmode]
  have hentered : entered true cur c st = (alignLine cur.index st).2 :=
    if_pos ⟨hmode, hspace, rfl⟩
  have hskipped : entered false cur c (alignLine cur.index st).2 = (alignLine cur.index st).2 :=
    if_neg (by simp)
  refine ⟨(codeChar style cur cur.mode.operator? c (alignLine cur.index st).2).outcome style false
    cur c cs, ?_, ?_⟩
  · rw [scan_cons, step_of_code hstring fun _ ↦ hspace, Step.outcome_after, hentered,
      outcome_codeChar_eq hstring hspace, leadFindings, if_pos hmode, if_pos rfl]
  · rw [scan_cons, step_of_code hstring fun _ ↦ hspace, Step.outcome_after, hskipped, leadFindings,
      if_pos hmode, if_neg Bool.false_ne_true, List.append_nil]

/-! ### One line -/

/-- A line whose start is checked is scanned from there on, in the state that the check leaves. -/
theorem exists_lintLine_eq (h : StartsAt style st content column) :
    ∃ (c : Char) (cs : List Char) (cur : Cursor) (o : Outcome),
      content = List.replicate column ' ' ++ c :: cs ∧ cur.mode = .indent ∧
      scan style false cur (alignLine column { st with blanks := 0 }).2 (c :: cs ++ ['\n']) =
        o.after (findingIf (c == '\t') column .tab) ∧
      lintLine style st content =
        (o.after (extentFindings style content ++ (findingIf (c == '\t') column .tab ++
          (alignLine column { st with blanks := 0 }).1))).count := by
  have hhead := h.head?_ne
  obtain ⟨hcode, haligns, c, cs, rfl, hspace, -⟩ := h
  obtain ⟨cur, hspaces, hmode, -, rfl⟩ := reads_spaces style { st with blanks := 0 } column
  obtain ⟨o, hchecked, hunchecked⟩ :=
    exists_scan_eq hmode hspace style { st with blanks := 0 } (cs ++ ['\n'])
  refine ⟨c, cs, cur, o, rfl, hmode, hunchecked, ?_⟩
  rw [lintLine, isBlankLine_of_first hspace, if_neg Bool.false_ne_true,
    lintTextLine_of_code hcode hhead, haligns, List.append_assoc, hspaces.scan_append (by simp),
    List.cons_append, hchecked, Outcome.after_after]
  rfl

/-- The scan of a line leaves alone what is around all of it, from the state that the check of its
start leaves. -/
theorem suffix_lintLine_of_startsAt (h : StartsAt style st content column)
    (hsuffix : outer <:+ (alignLine column { st with blanks := 0 }).2.frames)
    (hdepth : outer.length ≤ st.region.lowest st.depth content) :
    outer <:+ (lintLine style st content).state.frames := by
  obtain ⟨c, cs, cur, o, rfl, hmode, hscan, hline⟩ := exists_lintLine_eq h
  have hregion : cur.region = .code := Cursor.region_code (by simp [hmode])
  have hstart : st.region = .code := by rw [State.region, h.code]; rfl
  have hlowest : outer.length ≤ cur.region.lowest
      (alignLine column { st with blanks := 0 }).2.depth (c :: cs ++ ['\n']) := by
    rw [hstart, Region.lowest_append, Region.after_spaces, Region.depthAfter_spaces] at hdepth
    rw [hregion, Region.lowest_append_newline, depth_alignLine]
    exact Nat.le_trans hdepth (Nat.min_le_right _ _)
  have haround : Around outer cur.mode (alignLine column { st with blanks := 0 }).2 :=
    .of_suffix hsuffix (by simp [hmode])
  have hframes := haround.scan (fun haligned ↦ absurd haligned Bool.false_ne_true) hlowest style
  rw [hscan] at hframes
  rw [hline]
  exact hframes

/-- A line whose start is not checked leaves alone what is around all of it. -/
theorem suffix_lintLine_of_not_startsAt (h : ∀ column, ¬StartsAt style st content column)
    (hsuffix : outer <:+ st.frames) (hdepth : outer.length ≤ st.region.lowest st.depth content) :
    outer <:+ (lintLine style st content).state.frames := by
  rw [lintLine]
  split_ifs with hblank
  · exact hsuffix
  · show outer <:+ (lintTextLine style st content).state.frames
    rw [lintTextLine]
    split_ifs with hcomment
    · exact hsuffix
    · have haround : Around outer (Cursor.start st.inString).mode { st with blanks := 0 } := by
        refine .of_suffix hsuffix fun token htoken ↦ ?_
        cases hstring : st.inString <;> simp [Cursor.start, hstring] at htoken
      refine haround.scan (fun haligns hmode ↦ ?_) ?_ style
      · obtain ⟨column, hstarts⟩ : ∃ column, StartsAt style st content column :=
          exists_startsAt (by simpa using hblank) hcomment haligns hmode
        exact h column hstarts
      · rw [Cursor.region_start, Region.lowest_append_newline]
        exact hdepth

/-- A line that is reported for its indentation is not realigned: only the check of its start makes
the report, and that check has let it pass. -/
theorem not_realigns_of_indentation {index : Nat}
    (hfound : ⟨index, .indentation⟩ ∈ (lintLine style st content).findings) (column : Nat) :
    ¬Realigns style st content column := by
  intro h
  obtain ⟨c, cs, cur, o, -, -, hscan, hline⟩ := exists_lintLine_eq h.toStartsAt
  have hchecked : (alignLine column { st with blanks := 0 }).1 = [] :=
    h.forget_blanks.alignLine_eq.1
  have hextent : Unaligned (extentFindings style content) :=
    (foundBy_extentFindings style content).unaligned (by decide)
  have hrest : Unaligned (findingIf (c == '\t') column .tab ++ o.findings) := by
    have hunchecked := unaligned_scan style cur (alignLine column { st with blanks := 0 }).2
      (c :: cs ++ ['\n'])
    rwa [hscan] at hunchecked
  rw [hline, hchecked, List.append_nil] at hfound
  have hfound : ⟨index, .indentation⟩ ∈
      (extentFindings style content ++ findingIf (c == '\t') column .tab) ++ o.findings := hfound
  rw [List.append_assoc] at hfound
  exact hextent.append hrest _ hfound rfl

/-- **A line leaves the columns of what is around it as they are**, save that one that is realigned
moves the last of all. Lines that are blank, a comment, or start in a string are not realigned, nor
are those reported for their indentation. -/
theorem columns_lintLine (style : Style) (st : State) (content : List Char) :
    let lowest := st.region.lowest st.depth content
    let columns := (lintLine style st content).state.columns
    (∀ column, Realigns style st content column → ∀ k ≤ lowest,
      columns[k]? = if k = st.depth then some (column : Int) else st.columns[k]?) ∧
    ((∀ column, ¬Realigns style st content column) → ∀ k ≤ lowest,
      columns[k]? = st.columns[k]?) ∧
    (isBlankLine content = true ∨ (content.head? = some ';' ∧ st.inString = false) ∨
        st.inString = true ∨
        (∃ index, ⟨index, .indentation⟩ ∈ (lintLine style st content).findings) →
      ∀ k ≤ lowest, columns[k]? = st.columns[k]?) := by
  intro lowest columns
  have hlowest : lowest ≤ st.depth := Region.lowest_le ..
  -- The columns up to the smallest depth are those that the check of the line's start leaves.
  have hchecked : ∀ column, StartsAt style st content column → ∀ k ≤ lowest,
      columns[k]? = (alignLine column { st with blanks := 0 }).2.columns[k]? :=
    fun column hstarts k hk ↦ State.getElem?_columns_eq (base_lintLine_of_startsAt hstarts)
      (fun outer hsuffix hlength ↦
        suffix_lintLine_of_startsAt hstarts hsuffix (Nat.le_of_eq hlength))
      (by rwa [depth_alignLine]) hk
  have hsame : (∀ column, ¬Realigns style st content column) → ∀ k ≤ lowest,
      columns[k]? = st.columns[k]? := by
    intro h k hk
    by_cases hstarts : ∃ column, StartsAt style st content column
    · obtain ⟨column, hstarts⟩ := hstarts
      rw [hchecked column hstarts k hk, columns_alignLine_of_not_realigns hstarts (h column)]
    · rw [not_exists] at hstarts
      exact State.getElem?_columns_eq (base_lintLine_of_not_startsAt hstarts)
        (fun outer hsuffix hlength ↦
          suffix_lintLine_of_not_startsAt hstarts hsuffix (Nat.le_of_eq hlength)) hlowest hk
  refine ⟨fun column h k hk ↦ ?_, hsame, fun hspecial ↦ hsame fun column h ↦ ?_⟩
  · rw [hchecked column h.toStartsAt k hk, h.forget_blanks.alignLine_eq.2]
    show (st.columns.set st.depth column)[k]? = _
    split_ifs with hdepth
    · rw [hdepth, List.getElem?_set_self (by rw [State.length_columns]; exact Nat.lt_succ_self _)]
    · exact List.getElem?_set_ne (Ne.symm hdepth)
  · rcases hspecial with hblank | ⟨hhead, -⟩ | hstring | ⟨index, hfound⟩
    · exact Bool.false_ne_true (h.isBlankLine_eq.symm.trans hblank)
    · exact h.head?_ne hhead
    · exact Bool.false_ne_true (h.code.symm.trans hstring)
    · exact not_realigns_of_indentation hfound column h

/-- Inside of a quoted form whose contents are expected behind its operator, a line may also line up
with the form, and the expected column is moved there. -/
example :
    let st := stateAfter .standard ["'(a b".toList]
    st.columns = [0, 4] ∧ (lintLine .standard st "  c".toList).state.columns = [0, 2] := by
  decide +kernel

end SchemeStyle
