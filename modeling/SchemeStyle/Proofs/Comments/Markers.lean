import SchemeStyle.Proofs.Scan.Findings

/-!
# The space behind the semicolons of a comment

That a space follows the semicolons of a comment is checked twice: by counting the semicolons that a
comment line starts with, and by the scan where it meets a comment behind spaces or code. Both ask
for the character behind one or two semicolons, and say the same wherever there is one
(`columnsOf_marker`).

They differ where the line ends with the semicolons. The check of comment lines is given the line
without its newline and has nothing to ask for, whereas the scan goes on to the newline, which is no
space, and reports it (`columnsOf_marker_of_bare`).
-/

namespace SchemeStyle

variable {style : Style} {aligned : Bool} {st : State} {cur mid : Cursor} {s : State}
  {before marker rest : List Char} {found : List Finding} {c : Char}

/-- One or two semicolons. -/
def IsMarker (marker : List Char) : Prop :=
  marker = [';'] ∨ marker = [';', ';']

/-! ### At the start of a line -/

theorem columnsOf_missingSpace_commentLineFindings (line : Nat) (content : List Char) :
    columnsOf .missingSpaceAfterSemicolon (commentLineFindings line content) =
      if (content.dropWhile (· == ';')).head?.any (· != ' ')
      then [(content.takeWhile (· == ';')).length + 1] else [] := by
  have hcount : columnsOf .missingSpaceAfterSemicolon
      (if (content.takeWhile (· == ';')).length > 3 then [⟨0, .semicolons⟩]
        else if (content.takeWhile (· == ';')).length = 3 ∧ line ≠ 1 then [⟨0, .banner⟩]
        else []) = [] := by
    split_ifs <;> rfl
  rw [commentLineFindings, columnsOf_append, hcount, List.nil_append]
  cases content.dropWhile (· == ';') with
  | nil => rfl
  | cons c rest => exact columnsOf_findingIf_self _ _ _

/-- A comment line is reported if something else than a space follows its semicolons. -/
theorem columnsOf_missingSpace_lintLine (hmarker : IsMarker marker) (hrest : rest.head? ≠ some ';')
    (hstring : st.inString = false) (style : Style) :
    columnsOf .missingSpaceAfterSemicolon (lintLine style st (marker ++ rest)).findings =
      if rest.head?.any (· != ' ') then [marker.length + 1] else [] := by
  have hhead : (marker ++ rest).head? = some ';' := by rcases hmarker with rfl | rfl <;> rfl
  have hcount : (marker ++ rest).takeWhile (· == ';') = marker ∧
      (marker ++ rest).dropWhile (· == ';') = rest := by
    rcases hmarker with rfl | rfl <;> rcases rest with - | ⟨c, rest⟩ <;> simp_all
  rcases columnsOf_lintLine_cases .missingSpaceAfterSemicolon (by decide) style st
    (marker ++ rest) with ⟨hblank, -, -⟩ | ⟨-, -, hfound⟩ | ⟨hcode, -, -⟩
  · have hspace := List.all_eq_true.1 hblank ';' (List.mem_of_head? hhead)
    simp at hspace
  · rw [hfound, columnsOf_append, (foundBy_tabFindings 0 _).columnsOf_eq_nil (by decide),
      List.nil_append, columnsOf_missingSpace_commentLineFindings, hcount.1, hcount.2]
  · exact absurd ⟨hhead, hstring⟩ hcode

/-! ### Behind something else -/

theorem columnsOf_expectedSpace_afterMarker (index : Nat) (c : Char) (text : List Char) :
    columnsOf .expectedSpaceAfterSemicolon (commentFindings.afterMarker index c text) =
      if c != ' ' then [index + 1] else [] := by
  rw [commentFindings.afterMarker, columnsOf_append, columnsOf_append,
    columnsOf_findingIf_of_ne (by simp : Violation.tab ≠ .expectedSpaceAfterSemicolon),
    columnsOf_findingIf_self, (foundBy_tabFindings _ _).columnsOf_eq_nil (by decide),
    List.append_nil, List.nil_append]

/-- Behind its first semicolon, a comment is asked for the character after its semicolons. -/
theorem columnsOf_expectedSpace_commentFindings (hmarker : IsMarker (';' :: marker)) (hc : c ≠ ';')
    (index : Nat) (text : List Char) :
    columnsOf .expectedSpaceAfterSemicolon (commentFindings index (marker ++ c :: text)) =
      if c != ' ' then [index + marker.length + 1] else [] := by
  rcases hmarker with h | h
  · obtain rfl : marker = [] := (List.cons.inj h).2
    have hchar : commentFindings index (c :: text) = commentFindings.afterMarker index c text := by
      rw [commentFindings.eq_def]
      split <;> simp_all
    rw [List.nil_append, hchar]
    exact columnsOf_expectedSpace_afterMarker index c text
  · obtain rfl : marker = [';'] := (List.cons.inj h).2
    exact columnsOf_expectedSpace_afterMarker (index + 1) c text

/-- The scan asks for no space on its way to a comment. -/
theorem columnsOf_expectedSpace_step (style : Style) (aligned : Bool) (cur : Cursor) (c : Char)
    (st : State) :
    columnsOf .expectedSpaceAfterSemicolon (step style aligned cur c st).findings = [] := by
  rw [columnsOf_step (by decide), columnsOf_findingIf_of_ne (by simp),
    columnsOf_findingIf_of_ne (by simp)]
  split_ifs <;> rfl

theorem Scans.columnsOf_expectedSpace (h : Scans style aligned cur st before found mid s) :
    columnsOf .expectedSpaceAfterSemicolon found = [] := by
  refine h.induct_findings (P := fun _ found _ _ ↦
    columnsOf .expectedSpaceAfterSemicolon found = []) rfl ?_
  intro before found mid s c mode _ ih _
  rw [columnsOf_append, ih, columnsOf_expectedSpace_step]
  rfl

/-- A semicolon of code starts a comment. -/
theorem next_of_semicolon (hmode : cur.mode ≠ .string) (style : Style) (aligned : Bool)
    (st : State) : (step style aligned cur ';' st).next = .comment := by
  have hmove := move_of_step style aligned cur ';' st
  rcases hnext : (step style aligned cur ';' st).next with mode | - | e <;> rw [hnext] at hmove
  · exact absurd rfl (hmove.ne_semicolon hmode)
  · exact absurd hmove.mem_of_stop (by decide)

/-- Nothing stops a scan among spaces. -/
theorem exists_scans_of_isBlankLine (hblank : isBlankLine before = true) (style : Style)
    (aligned : Bool) (cur : Cursor) (st : State) :
    ∃ found mid s, Scans style aligned cur st before found mid s := by
  rcases scans_or_stops style aligned cur st before with
    h | ⟨front, c, rest, found, mid, s, rfl, h, hstops⟩
  · exact h
  · obtain rfl : c = ' ' := by simpa using List.all_eq_true.1 hblank c (by simp)
    have hmove := move_of_step style aligned mid ' ' s
    rcases hnext : (step style aligned mid ' ' s).next with mode | - | e <;> rw [hnext] at hmove
    · exact absurd hnext (hstops mode)
    · exact absurd hmove.eq_semicolon (by decide)
    · exact absurd hmove.mem_of_stop (by decide)

/-- Of a text with a comment behind code, the scan asks for the space in the comment only. -/
theorem Scans.columnsOf_expectedSpace_scan (h : Scans style aligned cur st before found mid s)
    (hcode : cur.region.after before = .code) (rest : List Char) :
    columnsOf .expectedSpaceAfterSemicolon
        (scan style aligned cur st (before ++ ';' :: rest)).findings =
      columnsOf .expectedSpaceAfterSemicolon
        (commentFindings (cur.index + before.length + 1) rest) := by
  have hmid : mid.mode ≠ .string := Cursor.mode_ne_string (h.region_eq.trans hcode)
  rw [h.scan_append, scan, next_of_semicolon hmid, ← h.index_eq]
  show columnsOf _ (found ++ ((step style aligned mid ';' s).findings ++ _)) = _
  rw [columnsOf_append, columnsOf_append, h.columnsOf_expectedSpace, columnsOf_expectedSpace_step]
  rfl

/-- A comment behind spaces or code is reported if no space follows its semicolons. -/
theorem columnsOf_expectedSpace_lintLine (hmarker : IsMarker marker) (hrest : rest.head? ≠ some ';')
    (hne : before ≠ []) (hcode : st.region.after before = .code)
    (hscanned : isBlankLine before = true ∨
      (lintLine style st (before ++ (marker ++ rest))).error? = none) :
    columnsOf .expectedSpaceAfterSemicolon
        (lintLine style st (before ++ (marker ++ rest))).findings =
      if (rest ++ ['\n']).head?.any (· != ' ') then [before.length + marker.length + 1]
      else [] := by
  obtain ⟨tail, rfl⟩ : ∃ tail, marker = ';' :: tail := by
    rcases hmarker with rfl | rfl <;> exact ⟨_, rfl⟩
  obtain ⟨c, text, htext⟩ : ∃ c text, rest ++ ['\n'] = c :: text :=
    List.exists_cons_of_ne_nil (by simp)
  have hc : c ≠ ';' := by
    rcases rest with - | ⟨d, rest⟩
    · obtain rfl : '\n' = c := (List.cons.inj htext).1
      decide
    · obtain rfl : d = c := (List.cons.inj htext).1
      simpa using hrest
  have hblank : isBlankLine (before ++ (';' :: tail ++ rest)) = false := by simp [isBlankLine]
  have hline :
      before ++ (';' :: tail ++ rest) ++ ['\n'] = before ++ ';' :: (tail ++ c :: text) := by
    simp [← htext]
  have hregion : (Cursor.start st.inString).region.after before = .code := by
    rw [Cursor.region_start, hcode]
  rw [lintLine_of_region_ne hblank (List.prefix_append _ _) hne (by simp [hcode]) style]
    at hscanned ⊢
  -- The newline is part of what is scanned, so there is always a character to be asked for.
  simp only [scanLine, Outcome.count, Outcome.after, hline] at hscanned ⊢
  obtain ⟨found, mid, s, h⟩ : ∃ found mid s,
      Scans style (style.aligns (before ++ (';' :: tail ++ rest))) (.start st.inString)
        { st with blanks := 0 } before found mid s := by
    rcases hscanned with hspaces | hends
    · exact exists_scans_of_isBlankLine hspaces _ _ _ _
    · exact exists_scans hends (by rw [hregion]; decide)
  rw [columnsOf_append, (foundBy_extentFindings _ _).columnsOf_eq_nil (by decide), List.nil_append,
    h.columnsOf_expectedSpace_scan hregion, columnsOf_expectedSpace_commentFindings hmarker hc,
    htext]
  have hcolumn : (Cursor.start st.inString).index + before.length + 1 + tail.length =
      before.length + (';' :: tail).length := by
    show 0 + before.length + 1 + tail.length = before.length + (tail.length + 1)
    omega
  rw [hcolumn]
  rfl

/-! ### Both -/

/-- **The two checks agree on every comment whose semicolons are followed by something**, be it
behind spaces or behind code, and report the same character of it. At the end of a line only the
scan reports one. -/
theorem columnsOf_marker {st' : State} (hmarker : IsMarker marker) (hrest : rest.head? ≠ some ';')
    (hstring : st.inString = false) (hne : before ≠ [])
    (hcode : st'.region.after before = .code)
    (hscanned : isBlankLine before = true ∨
      (lintLine style st' (before ++ (marker ++ rest))).error? = none) :
    let atStart := columnsOf .missingSpaceAfterSemicolon
      (lintLine style st (marker ++ rest)).findings
    let behind := columnsOf .expectedSpaceAfterSemicolon
      (lintLine style st' (before ++ (marker ++ rest))).findings
    atStart = (if rest.head?.any (· != ' ') then [marker.length + 1] else []) ∧
      behind = (if rest = [] then [before.length + marker.length + 1]
        else atStart.map (before.length + ·)) ∧
      ((atStart = [] ↔ behind = []) ↔ rest ≠ []) := by
  intro atStart behind
  have hstart : atStart = if rest.head?.any (· != ' ') then [marker.length + 1] else [] :=
    columnsOf_missingSpace_lintLine hmarker hrest hstring style
  have hbehind : behind =
      if rest = [] then [before.length + marker.length + 1]
      else atStart.map (before.length + ·) := by
    refine (columnsOf_expectedSpace_lintLine hmarker hrest hne hcode hscanned).trans ?_
    rw [hstart]
    rcases rest with - | ⟨c, rest⟩
    · rfl
    · by_cases hc : c = ' ' <;> simp [hc, Nat.add_assoc]
  refine ⟨hstart, hbehind, ?_⟩
  rcases rest with - | ⟨c, rest⟩
  · simp [hstart, hbehind]
  · simp [hbehind]

/-- A comment that lacks the space is reported at the start of a line as behind code. -/
theorem columnsOf_marker_of_spaceless :
    let marker := [';', ';']
    let rest := "note".toList
    let before := "(a) ".toList
    (IsMarker marker ∧ rest.head? ≠ some ';' ∧ ({} : State).inString = false ∧ before ≠ [] ∧
        (State.region {}).after before = .code ∧
        (lintLine .standard {} (before ++ (marker ++ rest))).error? = none) ∧
      columnsOf .missingSpaceAfterSemicolon (lintLine .standard {} (marker ++ rest)).findings =
        [3] ∧
      columnsOf .expectedSpaceAfterSemicolon
        (lintLine .standard {} (before ++ (marker ++ rest))).findings = [7] := by
  intro marker rest before
  have hends : (lintLine .standard {} (before ++ (marker ++ rest))).error? = none := by
    decide +kernel
  obtain ⟨hstart, hbehind, -⟩ := @columnsOf_marker .standard {} before marker rest {} (.inr rfl)
    (by decide) rfl (by decide) (by decide) (.inr hends)
  refine ⟨⟨.inr rfl, by decide, rfl, by decide, by decide, hends⟩, hstart, ?_⟩
  rw [hbehind, hstart]
  rfl

/-- Semicolons that end their line are reported behind code or spaces, but not at its start. -/
theorem columnsOf_marker_of_bare :
    Reachable .standard {} ∧ ({} : State).inString = false ∧
      (lintLine .standard {} ";;".toList).findings = [] ∧
      columnsOf .expectedSpaceAfterSemicolon (lintLine .standard {} "  ;;".toList).findings = [5] ∧
      (lintLine .standard {} "(a) ;;".toList).findings = [⟨6, .expectedSpaceAfterSemicolon⟩] :=
  ⟨.start, rfl, by decide +kernel, by decide +kernel, by decide +kernel⟩

end SchemeStyle
