import SchemeStyle.Proofs.Scan.Findings

/-!
# Tabs

Tabs are looked for in two ways: by the scan, at every character it goes over, and all at once in a
text that is not read as code, which is a comment line or what follows the first semicolons of a
comment. Between them they see every character of a line once, in whatever part of it, up to the
delimiter that takes the nesting out of its bounds (`columnsOf_tab_lintLine`).
-/

namespace SchemeStyle

/-- The columns of the tabs of a text, in order and counted from one. -/
def tabColumns (text : List Char) : List Nat :=
  columnsIn (fun _ c ↦ c == '\t') text

theorem tabColumns_append (a b : List Char) :
    tabColumns (a ++ b) = tabColumns a ++ (tabColumns b).map (a.length + ·) :=
  columnsIn_append _ a b

theorem tabColumns_cons (c : Char) (text : List Char) :
    tabColumns (c :: text) = (if c == '\t' then [1] else []) ++ (tabColumns text).map (1 + ·) :=
  (tabColumns_append [c] text).trans (congrArg (· ++ _) (columnsIn_concat _ [] c))

theorem tabColumns_eq_nil {text : List Char} (h : '\t' ∉ text) : tabColumns text = [] := by
  refine columnsIn_eq_nil ?_
  rintro before c rest rfl
  exact beq_eq_false_iff_ne.2 fun hc ↦ h (by simp [hc])

/-! ### All at once -/

theorem columnsOf_tabFindings (index : Nat) (text : List Char) :
    columnsOf .tab (tabFindings index text) = (tabColumns text).map (index + ·) := by
  induction text generalizing index with
  | nil => rfl
  | cons c text ih =>
    rw [tabFindings, columnsOf_append, columnsOf_findingIf_self, ih, tabColumns_cons,
      List.map_append, List.map_map]
    congr 1
    · split_ifs <;> rfl
    · exact List.map_congr_left fun column _ ↦ Nat.add_assoc index 1 column

/-- The marks at the start of a comment hide no tab. -/
theorem columnsOf_tab_commentFindings (index : Nat) (text : List Char) :
    columnsOf .tab (commentFindings index text) = (tabColumns text).map (index + ·) := by
  have hmarker (index : Nat) (c : Char) (text : List Char) :
      columnsOf .tab (commentFindings.afterMarker index c text) =
        columnsOf .tab (tabFindings index (c :: text)) := by
    rw [commentFindings.afterMarker, tabFindings, columnsOf_append, columnsOf_append,
      columnsOf_append,
      columnsOf_findingIf_of_ne (by simp : Violation.expectedSpaceAfterSemicolon ≠ .tab),
      List.append_nil]
  rw [← columnsOf_tabFindings, commentFindings.eq_def]
  split
  · exact hmarker _ _ _
  · exact hmarker _ _ _
  · rfl

/-! ### Character by character -/

theorem columnsOf_tab_step (style : Style) (aligned : Bool) (cur : Cursor) (c : Char)
    (st : State) :
    columnsOf .tab (step style aligned cur c st).findings =
      if c == '\t' then [cur.index + 1] else [] := by
  rw [columnsOf_step (by decide), columnsOf_findingIf_self]
  split_ifs <;> simp [columnsOf_findingIf_of_ne]

/-- A scan from the start of a line finds all tabs up to where it leaves its bounds. -/
theorem columnsOf_tab_scan (style : Style) (aligned inString : Bool) (st : State)
    (text : List Char) :
    let o := scan style aligned (.start inString) st text
    columnsOf .tab o.findings =
      match o.error? with
      | none => tabColumns text
      | some (index, _) => (tabColumns text).filter (· < index + 1) := by
  intro o
  have hscan : columnsOf .tab o.findings =
      match o.error? with
      | none => tabColumns text
      | some (index, _) => (tabColumns text).filter (· ≤ index + 1) := by
    refine columnsOf_scan (fun before found mid s h c ↦ ?_) (fun before rest _ ↦ ?_) text
    · have hindex : mid.index = before.length := h.index_eq.trans (Nat.zero_add _)
      rw [columnsOf_tab_step, hindex]
    · show tabColumns (before ++ ';' :: rest) = tabColumns (before ++ [';']) ++ _
      rw [columnsOf_tab_commentFindings, List.append_cons, tabColumns_append, List.length_append]
      rfl
  rcases hends : o.error? with - | ⟨index, e⟩ <;> rw [hends] at hscan
  · exact hscan
  · -- The scan reads the delimiter at fault as well, which is no tab.
    obtain ⟨c, hc, hindex⟩ := mem_of_scan_error hends
    refine hscan.trans (List.filter_congr fun column hmem ↦ decide_eq_decide.2 ?_)
    have hne : column ≠ index + 1 := by
      rintro rfl
      obtain ⟨i, d, hd, htab, hcolumn⟩ := mem_columnsIn.1 hmem
      obtain rfl : i = index := Nat.succ.inj hcolumn
      obtain rfl : d = c := Option.some.inj (hd.symm.trans hindex)
      exact ne_of_mem_of_not_mem hc (by decide) (beq_iff_eq.1 htab)
    omega

/-! ### One line -/

/-- **Every tab of a line is reported once**, wherever in the line it stands, and in order. Of a
line whose nesting leaves its bounds those up to there are. -/
theorem columnsOf_tab_lintLine (style : Style) (st : State) (content : List Char) :
    let o := lintLine style st content
    columnsOf .tab o.findings =
      match o.error? with
      | none => tabColumns content
      | some (index, _) => (tabColumns content).filter (· < index + 1) := by
  intro o
  have hcolumns : tabColumns (content ++ ['\n']) = tabColumns content := by
    rw [tabColumns_append]
    exact List.append_nil _
  rcases columnsOf_lintLine_cases .tab (by decide) style st content with
    ⟨hblank, hends, hfound⟩ | ⟨-, hends, hfound⟩ | ⟨-, hends, hfound⟩
  · have htab : '\t' ∉ content := fun hmem ↦ by
      simpa using List.all_eq_true.1 hblank _ hmem
    rw [hends, hfound, tabColumns_eq_nil htab]
  · rw [hends, hfound, columnsOf_append, columnsOf_tabFindings,
      (foundBy_commentLineFindings st.line content).columnsOf_eq_nil (by decide)]
    simp
  · rw [hends, hfound, columnsOf_tab_scan, hcolumns]

end SchemeStyle
