import SchemeStyle.Proofs.Lint
import SchemeStyle.Proofs.Scan.Lockstep

/-!
# Two runs side by side

Between its lines a run remembers three more things than a scan: how many lines there were, how many
of the last ones were blank, and whether anything was found. A `LineLockstep` is a relation between
states that lines keep as well. Of the numbers it has to agree on the blank lines only; the number
of a line decides nothing but where its findings are placed, save that a banner of three semicolons
is allowed on the first line of a file (`IsBanner`). So lines that are linted from two related
states are found to break the same rules in the same places, up to a fixed distance between the
places (`LineLockstep.lintLines_alike`).

The first such relation is that of states which differ in nothing but their line and in whether
anything was found before (`Recounted`).
-/

namespace SchemeStyle

variable {R : State → State → Prop} {style : Style} {s t : State} {content : List Char}
  {lines : List (List Char)} {k : Nat}

/-! ### Places further down -/

/-- The diagnostic some lines further down. -/
def Diagnostic.below (k : Nat) (d : Diagnostic) : Diagnostic :=
  { d with line := d.line + k }

/-- The failure some lines further down. -/
def Failure.below (k : Nat) (f : Failure) : Failure :=
  { f with line := f.line + k }

/-- The second report is the first one, some lines further down, with a related state. -/
structure Report.Alike (R : State → State → Prop) (k : Nat) (r r' : Report) : Prop where
  findings : r'.findings = r.findings.map fun found ↦ (found.1 + k, found.2)
  failure? : r'.failure? = r.failure?.map (Failure.below k)
  state : R r.state r'.state

theorem Report.Alike.diagnostics {r r' : Report} (h : r.Alike R k r') (file : String) :
    r'.diagnostics file = (r.diagnostics file).map (Diagnostic.below k) := by
  rw [Report.diagnostics, Report.diagnostics, h.findings, List.map_map, List.map_map]
  rfl

/-! ### One line -/

/-- The line starts with three semicolons. -/
def IsBanner (content : List Char) : Prop :=
  [';', ';', ';'] <+: content

instance : DecidablePred IsBanner :=
  fun _ ↦ inferInstanceAs (Decidable (_ <+: _))

theorem isBanner_of_count {content : List Char}
    (h : (content.takeWhile (· == ';')).length = 3) : IsBanner content := by
  have hsemicolons : content.takeWhile (· == ';') = List.replicate 3 ';' := by
    rw [← h]
    exact List.eq_replicate_of_mem fun c hc ↦ by
      simpa using List.all_eq_true.1 (List.all_takeWhile (p := (· == ';')) (l := content)) c hc
  have hprefix := List.takeWhile_prefix (· == ';') (l := content)
  rwa [hsemicolons] at hprefix

/-- The number of its line decides only whether a comment line may be a banner. -/
theorem commentLineFindings_eq {line line' : Nat}
    (h : (line = 1 ↔ line' = 1) ∨ ¬IsBanner content) :
    commentLineFindings line content = commentLineFindings line' content := by
  have hbanner : ((content.takeWhile (· == ';')).length = 3 ∧ line ≠ 1) ↔
      ((content.takeWhile (· == ';')).length = 3 ∧ line' ≠ 1) := by
    rcases h with h | h
    · rw [ne_eq, ne_eq, h]
    · have hcount := mt isBanner_of_count h
      exact ⟨fun hline ↦ absurd hline.1 hcount, fun hline ↦ absurd hline.1 hcount⟩
  unfold commentLineFindings
  simp only [hbanner]

/-- The first of some lines is the same further down, unless it is a banner at the start of a
file. -/
theorem line_eq_one_iff {rest : List (List Char)} (hline : t.line = s.line + k)
    (hbanner : k = 0 ∨
      0 < s.line ∧ (s.line = 1 → ∀ first ∈ (content :: rest).head?, ¬IsBanner first)) :
    (s.line = 1 ↔ t.line = 1) ∨ ¬IsBanner content := by
  rcases hbanner with rfl | ⟨hpos, hfirst⟩
  · exact .inl (by rw [hline, Nat.add_zero])
  · by_cases hone : s.line = 1
    · exact .inr (hfirst hone content rfl)
    · exact .inl (by omega)

/-- Lines keep the relation, and see nothing in which related states differ. -/
structure LineLockstep (R : State → State → Prop) : Prop extends Lockstep R where
  start : StartsAlike R
  inString : ∀ {s t}, R s t → s.inString = t.inString
  blanks : ∀ {s t}, R s t → s.blanks = t.blanks
  /-- What else is counted does not matter. -/
  counted : ∀ {s t}, R s t → ∀ (line line' blanks : Nat) (flagged flagged' : Bool),
    R { s with line := line, blanks := blanks, flagged := flagged }
      { t with line := line', blanks := blanks, flagged := flagged' }

namespace LineLockstep

theorem lintTextLine_alike (h : LineLockstep R) (hR : R s t)
    (hbanner : (s.line = 1 ↔ t.line = 1) ∨ ¬IsBanner content)
    (hbounds : (∀ {s t}, R s t → s.depth = t.depth) ∨
      (lintTextLine style s content).error? = none ∧
        (lintTextLine style t content).error? = none) :
    (lintTextLine style s content).Alike R (lintTextLine style t content) := by
  have hR' : R { s with blanks := 0 } { t with blanks := 0 } :=
    h.counted hR s.line t.line 0 s.flagged t.flagged
  unfold lintTextLine at hbounds ⊢
  refine Outcome.Alike.after ?_ _
  have hstring := h.inString hR
  by_cases hcomment : content.head? = some ';' ∧ ¬s.inString
  · have hcomment' : content.head? = some ';' ∧ ¬t.inString := hstring ▸ hcomment
    simp only [if_pos hcomment, if_pos hcomment']
    exact ⟨congrArg (tabFindings 0 content ++ ·) (commentLineFindings_eq hbanner), rfl, hR'⟩
  · have hcomment' : ¬(content.head? = some ';' ∧ ¬t.inString) := hstring ▸ hcomment
    simp only [if_neg hcomment, if_neg hcomment'] at hbounds ⊢
    rw [← congrArg Cursor.start hstring] at hbounds ⊢
    exact h.scan_alike hR' (fun _ _ ↦ h.start) hbounds

/-- **A line is the same for related states**, wherever it stands. -/
theorem lintLine_alike (h : LineLockstep R) (hR : R s t)
    (hbanner : (s.line = 1 ↔ t.line = 1) ∨ ¬IsBanner content)
    (hbounds : (∀ {s t}, R s t → s.depth = t.depth) ∨
      (lintLine style s content).error? = none ∧ (lintLine style t content).error? = none) :
    (lintLine style s content).Alike R (lintLine style t content) := by
  have halike :
      (if isBlankLine content then lintBlankLine s else lintTextLine style s content).Alike R
        (if isBlankLine content then lintBlankLine t else lintTextLine style t content) := by
    unfold lintLine at hbounds
    dsimp only at hbounds
    split_ifs at hbounds ⊢
    · have hfound : (lintBlankLine s).findings = (lintBlankLine t).findings := by
        simp only [lintBlankLine, h.inString hR, h.blanks hR]
      refine ⟨hfound, rfl, ?_⟩
      rw [lintBlankLine, lintBlankLine, ← h.blanks hR]
      exact h.counted hR s.line t.line (s.blanks + 1) s.flagged t.flagged
    · exact h.lintTextLine_alike hR hbanner hbounds
  refine ⟨halike.findings, halike.error?, ?_⟩
  have hstate := halike.state
  rw [lintLine, lintLine]
  dsimp only
  generalize (if isBlankLine content then lintBlankLine s else lintTextLine style s content) = o
    at hstate ⊢
  generalize (if isBlankLine content then lintBlankLine t else lintTextLine style t content) = o'
    at hstate ⊢
  rw [← h.blanks hstate]
  exact h.counted hstate _ _ o.state.blanks _ _

/-! ### Lines in a row -/

/-- **Lines in a row are the same for related states**, up to the distance between their places,
unless a banner on the first line of a file would no longer stand there. -/
theorem lintLines_alike (h : LineLockstep R) (hR : R s t) (hline : t.line = s.line + k)
    (hbanner : k = 0 ∨ 0 < s.line ∧ (s.line = 1 → ∀ first ∈ lines.head?, ¬IsBanner first))
    (hbounds : (∀ {s t}, R s t → s.depth = t.depth) ∨
      (lintLines style s lines).failure? = none ∧ (lintLines style t lines).failure? = none) :
    (lintLines style s lines).Alike R k (lintLines style t lines) := by
  induction lines generalizing s t with
  | nil => exact ⟨rfl, rfl, hR⟩
  | cons content rest ih =>
    have halike : (lintLine style s content).Alike R (lintLine style t content) :=
      h.lintLine_alike hR (line_eq_one_iff hline hbanner)
        (hbounds.imp id (.imp error_eq_none_of_lintLines error_eq_none_of_lintLines))
    rcases herror : (lintLine style s content).error? with - | ⟨index, e⟩
    · have herror' := halike.error?.symm.trans herror
      rw [lintLines_cons_of_ok herror, lintLines_cons_of_ok herror'] at hbounds ⊢
      have hrest := ih halike.state (by rw [line_lintLine, line_lintLine]; omega)
        (.imp id (fun _ ↦ ⟨by rw [line_lintLine]; omega, by rw [line_lintLine]; omega⟩) hbanner)
        hbounds
      refine ⟨?_, hrest.failure?, hrest.state⟩
      dsimp only
      rw [hrest.findings, halike.findings, hline, List.map_append, List.map_map]
      rfl
    · have herror' := halike.error?.symm.trans herror
      rw [lintLines_cons_of_error herror, lintLines_cons_of_error herror']
      refine ⟨rfl, ?_, halike.state⟩
      rw [hline, halike.findings]
      rfl

end LineLockstep

/-! ### Lines elsewhere in a file -/

/-- The second state is the first one on some other line, whatever was found before. -/
def Recounted (s t : State) : Prop :=
  ∃ line flagged, t = { s with line := line, flagged := flagged }

theorem Recounted.refl (s : State) : Recounted s s :=
  ⟨s.line, s.flagged, rfl⟩

theorem Recounted.depth_eq (h : Recounted s t) : s.depth = t.depth := by
  obtain ⟨line, flagged, rfl⟩ := h
  rfl

theorem Recounted.setExpected (h : Recounted s t) (column : Int) :
    Recounted (s.setExpected column) (t.setExpected column) := by
  obtain ⟨line, flagged, rfl⟩ := h
  refine ⟨line, flagged, ?_⟩
  rcases s with ⟨_, _, _, _, _, _, _ | _, _⟩ <;> rfl

theorem startsAlike_recounted : StartsAlike Recounted := by
  intro index s t h
  have hset := h.setExpected
  obtain ⟨line, flagged, rfl⟩ := h
  have hexpected : State.expected { s with line := line, flagged := flagged } = s.expected := rfl
  have hall : State.allWrappers { s with line := line, flagged := flagged } = s.allWrappers := rfl
  rw [alignLine, alignLine, hexpected, hall]
  split_ifs
  · exact ⟨rfl, line, flagged, rfl⟩
  · exact ⟨rfl, hset 0⟩
  · obtain ⟨line', flagged', heq⟩ := hset index
    rw [heq]
    exact ⟨rfl, line', flagged', rfl⟩
  · exact ⟨rfl, line, flagged, rfl⟩

/-- **Neither the number of a line nor what was found before decides what is found on it.** -/
theorem lineLockstep_recounted : LineLockstep Recounted where
  allWrappers := by rintro s _ ⟨line, flagged, rfl⟩; rfl
  block := by rintro s _ ⟨line, flagged, rfl⟩; rfl
  lastId := by rintro s _ ⟨line, flagged, rfl⟩; rfl
  lastName := by rintro s _ ⟨line, flagged, rfl⟩; rfl
  setString := by rintro s _ b ⟨line, flagged, rfl⟩; exact ⟨line, flagged, rfl⟩
  setExpected column h := h.setExpected column
  markWrapper := by
    rintro s _ ⟨line, flagged, rfl⟩
    refine ⟨line, flagged, ?_⟩
    rcases s with ⟨_, _, _, _, _, _, _ | _, _⟩ <;> rfl
  enterImports := by rintro s _ ⟨line, flagged, rfl⟩; exact ⟨line, flagged, rfl⟩
  setLastId := by rintro s _ id ⟨line, flagged, rfl⟩; exact ⟨line, flagged, rfl⟩
  setLastName := by rintro s _ name ⟨line, flagged, rfl⟩; exact ⟨line, flagged, rfl⟩
  opened := by
    rintro s _ frame align align' halign ⟨line, flagged, rfl⟩
    exact ⟨line, flagged, by rw [halign rfl]⟩
  closed := by
    rintro s _ frame frame' outer outer' ⟨line, flagged, rfl⟩ hs ht
    obtain ⟨-, rfl⟩ := List.cons.inj (hs.symm.trans ht)
    exact ⟨line, flagged, rfl⟩
  start := startsAlike_recounted
  inString := by rintro s _ ⟨line, flagged, rfl⟩; rfl
  blanks := by rintro s _ ⟨line, flagged, rfl⟩; rfl
  counted := by
    rintro s _ ⟨line, flagged, rfl⟩ _ line' blanks _ flagged'
    exact ⟨line', flagged', rfl⟩

end SchemeStyle
