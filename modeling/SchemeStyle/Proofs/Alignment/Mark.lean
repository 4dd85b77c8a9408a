import SchemeStyle.Proofs.Lockstep
import SchemeStyle.Proofs.Scan.Checks

/-!
# Lines that are not aligned

A line that ends in the mark of the style is not checked for its indentation. The check does more
than report: where it accepts a line it may move the expected column, and it may use up the column
kept for a quoted form. Both are lost with the check, but neither is looked at again before the line
ends. What else is found on the line depends on the open forms, on the strings and on the imports,
and not on columns (`lockstep_sameForms`), so a line is found to break the same rules with the mark
and without it, its indentation apart.

Where the check has something to report it changes nothing. Then the mark leaves no trace but the
missing report: the next lines start in the same state (`Marks.reported`), up to whether anything
was found.
-/

namespace SchemeStyle

variable {style : Style} {st s t : State} {cur : Cursor} {c : Char} {cs content : List Char}
  {mark : String}

/-! ### The same forms at other columns -/

/-- The state without its columns: those of the open forms, the one outside of all forms, and the
one kept for a quoted form. -/
def State.forgetColumns (st : State) : State :=
  { st with
    base := 0
    frames := st.frames.map fun frame ↦ { frame with column := 0 }
    quotedAlign := none }

/-- The states are the same up to their columns. -/
def SameForms (s t : State) : Prop :=
  s.forgetColumns = t.forgetColumns

@[simp] theorem State.depth_forgetColumns (st : State) : st.forgetColumns.depth = st.depth :=
  List.length_map _

theorem SameForms.depth_eq (h : SameForms s t) : s.depth = t.depth := by
  rw [← State.depth_forgetColumns, h, State.depth_forgetColumns]

/-- What is done to the states without their columns is done to both. -/
theorem SameForms.update (h : SameForms s t) (f : State → State) :
    f s.forgetColumns = f t.forgetColumns :=
  congrArg f h

theorem SameForms.imports_eq (h : SameForms s t) : s.imports = t.imports := by
  have himports := congrArg State.imports (h.update id)
  exact himports

@[simp] theorem State.forgetColumns_setExpected (column : Int) (st : State) :
    (st.setExpected column).forgetColumns = st.forgetColumns := by
  rcases st with ⟨_, _, _, _, _, _, _ | _, _⟩ <;> rfl

theorem State.forgetColumns_markWrapper (st : State) :
    st.markWrapper.forgetColumns = st.forgetColumns.markWrapper := by
  rcases st with ⟨_, _, _, _, _, _, _ | _, _⟩ <;> rfl

theorem State.forgetColumns_enterImports (st : State) :
    st.enterImports.forgetColumns = st.forgetColumns.enterImports := by
  rw [enterImports, enterImports, depth_forgetColumns]
  rfl

theorem State.allWrappers_forgetColumns (st : State) :
    st.forgetColumns.allWrappers = st.allWrappers := by
  rw [allWrappers, allWrappers, forgetColumns, List.all_map]
  rfl

/-- Closing a form is the same without columns. -/
theorem State.forgetColumns_closed {frame : Frame} {outer : List Frame}
    (h : st.frames = frame :: outer) :
    forgetColumns { st with frames := outer, imports := (st.imports.leave st.depth).2 } =
      { st.forgetColumns with
        frames := st.forgetColumns.frames.tail
        imports := (st.forgetColumns.imports.leave st.forgetColumns.depth).2 } := by
  rw [depth_forgetColumns]
  simp [forgetColumns, h]

/-- **Code does not look at columns.** -/
theorem lockstep_sameForms : Lockstep SameForms where
  allWrappers {s t} h := by
    rw [← State.allWrappers_forgetColumns s, h, State.allWrappers_forgetColumns]
  block h := congrArg ImportContext.block h.imports_eq
  lastId h := congrArg ImportContext.lastId h.imports_eq
  lastName h := congrArg ImportContext.lastName h.imports_eq
  setString b h := h.update fun st ↦ { st with inString := b }
  setExpected {s t} column h := by
    rw [SameForms, State.forgetColumns_setExpected, State.forgetColumns_setExpected, h]
  markWrapper {s t} h := by
    rw [SameForms, State.forgetColumns_markWrapper, State.forgetColumns_markWrapper, h]
  enterImports {s t} h := by
    rw [SameForms, State.forgetColumns_enterImports, State.forgetColumns_enterImports, h]
  setLastId id h := h.update fun st ↦ { st with imports := st.imports.setLastId id }
  setLastName name h := h.update fun st ↦ { st with imports := st.imports.setLastName name }
  opened frame align align' _ h :=
    h.update fun st ↦ { st with frames := { frame with column := 0 } :: st.frames }
  closed {s t _ _ _ _} h hs ht := by
    rw [SameForms, State.forgetColumns_closed hs, State.forgetColumns_closed ht, h]

theorem sameForms_alignLine (index : Nat) (st : State) : SameForms st (alignLine index st).2 := by
  rw [alignLine, SameForms]
  split_ifs
  · rfl
  · exact (State.forgetColumns_setExpected 0 st).symm
  · exact (State.forgetColumns_setExpected index st).symm
  · rfl

/-- A line's start is either reported, with nothing changed, or accepted. -/
theorem alignLine_eq (index : Nat) (st : State) :
    alignLine index st = ([⟨index, .indentation⟩], st) ∨ (alignLine index st).1 = [] := by
  rw [alignLine]
  split_ifs
  · exact .inr rfl
  · exact .inr rfl
  · exact .inr rfl
  · exact .inl rfl

/-! ### Findings of indentation -/

/-- Nothing among the findings is about indentation. -/
def Unaligned (found : List Finding) : Prop :=
  ∀ finding ∈ found, finding.violation ≠ .indentation

theorem unaligned_nil : Unaligned [] := by simp [Unaligned]

theorem Unaligned.append {a b : List Finding} (ha : Unaligned a) (hb : Unaligned b) :
    Unaligned (a ++ b) :=
  List.forall_mem_append.2 ⟨ha, hb⟩

theorem unaligned_findingIf (condition : Bool) (index : Nat) {violation : Violation}
    (h : violation ≠ .indentation) : Unaligned (findingIf condition index violation) := by
  cases condition
  · exact unaligned_nil
  · exact List.forall_mem_singleton.2 h

theorem FoundBy.unaligned {checks : List Check} {found : List Finding}
    (h : FoundBy checks found) (hchecks : .indentation ∉ checks) : Unaligned found :=
  h.ne hchecks

/-- Only the check of a line's start reports indentation. -/
theorem unaligned_scan (style : Style) (cur : Cursor) (st : State) (cs : List Char) :
    Unaligned (scan style false cur st cs).findings :=
  (foundBy_scan style false cur st cs).unaligned (by decide)

/-- A line that is not aligned is not reported for its indentation. -/
theorem unaligned_lintLine (h : style.aligns content = false) (st : State) :
    Unaligned (lintLine style st content).findings := by
  rw [lintLine]
  split_ifs
  · exact unaligned_findingIf _ _ (by simp)
  · rw [lintTextLine, h]
    refine Unaligned.append ((foundBy_extentFindings style content).unaligned (by decide)) ?_
    split_ifs
    · exact ((foundBy_tabFindings 0 content).unaligned (by decide)).append
        ((foundBy_commentLineFindings _ content).unaligned (by decide))
    · exact unaligned_scan style _ _ _

/-- Whether a diagnostic is about indentation. -/
def Diagnostic.isIndentation (d : Diagnostic) : Bool :=
  d.message == "incorrect indentation"

/-- No other violation is worded like that. -/
theorem Diagnostic.isIndentation_ofFinding (file : String) (line : Nat) (finding : Finding) :
    (ofFinding file line finding).isIndentation = true ↔ finding.violation = .indentation := by
  have hwords : "incorrect ind".toList.isPrefixOf finding.violation.message.toList =
      (finding.violation == .indentation) := by
    cases finding.violation with
    | tooLong | expectedSpaceBefore | unexpectedSpaceBefore | wrapperCloser | idOrder
    | nameOrder =>
      delta Violation.message
      simp only [String.toList_append]
      rfl
    | _ => rfl
  rw [isIndentation, beq_iff_eq]
  constructor
  · intro h
    have hmessage : finding.violation.message = "incorrect indentation" := h
    rw [hmessage] at hwords
    exact beq_iff_eq.1 hwords.symm
  · intro h
    show finding.violation.message = _
    rw [h]
    rfl

/-! ### What the mark does to an outcome -/

/-- The second outcome is the first one without the check of the line's start. -/
inductive Marks (plain marked : Outcome) : Prop where
  /-- The line is reported for its indentation, once, and nothing else is different. -/
  | reported (before after : List Finding) (index : Nat)
      (plain_findings : plain.findings = before ++ ⟨index, .indentation⟩ :: after)
      (marked_findings : marked.findings = before ++ after)
      (error? : marked.error? = plain.error?) (state : Recounted plain.state marked.state)
  /-- The line is not reported for its indentation. -/
  | silent (findings : marked.findings = plain.findings) (error? : marked.error? = plain.error?)

theorem Marks.after {plain marked : Outcome} (h : Marks plain marked) (found : List Finding) :
    Marks (plain.after found) (marked.after found) := by
  cases h with
  | reported before after index plain_findings marked_findings error? state =>
    refine .reported (found ++ before) after index ?_ ?_ error? state
    · simp [Outcome.after, plain_findings]
    · simp [Outcome.after, marked_findings]
  | silent findings error? => exact .silent (congrArg (found ++ ·) findings) error?

theorem Marks.count {plain marked : Outcome} (h : Marks plain marked) :
    Marks plain.count marked.count := by
  cases h with
  | reported before after index plain_findings marked_findings error? state =>
    obtain ⟨line, flagged, heq⟩ := state
    refine .reported before after index plain_findings marked_findings error? ?_
    exact ⟨marked.count.state.line, marked.count.state.flagged, by simp [Outcome.count, heq]⟩
  | silent findings error? => exact .silent findings error?

/-! ### The scan without the check -/

/-- Past the start of its line a scan does not check it. -/
theorem step_eq_of_ne_indent (h : cur.mode ≠ .indent) (aligned : Bool) :
    step style aligned cur c st = step style false cur c st := by
  cases hmode : cur.mode with
  | indent => exact absurd hmode h
  | _ => simp only [step, hmode]

/-- Steps are the same up to the check if what follows them is. -/
theorem Step.outcome_congr {a : Step} {aligned aligned' : Bool}
    (h : ∀ mode, a.next = .go mode →
      scan style aligned (cur.advance mode c) a.state cs =
        scan style aligned' (cur.advance mode c) a.state cs) :
    a.outcome style aligned cur c cs = a.outcome style aligned' cur c cs := by
  rw [Step.outcome, Step.outcome]
  rcases hnext : a.next with mode | - | e
  · simp only [h mode hnext]
  · rfl
  · rfl

theorem scan_eq_of_ne_indent (h : cur.mode ≠ .indent) (aligned : Bool) :
    scan style aligned cur st cs = scan style false cur st cs := by
  induction cs generalizing cur st with
  | nil => rfl
  | cons c cs ih =>
    rw [scan_cons, scan_cons, step_eq_of_ne_indent h]
    refine Step.outcome_congr fun mode hnext ↦ ih ?_
    have hmove := move_of_step style false cur c st
    rw [hnext] at hmove
    exact hmove.mode_ne_indent fun hindent ↦ absurd hindent h

/-- The first character of a line's text is the last one that knows of the check. -/
theorem outcome_codeChar_eq (hstring : cur.mode ≠ .string) (hspace : c ≠ ' ') (aligned : Bool) :
    (codeChar style cur cur.mode.operator? c st).outcome style aligned cur c cs =
      (codeChar style cur cur.mode.operator? c st).outcome style false cur c cs := by
  refine Step.outcome_congr fun mode hnext ↦ scan_eq_of_ne_indent ?_ aligned
  have hmove := move_of_codeChar style cur hstring c st
  rw [hnext] at hmove
  exact hmove.mode_ne_indent fun _ ↦ hspace

/-- The check of a line's start, and the scan of its text after it, against the text alone. -/
theorem marks_alignLine (hstring : cur.mode ≠ .string) (hspace : c ≠ ' ') :
    Marks
      (((codeChar style cur cur.mode.operator? c (alignLine cur.index st).2).outcome
        style true cur c cs).after (alignLine cur.index st).1)
      ((codeChar style cur cur.mode.operator? c st).outcome style false cur c cs) := by
  rw [outcome_codeChar_eq hstring hspace true]
  rcases alignLine_eq cur.index st with hreported | haccepted
  · rw [hreported]
    exact .reported [] _ cur.index rfl rfl rfl (Recounted.refl _)
  · -- The columns are not the same any more, but nothing looks at them before the line ends.
    have hcode : (codeChar style cur cur.mode.operator? c (alignLine cur.index st).2).Alike
        SameForms (codeChar style cur cur.mode.operator? c st) :=
      lockstep_sameForms.codeChar_alike (sameForms_alignLine cur.index st).symm
        (.inl (depth_alignLine cur.index st))
    have hrest : ∀ mode,
        (scan style false (cur.advance mode c)
          (codeChar style cur cur.mode.operator? c (alignLine cur.index st).2).state cs).Alike
          SameForms (scan style false (cur.advance mode c)
            (codeChar style cur cur.mode.operator? c st).state cs) := fun _ ↦
      lockstep_sameForms.scan_alike hcode.state
        (fun haligned ↦ absurd haligned Bool.false_ne_true) (.inl SameForms.depth_eq)
    have houtcome := hcode.outcome fun mode _ ↦ hrest mode
    rw [haccepted]
    exact .silent houtcome.findings.symm houtcome.error?.symm

/-- **A scan without the check finds what the scan with it finds**, the indentation of the line
apart. -/
theorem marks_scan (style : Style) (cur : Cursor) (st : State) (cs : List Char) :
    Marks (scan style true cur st cs) (scan style false cur st cs) := by
  induction cs generalizing cur with
  | nil => exact .silent rfl rfl
  | cons c cs ih =>
    by_cases hindent : cur.mode = .indent
    · by_cases hspace : c = ' '
      · have hstep : ∀ aligned, step style aligned cur c st =
            { state := st, next := .go .indent } := by
          intro aligned
          simp [step, hindent, hspace, findingIf, Step.after]
        rw [scan_cons, scan_cons, hstep, hstep]
        exact (ih _).after []
      · have hstring : cur.mode ≠ .string := by simp [hindent]
        have hentered : entered true cur c st = (alignLine cur.index st).2 :=
          if_pos ⟨hindent, hspace, rfl⟩
        have hskipped : entered false cur c st = st := if_neg (by simp)
        have hlead : leadFindings true cur c st =
            findingIf (c == '\t') cur.index .tab ++ (alignLine cur.index st).1 := by
          rw [leadFindings, if_pos hindent, if_pos rfl]
        have htab : leadFindings false cur c st = findingIf (c == '\t') cur.index .tab := by
          rw [leadFindings, if_pos hindent, if_neg Bool.false_ne_true, List.append_nil]
        rw [scan_cons, scan_cons, step_of_code hstring fun _ ↦ hspace,
          step_of_code hstring fun _ ↦ hspace, Step.outcome_after, Step.outcome_after, hentered,
          hskipped, hlead, htab, ← Outcome.after_after]
        exact (marks_alignLine hstring hspace).after _
    · rw [scan_eq_of_ne_indent hindent true]
      exact .silent rfl rfl

/-! ### Lines that end in the mark -/

/-- The style with another mark for lines that are not aligned. -/
def Style.withMark (style : Style) (mark : String) : Style :=
  { style with noAlignMark := mark }

/-- No character is looked at for the mark. -/
theorem step_withMark (style : Style) (mark : String) (aligned : Bool) (cur : Cursor) (c : Char)
    (st : State) : step (style.withMark mark) aligned cur c st = step style aligned cur c st := rfl

theorem scan_withMark (style : Style) (mark : String) (aligned : Bool) (cur : Cursor) (st : State)
    (cs : List Char) :
    scan (style.withMark mark) aligned cur st cs = scan style aligned cur st cs := by
  induction cs generalizing cur st with
  | nil => rfl
  | cons c cs ih =>
    simp only [scan, step_withMark, ih]

/-- **A line that ends in the mark is found to break what it breaks without the mark**, its
indentation apart. -/
theorem marks_lintLine (hmarked : (style.withMark mark).aligns content = false)
    (haligned : style.aligns content = true) (st : State) :
    Marks (lintLine style st content) (lintLine (style.withMark mark) st content) := by
  by_cases hblank : isBlankLine content = true
  · rw [lintLine, lintLine, if_pos hblank, if_pos hblank]
    exact .silent rfl rfl
  · rw [lintLine, lintLine, if_neg hblank, if_neg hblank, lintTextLine, lintTextLine]
    refine Marks.count (Marks.after ?_ _)
    by_cases hcomment : content.head? = some ';' ∧ ¬st.inString
    · simp only [if_pos hcomment]
      exact .silent rfl rfl
    · simp only [if_neg hcomment]
      rw [hmarked, haligned, scan_withMark]
      exact marks_scan style _ _ _

/-! ### What a reader of the report sees -/

/-- What was found on a line, as diagnostics of a file. -/
def Outcome.diagnostics (file : String) (line : Nat) (o : Outcome) : List Diagnostic :=
  o.findings.map (.ofFinding file line)

theorem isIndentation_of_unaligned {file : String} {line : Nat} {found : List Finding}
    (h : Unaligned found) : ∀ d ∈ found.map (Diagnostic.ofFinding file line),
      d.isIndentation = false := by
  intro d hd
  obtain ⟨finding, hmem, rfl⟩ := List.mem_map.1 hd
  exact Bool.eq_false_iff.2 fun hd ↦
    h finding hmem ((Diagnostic.isIndentation_ofFinding file line finding).1 hd)

/-- What the mark hides is what is said about indentation, and that is one diagnostic at most. -/
theorem Marks.diagnostics {plain marked : Outcome} (h : Marks plain marked)
    (hmarked : Unaligned marked.findings) (file : String) (line : Nat) :
    marked.diagnostics file line =
        (plain.diagnostics file line).filter (fun d ↦ !d.isIndentation) ∧
      (plain.diagnostics file line).countP Diagnostic.isIndentation ≤ 1 := by
  have hkept : ∀ {found : List Finding}, Unaligned found →
      (found.map (Diagnostic.ofFinding file line)).filter (fun d ↦ !d.isIndentation) =
        found.map (.ofFinding file line) := fun h ↦
    List.filter_eq_self.2 fun d hd ↦ by rw [isIndentation_of_unaligned h d hd]; rfl
  have hnone : ∀ {found : List Finding}, Unaligned found →
      (found.map (Diagnostic.ofFinding file line)).countP Diagnostic.isIndentation = 0 := fun h ↦
    List.countP_eq_zero.2 fun d hd ↦ Bool.eq_false_iff.1 (isIndentation_of_unaligned h d hd)
  rw [Outcome.diagnostics, Outcome.diagnostics]
  cases h with
  | reported before after index plain_findings marked_findings error? state =>
    rw [marked_findings] at hmarked
    obtain ⟨hbefore, hafter⟩ := List.forall_mem_append.1 hmarked
    have hreport : (Diagnostic.ofFinding file line ⟨index, .indentation⟩).isIndentation = true :=
      (Diagnostic.isIndentation_ofFinding file line _).2 rfl
    rw [plain_findings, marked_findings, List.map_append, List.map_append, List.map_cons]
    constructor
    · rw [List.filter_append, hkept hbefore, List.filter_cons_of_neg (by simp [hreport]),
        hkept hafter]
    · refine Nat.le_of_eq ?_
      rw [List.countP_append, hnone hbefore, List.countP_cons_of_pos hreport, hnone hafter]
  | silent findings error? =>
    rw [← findings]
    exact ⟨(hkept hmarked).symm, by rw [hnone hmarked]; exact Nat.zero_le 1⟩

/-- The state after some more lines, each of them looked at whether or not nesting left its bounds
on the one before. -/
def State.afterLines (style : Style) (lines : List (List Char)) (st : State) : State :=
  lines.foldl (fun s content ↦ (lintLine style s content).state) st

/-- States that differ in what was found before are not told apart by any later line. -/
theorem Recounted.afterLines (h : Recounted s t) (hline : t.line = s.line) (style : Style)
    (lines : List (List Char)) :
    Recounted (s.afterLines style lines) (t.afterLines style lines) ∧
      (t.afterLines style lines).line = (s.afterLines style lines).line := by
  induction lines generalizing s t with
  | nil => exact ⟨h, hline⟩
  | cons first rest ih =>
    have halike : (lintLine style s first).Alike Recounted (lintLine style t first) :=
      lineLockstep_recounted.lintLine_alike h (.inl (by rw [hline])) (.inl Recounted.depth_eq)
    exact ih halike.state (by rw [line_lintLine, line_lintLine, hline])

/-- **The mark hides one diagnostic and touches nothing else.** -/
theorem lintLine_withMark (hmarked : (style.withMark mark).aligns content = false)
    (haligned : style.aligns content = true) (st : State) (file : String) :
    let plain := lintLine style st content
    let marked := lintLine (style.withMark mark) st content
    marked.error? = plain.error? ∧
      marked.diagnostics file st.line =
        (plain.diagnostics file st.line).filter (fun d ↦ !d.isIndentation) ∧
      (plain.diagnostics file st.line).countP Diagnostic.isIndentation ≤ 1 ∧
      ((∃ d ∈ plain.diagnostics file st.line, d.isIndentation = true) →
        marked.state = { plain.state with flagged := marked.state.flagged } ∧
          ∀ (common : Style) (lines : List (List Char)) (later : List Char),
            let next := plain.state.afterLines common lines
            let next' := marked.state.afterLines common lines
            next'.line = next.line ∧
              (lintLine common next' later).diagnostics file next'.line =
                (lintLine common next later).diagnostics file next.line ∧
              (lintLine common next' later).error? = (lintLine common next later).error?) := by
  dsimp only
  have hmarks := marks_lintLine hmarked haligned st
  have hunaligned := unaligned_lintLine hmarked st
  obtain ⟨hfound, hone⟩ := hmarks.diagnostics hunaligned file st.line
  have hline : (lintLine (style.withMark mark) st content).state.line =
      (lintLine style st content).state.line := by rw [line_lintLine, line_lintLine]
  cases hmarks with
  | reported before after index plain_findings marked_findings error? state =>
    refine ⟨error?, hfound, hone, fun _ ↦ ⟨?_, fun common lines later ↦ ?_⟩⟩
    · obtain ⟨line, flagged, hstate⟩ := state
      have hsame : line = (lintLine style st content).state.line := by rw [← hline, hstate]
      rw [hstate, hsame]
    · obtain ⟨hrecounted, hnext⟩ := state.afterLines hline common lines
      have hlater : (lintLine common _ later).Alike Recounted (lintLine common _ later) :=
        lineLockstep_recounted.lintLine_alike hrecounted (.inl (by rw [hnext]))
          (.inl Recounted.depth_eq)
      exact ⟨hnext, by rw [Outcome.diagnostics, Outcome.diagnostics, hnext, hlater.findings],
        hlater.error?.symm⟩
  | silent findings error? =>
    refine ⟨error?, hfound, hone, ?_⟩
    rintro ⟨d, hd, hindentation⟩
    rw [Outcome.diagnostics, ← findings] at hd
    rw [isIndentation_of_unaligned hunaligned d hd] at hindentation
    cases hindentation

/-- The second line of a definition starts too far left, and the mark keeps that out of the report;
the tab and the form that is closed once too often are still in it. -/
theorem lintLine_withMark_definition :
    let st := (lintLine .standard {} "(define (f x)".toList).state
    let line := "(*\tx x))) ; RAW".toList
    let plain := lintLine .standard st line
    let marked := lintLine (Style.standard.withMark "; RAW") st line
    ((Style.standard.withMark "; RAW").aligns line = false ∧ Style.standard.aligns line = true ∧
        Reachable .standard st) ∧
      plain.diagnostics "f.ss" st.line = [⟨"f.ss", 2, 1, "incorrect indentation"⟩,
        ⟨"f.ss", 2, 3, "illegal character '\\t'"⟩] ∧
      marked.diagnostics "f.ss" st.line = [⟨"f.ss", 2, 3, "illegal character '\\t'"⟩] ∧
      marked.error? = plain.error? ∧ plain.error? = some (8, .unmatched) ∧
      marked.state = { plain.state with flagged := marked.state.flagged } := by
  have hmarked : (Style.standard.withMark "; RAW").aligns "(*\tx x))) ; RAW".toList = false := by
    decide +kernel
  have haligned : Style.standard.aligns "(*\tx x))) ; RAW".toList = true := by decide +kernel
  obtain ⟨herror, hfound, -, hstate⟩ := lintLine_withMark hmarked haligned
    (lintLine .standard {} "(define (f x)".toList).state "f.ss"
  have hplain : (lintLine .standard (lintLine .standard {} "(define (f x)".toList).state
      "(*\tx x))) ; RAW".toList).diagnostics "f.ss"
        (lintLine .standard {} "(define (f x)".toList).state.line =
      [⟨"f.ss", 2, 1, "incorrect indentation"⟩, ⟨"f.ss", 2, 3, "illegal character '\\t'"⟩] := by
    decide +kernel
  rw [hplain] at hfound hstate
  refine ⟨⟨hmarked, haligned, .line _ .start⟩, hplain, ?_, herror, by decide +kernel, ?_⟩
  · rw [hfound]
    decide +kernel
  · exact (hstate ⟨_, List.mem_cons_self, by decide +kernel⟩).1

end SchemeStyle
