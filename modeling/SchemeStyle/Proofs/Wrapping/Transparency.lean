import SchemeStyle.Proofs.Consistency
import SchemeStyle.Proofs.Layout.Elements
import SchemeStyle.Proofs.Wrapping.Enclosed

/-!
# Wrapping lines

A wrapper is a form whose contents may stay at column zero, so lines that were linted by themselves
can be put into one without being moved. The first line of the wrapper holds its operator and
nothing else, its last line the delimiter that closes it; the lines between them are those that were
there before, and they are found to break the same rules, one line further down
(`lintLines_wrapped`).

The operator leaves the wrapper with an expected column of its own. The first line inside, which
starts at column zero, moves it there (`lintLine_setExpected`), and from then on the wrapper is one
that no check sees.
-/

namespace SchemeStyle

variable {style : Style} {st : State} {cur : Cursor} {c : Char} {operator text cs : List Char}

/-! ### A line at column zero -/

/-- Inside of wrappers only, a line may start at column zero, wherever it was expected. -/
theorem alignLine_zero (h : st.allWrappers = true) :
    alignLine 0 st = ([], st.setExpected 0) := by
  rw [alignLine]
  split_ifs with hexpected hzero
  · rw [Int.natCast_zero.symm.trans hexpected, State.setExpected_expected]
  · rfl
  · exact absurd ⟨rfl, h⟩ hzero
  · exact absurd ⟨rfl, h⟩ hzero

theorem scan_setExpected {st' : State} (heq : st' = st.setExpected 0)
    (h : st.allWrappers = true) (hspace : c ≠ ' ') :
    scan style true (.start false) st' (c :: cs) =
      scan style true (.start false) st (c :: cs) := by
  subst heq
  have hall : (st.setExpected 0).allWrappers = true := by rwa [State.allWrappers_setExpected]
  have halign : alignLine 0 (st.setExpected 0) = alignLine 0 st := by
    rw [alignLine_zero h, alignLine_zero hall, State.setExpected_setExpected]
  have hstep : step style true (.start false) c (st.setExpected 0) =
      step style true (.start false) c st := by
    simp only [step, Cursor.start, Bool.false_eq_true, if_false, if_true, halign]
    rw [if_neg hspace, if_neg hspace]
  rw [scan_cons, scan_cons, hstep]

/-- **The column of a wrapper does not matter to a line at column zero.** -/
theorem lintLine_setExpected (h : st.allWrappers = true) (hstring : st.inString = false)
    (haligned : style.aligns (c :: text) = true) (hspace : c ≠ ' ') (hcomment : c ≠ ';') :
    lintLine style (st.setExpected 0) (c :: text) = lintLine style st (c :: text) := by
  have hblank : isBlankLine (c :: text) = false := by simp [isBlankLine, hspace]
  have hregion : ∀ {s : State}, s.inString = false → s.region.after [c] ≠ .comment := by
    intro s hs
    rw [State.region, hs, Region.after_cons, Region.after_nil, if_neg Bool.false_ne_true,
      Region.read, if_neg hcomment]
    split_ifs <;> simp
  have hpiece : [c] <+: c :: text := List.prefix_append [c] text
  have hscan : scanLine style (st.setExpected 0) (c :: text) = scanLine style st (c :: text) := by
    rw [scanLine, scanLine, State.inString_setExpected, hstring, haligned, List.cons_append]
    refine congrArg (Outcome.after _) (scan_setExpected ?_ h hspace)
    rcases st with ⟨_, _, _, _, _, _, _ | _, _⟩ <;> rfl
  rw [lintLine_of_region_ne hblank hpiece (List.cons_ne_nil c []) (hregion hstring),
    lintLine_of_region_ne hblank hpiece (List.cons_ne_nil c [])
      (hregion ((State.inString_setExpected 0 st).trans hstring)), hscan]

theorem lintLines_setExpected {lines : List (List Char)} (h : st.allWrappers = true)
    (hstring : st.inString = false) (hfirst : lines.head? = some (c :: text))
    (haligned : style.aligns (c :: text) = true) (hspace : c ≠ ' ') (hcomment : c ≠ ';') :
    lintLines style (st.setExpected 0) lines = lintLines style st lines := by
  obtain ⟨rest, rfl⟩ := List.head?_eq_some_iff.1 hfirst
  have hline : (st.setExpected 0).line = st.line :=
    congrArg Prod.fst (State.tally_setExpected 0 st)
  rw [lintLines, lintLines, lintLine_setExpected h hstring haligned hspace hcomment, hline]

/-! ### The first line of the wrapper -/

/-- A wrapper that is no section only sets its column and marks its form. -/
theorem finishOperator_of_wrapper (token : Token) (column : Int)
    (hwrapper : (style.rules.lookup token.text token.start).wrapper = true)
    (hsection : style.importBlock token.text token.start ≠ .section) (index : Nat)
    (followed : Bool) :
    ∃ column', finishOperator style token index followed (State.inside column {}) =
      ([], { frames := [⟨column', true⟩] }) := by
  dsimp only [finishOperator]
  rw [hwrapper, if_pos rfl]
  rcases bodyColumn? (style.rules.lookup token.text token.start) token index followed with
    - | column'
  · exact ⟨column, importOperator_of_outside hsection rfl⟩
  · exact ⟨column', importOperator_of_outside hsection rfl⟩

/-- The scan reads an operator character by character, and finds nothing but tabs in it. -/
theorem scans_operator (style : Style) (aligned : Bool) (st : State) {token : Token}
    (hplain : ∀ c ∈ operator, IsPlain c) (hmode : cur.mode = .operator token)
    (hgap : cur.gap = false) :
    ∃ last, Scans style aligned cur st operator (tabFindings cur.index operator) last st ∧
      last.mode = .operator ⟨token.start, operator.reverse ++ token.chars⟩ ∧
      last.gap = false := by
  induction operator generalizing cur token with
  | nil => exact ⟨cur, .nil cur st, hmode, hgap⟩
  | cons c operator ih =>
    have hc : IsPlain c := hplain c List.mem_cons_self
    have hspace : c ≠ ' ' := by
      rintro rfl
      exact hc (by decide)
    have hstep : step style aligned cur c st =
        { findings := findingIf (c == '\t') cur.index .tab
          state := st
          next := .go (.operator (token.push c)) } := by
      have hcode : codeChar style cur (some token) c st =
          { state := st, next := .go (.operator (token.push c)) } := by
        have hread : codeChar style cur cur.mode.operator? c st =
            { state := st, next := .go (cur.mode.read c) } := codeChar_of_plain hc
        rwa [hmode] at hread
      simp [step, hmode, hgap, hcode, Step.after, findingIf]
    have hgap' : (cur.advance (.operator (token.push c)) c).gap = false :=
      gapAfter_eq_false hgap fun h ↦ absurd h hspace
    obtain ⟨last, hscans, hlast, hlastgap⟩ :=
      ih (fun d hd ↦ hplain d (List.mem_cons_of_mem c hd)) rfl hgap'
    refine ⟨last, ?_, ?_, hlastgap⟩
    · have hchar := Scans.char (congrArg Step.next hstep) (by rw [hstep]; exact hscans)
      rwa [hstep] at hchar
    · rw [hlast]
      simp [Token.push]

/-- The scan of the operator's line leaves its form open and marked. -/
theorem scan_opening (aligned : Bool) (hplain : ∀ c ∈ operator, IsPlain c)
    (hwrapper : (style.rules.lookup (String.ofList operator) 1).wrapper = true)
    (hsection : String.ofList operator ∉ style.sectionOperators) :
    ∃ column, scan style aligned (.start false) {} ('(' :: (operator ++ ['\n'])) =
      { state := { frames := [⟨column, true⟩] }, findings := tabFindings 1 operator } := by
  have hquiet : Quiet (.start false) {} := ⟨rfl, by simp [Cursor.start], fun _ ↦ rfl⟩
  have hopen : step style aligned (.start false) '(' {} =
      { state := State.inside 1 {}, next := .go (.operator ⟨1, []⟩) } := by
    rw [hquiet.step_eq (by decide) (by decide)]
    exact openForm_eq style.two_le_maxDepth (by simp [Cursor.start]) rfl
  have hmode : ((Cursor.start false).advance (.operator ⟨1, []⟩) '(').mode = .operator ⟨1, []⟩ :=
    rfl
  obtain ⟨last, hscans, hlast, hlastgap⟩ :=
    scans_operator style aligned (State.inside 1 {}) hplain hmode rfl
  have hsection' : style.importBlock (String.ofList operator) 1 ≠ .section := by
    simp [Style.importBlock, hsection]
  obtain ⟨column, hfinish⟩ := finishOperator_of_wrapper ⟨1, operator.reverse⟩ 1
    (by simpa [Token.text] using hwrapper) (by simpa [Token.text] using hsection') last.index false
  have hnewline : step style aligned last '\n' (State.inside 1 {}) =
      { state := { frames := [⟨column, true⟩] }, next := .go .code } := by
    rw [List.append_nil] at hlast
    simp [step, hlast, hlastgap, codeChar_of_operator_break, hfinish, Step.after, findingIf]
  refine ⟨column, ?_⟩
  rw [scan_cons_of_go (congrArg Step.next hopen), hopen, hscans.scan_append,
    scan_cons_of_go (congrArg Step.next hnewline), hnewline]
  simp [scan, Outcome.after]
  rfl

/-- The state in which the line of its operator leaves a wrapper at the top of a file. -/
def State.inWrapper (column : Int) (flagged : Bool) : State where
  line := 2
  flagged := flagged
  frames := [⟨column, true⟩]

/-- Up to its column, the wrapper encloses what is a file of its own. -/
theorem encloses_inWrapper (column : Int) (flagged : Bool) :
    Encloses {} ((State.inWrapper column flagged).setExpected 0) :=
  ⟨2, flagged, rfl⟩

/-- **The line of its operator opens the wrapper**, and only its tabs are reported. -/
theorem lintLine_opening (hplain : ∀ c ∈ operator, IsPlain c)
    (hwrapper : (style.rules.lookup (String.ofList operator) 1).wrapper = true)
    (hsection : String.ofList operator ∉ style.sectionOperators)
    (hfits : ('(' :: operator).length ≤ style.maxColumns) :
    ∃ column flagged, lintLine style {} ('(' :: operator) =
      { state := .inWrapper column flagged, findings := tabFindings 1 operator } := by
  have hextent : extentFindings style ('(' :: operator) = [] := by
    refine extentFindings_eq_nil hfits fun hlast ↦ ?_
    rcases List.mem_cons.1 (List.mem_of_getLast? hlast) with h | h
    · cases h
    · exact hplain ' ' h (by decide)
  have hpiece : ['('] <+: '(' :: operator := List.prefix_append ['('] operator
  obtain ⟨column, hscan⟩ := scan_opening (style.aligns ('(' :: operator)) hplain hwrapper hsection
  refine ⟨column, !(tabFindings 1 operator).isEmpty, ?_⟩
  rw [lintLine_of_region_ne rfl hpiece (List.cons_ne_nil _ _) (by decide), scanLine, hextent,
    List.cons_append]
  show ((scan style _ (.start false) {} _).after []).count = _
  rw [hscan]
  rfl

/-! ### The last line of the wrapper -/

/-- The scan of the delimiter's line leaves nothing open. -/
theorem scan_closing (aligned : Bool) {column : Int} (hframes : st.frames = [⟨column, true⟩])
    (himports : st.imports = .outside) :
    scan style aligned (.start false) st [')', '\n'] = { state := { st with frames := [] } } := by
  have hall : st.allWrappers = true := by rw [State.allWrappers, hframes]; rfl
  have hclose : ∀ column, closeForm (.start false) ')' (st.setExpected column) =
      { state := { st with frames := [] }, next := .go .code } := by
    intro column
    rcases st with ⟨_, _, _, _, _, _, _, _⟩
    obtain rfl := hframes
    obtain rfl := himports
    rfl
  obtain ⟨column', hentered, hlead⟩ : ∃ column',
      entered aligned (.start false) ')' st = st.setExpected column' ∧
        leadFindings aligned (.start false) ')' st = [] := by
    have halign : alignLine (Cursor.start false).index st = ([], st.setExpected 0) :=
      alignLine_zero hall
    cases aligned
    · exact ⟨st.expected, st.setExpected_expected.symm, rfl⟩
    · exact ⟨0, congrArg Prod.snd halign, congrArg Prod.fst halign⟩
  have hstep : step style aligned (.start false) ')' st =
      { state := { st with frames := [] }, next := .go .code } := by
    rw [step_of_code (by simp [Cursor.start]) (fun _ ↦ by decide), hentered, hlead]
    exact congrArg (Step.after []) (hclose column')
  have hquiet : Quiet ((Cursor.start false).advance .code ')') { st with frames := [] } :=
    ⟨rfl, by simp [Cursor.advance], by simp [Cursor.advance]⟩
  have hnewline : step style aligned ((Cursor.start false).advance .code ')') '\n'
      { st with frames := [] } = { state := { st with frames := [] }, next := .go .code } := by
    rw [hquiet.step_eq (by decide) (by decide)]
    exact codeChar_of_break rfl himports (.inr rfl)
  rw [scan_cons_of_go (congrArg Step.next hstep), hstep,
    scan_cons_of_go (congrArg Step.next hnewline), hnewline]
  rfl

/-- **The delimiter of the wrapper, on a line of its own, closes it** without a finding. -/
theorem lintLine_closing {column : Int} (hframes : st.frames = [⟨column, true⟩])
    (hstring : st.inString = false) (himports : st.imports = .outside) :
    (lintLine style st [')']).findings = [] ∧ (lintLine style st [')']).error? = none ∧
      (lintLine style st [')']).state.frames = [] := by
  have hregion : st.region.after [')'] ≠ .comment := by
    rw [State.region, hstring]
    decide
  have hextent : extentFindings style [')'] = [] :=
    extentFindings_eq_nil style.maxColumns_pos (by decide)
  have hscan : scanLine style st [')'] = { state := { st with blanks := 0, frames := [] } } := by
    have hcode : scan style (style.aligns [')']) (.start false) { st with blanks := 0 }
        ([')'] ++ ['\n']) = { state := { st with blanks := 0, frames := [] } } :=
      scan_closing _ hframes himports
    rw [scanLine, hextent, congrArg Cursor.start hstring, hcode]
    rfl
  rw [lintLine_of_region_ne rfl (List.prefix_refl _) (List.cons_ne_nil _ _) hregion, hscan]
  exact ⟨rfl, rfl, rfl⟩

/-- Where all forms inside the wrapper are closed, the delimiter finds only the wrapper open. -/
theorem lintLine_closing_of_encloses {s t : State} (h : Encloses s t) (hs : Reachable style s)
    (hdepth : s.depth = 0) (hstring : s.inString = false) :
    (lintLine style t [')']).findings = [] ∧ (lintLine style t [')']).error? = none ∧
      (lintLine style t [')']).state.frames = [] := by
  have hnone : s.frames = [] := List.eq_nil_of_length_eq_zero hdepth
  have hframes : s.enclosed.frames = [⟨s.base, true⟩] := by
    rw [State.enclosed, hnone, List.nil_append]
  have himports : s.enclosed.imports = .outside := by
    rw [State.enclosed, hs.imports_eq_outside hdepth]
    rfl
  obtain ⟨line, flagged, rfl⟩ := h
  exact lintLine_closing hframes hstring himports

/-! ### The wrapped lines -/

/-- **Lines at the top of a file can be wrapped.** Lines that start at column zero, are linted to
their end and close all their forms and strings are found to break the same rules inside a wrapper,
one line further down. The lines that are added for the wrapper are reported for the tabs of its
operator only, and leave nothing open. -/
theorem lintLines_wrapped {lines : List (List Char)} (hplain : ∀ c ∈ operator, IsPlain c)
    (hwrapper : (style.rules.lookup (String.ofList operator) 1).wrapper = true)
    (hsection : String.ofList operator ∉ style.sectionOperators)
    (hfits : ('(' :: operator).length ≤ style.maxColumns)
    (hfirst : lines.head? = some (c :: text)) (hspace : c ≠ ' ') (hcomment : c ≠ ';')
    (haligned : style.aligns (c :: text) = true)
    (hends : (lintLines style {} lines).failure? = none)
    (hroom : ∀ d ∈ lintDepths style {} lines, d + 2 ≤ style.maxDepth)
    (hdepth : (lintLines style {} lines).state.depth = 0)
    (hstring : (lintLines style {} lines).state.inString = false) (file : String) :
    let alone := lintLines style {} lines
    let wrapped := lintLines style {} (('(' :: operator) :: lines ++ [[')']])
    wrapped.failure? = none ∧
      wrapped.diagnostics file =
        (tabFindings 1 operator).map (.ofFinding file 1) ++
          (alone.diagnostics file).map (Diagnostic.below 1) ∧
      ('\t' ∉ operator →
        wrapped.diagnostics file = (alone.diagnostics file).map (Diagnostic.below 1)) ∧
      wrapped.state.depth = 0 ∧ wrapped.state.wrapperDepths = [] := by
  obtain ⟨column, flagged, hopening⟩ := lintLine_opening hplain hwrapper hsection hfits
  have hbanner : ∀ first ∈ lines.head?, ¬IsBanner first := by
    rw [hfirst]
    rintro _ ⟨rfl⟩ hbanner
    exact hcomment (List.cons_prefix_cons.1 hbanner).1.symm
  -- The first line inside moves the column of the wrapper to zero, whatever the operator made it.
  obtain ⟨halike, hends'⟩ := lintLines_alike_of_encloses (k := 1)
    (encloses_inWrapper column flagged) rfl ⟨Nat.one_pos, fun _ ↦ hbanner⟩ hends hroom
  rw [lintLines_setExpected rfl rfl hfirst haligned hspace hcomment] at halike hends'
  obtain ⟨hfound, herror, hclosed⟩ := lintLine_closing_of_encloses halike.state
    (Reachable.start.lintLines lines) hdepth hstring
  have hwhole : lintLines style {} (('(' :: operator) :: lines ++ [[')']]) =
      { state := (lintLine style (lintLines style (.inWrapper column flagged) lines).state
          [')']).state
        findings := (tabFindings 1 operator).map (1, ·) ++
          (lintLines style (.inWrapper column flagged) lines).findings } := by
    rw [List.cons_append, lintLines_cons_of_ok (by rw [hopening]), hopening]
    dsimp only
    rw [lintLines_append hends', lintLines_cons_of_ok herror, hfound]
    simp [lintLines]
  have hdiagnostics :
      (lintLines style {} (('(' :: operator) :: lines ++ [[')']])).diagnostics file =
        (tabFindings 1 operator).map (.ofFinding file 1) ++
          ((lintLines style {} lines).diagnostics file).map (Diagnostic.below 1) := by
    rw [hwhole, ← halike.diagnostics file, Report.diagnostics, List.map_append, List.map_map]
    rfl
  dsimp only
  refine ⟨by rw [hwhole], hdiagnostics, fun htab ↦ ?_, ?_, ?_⟩
  · rw [hdiagnostics, tabFindings_eq_nil htab, List.map_nil, List.nil_append]
  · rw [hwhole, State.depth, hclosed, List.length_nil]
  · rw [hwhole, State.wrapperDepths, hclosed, State.wrapperDepthsOf]

/-- A wrapper with a misindented definition inside, put into another wrapper. -/
theorem lintLines_wrapped_library :
    let lines := ["(SICP".toList, "(define (f x)".toList, "   x)".toList, ")".toList]
    let alone := lintLines .standard {} lines
    let wrapped := lintLines .standard {} (('(' :: "library".toList) :: lines ++ [[')']])
    (lines.head? = some ('(' :: "SICP".toList) ∧ alone.failure? = none ∧ alone.state.depth = 0 ∧
        alone.state.inString = false ∧
        ∀ d ∈ lintDepths .standard {} lines, d + 2 ≤ Style.standard.maxDepth) ∧
      alone.diagnostics "f.ss" = [⟨"f.ss", 3, 4, "incorrect indentation"⟩] ∧
      wrapped.failure? = none ∧
      wrapped.diagnostics "f.ss" = [⟨"f.ss", 4, 4, "incorrect indentation"⟩] ∧
      wrapped.state.depth = 0 ∧ wrapped.state.wrapperDepths = [] := by
  intro lines alone wrapped
  have hplain : ∀ c ∈ "library".toList, IsPlain c := by simp [IsPlain]
  have hfirst : lines.head? = some ('(' :: "SICP".toList) := by decide +kernel
  have hends : alone.failure? = none := by decide +kernel
  have hroom : ∀ d ∈ lintDepths .standard {} lines, d + 2 ≤ Style.standard.maxDepth := by
    decide +kernel
  have hdepth : alone.state.depth = 0 := by decide +kernel
  have hstring : alone.state.inString = false := by decide +kernel
  have halone : alone.diagnostics "f.ss" = [⟨"f.ss", 3, 4, "incorrect indentation"⟩] := by
    decide +kernel
  obtain ⟨hends', -, hfound, hclosed⟩ := lintLines_wrapped hplain (by decide +kernel)
    (by decide +kernel) (by decide +kernel) hfirst (by decide) (by decide) (by decide +kernel) hends
    hroom hdepth hstring "f.ss"
  refine ⟨⟨hfirst, hends, hdepth, hstring, hroom⟩, halone, hends', ?_, hclosed⟩
  rw [hfound (by decide +kernel)]
  exact congrArg (List.map (Diagnostic.below 1)) halone

/-- A tab in the operator of the wrapper is reported where the operator stands, though nothing is
wrong with the line inside. -/
theorem lintLines_wrapped_tab :
    let style : Style := { indentRules := ⟨[("a\tb", { wrapper := true })]⟩ }
    let operator := "a\tb".toList
    let alone := lintLines style {} [['x']]
    let wrapped := lintLines style {} [('(' :: operator), ['x'], [')']]
    ((∀ c ∈ operator, IsPlain c) ∧
        (style.rules.lookup (String.ofList operator) 1).wrapper = true ∧
        String.ofList operator ∉ style.sectionOperators ∧
        ('(' :: operator).length ≤ style.maxColumns ∧ style.aligns ['x'] = true ∧
        alone.failure? = none ∧ alone.state.depth = 0 ∧ alone.state.inString = false ∧
        ∀ d ∈ lintDepths style {} [['x']], d + 2 ≤ style.maxDepth) ∧
      alone.diagnostics "f.ss" = [] ∧
      wrapped.diagnostics "f.ss" = [⟨"f.ss", 1, 3, "illegal character '\\t'"⟩] ∧
      wrapped.diagnostics "f.ss" ≠ (alone.diagnostics "f.ss").map (Diagnostic.below 1) := by
  refine ⟨⟨by simp [IsPlain], by decide +kernel, by decide +kernel,
    by decide +kernel, by decide +kernel, by decide +kernel, by decide +kernel,
    by decide +kernel, by decide +kernel⟩, by decide +kernel, by decide +kernel,
    by decide +kernel⟩

end SchemeStyle
