import SchemeStyle.Proofs.Scan.Progress

/-!
# Comments at the end of a line

A comment that is set off from the code before it by a space, and is itself written as the style
guide asks, means nothing: what is found on its line is what would be found without it. To the scan
it is first of all a space where a newline would be. The two are told apart in one place only, at
the end of an operator, where a space announces an operand on the same line and a newline does not
(`finishOperator_followed`). A comment is no operand, but it is announced as one: after the operator
of a form whose contents align with an operand on its line, the comment sets the column for them.

So a comment leaves findings and state as they are, unless its line ends in such an operator
(`EndsInOperator`); then the one thing it changes is the column of the innermost form
(`lintLine_trailingComment`).
-/

namespace SchemeStyle

variable {style : Style} {aligned : Bool} {st : State} {cur : Cursor} {content text : List Char}

/-! ### The end of an operator -/

/-- Import forms are told apart by depth, not by columns. -/
theorem importOperator_setExpected (style : Style) (token : Token) (column : Int) (st : State) :
    importOperator style token (st.setExpected column) =
      ((importOperator style token st).1,
        (importOperator style token st).2.setExpected column) := by
  rw [importOperator_eq, importOperator_eq, State.imports_setExpected, State.depth_setExpected,
    State.setExpected_eq, State.setExpected_eq]

/-- The contents of a form with this operator stand two columns inside the form, whatever follows
the operator on its line. -/
def fixesBody (style : Style) (name : String) (column : Nat) : Bool :=
  (style.rules.lookup name column).special && !(style.rules.lookup name column).uniform

/-- **An operand that follows on the operator's line moves the column of the form to itself**,
unless the operator fixes the column; it changes nothing else. -/
theorem finishOperator_followed (style : Style) (token : Token) (index : Nat) (st : State) :
    finishOperator style token index true st =
      ((finishOperator style token index false st).1,
        if fixesBody style token.text token.start then (finishOperator style token index false st).2
        else (finishOperator style token index false st).2.setExpected (index + 1)) := by
  rw [fixesBody]
  dsimp only [finishOperator]
  generalize (if (style.rules.lookup token.text token.start).wrapper = true then st.markWrapper
    else st) = marked
  rcases style.rules.lookup token.text token.start with ⟨_ | _, wrapper, _ | _⟩ <;>
    simp [bodyColumn?, importOperator_setExpected]

/-! ### The end of a line -/

/-- A comment behind the code of a line, without the newline after it. -/
def trailingComment (text : List Char) : List Char :=
  ' ' :: ';' :: ' ' :: text

/-- The cursor stands right after a character of code that is no space. -/
structure AfterCode (cur : Cursor) : Prop where
  indent : cur.mode ≠ .indent
  string : cur.mode ≠ .string
  gap : cur.gap = false
  prev : cur.prev ≠ some ' '

theorem AfterCode.step_eq (h : AfterCode cur) {c : Char} (hc : c ≠ '\t') :
    step style aligned cur c st = codeChar style cur cur.mode.operator? c st := by
  rw [step_of_code h.string fun hmode ↦ absurd hmode h.indent, entered,
    if_neg fun hmode ↦ h.indent hmode.1, leadFindings, if_neg h.indent, h.gap]
  simp [findingIf, hc, Step.after]

/-- Spaces and newlines end operators and words, and the scan goes on. -/
theorem next_of_blank {c : Char} (hc : c = ' ' ∨ c = '\n') (operator? : Option Token) :
    (codeChar style cur operator? c st).next = .go .code := by
  rcases hc with rfl | rfl <;> cases operator? <;> rfl

theorem scan_newline (h : AfterCode cur) :
    scan style aligned cur st ['\n'] =
      { state := (codeChar style cur cur.mode.operator? '\n' st).state
        findings := (codeChar style cur cur.mode.operator? '\n' st).findings } := by
  rw [scan, h.step_eq (by decide), next_of_blank (.inr rfl)]
  simp [scan, Outcome.after]

/-- A comment ends what is before it as a space does, and adds nothing. -/
theorem scan_trailingComment (h : AfterCode cur) (htab : '\t' ∉ text) :
    scan style aligned cur st (trailingComment text ++ ['\n']) =
      { state := (codeChar style cur cur.mode.operator? ' ' st).state
        findings := (codeChar style cur cur.mode.operator? ' ' st).findings } := by
  have hgap : (cur.advance .code ' ').gap = false := by
    show cur.gapAfter ' ' = false
    rw [Cursor.gapAfter_code h.indent h.string, h.gap]
    simp [h.prev]
  have hsemicolon : ∀ s : State, step style aligned (cur.advance .code ' ') ';' s =
      { state := s, next := .comment } := by
    intro s
    rw [step_of_code (by simp [Cursor.advance]) (by simp [Cursor.advance]), entered,
      if_neg (by simp [Cursor.advance]), leadFindings, hgap]
    simp [codeChar, Cursor.advance, Mode.operator?, findingIf, Step.after]
  have htabs : ∀ index, tabFindings index (text ++ ['\n']) = [] :=
    tabFindings_eq_nil (by simpa using htab)
  rw [trailingComment, List.cons_append, scan, h.step_eq (by decide), next_of_blank (.inl rfl)]
  simp [scan, hsemicolon, commentFindings, commentFindings.afterMarker, findingIf, htabs,
    Outcome.after]

/-- The line ends in an operator, or right where one would start, whose form aligns its contents
with an operand on the operator's line. -/
def EndsInOperator (style : Style) (content : List Char) : Prop :=
  ∃ front c name, content = front ++ c :: name ∧ isOpener c = true ∧ (∀ d ∈ name, IsPlain d) ∧
    fixesBody style (String.ofList name) (front.length + 1) = false

/-- An operator that the line ends in is being read there, if the line ends in code. -/
theorem endsInOperator_iff {found : List Finding} {last : Cursor} {final : State}
    (h : Scans style aligned (.start st.inString) { st with blanks := 0 } content found last final)
    (hcode : st.region.after content = .code) :
    EndsInOperator style content ↔
      ∃ token, last.mode = .operator token ∧ fixesBody style token.text token.start = false := by
  constructor
  · rintro ⟨front, c, name, htext, hc, hname, hflags⟩
    refine ⟨⟨front.length + 1, name.reverse⟩, h.mode_eq_operator_iff.2
      ⟨front, c, name, htext, hc, ?_, hname, rfl⟩, ?_⟩
    · -- Neither the delimiter nor the name is a quote, so the code at the end reaches back to them.
      rw [htext, Region.after_append] at hcode
      refine Region.eq_code_of_after hcode fun hquote ↦ ?_
      rcases List.mem_cons.1 hquote with rfl | hquote
      · cases hc
      · exact hname '"' hquote (by decide)
    · simpa [Token.text] using hflags
  · rintro ⟨token, hmode, hflags⟩
    obtain ⟨front, c, name, htext, hc, -, hname, rfl⟩ := h.mode_eq_operator_iff.1 hmode
    exact ⟨front, c, name, htext, hc, hname, by simpa [Token.text] using hflags⟩

/-- A line that ends in code, but not in a space, is scanned up to its newline. -/
theorem exists_scans_afterCode (hblank : isBlankLine content = false)
    (hspace : content.getLast? ≠ some ' ') (hcode : st.region.after content = .code)
    (hends : (scan style aligned (.start st.inString) { st with blanks := 0 }
      (content ++ ['\n'])).error? = none) :
    ∃ found last final, Scans style aligned (.start st.inString) { st with blanks := 0 } content
      found last final ∧ AfterCode last ∧ last.index = content.length := by
  have hregion : (Cursor.start st.inString).region.after content = .code := by
    rwa [Cursor.region_start]
  obtain ⟨found, last, final, h⟩ := exists_scans hends (by simp only [hregion]; simp)
  have hprev : last.prev ≠ some ' ' := by
    rw [h.prev_eq]
    simpa [Cursor.start] using hspace
  refine ⟨found, last, final, h, ⟨fun hmode ↦ ?_, ?_, ?_, hprev⟩, ?_⟩
  · -- Only spaces come before the first character that is none.
    have hspaces := h.eq_space hmode
    have hall : isBlankLine content = true := by simpa [isBlankLine] using hspaces
    rw [hall] at hblank
    cases hblank
  · exact Cursor.mode_ne_string (by rw [h.region_eq, hregion])
  · refine Bool.eq_false_iff.2 fun hgap ↦ hprev ?_
    exact h.prev_of_gap hgap
  · rw [h.index_eq]
    exact Nat.zero_add _

/-- What a space finds at the end of a piece of code is what a newline finds there. -/
theorem findings_of_blank (operator? : Option Token) :
    (codeChar style cur operator? ' ' st).findings =
      (codeChar style cur operator? '\n' st).findings := by
  rcases operator? with - | token
  · rfl
  · show (finishOperator style token cur.index true st).1 =
      (finishOperator style token cur.index false st).1
    rw [finishOperator_followed]

/-- A space leaves another state than a newline only behind an operator that does not fix its
body. -/
theorem state_of_space_of_fixes (hfixes : ∀ token, cur.mode = .operator token →
      fixesBody style token.text token.start = true) :
    (codeChar style cur cur.mode.operator? ' ' st).state =
      (codeChar style cur cur.mode.operator? '\n' st).state := by
  rcases hmode : cur.mode with - | - | token | -
  · rfl
  · rfl
  · show (finishOperator style token cur.index true st).2 =
      (finishOperator style token cur.index false st).2
    rw [finishOperator_followed, hfixes token hmode]
    rfl
  · rfl

theorem state_of_space {token : Token} (hmode : cur.mode = .operator token)
    (hfixes : fixesBody style token.text token.start = false) :
    (codeChar style cur cur.mode.operator? ' ' st).state =
      (codeChar style cur cur.mode.operator? '\n' st).state.setExpected (cur.index + 1) := by
  rw [hmode]
  show (finishOperator style token cur.index true st).2 =
    (finishOperator style token cur.index false st).2.setExpected (cur.index + 1)
  rw [finishOperator_followed, hfixes]
  rfl

theorem Outcome.count_setExpected (column : Int) (o : Outcome) :
    { o with state := o.state.setExpected column }.count =
      { o.count with state := o.count.state.setExpected column } := by
  rcases o with ⟨⟨line, flagged, blanks, inString, quotedAlign, base, _ | _, imports⟩, _, _⟩ <;> rfl

/-- **What a comment at the end of a line changes is the column of the innermost form**, if the line
ends in an operator whose contents are aligned with an operand on its line, and nothing else. -/
theorem lintLine_trailingComment (hblank : isBlankLine content = false)
    (hspace : content.getLast? ≠ some ' ') (hcode : st.region.after content = .code)
    (hends : (lintLine style st content).error? = none) (htab : '\t' ∉ text)
    (hspace' : (content ++ trailingComment text).getLast? ≠ some ' ')
    (hlength : (content ++ trailingComment text).length ≤ style.maxColumns)
    (hmark : style.aligns (content ++ trailingComment text) = style.aligns content) :
    (¬EndsInOperator style content →
      lintLine style st (content ++ trailingComment text) = lintLine style st content) ∧
    (EndsInOperator style content →
      lintLine style st (content ++ trailingComment text) =
        { lintLine style st content with
          state := (lintLine style st content).state.setExpected (content.length + 1) }) := by
  have hne : content ≠ [] := by rintro rfl; cases hblank
  have hregion : st.region.after content ≠ .comment := by simp [hcode]
  have hblank' : isBlankLine (content ++ trailingComment text) = false := by
    rw [isBlankLine, List.all_append, ← isBlankLine, hblank, Bool.false_and]
  have hextent : extentFindings style content = [] :=
    extentFindings_eq_nil (Nat.le_trans (by simp) hlength) hspace
  have hextent' := extentFindings_eq_nil hlength hspace'
  rw [lintLine_of_region_ne hblank (List.prefix_refl content) hne hregion, scanLine, hextent]
    at hends ⊢
  rw [lintLine_of_region_ne hblank' (List.prefix_append content _) hne hregion, scanLine, hextent',
    hmark, List.append_assoc]
  obtain ⟨found, last, final, h, hafter, hindex⟩ :=
    exists_scans_afterCode hblank hspace hcode hends
  rw [h.scan_append, h.scan_append, scan_newline hafter, scan_trailingComment hafter htab,
    findings_of_blank, endsInOperator_iff h hcode]
  constructor
  · intro hends
    rw [state_of_space_of_fixes]
    intro token hmode
    exact Bool.of_not_eq_false fun hfixes ↦ hends ⟨token, hmode, hfixes⟩
  · rintro ⟨token, hmode, hfixes⟩
    rw [state_of_space hmode hfixes, hindex]
    exact Outcome.count_setExpected (content.length + 1)
      (.after [] (.after found
        { state := (codeChar style last last.mode.operator? '\n' final).state
          findings := (codeChar style last last.mode.operator? '\n' final).findings }))

/-- The line ends in the operator of a form that aligns its clauses with the first of them, when
that stands on the operator's line. -/
theorem lintLine_trailingComment_of_cond :
    let content := "(f (cond".toList
    let text := "no clause yet".toList
    (isBlankLine content = false ∧ content.getLast? ≠ some ' ' ∧
        (State.region {}).after content = .code ∧
        (lintLine .standard {} content).error? = none ∧ '\t' ∉ text ∧
        (content ++ trailingComment text).getLast? ≠ some ' ' ∧
        (content ++ trailingComment text).length ≤ Style.standard.maxColumns ∧
        Style.standard.aligns (content ++ trailingComment text) = Style.standard.aligns content) ∧
      EndsInOperator .standard content ∧
      lintLine .standard {} (content ++ trailingComment text) =
        { lintLine .standard {} content with
          state := (lintLine .standard {} content).state.setExpected 9 } := by
  have hends : EndsInOperator .standard "(f (cond".toList :=
    ⟨"(f ".toList, '(', "cond".toList, rfl, rfl, by simp [IsPlain], by decide⟩
  have h := @lintLine_trailingComment .standard {} "(f (cond".toList "no clause yet".toList
    (by decide) (by decide) (by decide) (by decide +kernel) (by decide) (by decide) (by decide)
    (by decide)
  exact ⟨by decide +kernel, hends, h.2 hends⟩

/-- A comment behind an operator moves the column at which the operands are expected. -/
theorem lintLine_trailingComment_of_operator :
    let content := "(foo".toList
    let text := "c".toList
    (Reachable .standard {} ∧ isBlankLine content = false ∧ content.getLast? ≠ some ' ' ∧
        (State.region {}).after content = .code ∧
        (lintLine .standard {} content).error? = none ∧ '\t' ∉ text ∧
        (content ++ trailingComment text).getLast? ≠ some ' ' ∧
        (content ++ trailingComment text).length ≤ Style.standard.maxColumns ∧
        Style.standard.aligns (content ++ trailingComment text) = true) ∧
      (lintLine .standard {} content).state.expected = 1 ∧
      (lintLine .standard {} (content ++ trailingComment text)).state.expected = 5 :=
  ⟨⟨.start, by decide +kernel⟩, by decide +kernel, by decide +kernel⟩

end SchemeStyle
