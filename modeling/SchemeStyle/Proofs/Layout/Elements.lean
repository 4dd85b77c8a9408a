import SchemeStyle.Proofs.Layout.Form
import SchemeStyle.Proofs.Layout.Reading

/-!
# Reading the elements of a list

What the scan meets in a tree, one character or one token at a time: atoms, strings, delimiters, and
the breaks between elements. Each is read without a finding from a cursor that is `Ready` for an
element, or `Settled` after one, in a calm state. The one place where a break does more than end a
word is the first one of a list, which applies the operator: it moves the expected column to where
the convention puts the body (`leads_of_operator`).
-/

namespace SchemeStyle

variable {style : Style} {cur : Cursor} {st : State} {c : Char}

/-! ### Single characters -/

/-- A character of code is read here with no check for what lies before it. -/
structure Quiet (cur : Cursor) (st : State) : Prop where
  gap : cur.gap = false
  mode : cur.mode ≠ .string
  indent : cur.mode = .indent → st.expected = cur.index

theorem Quiet.step_eq (h : Quiet cur st) (hspace : cur.mode = .indent → c ≠ ' ') (htab : c ≠ '\t')
    (aligned : Bool) :
    step style aligned cur c st = codeChar style cur cur.mode.operator? c st := by
  rcases hmode : cur.mode with - | - | token | -
  · have halign := alignLine_of_eq (h.indent hmode).symm
    cases aligned <;>
      simp [step, hmode, hspace hmode, htab, halign, Mode.operator?, Step.after, findingIf]
  · simp [step, hmode, h.gap, htab, Mode.operator?, Step.after, findingIf]
  · simp [step, hmode, h.gap, htab, Mode.operator?, Step.after, findingIf]
  · exact absurd hmode h.mode

/-- A single space is no gap. -/
theorem gapAfter_eq_false (hgap : cur.gap = false) (hspace : c = ' ' → cur.prev ≠ some ' ') :
    cur.gapAfter c = false := by
  have hc : (c == ' ' && cur.prev == some ' ') = false := by
    by_cases hc : c = ' '
    · simp [hspace hc]
    · simp [hc]
  rw [Cursor.gapAfter]
  split
  · exact hgap
  · exact hgap
  · simp [hc, hgap]
  · simp [hc, hgap]

/-- The mode that a plain character leads to. -/
def Mode.read (mode : Mode) (c : Char) : Mode :=
  match mode with
  | .operator token => .operator (token.push c)
  | _ => .code

/-- The modes in the midst of code. -/
def Mode.IsCode : Mode → Prop
  | .code | .operator _ => True
  | .indent | .string => False

theorem Mode.isCode_read (mode : Mode) (c : Char) : (mode.read c).IsCode := by
  cases mode <;> exact trivial

theorem Mode.IsCode.ne_string {mode : Mode} (h : mode.IsCode) : mode ≠ .string := by
  rintro rfl
  exact h

theorem Mode.IsCode.ne_indent {mode : Mode} (h : mode.IsCode) : mode ≠ .indent := by
  rintro rfl
  exact h

theorem codeChar_of_plain (h : IsPlain c) :
    codeChar style cur cur.mode.operator? c st =
      { state := st, next := .go (cur.mode.read c) } := by
  simp only [IsPlain, List.mem_cons, List.not_mem_nil, or_false, not_or] at h
  obtain ⟨hquote, hsemicolon, hround, hsquare, hround', hsquare', hspace, hnewline⟩ := h
  unfold codeChar
  rw [if_neg hquote, if_neg hsemicolon, if_neg (by simp [hround, hsquare]),
    if_neg (by simp [hround', hsquare']), if_neg (by simp [hspace, hnewline])]
  cases cur.mode <;> rfl

/-- A form opens right after a space or another opening delimiter. -/
theorem openForm_eq (room : st.depth + 1 < style.maxDepth)
    (prev : ∀ p, cur.prev = some p → p ∈ [' ', '(', '[']) (quotedAlign : st.quotedAlign = none) :
    openForm style cur c st =
      { state := st.inside (cur.index + 1 : Nat)
        next := .go (.operator ⟨cur.index + 1, []⟩) } := by
  have hpush : st.push style.maxDepth (cur.index + 1 : Nat) =
      .ok (st.inside (cur.index + 1 : Nat)) :=
    State.push_eq_ok_iff.2 ⟨room, rfl⟩
  unfold openForm
  rw [← Int.natCast_succ, hpush]
  rcases hprev : cur.prev with - | p
  · simp [quotedAlign, findingIf, State.inside]
  · have hp := prev p hprev
    simp only [List.mem_cons, List.not_mem_nil, or_false] at hp
    rcases hp with rfl | rfl | rfl <;>
      simp [quotedAlign, findingIf, State.inside, openerNeighbours]

/-- Outside of imports there are no names to check. -/
theorem nameFindings_eq_nil (imports : st.imports = .outside) : nameFindings cur st = [] := by
  rw [nameFindings, imports]

theorem rememberName_eq_self (imports : st.imports = .outside) : rememberName cur st = st := by
  have hlast : st.imports.setLastName cur.word.text = st.imports := by
    rw [imports]
    rfl
  rw [rememberName, hlast]
  split_ifs <;> rfl

/-- A form closes right after its last element. -/
theorem closeForm_eq {column : Int} (imports : st.imports = .outside) (prev : cur.prev ≠ some ' ') :
    closeForm cur c (st.inside column) = { state := st, next := .go .code } := by
  have hpop : (st.inside column).pop = .ok st := rfl
  have hall : (st.inside column).allWrappers = false := rfl
  have hnames : nameFindings cur (st.inside column) = [] := nameFindings_eq_nil imports
  have hleave : (st.leaveImports (st.inside column).depth).2 = st := by
    rw [State.leaveImports, imports, ImportContext.leave]
    simp [ImportContext.depths, ← imports]
  rw [closeForm, hpop, hall, hnames]
  simp [prev, findingIf, hleave]

/-- Outside of imports the end of a word means nothing. -/
theorem codeChar_of_break (mode : cur.mode.operator? = none) (imports : st.imports = .outside)
    (hc : c = ' ' ∨ c = '\n') :
    codeChar style cur cur.mode.operator? c st = { state := st, next := .go .code } := by
  unfold codeChar
  rcases hc with rfl | rfl <;>
    simp [mode, nameFindings_eq_nil imports, rememberName_eq_self imports]

/-- A break after an operator applies it. -/
theorem codeChar_of_operator_break (token : Token) (hc : c = ' ' ∨ c = '\n') :
    codeChar style cur (some token) c st =
      { findings := (finishOperator style token cur.index (c == ' ') st).1
        state := (finishOperator style token cur.index (c == ' ') st).2
        next := .go .code } := by
  rcases hc with rfl | rfl <;> rfl

/-- Outside of import forms an operator that opens none means nothing to the imports. -/
theorem importOperator_of_outside {token : Token}
    (ordinary : style.importBlock token.text token.start ≠ .section)
    (imports : st.imports = .outside) : importOperator style token st = ([], st) := by
  rw [importOperator, imports]
  exact if_neg ordinary

/-- The end of an operator that opens no import form and is no wrapper sets a column. -/
theorem finishOperator_of_ordinary {token : Token}
    (wrapper : (style.rules.lookup token.text token.start).wrapper = false)
    (ordinary : style.importBlock token.text token.start ≠ .section)
    (imports : st.imports = .outside) (index : Nat) (followed : Bool) :
    finishOperator style token index followed st =
      ([], match bodyColumn? (style.rules.lookup token.text token.start) token index followed with
        | some column => st.setExpected column
        | none => st) := by
  dsimp only [finishOperator]
  rw [wrapper]
  rcases bodyColumn? (style.rules.lookup token.text token.start) token index followed with
    - | column
  · exact importOperator_of_outside ordinary imports
  · exact importOperator_of_outside ordinary ((State.imports_setExpected column st).trans imports)

/-- The spaces that a line starts with are read. -/
theorem reads_spaces (style : Style) (st : State) (k : Nat) :
    ∃ last, Reads style (.start false) st (List.replicate k ' ') last st ∧
      last.mode = .indent ∧ last.gap = false ∧ last.index = k := by
  induction k with
  | zero => exact ⟨.start false, .nil _ st, rfl, rfl, rfl⟩
  | succ k ih =>
    obtain ⟨last, hread, hmode, hgap, hindex⟩ := ih
    have hspace : ∀ aligned, step style aligned last ' ' st =
        { state := st, next := .go .indent } := by
      intro aligned
      rw [step, hmode]
      rfl
    rw [List.replicate_succ']
    have hnext := hread.append (.char (by decide) hspace (.nil _ st))
    refine ⟨last.advance .indent ' ', hnext, rfl, ?_, ?_⟩
    · rw [Cursor.advance, Cursor.gapAfter, hmode]
      exact hgap
    · rw [Cursor.advance, hindex]

/-! ### Atoms and strings -/

/-- The cursor stands where an element may start. -/
structure Ready (column : Nat) (cur : Cursor) (st : State) : Prop where
  quiet : Quiet cur st
  index : cur.index = column
  prev : ∀ p, cur.prev = some p → p ∈ [' ', '(', '[']

/-- The cursor stands right after an element, in the mode. -/
structure Settled (mode : Mode) (cur : Cursor) : Prop where
  gap : cur.gap = false
  code : mode.IsCode
  mode : cur.mode = mode
  prev : ∃ p, cur.prev = some p ∧ p ≠ ' '

theorem Settled.of_advance {mode : Mode} (hgap : cur.gap = false) (hc : c ≠ ' ')
    (code : mode.IsCode) : Settled mode (cur.advance mode c) where
  gap := gapAfter_eq_false hgap fun hspace ↦ absurd hspace hc
  code := code
  mode := rfl
  prev := ⟨c, rfl, hc⟩

theorem Settled.ne_indent {mode : Mode} (h : Settled mode cur) : cur.mode ≠ .indent :=
  h.mode ▸ h.code.ne_indent

theorem Settled.quiet {mode : Mode} (h : Settled mode cur) : Quiet cur st where
  gap := h.gap
  mode := h.mode ▸ h.code.ne_string
  indent hmode := absurd hmode h.ne_indent

/-- Plain characters are read. -/
theorem reads_plain {chars : List Char} (hchars : ∀ c ∈ chars, IsPlain c ∧ c ≠ '\t')
    (h : Quiet cur st) :
    ∃ last, Reads style cur st chars last st ∧ last.gap = false ∧
      last.mode = chars.foldl Mode.read cur.mode := by
  induction chars generalizing cur with
  | nil => exact ⟨cur, .nil cur st, h.gap, rfl⟩
  | cons c chars ih =>
    obtain ⟨hplain, htab⟩ := hchars c List.mem_cons_self
    have hspace : c ≠ ' ' := by rintro rfl; exact hplain (by decide)
    have hnewline : c ≠ '\n' := by rintro rfl; exact hplain (by decide)
    have hnext := Settled.of_advance h.gap hspace (cur.mode.isCode_read c)
    obtain ⟨last, hread, hlast⟩ := ih (fun d hd ↦ hchars d (List.mem_cons_of_mem c hd)) hnext.quiet
    refine ⟨last, .char hnewline (fun aligned ↦ ?_) hread, hlast⟩
    rw [h.step_eq (fun _ ↦ hspace) htab, codeChar_of_plain hplain]

/-- Inside a string everything is read but the quote that ends it. -/
theorem step_of_string (hmode : cur.mode = .string) (hquote : c = '"' → cur.escaped)
    (htab : c ≠ '\t') (aligned : Bool) :
    step style aligned cur c st = { state := st, next := .go .string } := by
  have hinside : ¬(c = '"' ∧ ¬cur.escaped) := fun h ↦ h.2 (hquote h.1)
  rw [step, hmode]
  simp only [if_neg hinside]
  simp [htab, findingIf, Step.after]

/-- The cursor stands in a string, where no backslash takes the next character's meaning. -/
structure InString (cur : Cursor) : Prop where
  mode : cur.mode = .string
  escaped : cur.escaped = false
  gap : cur.gap = false

namespace Layout

theorem reads_part (part : StringPart) (h : InString cur) :
    ∃ last, Reads style cur st part.render last st ∧ InString last := by
  have hgap : ∀ {cur : Cursor} {c : Char}, cur.mode = .string → cur.gap = false →
      (cur.advance .string c).gap = false := by
    intro cur c hmode hgap
    rw [Cursor.advance, Cursor.gapAfter, hmode]
    exact hgap
  cases part with
  | plain c hc =>
    simp only [List.mem_cons, List.not_mem_nil, or_false, not_or] at hc
    obtain ⟨hquote, hbackslash, hnewline, htab⟩ := hc
    have hinside : ∀ aligned, step style aligned cur c st = { state := st, next := .go .string } :=
      step_of_string h.mode (fun hc ↦ absurd hc hquote) htab
    refine ⟨cur.advance .string c, .char hnewline hinside (.nil _ _), rfl, ?_, hgap h.mode h.gap⟩
    simp [Cursor.advance, hbackslash]
  | escaped c hc =>
    simp only [List.mem_cons, List.not_mem_nil, or_false, not_or] at hc
    obtain ⟨hnewline, htab⟩ := hc
    have hescaped : (cur.advance .string '\\').escaped = true := by
      simp [Cursor.advance, h.escaped]
    -- The character may be a quote: it follows the backslash, which keeps the string open.
    have hinside : ∀ aligned, step style aligned (cur.advance .string '\\') c st =
        { state := st, next := .go .string } :=
      step_of_string rfl (fun _ ↦ hescaped) htab
    refine ⟨(cur.advance .string '\\').advance .string c,
      .char (by decide) (step_of_string h.mode (by simp) (by decide))
        (.char hnewline hinside (.nil _ _)), rfl, ?_, hgap rfl (hgap h.mode h.gap)⟩
    show (c == '\\' && !(cur.advance .string '\\').escaped) = false
    rw [hescaped, Bool.not_true, Bool.and_false]

theorem reads_parts {parts : List StringPart} (h : InString cur) :
    ∃ last, Reads style cur st (parts.flatMap StringPart.render) last st ∧ InString last := by
  induction parts generalizing cur with
  | nil => exact ⟨cur, .nil cur st, h⟩
  | cons part parts ih =>
    obtain ⟨mid, hpart, hmid⟩ := reads_part part h
    obtain ⟨last, hparts, hlast⟩ := ih hmid
    exact ⟨last, hpart.append hparts, hlast⟩

theorem reads_atom (a : Atom) (h : Quiet cur st) :
    ∃ last, Reads style cur st a.chars last st ∧
      Settled (a.chars.foldl Mode.read cur.mode) last := by
  have hplain : ∀ c ∈ a.chars, IsPlain c ∧ c ≠ '\t' := by
    intro c hc
    have hc := a.plain c hc
    simp only [List.mem_cons, List.not_mem_nil, or_false, not_or] at hc
    simp [IsPlain, hc]
  have hnewline : '\n' ∉ a.chars := fun hm ↦ (hplain _ hm).1 (by decide)
  obtain ⟨last, hread, hgap, hmode⟩ := reads_plain hplain h
  obtain ⟨init, p, hchars⟩ := (List.eq_nil_or_concat a.chars).resolve_left a.ne_nil
  rw [List.concat_eq_append] at hchars
  refine ⟨last, hread, hgap, ?_, hmode, p, ?_, ?_⟩
  · rw [hchars, List.foldl_append]
    exact Mode.isCode_read _ p
  · rw [hread.prev_eq hnewline, hchars, List.getLast?_concat, Option.some_or]
  · rintro rfl
    exact (hplain ' ' (by simp [hchars])).1 (by decide)

theorem reads_literal (l : Literal) (h : Quiet cur st) (calm : st.Calm) :
    ∃ last, Reads style cur st l.render last st ∧ Settled .code last := by
  have hopen : ∀ aligned, step style aligned cur '"' st =
      { state := { st with inString := true }, next := .go .string } := by
    intro aligned
    rw [h.step_eq (fun _ ↦ by decide) (by decide)]
    rfl
  have hinside : InString (cur.advance .string '"') :=
    ⟨rfl, rfl, gapAfter_eq_false h.gap fun hspace ↦ absurd hspace (by decide)⟩
  obtain ⟨mid, hparts, hmid⟩ := reads_parts hinside
  have hclose : ∀ aligned, step style aligned mid '"' { st with inString := true } =
      { state := st, next := .go .code } := by
    intro aligned
    have hst : st = { st with inString := false } := by rw [← calm.inString]
    rw [step, hmid.mode]
    simp [hmid.escaped, findingIf, Step.after, ← hst]
  have hend : Reads style mid { st with inString := true } ['"'] (mid.advance .code '"') st :=
    .char (by decide) hclose (.nil _ _)
  exact ⟨mid.advance .code '"', .char (by decide) hopen (hparts.append hend),
    .of_advance hmid.gap (by decide) trivial⟩

/-! ### Delimiters -/

/-- Where an element may start, a list may, and its first element right after. -/
theorem reads_opening (bracket : Bracket) {column : Nat} (h : Ready column cur st)
    (calm : st.Calm) (room : st.depth + 1 < style.maxDepth) :
    ∃ last, Reads style cur st [bracket.opening] last (st.inside (column + 1 : Nat)) ∧
      Ready (column + 1) last (st.inside (column + 1 : Nat)) ∧
      Settled (.operator ⟨column + 1, []⟩) last := by
  have hopening : bracket.opening = '(' ∨ bracket.opening = '[' := by cases bracket <;> decide
  obtain ⟨hspace, htab, hnewline⟩ : bracket.opening ≠ ' ' ∧ bracket.opening ≠ '\t' ∧
      bracket.opening ≠ '\n' := by
    cases bracket <;> decide
  have hopen : codeChar style cur cur.mode.operator? bracket.opening st =
      openForm style cur bracket.opening st := by
    cases bracket <;> rfl
  have hsettled : Settled (.operator ⟨column + 1, []⟩)
      (cur.advance (.operator ⟨column + 1, []⟩) bracket.opening) :=
    .of_advance h.quiet.gap hspace trivial
  refine ⟨_, .char hnewline (fun aligned ↦ ?_) (.nil _ _), ⟨hsettled.quiet, ?_, ?_⟩,
    hsettled⟩
  · rw [h.quiet.step_eq (fun _ ↦ hspace) htab, hopen, openForm_eq room h.prev calm.quotedAlign,
      h.index]
  · show cur.index + 1 = column + 1
    rw [h.index]
  · rintro p hp
    obtain rfl := Option.some.inj hp
    rcases hopening with hc | hc <;> simp [hc]

/-- After its last element a list may be closed. -/
theorem reads_closing (bracket : Bracket) {mode : Mode} {expected : Int} (h : Settled mode cur)
    (calm : st.Calm) :
    ∃ last, Reads style cur (st.inside expected) [bracket.closing] last st ∧
      Settled .code last := by
  obtain ⟨p, hprev, hp⟩ := h.prev
  obtain ⟨hspace, htab, hnewline⟩ : bracket.closing ≠ ' ' ∧ bracket.closing ≠ '\t' ∧
      bracket.closing ≠ '\n' := by
    cases bracket <;> decide
  have hclose : codeChar style cur cur.mode.operator? bracket.closing (st.inside expected) =
      closeForm cur bracket.closing (st.inside expected) := by
    cases bracket <;> rfl
  have hprev : cur.prev ≠ some ' ' := by simp [hprev, hp]
  refine ⟨cur.advance .code bracket.closing, .char hnewline (fun aligned ↦ ?_) (.nil _ _),
    .of_advance h.gap hspace trivial⟩
  rw [h.quiet.step_eq (fun _ ↦ hspace) htab, hclose, closeForm_eq calm.imports hprev]

/-! ### Breaks -/

/-- The character that starts a break. -/
def Break.char : Break → Char
  | space => ' '
  | newline => '\n'

/-- A break that starts here sets the column of the further lines to `body`. -/
def Leads (style : Style) (cur : Cursor) (st : State) (gap : Break) (body : Nat) : Prop :=
  ∀ aligned, step style aligned cur gap.char st =
    { state := st.setExpected body, next := .go .code }

theorem Break.char_eq (gap : Break) : gap.char = ' ' ∨ gap.char = '\n' := by
  cases gap
  · exact .inl rfl
  · exact .inr rfl

theorem Break.char_ne_tab (gap : Break) : gap.char ≠ '\t' := by
  cases gap <;> decide

/-- After an element that is no operator a break changes nothing. -/
theorem leads_of_code {body : Nat} (h : Settled .code cur) (calm : st.Calm) (gap : Break) :
    Leads style cur (st.inside body) gap body := by
  intro aligned
  have hquiet : Quiet cur (st.inside body) := h.quiet
  have hmode : cur.mode.operator? = none := by rw [h.mode]; rfl
  have hindent : cur.mode = .indent → gap.char ≠ ' ' := fun hmode ↦ absurd hmode h.ne_indent
  rw [hquiet.step_eq hindent gap.char_ne_tab,
    codeChar_of_break hmode (calm.inside body).imports gap.char_eq]
  rfl

/-- In a tree that may stand where it does, the operator of a list that opens at the column is no
wrapper, and opens no section: inside another list nothing is. -/
theorem ordinary_operator {a : Atom} {column : Nat} {bracket : Bracket} {tail : Tail}
    (h : column = 0 → Form.IsOrdinary style (.list bracket (.atom a) tail)) :
    (style.rules.lookup a.text (column + 1 : Nat)).wrapper = false ∧
      style.importBlock a.text (column + 1 : Nat) ≠ .section := by
  by_cases hcolumn : column = 0
  · obtain ⟨hwrapper, hsection⟩ := h hcolumn
    subst hcolumn
    exact ⟨hwrapper, by simp [Style.importBlock, hsection]⟩
  · have hne : ((column + 1 : Nat) : Int) ≠ 1 := by omega
    refine ⟨?_, ?_⟩
    · rw [RuleTable.lookup, if_neg hne]
      rfl
    · rw [Style.importBlock, if_neg fun h ↦ hne h.1]
      split_ifs <;> simp

/-- The column that an operator decides on, or else its own, is the one that the convention asks
for. -/
theorem bodyColumn?_getD (style : Style) (a : Atom) (column : Nat) (gap : Break) (item : Form)
    (rest : Tail) :
    (bodyColumn? (style.rules.lookup a.text (column + 1 : Nat)) ⟨column + 1, a.chars.reverse⟩
      (column + 1 + a.chars.length) (gap.char == ' ')).getD (column + 1) =
      bodyColumn style column (.atom a) (.cons gap item rest) := by
  cases gap with
  | space =>
    rw [bodyColumn, bodyColumn?, Break.char, if_pos (beq_self_eq_true ' ')]
    split_ifs
    · rfl
    · show column + 1 + a.chars.length + 1 = column + a.chars.length + 2
      omega
  | newline =>
    rw [bodyColumn, bodyColumn?, Break.char, if_neg (by decide)]
    split_ifs <;> rfl

/-- The end of an operator moves the column of its form from the operator itself to the one that the
operator decides on. -/
theorem finishOperator_inside {a : Atom} {column : Nat}
    (ordinary : (style.rules.lookup a.text (column + 1 : Nat)).wrapper = false ∧
      style.importBlock a.text (column + 1 : Nat) ≠ .section)
    (calm : st.Calm) (index : Nat) (followed : Bool) :
    finishOperator style ⟨column + 1, a.chars.reverse⟩ index followed
        (st.inside (column + 1 : Nat)) =
      ([], st.inside ((bodyColumn? (style.rules.lookup a.text (column + 1 : Nat))
        ⟨column + 1, a.chars.reverse⟩ index followed).getD (column + 1) : Nat)) := by
  have htext : (Token.mk (column + 1) a.chars.reverse).text = a.text := by
    rw [Token.text, List.reverse_reverse, Atom.text]
  have hwrapper : (style.rules.lookup (Token.mk (column + 1) a.chars.reverse).text
      (column + 1 : Nat)).wrapper = false := by
    rw [htext]
    exact ordinary.1
  have hsection : style.importBlock (Token.mk (column + 1) a.chars.reverse).text
      (column + 1 : Nat) ≠ .section := by
    rw [htext]
    exact ordinary.2
  rw [finishOperator_of_ordinary hwrapper hsection (calm.inside _).imports, htext]
  rcases bodyColumn? (style.rules.lookup a.text (column + 1 : Nat)) _ index followed with - | body
  · rfl
  · rfl

/-- **The break after an operator sets the column that the convention asks for.** -/
theorem leads_of_operator {a : Atom} {column : Nat}
    (ordinary : (style.rules.lookup a.text (column + 1 : Nat)).wrapper = false ∧
      style.importBlock a.text (column + 1 : Nat) ≠ .section)
    (h : Settled (.operator ⟨column + 1, a.chars.reverse⟩) cur)
    (hindex : cur.index = column + 1 + a.chars.length) (calm : st.Calm) (gap : Break)
    (item : Form) (rest : Tail) :
    Leads style cur (st.inside (column + 1 : Nat)) gap
      (bodyColumn style column (.atom a) (.cons gap item rest)) := by
  intro aligned
  have hquiet : Quiet cur (st.inside (column + 1 : Nat)) := h.quiet
  have hindent : cur.mode = .indent → gap.char ≠ ' ' := fun hmode ↦ absurd hmode h.ne_indent
  rw [hquiet.step_eq hindent gap.char_ne_tab, h.mode, Mode.operator?,
    codeChar_of_operator_break _ gap.char_eq, finishOperator_inside ordinary calm, hindex,
    bodyColumn?_getD style a column gap item rest]
  rfl

/-- After a break the next element may start, where it is rendered. -/
theorem reads_break {gap : Break} {column body : Nat} {mode : Mode} {expected : Int}
    (h : Settled mode cur) (hindex : cur.index = column) (calm : st.Calm)
    (lead : Leads style cur (st.inside expected) gap body) :
    ∃ last line, Reads style cur (st.inside expected) (gap.render body) last
        ((st.atLine line).inside body) ∧
      Ready (columnAfter column (gap.render body)) last ((st.atLine line).inside body) ∧
      last.mode.operator? = none := by
  obtain ⟨p, hprev, hp⟩ := h.prev
  cases gap with
  | space =>
    have hsettled : (cur.advance .code ' ').gap = false :=
      gapAfter_eq_false h.gap fun _ ↦ by simp [hprev, hp]
    refine ⟨cur.advance .code ' ', st.line, .char (by decide) lead (.nil _ _), ⟨⟨hsettled, ?_, ?_⟩,
      ?_, ?_⟩, rfl⟩
    · simp [Cursor.advance]
    · simp [Cursor.advance]
    · show cur.index + 1 = column + 1
      rw [hindex]
    · simp [Cursor.advance]
  | newline =>
    obtain ⟨last, hspaces, hmode, hgap, hcolumn⟩ := reads_spaces style
      ((st.atLine (st.line + 1)).inside body) body
    refine ⟨last, st.line + 1, .newline hprev hp lead (calm.inside body) hspaces,
      ⟨⟨hgap, by simp [hmode], fun _ ↦ ?_⟩, ?_, ?_⟩, by rw [hmode]; rfl⟩
    · rw [hcolumn]
      rfl
    · rw [hspaces.index_eq]
      rfl
    · intro q hq
      rw [hspaces.prev_eq (by simp)] at hq
      have hlast : (List.replicate body ' ').getLast? = some q := by simpa [Cursor.start] using hq
      rw [List.eq_of_mem_replicate (List.mem_of_getLast? hlast)]
      decide

end Layout

end SchemeStyle
