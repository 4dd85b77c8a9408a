import SchemeStyle.Proofs.Imports.Block
import SchemeStyle.Proofs.Imports.Reports
import SchemeStyle.Proofs.Layout.Elements

/-!
# Reading the parts of a block of imports

What the characters and the words of a block do to the imports. Names are compared and remembered
where they end, at a separator or at the delimiter that closes their declaration; the id of a
declaration is compared at the separator behind it, which opens the declaration too. A part starts
where the cursor is `Fresh`, and leaves the cursor `Behind` it.
-/

namespace SchemeStyle

variable {style : Style} {file : String} {cur : Cursor} {v : View} {c : Char} {mode : Mode}

/-! ### Characters -/

theorem ne_newline_of_plain (hc : IsPlain c) : c ≠ '\n' := by
  rintro rfl
  exact hc (by decide)

theorem ne_space_of_plain (hc : IsPlain c) : c ≠ ' ' := by
  rintro rfl
  exact hc (by decide)

theorem makes_plain (hmode : cur.mode ≠ .string) (hc : IsPlain c) :
    Makes style file cur v c [] (cur.mode.read c) v := by
  refine makes_of_codeChar hmode (fun _ ↦ ne_space_of_plain hc) fun st hview ↦ ?_
  rw [codeChar_of_plain hc]
  exact ⟨rfl, hview, rfl⟩

theorem makes_space_of_indent (hmode : cur.mode = .indent) :
    Makes style file cur v ' ' [] .indent v := by
  intro st aligned hview
  rw [step, hmode]
  exact ⟨rfl, hview, rfl⟩

/-- An opening delimiter is no matter of imports. What it opens is known by its operator. -/
theorem makes_opening (hmode : cur.mode ≠ .string) (room : v.depth + 1 < style.maxDepth) :
    Makes style file cur v '(' [] (.operator ⟨cur.index + 1, []⟩)
      { v with depth := v.depth + 1 } := by
  refine makes_of_codeChar hmode (fun _ ↦ by decide) fun st hview ↦ ?_
  subst hview
  have hpush : st.push style.maxDepth (cur.index + 1) = .ok _ :=
    State.push_eq_ok_iff.2 ⟨room, rfl⟩
  show (openForm style cur '(' st).Makes file st.line _ _ _
  unfold openForm
  rw [hpush]
  exact ⟨rfl, rfl, importReports_findingIf rfl⟩

/-- At a closing delimiter a name may end, and the innermost import form does if it began at the
depth of the form that is closed. -/
theorem makes_closing {depth : Nat} {reports : List Diagnostic} (hmode : cur.mode ≠ .string)
    (hdepth : v.depth = depth + 1)
    (hnames : ∀ st : State, st.view = v →
      importReports file v.line (nameFindings cur st) = reports) :
    Makes style file cur v ')' reports .code
      { v with depth := depth, imports := (v.imports.leave (depth + 1)).2 } := by
  refine makes_of_codeChar hmode (fun _ ↦ by decide) fun st hview ↦ ?_
  have hframes : st.frames.length = depth + 1 := (congrArg View.depth hview).trans hdepth
  have hreports := hnames st hview
  subst hview
  obtain ⟨frame, outer, hcons⟩ := List.exists_cons_of_length_eq_add_one hframes
  have hpop : st.pop = .ok { st with frames := outer } := by rw [State.pop, hcons]
  show (closeForm cur ')' st).Makes file st.line _ _ _
  rw [closeForm, hpop]
  refine ⟨rfl, ?_, ?_⟩
  · have houter : outer.length = depth := by simpa [hcons] using hframes
    simp [State.view, State.leaveImports, State.depth, houter, hframes]
  · rw [importReports_append, importReports_append, importReports_findingIf rfl,
      importReports_findingIf rfl]
    exact hreports

/-- At a space or a newline behind an operator its form may turn out to be one of the import
forms. -/
theorem makes_operatorEnd {token : Token} {imports : ImportContext} {reports : List Diagnostic}
    (hmode : cur.mode = .operator token) (hc : c = ' ' ∨ c = '\n')
    (h : ∀ st : State, st.view = v → (importOperator style token st).2.imports = imports ∧
      importReports file v.line (importOperator style token st).1 = reports) :
    Makes style file cur v c reports .code { v with imports := imports } := by
  refine makes_of_codeChar (by simp [hmode]) (by simp [hmode]) fun st hview ↦ ?_
  obtain ⟨hopened, hreports⟩ := h st hview
  rw [hmode, Mode.operator?, codeChar_of_operator_break token hc]
  -- What else the operator does to its form is not seen from the imports.
  have hline : (finishOperator style token cur.index (c == ' ') st).2.line = st.line :=
    congrArg Prod.fst (tally_finishOperator style token cur.index (c == ' ') st)
  have himports : (finishOperator style token cur.index (c == ' ') st).2.imports = imports := by
    rw [← hopened, importOperator_eq, finishOperator_eq]
  refine ⟨rfl, ?_, ?_⟩
  · rw [← hview]
    simp [State.view, hline, himports]
  · rw [← hreports, importOperator_eq, finishOperator_eq]

/-- At a space or a newline elsewhere in code a name may end. -/
theorem makes_wordEnd {imports : ImportContext} {reports : List Diagnostic}
    (hmode : cur.mode = .code) (hc : c = ' ' ∨ c = '\n')
    (h : ∀ st : State, st.view = v → (rememberName cur st).imports = imports ∧
      importReports file v.line (nameFindings cur st) = reports) :
    Makes style file cur v c reports .code { v with imports := imports } := by
  refine makes_of_codeChar (by simp [hmode]) (by simp [hmode]) fun st hview ↦ ?_
  obtain ⟨hnamed, hreports⟩ := h st hview
  have hchar : codeChar style cur cur.mode.operator? c st =
      { findings := nameFindings cur st, state := rememberName cur st, next := .go .code } := by
    rw [hmode]
    rcases hc with rfl | rfl <;> rfl
  rw [hchar]
  refine ⟨rfl, ?_, hreports⟩
  have hline : (rememberName cur st).line = st.line :=
    congrArg Prod.fst (tally_rememberName cur st)
  rw [← hview]
  simp [State.view, hnamed, hline]

/-! ### Operators and names -/

namespace Imports

variable {token : Token} {s u d start line : Nat} {id last : String} {chars : List Char}
  {st : State}

/-- Sections, and the imports inside of them, are opened by their operators. -/
theorem makes_enter (hmode : cur.mode = .operator token) (hc : c = ' ' ∨ c = '\n')
    (hop : (v.imports = .outside ∧ style.importBlock token.text token.start = .section) ∨
      ∃ s, v.imports = .inSection s ∧ style.importBlock token.text token.start = .imports) :
    Makes style file cur v c [] .code { v with imports := v.imports.enter v.depth } := by
  refine makes_operatorEnd hmode hc fun st hview ↦ ?_
  subst hview
  have henter : importOperator style token st = ([], st.enterImports) := by
    rcases hop with ⟨himports, hop⟩ | ⟨s, himports, hop⟩
    · have himports : st.imports = .outside := himports
      rw [importOperator, himports]
      exact if_pos hop
    · have himports : st.imports = .inSection s := himports
      rw [importOperator, himports]
      exact if_pos hop
  rw [henter]
  exact ⟨rfl, rfl⟩

/-- The id of a declaration opens it, and is compared with the id before. -/
theorem makes_declaration (hmode : cur.mode = .operator token) (hc : c = ' ' ∨ c = '\n')
    (himports : v.imports = .inImports s u last) :
    Makes style file cur v c (idDisorder file last ⟨token.text, ⟨v.line, token.start⟩⟩) .code
      { v with imports := .inDeclaration s u v.depth token.text "" } := by
  refine makes_operatorEnd hmode hc fun st hview ↦ ?_
  subst hview
  have himports : st.imports = .inImports s u last := himports
  rw [importOperator, himports]
  refine ⟨by rw [State.enterImports, himports]; rfl, ?_⟩
  rw [importReports_findingIf_of_import _ _ rfl, idDisorder]
  cases idsInOrder last token.text
  · rfl
  · rfl

/-- A name is compared with the name before it. -/
theorem importReports_nameFindings (himports : st.imports = .inDeclaration s u d id last)
    (hword : cur.word = ⟨start, chars.reverse⟩) (visible : ∃ c ∈ chars, isBlank c = false) :
    importReports file line (nameFindings cur st) =
      nameDisorder file last ⟨String.ofList chars, ⟨line, start⟩⟩ := by
  have hblank : cur.word.isBlank = false := by simpa [hword, Token.isBlank] using visible
  have htext : cur.word.text = String.ofList chars := by simp [hword, Token.text]
  rw [nameFindings, himports]
  dsimp only
  rw [importReports_findingIf_of_import _ _ rfl, nameDisorder, hblank, htext, namesInOrder, hword]
  by_cases h : last < String.ofList chars
  · simp [h]
  · simp [h]
    rfl

theorem setLastName_of_ne {ctx : ImportContext} (h : ctx.block ≠ .declaration) (name : String) :
    ctx.setLastName name = ctx := by
  cases ctx with
  | inDeclaration => exact absurd rfl h
  | _ => rfl

theorem nameFindings_eq_nil_of_ne (himports : st.imports.block ≠ .declaration) :
    nameFindings cur st = [] := by
  rw [nameFindings]
  split
  case h_1 h => rw [h] at himports; exact absurd rfl himports
  case h_2 => rfl

/-- Where a name ends at a separator, it is remembered. -/
theorem makes_nameEnd (hmode : cur.mode = .code) (hc : c = ' ' ∨ c = '\n')
    (himports : v.imports = .inDeclaration s u d id last)
    (hword : cur.word = ⟨start, chars.reverse⟩) (visible : ∃ c ∈ chars, isBlank c = false) :
    Makes style file cur v c (nameDisorder file last ⟨String.ofList chars, ⟨v.line, start⟩⟩) .code
      { v with imports := .inDeclaration s u d id (String.ofList chars) } := by
  refine makes_wordEnd hmode hc fun st hview ↦ ?_
  subst hview
  have hblank : cur.word.isBlank = false := by simpa [hword, Token.isBlank] using visible
  have htext : cur.word.text = String.ofList chars := by simp [hword, Token.text]
  have himports : st.imports = .inDeclaration s u d id last := himports
  refine ⟨?_, importReports_nameFindings himports hword visible⟩
  rw [rememberName, hblank, if_neg Bool.false_ne_true, himports, htext]
  rfl

/-- Outside of declarations a separator means nothing. -/
theorem makes_separator (hmode : cur.mode = .code) (hc : c = ' ' ∨ c = '\n')
    (himports : v.imports.block ≠ .declaration) : Makes style file cur v c [] .code v := by
  refine makes_wordEnd hmode hc fun st hview ↦ ?_
  subst hview
  have himports : st.imports.block ≠ .declaration := himports
  refine ⟨?_, by rw [nameFindings_eq_nil_of_ne himports]; rfl⟩
  rw [rememberName_eq]
  dsimp only
  split_ifs
  · rfl
  · exact setLastName_of_ne himports cur.word.text

/-- Outside of declarations nothing is compared where a form is closed. -/
theorem makes_closing_of_ne {depth : Nat} (hmode : cur.mode = .code) (hdepth : v.depth = depth + 1)
    (himports : v.imports.block ≠ .declaration) :
    Makes style file cur v ')' [] .code
      { v with depth := depth, imports := (v.imports.leave (depth + 1)).2 } := by
  refine makes_closing (by simp [hmode]) hdepth fun st hview ↦ ?_
  subst hview
  have himports : st.imports.block ≠ .declaration := himports
  rw [nameFindings_eq_nil_of_ne himports]
  rfl

/-! ### Words -/

/-- The cursor stands at the position, and a part may start there. -/
structure Fresh (p : Position) (cur : Cursor) : Prop where
  index : cur.index = p.column
  mode : cur.mode = .indent ∨ cur.mode = .code
  word : cur.prev = some ' ' ∨ cur.word = ⟨cur.index, []⟩

/-- The cursor stands right behind a part that leaves it in the mode. -/
structure Behind (p : Position) (mode : Mode) (cur : Cursor) : Prop where
  index : cur.index = p.column
  mode : cur.mode = mode
  prev : ∃ q, cur.prev = some q ∧ q ≠ ' '

/-- The cursor stands right behind a name that starts at the column. -/
structure BehindName (p : Position) (start : Nat) (chars : List Char) (cur : Cursor) : Prop extends
    Behind p .code cur where
  word : cur.word = ⟨start, chars.reverse⟩

theorem Fresh.ne_string {p : Position} (h : Fresh p cur) : cur.mode ≠ .string := by
  rcases h.mode with hmode | hmode <;> simp [hmode]

/-- The end of a plain text is behind it, on its line. -/
theorem after_of_plain {p : Position} (hchars : ∀ c ∈ chars, IsPlain c) :
    p.after chars = ⟨p.line, p.column + chars.length⟩ := by
  have hnewline : '\n' ∉ chars := fun hm ↦ hchars '\n' hm (by decide)
  rw [Position.after, List.count_eq_zero_of_not_mem hnewline, columnAfter_of_notMem hnewline,
    Nat.add_zero]

theorem line_after_of_plain (hchars : ∀ c ∈ chars, IsPlain c) (p : Position) :
    (p.after chars).line = p.line := by
  rw [after_of_plain hchars]

/-- Operators stand on the line of their form. -/
theorem line_after_opening (hchars : ∀ c ∈ chars, IsPlain c) (p : Position) :
    (p.after ('(' :: chars)).line = p.line :=
  line_after_of_plain hchars (p.after ['('])

/-- A newline leads to the next line, behind its indentation. -/
theorem after_newline (p : Position) (indent : Nat) :
    p.after (Separator.newline indent).render = ⟨p.line + 1, indent⟩ := by
  have hnewline : '\n' ∉ List.replicate indent ' ' := by simp
  rw [Separator.render, Position.after, columnAfter_newline, columnAfter_of_notMem hnewline,
    List.count_cons_self, List.count_eq_zero_of_not_mem hnewline]
  simp

/-- What is left of a name is read behind its first characters. -/
theorem reports_nameRest {p : Position} {read : List Char} (hchars : ∀ c ∈ chars, IsPlain c)
    (h : BehindName p start read cur) :
    ∃ last, Reports style file cur v chars [] last v ∧
      BehindName (p.after chars) start (read ++ chars) last := by
  induction chars generalizing cur p read with
  | nil => exact ⟨cur, .nil cur v, by simpa using h⟩
  | cons c chars ih =>
    obtain ⟨hc, hchars⟩ := List.forall_mem_cons.1 hchars
    obtain ⟨q, hprev, hq⟩ := h.prev
    have hmakes : Makes style file cur v c [] (cur.mode.read c) v :=
      makes_plain (by simp [h.mode]) hc
    rw [h.mode] at hmakes
    -- Only a character that follows a space starts a word anew.
    have hword : (cur.advance .code c).word = cur.word.push c := by simp [Cursor.advance, hprev, hq]
    have hnext : BehindName (p.after [c]) start (read ++ [c]) (cur.advance .code c) := by
      rw [after_of_plain (List.forall_mem_singleton.2 hc)]
      refine ⟨⟨congrArg (· + 1) h.index, rfl, c, rfl, ne_space_of_plain hc⟩, ?_⟩
      rw [hword, h.word]
      simp [Token.push]
    obtain ⟨last, hread, hlast⟩ := ih hchars hnext
    refine ⟨last, .char (ne_newline_of_plain hc) hmakes hread, ?_⟩
    rw [List.append_assoc, ← Position.after_append] at hlast
    exact hlast

/-- A name is read where one may start. -/
theorem reports_name (name : Name) {p : Position} (h : Fresh p cur) :
    ∃ last, Reports style file cur v name.chars [] last v ∧
      BehindName (p.after name.chars) p.column name.chars last := by
  obtain ⟨c, chars, hname⟩ := List.exists_cons_of_ne_nil name.ne_nil
  rw [hname]
  obtain ⟨hc, hchars⟩ := List.forall_mem_cons.1 (hname ▸ name.plain)
  have hread : cur.mode.read c = .code := by rcases h.mode with hmode | hmode <;> rw [hmode] <;> rfl
  have hmakes : Makes style file cur v c [] (cur.mode.read c) v := makes_plain h.ne_string hc
  rw [hread] at hmakes
  -- The word starts here, after a space or where nothing was collected on the line so far.
  have hword : (cur.advance .code c).word = ⟨p.column, [c]⟩ := by
    rcases h.word with hprev | hword
    · simp [Cursor.advance, hprev, ne_space_of_plain hc, h.index]
    · by_cases hprev : cur.prev = some ' '
      · simp [Cursor.advance, hprev, ne_space_of_plain hc, h.index]
      · simp [Cursor.advance, hprev, hword, h.index, Token.push]
  have hfirst : BehindName (p.after [c]) p.column [c] (cur.advance .code c) := by
    rw [after_of_plain (List.forall_mem_singleton.2 hc)]
    exact ⟨⟨congrArg (· + 1) h.index, rfl, c, rfl, ne_space_of_plain hc⟩, hword⟩
  obtain ⟨last, hrest, hlast⟩ := reports_nameRest hchars hfirst
  exact ⟨last, .char (ne_newline_of_plain hc) hmakes hrest, by
    rwa [← Position.after_append] at hlast⟩

/-- The rest of an operator is read behind its first characters. -/
theorem reports_operator {p : Position} {read : List Char} (hchars : ∀ c ∈ chars, IsPlain c)
    (h : Behind p (.operator ⟨start, read.reverse⟩) cur) :
    ∃ last, Reports style file cur v chars [] last v ∧
      Behind (p.after chars) (.operator ⟨start, (read ++ chars).reverse⟩) last := by
  induction chars generalizing cur p read with
  | nil => exact ⟨cur, .nil cur v, by simpa using h⟩
  | cons c chars ih =>
    obtain ⟨hc, hchars⟩ := List.forall_mem_cons.1 hchars
    have hmakes : Makes style file cur v c [] (cur.mode.read c) v :=
      makes_plain (by simp [h.mode]) hc
    have hread : cur.mode.read c = .operator ⟨start, (read ++ [c]).reverse⟩ := by
      rw [h.mode, List.reverse_append]
      rfl
    rw [hread] at hmakes
    have hnext : Behind (p.after [c]) (.operator ⟨start, (read ++ [c]).reverse⟩)
        (cur.advance (.operator ⟨start, (read ++ [c]).reverse⟩) c) := by
      rw [after_of_plain (List.forall_mem_singleton.2 hc)]
      exact ⟨congrArg (· + 1) h.index, rfl, c, rfl, ne_space_of_plain hc⟩
    obtain ⟨last, hrest, hlast⟩ := ih hchars hnext
    refine ⟨last, .char (ne_newline_of_plain hc) hmakes hrest, ?_⟩
    rw [List.append_assoc, ← Position.after_append] at hlast
    exact hlast

/-! ### Separators and delimiters -/

/-- A form may open where a part may start. Its operator is read right after the delimiter. -/
theorem reports_opening {p : Position} (hchars : ∀ c ∈ chars, IsPlain c) (h : Fresh p cur)
    (room : v.depth + 1 < style.maxDepth) :
    ∃ last, Reports style file cur v ('(' :: chars) [] last { v with depth := v.depth + 1 } ∧
      Behind (p.after ('(' :: chars)) (.operator ⟨p.column + 1, chars.reverse⟩) last := by
  have hmakes : Makes style file cur v '(' [] (.operator ⟨cur.index + 1, []⟩) _ :=
    makes_opening h.ne_string room
  rw [h.index] at hmakes
  have hbehind : Behind (p.after ['(']) (.operator ⟨p.column + 1, [].reverse⟩)
      (cur.advance (.operator ⟨p.column + 1, []⟩) '(') :=
    ⟨congrArg (· + 1) h.index, rfl, '(', rfl, by decide⟩
  obtain ⟨last, hread, hlast⟩ := reports_operator hchars hbehind
  refine ⟨last, .char (by decide) hmakes hread, ?_⟩
  rw [← Position.after_append] at hlast
  exact hlast

theorem reports_closing {p : Position} {reports : List Diagnostic} {v' : View}
    (h : Behind p .code cur) (hmakes : Makes style file cur v ')' reports .code v') :
    ∃ last, Reports style file cur v [')'] reports last v' ∧
      Behind (p.after [')']) .code last := by
  have hread := Reports.char (by decide) hmakes (.nil (cur.advance .code ')') v')
  rw [List.append_nil] at hread
  exact ⟨_, hread, congrArg (· + 1) h.index, rfl, ')', rfl, by decide⟩

/-- A part may start behind the indentation of a line. -/
theorem reports_indentation (style : Style) (file : String) (v : View) (k : Nat) :
    ∃ last, Reports style file (.start false) v (List.replicate k ' ') [] last v ∧
      last.mode = .indent ∧ Fresh ⟨v.line, k⟩ last := by
  induction k with
  | zero => exact ⟨.start false, .nil _ v, rfl, rfl, .inl rfl, .inr rfl⟩
  | succ k ih =>
    obtain ⟨mid, hread, hmode, hfresh⟩ := ih
    rw [List.replicate_succ']
    refine ⟨mid.advance .indent ' ',
      hread.append (.char (by decide) (makes_space_of_indent hmode) (.nil _ _)), rfl, ?_, .inl rfl,
      .inl rfl⟩
    exact congrArg (· + 1) hfresh.index

/-- A part may start behind a separator, whether or not that starts a line. -/
theorem reports_separator (gap : Separator) {p : Position} {reports : List Diagnostic} {v' : View}
    (h : Behind p mode cur)
    (hmakes : ∀ c, c = ' ' ∨ c = '\n' → Makes style file cur v c reports .code v')
    (hline : v'.line = p.line) (code : v'.inString = false) :
    ∃ last, Reports style file cur v gap.render reports last
        { v' with line := (p.after gap.render).line } ∧
      Fresh (p.after gap.render) last := by
  cases gap with
  | space =>
    have hread := Reports.char (by decide) (hmakes ' ' (.inl rfl)) (.nil (cur.advance .code ' ') v')
    rw [List.append_nil] at hread
    have hview : { v' with line := (p.after [' ']).line } = v' := by
      show { v' with line := p.line } = v'
      rw [← hline]
    rw [← hview] at hread
    exact ⟨_, hread, congrArg (· + 1) h.index, .inr rfl, .inl rfl⟩
  | newline k =>
    obtain ⟨q, hprev, hq⟩ := h.prev
    obtain ⟨last, hspaces, -, hfresh⟩ := reports_indentation style file v'.nextLine k
    have hread := Reports.newline hprev hq (hmakes '\n' (.inr rfl)) code hspaces
    rw [List.append_nil] at hread
    rw [after_newline, ← hline]
    exact ⟨last, hread, hfresh⟩

end Imports

end SchemeStyle
