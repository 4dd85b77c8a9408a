import SchemeStyle.Proofs.Lint
import SchemeStyle.Proofs.Nesting.Lexer

/-!
# How far a scan gets

A scan goes on from character to character until a semicolon in code, a delimiter that leaves the
bounds, or the end of the line. `Scans` is the part of it that goes on: it leads over a piece of the
line, from a cursor and a state to another, and collects what is found on the way, so that the scan
of a line is its way over any first piece followed by the scan of the rest (`Scans.scan_append`).

Which pieces it gets over is decided without a look at the linter. `Region.after` reads a line as
code, strings and a comment, and the cursor agrees with it (`Scans.region_eq`); a line that is
scanned to its end is scanned over every first piece that does not lead into a comment
(`exists_scans`). A line of which some first piece does not lead into a comment is no comment line,
so this is how it is linted (`lintLine_of_region_ne`).
-/

namespace SchemeStyle

/-! ### Regions of a line -/

namespace Region

/-- What the next character of a line belongs to after one more. No character of its line ends a
comment. -/
def read (region : Region) (c : Char) : Region :=
  match region with
  | .code => if c = '"' then .string false else if c = ';' then .comment else .code
  | .comment => .comment
  | .string true => .string false
  | .string false => if c = '\\' then .string true else if c = '"' then .code else .string false

/-- What the next character of a line belongs to after a piece of it. -/
def after (region : Region) (text : List Char) : Region :=
  text.foldl read region

@[simp] theorem after_nil (region : Region) : region.after [] = region := rfl

@[simp] theorem after_cons (region : Region) (c : Char) (text : List Char) :
    region.after (c :: text) = (region.read c).after text := rfl

@[simp] theorem after_append (region : Region) (a b : List Char) :
    region.after (a ++ b) = (region.after a).after b :=
  List.foldl_append

theorem after_comment (text : List Char) : comment.after text = comment := by
  induction text with
  | nil => rfl
  | cons c text ih => exact ih

theorem read_code {c : Char} (hquote : c ≠ '"') (hsemicolon : c ≠ ';') : code.read c = code := by
  rw [read, if_neg hquote, if_neg hsemicolon]

/-- Only a quote leads into code from anywhere else. -/
theorem eq_code_of_read {region : Region} {c : Char} (h : region.read c = code) (hc : c ≠ '"') :
    region = code := by
  rcases region with - | - | ⟨_ | _⟩
  · rfl
  · cases h
  · rw [read, if_neg hc] at h
    split_ifs at h
  · cases h

theorem eq_code_of_after {region : Region} {text : List Char} (h : region.after text = code)
    (hquote : '"' ∉ text) : region = code := by
  induction text generalizing region with
  | nil => exact h
  | cons c text ih =>
    obtain ⟨hc, htext⟩ := not_or.1 (fun hm ↦ hquote (List.mem_cons.2 hm))
    exact eq_code_of_read (ih h htext) (Ne.symm hc)

end Region

/-- What the next line starts in. -/
def State.region (st : State) : Region :=
  if st.inString then .string false else .code

/-- What the next character belongs to in the eyes of the scan. -/
def Cursor.region (cur : Cursor) : Region :=
  if cur.mode = .string then .string cur.escaped else .code

theorem Cursor.region_code {cur : Cursor} (h : cur.mode ≠ .string) : cur.region = .code :=
  if_neg h

theorem Cursor.mode_ne_string {cur : Cursor} (h : cur.region = .code) : cur.mode ≠ .string := by
  intro hmode
  rw [region, if_pos hmode] at h
  cases h

theorem Cursor.gapAfter_code {cur : Cursor} (hindent : cur.mode ≠ .indent)
    (hstring : cur.mode ≠ .string) (c : Char) :
    cur.gapAfter c =
      ((c == ' ' && cur.prev == some ' ') || (cur.gap && (c == ' ' || c == ';'))) := by
  rw [gapAfter]
  split
  · contradiction
  · contradiction
  · rfl
  · rfl

@[simp] theorem Cursor.region_start (st : State) :
    (Cursor.start st.inString).region = st.region := by
  rw [State.region]
  cases st.inString <;> rfl

/-! ### One character -/

/-- Comments start in code. -/
theorem Move.mode_of_comment {style : Style} {cur : Cursor} {c : Char} {st st' : State}
    (h : Move style cur c st st' .comment) : cur.mode ≠ .string := by
  cases h with
  | comment _ code => exact code
  | operatorComment token mode => simp [mode]

/-- Only a space leads on from the spaces at the start of the line to more of them. -/
theorem Move.of_indent {style : Style} {cur : Cursor} {c : Char} {st st' : State}
    (h : Move style cur c st st' (.go .indent)) : cur.mode = .indent ∧ c = ' ' := by
  cases h with
  | indent mode space => exact ⟨mode, space⟩

theorem Move.mode_ne_indent {style : Style} {cur : Cursor} {c : Char} {st st' : State}
    {mode : Mode} (h : Move style cur c st st' (.go mode)) (hspace : cur.mode = .indent → c ≠ ' ') :
    mode ≠ .indent := by
  rintro rfl
  exact hspace h.of_indent.1 h.of_indent.2

/-- The scan reads the regions of the line. -/
theorem region_advance {style : Style} {cur : Cursor} {c : Char} {st st' : State} {mode : Mode}
    (h : Move style cur c st st' (.go mode)) : (cur.advance mode c).region = cur.region.read c := by
  have hcode : cur.mode ≠ .string → mode ≠ .string → c ≠ '"' → c ≠ ';' →
      (cur.advance mode c).region = cur.region.read c := by
    intro hmode hmode' hquote hsemicolon
    rw [Cursor.region_code hmode, Region.read_code hquote hsemicolon]
    exact Cursor.region_code hmode'
  cases h with
  | indent hmode space =>
    subst space
    exact hcode (by simp [hmode]) (by simp) (by decide) (by decide)
  | string hmode inside =>
    rw [Cursor.region, Cursor.region, if_pos hmode, Cursor.advance, if_pos rfl]
    rcases hescaped : cur.escaped with - | -
    · have hquote : c ≠ '"' := fun hc ↦ by simp [inside hc] at hescaped
      by_cases hc : c = '\\' <;> simp [Region.read, hc, hquote]
    · simp [Region.read]
  | closeString hmode quote ends =>
    rw [Cursor.region, Cursor.region, if_pos hmode, ends, quote]
    rfl
  | openString hmode quote =>
    rw [Cursor.region_code hmode, Cursor.region, Cursor.advance, if_pos rfl, quote]
    rfl
  | «open» hmode opener =>
    rcases opener with rfl | rfl <;> exact hcode hmode (by simp) (by decide) (by decide)
  | close hmode closer =>
    rcases closer with rfl | rfl <;> exact hcode hmode (by simp) (by decide) (by decide)
  | endOperator token hmode blank =>
    have hmode : cur.mode ≠ .string := by simp [hmode]
    rcases blank with rfl | rfl <;> exact hcode hmode (by simp) (by decide) (by decide)
  | endWord _ code blank =>
    rcases blank with rfl | rfl <;> exact hcode code (by simp) (by decide) (by decide)
  | operator token hmode plain =>
    simp only [IsPlain, List.mem_cons, not_or] at plain
    exact hcode (by simp [hmode]) (by simp) plain.1 plain.2.1
  | code _ code plain =>
    simp only [IsPlain, List.mem_cons, not_or] at plain
    exact hcode code (by simp) plain.1 plain.2.1

/-- Outside of strings no scan goes on after a semicolon. -/
theorem Move.ne_semicolon {style : Style} {cur : Cursor} {c : Char} {st st' : State} {mode : Mode}
    (h : Move style cur c st st' (.go mode)) (hmode : cur.mode ≠ .string) : c ≠ ';' := by
  rintro rfl
  have hregion := region_advance h
  rw [Cursor.region_code hmode, Cursor.region] at hregion
  split_ifs at hregion
  · cases hregion
  · cases hregion

/-- What is found at a character before it is looked at as code: tabs, spaces before it, and where
the line starts. -/
def leadFindings (aligned : Bool) (cur : Cursor) (c : Char) (st : State) : List Finding :=
  findingIf (c == '\t') cur.index .tab ++
    if cur.mode = .indent then (if aligned then (alignLine cur.index st).1 else [])
    else findingIf (cur.gap && c != ' ' && c != ';') cur.index .twoSpaces

/-- Outside of strings a character that is no indentation is a character of code. -/
theorem step_of_code {style : Style} {aligned : Bool} {cur : Cursor} {c : Char} {st : State}
    (hmode : cur.mode ≠ .string) (hspace : cur.mode = .indent → c ≠ ' ') :
    step style aligned cur c st =
      (codeChar style cur cur.mode.operator? c (entered aligned cur c st)).after
        (leadFindings aligned cur c st) := by
  rcases h : cur.mode with - | - | token | -
  · have hc := hspace h
    cases aligned <;> simp [step, h, hc, leadFindings, entered, Mode.operator?, Step.after]
  · simp [step, h, leadFindings, entered, Mode.operator?, Step.after]
  · simp [step, h, leadFindings, entered, Mode.operator?, Step.after]
  · exact absurd h hmode

/-! ### Opening delimiters -/

/-- Whether a character opens a form. -/
def isOpener (c : Char) : Bool :=
  c == '(' || c == '['

theorem isOpener_iff {c : Char} : isOpener c = true ↔ c = '(' ∨ c = '[' := by
  simp [isOpener]

/-- An opening delimiter of code, from a state that the check of the line's start has left. -/
theorem step_of_opener {cur : Cursor} {c : Char} (hmode : cur.mode ≠ .string)
    (hc : isOpener c = true) (style : Style) (aligned : Bool) (st : State) :
    (step style aligned cur c st).state = (openForm style cur c (entered aligned cur c st)).state ∧
      (step style aligned cur c st).next =
        (openForm style cur c (entered aligned cur c st)).next := by
  have hc := isOpener_iff.1 hc
  have hspace : c ≠ ' ' := by rcases hc with rfl | rfl <;> decide
  have hcode : codeChar style cur cur.mode.operator? c (entered aligned cur c st) =
      openForm style cur c (entered aligned cur c st) := by
    rcases hc with rfl | rfl <;> rfl
  rw [step_of_code hmode fun _ ↦ hspace, hcode]
  exact ⟨rfl, rfl⟩

/-- After an opening delimiter of code an operator is read. -/
theorem Move.eq_operator_of_opener {style : Style} {cur : Cursor} {c : Char} {st st' : State}
    {mode : Mode} (h : Move style cur c st st' (.go mode)) (hmode : cur.mode ≠ .string)
    (hc : isOpener c = true) : mode = .operator ⟨cur.index + 1, []⟩ := by
  have hplain : ¬IsPlain c := by
    rcases isOpener_iff.1 hc with rfl | rfl <;> simp [IsPlain]
  cases h with
  | «open» => rfl
  | indent _ space => rw [space] at hc; cases hc
  | string mode | closeString mode => exact absurd mode hmode
  | openString _ quote => rw [quote] at hc; cases hc
  | close _ closer => rcases closer with rfl | rfl <;> cases hc
  | endOperator _ _ blank | endWord _ _ blank => rcases blank with rfl | rfl <;> cases hc
  | operator _ _ plain | code _ _ plain => exact absurd plain hplain

/-- A plain character goes on with the operator being read. -/
theorem Move.eq_operator_of_plain {style : Style} {cur : Cursor} {c : Char} {st st' : State}
    {mode : Mode} {token : Token} (h : Move style cur c st st' (.go mode))
    (hmode : cur.mode = .operator token) (hc : IsPlain c) : mode = .operator (token.push c) := by
  have hne : cur.mode ≠ .indent ∧ cur.mode ≠ .string := by simp [hmode]
  simp only [IsPlain, List.mem_cons, List.not_mem_nil, or_false, not_or] at hc
  cases h with
  | operator token' mode => rw [hmode] at mode; cases mode; rfl
  | indent mode => exact absurd mode hne.1
  | string mode | closeString mode => exact absurd mode hne.2
  | openString _ quote => exact absurd quote hc.1
  | «open» _ opener => rcases opener with rfl | rfl <;> simp at hc
  | close _ closer => rcases closer with rfl | rfl <;> simp at hc
  | endOperator _ _ blank => rcases blank with rfl | rfl <;> simp at hc
  | endWord mode => rw [hmode] at mode; cases mode
  | code mode => rw [hmode] at mode; cases mode

/-! ### Pieces of a line -/

/-- The scan goes on over all of the text, from a cursor and a state to another. -/
inductive Scans (style : Style) (aligned : Bool) :
    Cursor → State → List Char → List Finding → Cursor → State → Prop where
  | nil (cur : Cursor) (st : State) : Scans style aligned cur st [] [] cur st
  | char {cur last : Cursor} {st final : State} {c : Char} {text : List Char}
      {found : List Finding} {mode : Mode} (next : (step style aligned cur c st).next = .go mode)
      (rest : Scans style aligned (cur.advance mode c) (step style aligned cur c st).state text
        found last final) :
      Scans style aligned cur st (c :: text) ((step style aligned cur c st).findings ++ found)
        last final

theorem Outcome.after_after (a b : List Finding) (o : Outcome) :
    (o.after b).after a = o.after (a ++ b) := by
  simp [Outcome.after, List.append_assoc]

namespace Scans

variable {style : Style} {aligned : Bool} {cur mid last : Cursor} {st st' final : State}
  {a b text : List Char} {found found' : List Finding}

/-- **A scan gets over what it goes on over**, and is from there the scan of the rest. -/
theorem scan_append (h : Scans style aligned cur st a found mid st') (b : List Char) :
    scan style aligned cur st (a ++ b) = (scan style aligned mid st' b).after found := by
  induction h with
  | nil => rfl
  | char next _ ih =>
    rw [List.cons_append, scan, next]
    show (scan style aligned _ _ _).after _ = _
    rw [ih, Outcome.after_after]

theorem append (h : Scans style aligned cur st a found mid st')
    (h' : Scans style aligned mid st' b found' last final) :
    Scans style aligned cur st (a ++ b) (found ++ found') last final := by
  induction h with
  | nil => exact h'
  | char next _ ih =>
    rw [List.append_assoc]
    exact .char next (ih h')

/-- A scan over one character. -/
theorem singleton {c : Char} {mode : Mode} (next : (step style aligned cur c st).next = .go mode) :
    Scans style aligned cur st [c] (step style aligned cur c st).findings (cur.advance mode c)
      (step style aligned cur c st).state := by
  have h := Scans.char next (.nil _ _)
  rwa [List.append_nil] at h

/-- What is true before the first character, and stays true with what is found at every character
that is scanned, is true at the end. -/
theorem induct_findings {P : List Char → List Finding → Cursor → State → Prop}
    (start : P [] [] cur st)
    (keeps : ∀ before found mid s c mode, Scans style aligned cur st before found mid s →
      P before found mid s → (step style aligned mid c s).next = .go mode →
      P (before ++ [c]) (found ++ (step style aligned mid c s).findings) (mid.advance mode c)
        (step style aligned mid c s).state)
    (h : Scans style aligned cur st text found last final) : P text found last final := by
  -- The induction is on what is left to scan; what is scanned already grows with it.
  have aux : ∀ {rest : List Char} {found : List Finding} {mid last : Cursor} {s final : State},
      Scans style aligned mid s rest found last final → ∀ before found',
      Scans style aligned cur st before found' mid s → P before found' mid s →
      P (before ++ rest) (found' ++ found) last final := by
    intro rest found mid last s final hrest
    induction hrest with
    | nil =>
      intro before _ _ hP
      rwa [List.append_nil, List.append_nil]
    | @char mid last s final c rest found mode next _ ih =>
      intro before found' hbefore hP
      have hP' := ih (before ++ [c]) _ (hbefore.append (.singleton next))
        (keeps before found' mid s c mode hbefore hP next)
      rwa [List.append_assoc, List.append_assoc] at hP'
  exact aux h [] [] (.nil cur st) start

/-- What is true at the start, and kept by every character that is scanned after it, is true at the
end. -/
theorem induct {P : List Char → Cursor → State → Prop} (start : P [] cur st)
    (keeps : ∀ before found mid s c mode, Scans style aligned cur st before found mid s →
      P before mid s → (step style aligned mid c s).next = .go mode →
      P (before ++ [c]) (mid.advance mode c) (step style aligned mid c s).state)
    (h : Scans style aligned cur st text found last final) : P text last final :=
  h.induct_findings (P := fun before _ mid s ↦ P before mid s) start keeps

/-- The cursor agrees with the regions of the line. -/
theorem region_eq (h : Scans style aligned cur st text found last final) :
    last.region = cur.region.after text := by
  refine h.induct (P := fun before mid _ ↦ mid.region = cur.region.after before) rfl ?_
  intro before _ mid s c mode _ hregion next
  have hmove := move_of_step style aligned mid c s
  rw [next] at hmove
  rw [region_advance hmove, hregion, Region.after_append]
  rfl

theorem index_eq (h : Scans style aligned cur st text found last final) :
    last.index = cur.index + text.length := by
  refine h.induct (P := fun before mid _ ↦ mid.index = cur.index + before.length) rfl ?_
  intro before _ mid s c mode _ hindex _
  rw [List.length_append, List.length_singleton, ← Nat.add_assoc, ← hindex]
  rfl

/-- The cursor remembers the last character. -/
theorem prev_eq (h : Scans style aligned cur st text found last final) :
    last.prev = text.getLast?.or cur.prev := by
  refine h.induct (P := fun before mid _ ↦ mid.prev = before.getLast?.or cur.prev) rfl ?_
  intro before _ mid s c mode _ _ _
  rw [List.getLast?_concat]
  rfl

/-- The start of a line is left at the first character that is no space. -/
theorem eq_space {inString : Bool}
    (h : Scans style aligned (.start inString) st text found last final)
    (hmode : last.mode = .indent) : ∀ c ∈ text, c = ' ' := by
  refine h.induct (P := fun before mid _ ↦ mid.mode = .indent → ∀ c ∈ before, c = ' ') (by simp)
    ?_ hmode
  intro before _ mid s c mode _ hspaces next hmode
  have hmove := move_of_step style aligned mid c s
  have hindent : mode = .indent := hmode
  rw [next, hindent] at hmove
  obtain ⟨hmid, rfl⟩ := hmove.of_indent
  intro d hd
  rcases List.mem_append.1 hd with hd | hd
  · exact hspaces hmid d hd
  · exact List.mem_singleton.1 hd

/-- A gap lies in code and ends in a space. -/
theorem prev_of_gap {inString : Bool}
    (h : Scans style aligned (.start inString) st text found last final)
    (hgap : last.gap = true) : last.prev = some ' ' := by
  suffices hP : last.mode ≠ .indent ∧ last.mode ≠ .string ∧ last.prev = some ' ' from hP.2.2
  refine h.induct (P := fun _ mid _ ↦ mid.gap = true →
    mid.mode ≠ .indent ∧ mid.mode ≠ .string ∧ mid.prev = some ' ') (by simp [Cursor.start]) ?_ hgap
  intro before _ mid s c mode _ ih next hgap
  have hmove := move_of_step style aligned mid c s
  rw [next] at hmove
  have hgap : mid.gapAfter c = true := hgap
  have hmid : mid.mode ≠ .indent ∧ mid.mode ≠ .string := by
    refine ⟨fun hmode ↦ ?_, fun hmode ↦ ?_⟩ <;> rw [Cursor.gapAfter, hmode] at hgap
    · exact (ih hgap).1 hmode
    · exact (ih hgap).2.1 hmode
  have hsemicolon := hmove.ne_semicolon hmid.2
  rw [Cursor.gapAfter_code hmid.1 hmid.2] at hgap
  have hspace : c = ' ' := by
    rcases Bool.or_eq_true_iff.1 hgap with hgap | hgap <;> simp [hsemicolon] at hgap
    · exact hgap.1
    · exact hgap.2
  subst hspace
  have hregion := region_advance hmove
  rw [Cursor.region_code hmid.2] at hregion
  exact ⟨hmove.mode_ne_indent fun hmode ↦ absurd hmode hmid.1, Cursor.mode_ne_string hregion, rfl⟩

/-- The operator being read is what stands, without a break, behind the last opening delimiter. -/
theorem mode_eq_operator_iff
    (h : Scans style aligned (.start st.inString) st' text found last final) {token : Token} :
    last.mode = .operator token ↔
      ∃ front c name, text = front ++ c :: name ∧ isOpener c = true ∧
        st.region.after front = .code ∧ (∀ d ∈ name, IsPlain d) ∧
        token = ⟨front.length + 1, name.reverse⟩ := by
  refine h.induct (P := fun before mid _ ↦ ∀ token, mid.mode = .operator token ↔
    ∃ front c name, before = front ++ c :: name ∧ isOpener c = true ∧
      st.region.after front = .code ∧ (∀ d ∈ name, IsPlain d) ∧
      token = ⟨front.length + 1, name.reverse⟩) ?_ ?_ token
  · intro token
    cases hstring : st.inString <;> simp [Cursor.start]
  · intro before _ mid s c mode hbefore ih next token
    have hmove := move_of_step style aligned mid c s
    rw [next] at hmove
    have hregion : mid.region = st.region.after before := by
      rw [hbefore.region_eq, Cursor.region_start]
    have hindex : mid.index = before.length := by
      rw [hbefore.index_eq]
      exact Nat.zero_add _
    constructor
    · intro hmode
      have hmode : mode = .operator token := hmode
      subst hmode
      generalize (step style aligned mid c s).state = s' at hmove
      cases hmove with
      | «open» hcode opener =>
        refine ⟨before, c, [], rfl, isOpener_iff.2 opener, ?_, by simp, by rw [hindex]; rfl⟩
        rw [← hregion, Cursor.region_code hcode]
      | operator token hmid plain =>
        obtain ⟨front, d, name, rfl, hd, hcode, hname, rfl⟩ := (ih token).1 hmid
        refine ⟨front, d, name ++ [c], by simp, hd, hcode, ?_, by simp [Token.push]⟩
        exact List.forall_mem_append.2 ⟨hname, by simpa using plain⟩
    · rintro ⟨front, d, name, htext, hd, hcode, hname, rfl⟩
      show mode = _
      rcases List.eq_nil_or_concat name with rfl | ⟨name, e, rfl⟩
      · obtain ⟨rfl, hc⟩ := List.append_inj' htext rfl
        obtain rfl := List.singleton_inj.1 hc
        rw [hcode] at hregion
        rw [hmove.eq_operator_of_opener (Cursor.mode_ne_string hregion) hd, hindex]
        rfl
      · rw [List.concat_eq_append] at htext hname ⊢
        rw [← List.cons_append, ← List.append_assoc] at htext
        obtain ⟨rfl, hc⟩ := List.append_inj' htext rfl
        obtain rfl := List.singleton_inj.1 hc
        obtain ⟨hname, hc⟩ := List.forall_mem_append.1 hname
        have hmid := (ih ⟨front.length + 1, name.reverse⟩).2
          ⟨front, d, name, rfl, hd, hcode, hname, rfl⟩
        rw [hmove.eq_operator_of_plain hmid (by simpa using hc)]
        simp [Token.push]

end Scans

/-- A scan goes on over all of a text, or it stops in it. -/
theorem scans_or_stops (style : Style) (aligned : Bool) (cur : Cursor) (st : State)
    (text : List Char) :
    (∃ found last final, Scans style aligned cur st text found last final) ∨
      ∃ before c rest found mid st', text = before ++ c :: rest ∧
        Scans style aligned cur st before found mid st' ∧
        ∀ mode, (step style aligned mid c st').next ≠ .go mode := by
  induction text generalizing cur st with
  | nil => exact .inl ⟨[], cur, st, .nil cur st⟩
  | cons c text ih =>
    by_cases hgo : ∃ mode, (step style aligned cur c st).next = .go mode
    · obtain ⟨mode, next⟩ := hgo
      rcases ih (cur.advance mode c) (step style aligned cur c st).state with
        ⟨found, last, final, h⟩ | ⟨before, d, rest, found, mid, st', htext, h, hstops⟩
      · exact .inl ⟨_, last, final, .char next h⟩
      · exact .inr ⟨c :: before, d, rest, _, mid, st', by rw [htext, List.cons_append],
          .char next h, hstops⟩
    · exact .inr ⟨[], c, text, [], cur, st, rfl, .nil cur st, fun mode next ↦ hgo ⟨mode, next⟩⟩

/-- **A line that is scanned to its end is scanned over every first piece that does not lead into a
comment.** -/
theorem exists_scans {style : Style} {aligned : Bool} {cur : Cursor} {st : State}
    {a b : List Char} (hends : (scan style aligned cur st (a ++ b)).error? = none)
    (hregion : cur.region.after a ≠ .comment) :
    ∃ found mid st', Scans style aligned cur st a found mid st' := by
  rcases scans_or_stops style aligned cur st a with
    h | ⟨before, c, rest, found, mid, st', rfl, h, hstops⟩
  · exact h
  · -- The scan did not fail, so it stopped at a semicolon of code, and the piece ends in a comment.
    have hmove := move_of_step style aligned mid c st'
    rw [List.append_assoc, h.scan_append, List.cons_append, scan] at hends
    rcases hnext : (step style aligned mid c st').next with mode | - | e
    · exact absurd hnext (hstops mode)
    · rw [hnext] at hmove
      have hcode := hmove.mode_of_comment
      obtain rfl := hmove.eq_semicolon
      refine absurd ?_ hregion
      rw [Region.after_append, ← h.region_eq, Cursor.region_code hcode, Region.after_cons]
      exact Region.after_comment rest
    · rw [hnext] at hends
      cases hends

/-! ### Whole lines -/

theorem tabFindings_eq_nil {text : List Char} (h : '\t' ∉ text) (index : Nat) :
    tabFindings index text = [] := by
  induction text generalizing index with
  | nil => rfl
  | cons c text ih =>
    obtain ⟨hc, htext⟩ := not_or.1 (fun hm ↦ h (List.mem_cons.2 hm))
    simp [tabFindings, findingIf, Ne.symm hc, ih htext]

/-- A line that is neither too long nor ends in a space is fine as far as its extent goes. -/
theorem extentFindings_eq_nil {style : Style} {content : List Char}
    (hlength : content.length ≤ style.maxColumns) (hspace : content.getLast? ≠ some ' ') :
    extentFindings style content = [] := by
  simp [extentFindings, findingIf, Nat.not_lt.2 hlength, hspace]

/-- The outcome of a line that is counted. -/
def Outcome.count (o : Outcome) : Outcome :=
  { o with
    state :=
      { o.state with
        line := o.state.line + 1
        flagged := o.state.flagged || !o.findings.isEmpty } }

/-- The scan of a line of code, after the checks of its extent. -/
def scanLine (style : Style) (st : State) (content : List Char) : Outcome :=
  (scan style (style.aligns content) (.start st.inString) { st with blanks := 0 }
    (content ++ ['\n'])).after (extentFindings style content)

/-- **A line that is neither blank nor a comment is scanned.** -/
theorem lintLine_of_region_ne {st : State} {content a : List Char}
    (hblank : isBlankLine content = false) (ha : a <+: content) (hne : a ≠ [])
    (hregion : st.region.after a ≠ .comment) (style : Style) :
    lintLine style st content = (scanLine style st content).count := by
  have hcomment : ¬(content.head? = some ';' ∧ ¬st.inString) := by
    rintro ⟨hhead, hstring⟩
    obtain ⟨c, text, rfl⟩ := List.exists_cons_of_ne_nil hne
    obtain ⟨rest, rfl⟩ := ha
    obtain rfl : c = ';' := by simpa using hhead
    rw [State.region, if_neg hstring, Region.after_cons] at hregion
    exact hregion (Region.after_comment text)
  rw [lintLine, if_neg (Bool.eq_false_iff.1 hblank), lintTextLine, if_neg hcomment]
  rfl

end SchemeStyle
