import SchemeStyle.Proofs.Layout.Elements
import SchemeStyle.Proofs.Lexical.Strings
import SchemeStyle.Proofs.Scan.Lockstep
import SchemeStyle.Proofs.Text.LineEndings

/-!
# What string literals hold

A string literal is read for its end and for nothing else. Two texts that differ in what some of
their literals hold, as far as these are ended on the line they start on and hold as many characters
in the one text as in the other (`SameButLiterals`), are therefore linted alike: every finding is
the same, and so is the fault that stops the run, if there is one (`lintText_eq_of_literals`).

That takes more than a look at the mode of the scan. What a literal holds goes through the same loop
as code. It is part of the word that the scan collects, and a space at its end even makes the scan
start a new word at the closing quote, so the cursors of the two scans do not meet again behind a
literal. Words are looked at in import declarations alone, however; outside of them a cursor may
remember any word (`step_withWord`), and all else that it remembers is the same behind both
literals (`scans_literal`). That is why no import form may be open on the way, which is said of the
states that the linter passes through (`lintStates`), and of one of the two texts only.

The checks of a line as a whole look at both of its ends and at its length. At its end there may be
the mark that turns the check of its start off, which is not found in a literal as long as it holds
no quote itself (`aligns_eq`).
-/

namespace SchemeStyle

variable {style : Style} {aligned : Bool} {st st' : State} {cur mid last : Cursor} {c : Char}
  {n : Nesting} {a b x y mark : List Char} {found : List Finding}

/-! ### Regions of a line -/

/-- Within a line the nesting reads the regions of the line. -/
theorem Nesting.region_step (hc : c ≠ '\n') : (n.step c).region = n.region.read c := by
  obtain ⟨region, depth⟩ := n
  rcases region with - | - | ⟨_ | _⟩
  · simp only [Nesting.step, Region.read]
    split_ifs <;> rfl
  · simp [Nesting.step, Region.read, hc]
  · simp only [Nesting.step, Region.read]
    split_ifs <;> rfl
  · rfl

theorem Nesting.region_run (h : '\n' ∉ a) : (n.run a).region = n.region.after a := by
  induction a generalizing n with
  | nil => rfl
  | cons c a ih =>
    obtain ⟨hc, ha⟩ := not_or.1 (fun hm ↦ h (List.mem_cons.2 hm))
    rw [Nesting.run_cons, ih ha, Nesting.region_step (Ne.symm hc), Region.after_cons]

/-! ### Texts that differ in their literals -/

/-- A text that stands for itself in a string literal, on one line. -/
def IsLiteralText (text : List Char) : Prop :=
  ∀ c ∈ text, c ∉ ['"', '\\', '\n', '\t']

-- Named, since a search for it may run through all characters instead of those of the text.
instance : DecidablePred IsLiteralText :=
  fun text ↦ List.decidableBAll _ text

theorem isLiteralText_cons : IsLiteralText (c :: x) ↔
    (c ≠ '"' ∧ c ≠ '\\' ∧ c ≠ '\n' ∧ c ≠ '\t') ∧ IsLiteralText x := by
  simp [IsLiteralText]

theorem IsLiteralText.newline_notMem (h : IsLiteralText x) : '\n' ∉ x :=
  fun hmem ↦ h '\n' hmem (by decide)

/-- A literal leads back to where it starts. -/
theorem Nesting.run_literal (code : n.region = .code) (hx : IsLiteralText x) :
    n.run ('"' :: (x ++ ['"'])) = n := by
  have hopen : n.step '"' = { n with region := .string false } := by
    rw [Nesting.step, code]
    rfl
  have hinside : Nesting.run { n with region := .string false } x =
      { n with region := .string false } := by
    induction x with
    | nil => rfl
    | cons c x ih =>
      obtain ⟨⟨hquote, hbackslash, -⟩, hx⟩ := isLiteralText_cons.1 hx
      have hstep : Nesting.step { n with region := .string false } c =
          { n with region := .string false } := by
        simp [Nesting.step, hquote, hbackslash]
      rw [Nesting.run_cons, hstep, ih hx]
  rw [Nesting.run_cons, hopen, Nesting.run_append, hinside]
  show { n with region := Region.code } = n
  rw [← code]

/-- The texts are the same, up to what stands in string literals that end on the line they start on:
there the second may have another text, of the same length. Any quote in code starts a literal. The
text before them, the same for both, has led to `n`. -/
inductive SameButLiterals : Nesting → List Char → List Char → Prop where
  | nil (n : Nesting) : SameButLiterals n [] []
  | char {n : Nesting} {a b : List Char} (c : Char) (rest : SameButLiterals (n.step c) a b) :
      SameButLiterals n (c :: a) (c :: b)
  | literal {n : Nesting} {x y a b : List Char} (code : n.region = .code)
      (length : x.length = y.length) (left : IsLiteralText x) (right : IsLiteralText y)
      (rest : SameButLiterals n a b) :
      SameButLiterals n ('"' :: (x ++ '"' :: a)) ('"' :: (y ++ '"' :: b))

namespace SameButLiterals

/-- The same text may stand before both. -/
theorem append_left (front : List Char) (h : SameButLiterals (n.run front) a b) :
    SameButLiterals n (front ++ a) (front ++ b) := by
  induction front generalizing n with
  | nil => exact h
  | cons c front ih => exact .char c (ih h)

protected theorem refl (a : List Char) (n : Nesting) : SameButLiterals n a a := by
  rw [← List.append_nil a]
  exact append_left a (.nil _)

theorem symm (h : SameButLiterals n a b) : SameButLiterals n b a := by
  induction h with
  | nil n => exact .nil n
  | char c _ ih => exact .char c ih
  | literal code length left right _ ih => exact .literal code length.symm right left ih

/-- Where there is no quote there is no literal. -/
theorem eq_of_notMem (h : SameButLiterals n a b) (hquote : '"' ∉ a) : a = b := by
  induction h with
  | nil => rfl
  | char c _ ih => rw [ih fun hmem ↦ hquote (List.mem_cons_of_mem c hmem)]
  | literal => exact absurd List.mem_cons_self hquote

/-- In a comment there is no literal. -/
theorem eq_of_comment (h : SameButLiterals n a b) (hregion : n.region = .comment)
    (hnewline : '\n' ∉ a) : a = b := by
  induction h with
  | nil => rfl
  | @char n a b c _ ih =>
    obtain ⟨hc, ha⟩ := not_or.1 (fun hm ↦ hnewline (List.mem_cons.2 hm))
    have hstep : n.step c = n := by
      rw [Nesting.step, hregion]
      exact if_neg (Ne.symm hc)
    rw [ih (hstep.symm ▸ hregion) ha]
  | literal code =>
    rw [code] at hregion
    cases hregion

/-! ### First lines -/

/-- If the texts are of more than one line, their first lines are the same but for their literals,
and so is what follows them. -/
theorem split (h : SameButLiterals n a b) :
    ('\n' ∉ a ∧ '\n' ∉ b) ∨
      ∃ line line' rest rest', a = line ++ '\n' :: rest ∧ b = line' ++ '\n' :: rest' ∧
        '\n' ∉ line ∧ '\n' ∉ line' ∧ SameButLiterals n line line' ∧
        SameButLiterals (n.run (line ++ ['\n'])) rest rest' := by
  induction h with
  | nil => exact .inl ⟨List.not_mem_nil, List.not_mem_nil⟩
  | @char n a b c hrest ih =>
    by_cases hc : c = '\n'
    · subst hc
      exact .inr ⟨[], [], a, b, rfl, rfl, List.not_mem_nil, List.not_mem_nil, .nil n, hrest⟩
    rcases ih with ⟨ha, hb⟩ | ⟨line, line', rest, rest', rfl, rfl, hline, hline', hfirst, hrest⟩
    · exact .inl ⟨by simp [Ne.symm hc, ha], by simp [Ne.symm hc, hb]⟩
    · exact .inr ⟨c :: line, c :: line', rest, rest', rfl, rfl, by simp [Ne.symm hc, hline],
        by simp [Ne.symm hc, hline'], .char c hfirst, hrest⟩
  | @literal n x y a b code length left right hrest ih =>
    rcases ih with ⟨ha, hb⟩ | ⟨line, line', rest, rest', rfl, rfl, hline, hline', hfirst, hrest⟩
    · exact .inl ⟨by simp [left.newline_notMem, ha], by simp [right.newline_notMem, hb]⟩
    · refine .inr ⟨'"' :: (x ++ '"' :: line), '"' :: (y ++ '"' :: line'), rest, rest', by simp,
        by simp, by simp [left.newline_notMem, hline], by simp [right.newline_notMem, hline'],
        .literal code length left right hfirst, ?_⟩
      have hrun : n.run ('"' :: (x ++ '"' :: line) ++ ['\n']) = n.run (line ++ ['\n']) := by
        have hline : '"' :: (x ++ '"' :: line) ++ ['\n'] =
            '"' :: (x ++ ['"']) ++ (line ++ ['\n']) := by simp
        rw [hline, Nesting.run_append, Nesting.run_literal code left]
      rwa [hrun]

/-! ### Checks of a line as a whole -/

theorem length_eq (h : SameButLiterals n a b) : a.length = b.length := by
  induction h with
  | nil => rfl
  | char c _ ih => rw [List.length_cons, List.length_cons, ih]
  | literal _ length _ _ _ ih => simp [length, ih]

theorem head?_eq (h : SameButLiterals n a b) : a.head? = b.head? := by
  cases h <;> rfl

theorem getLast?_eq (h : SameButLiterals n a b) : a.getLast? = b.getLast? := by
  induction h with
  | nil => rfl
  | char c _ ih => rw [List.getLast?_cons, List.getLast?_cons, ih]
  | literal _ _ _ _ _ ih => simp [List.getLast?_cons, ih]

theorem isBlankLine_eq (h : SameButLiterals n a b) : isBlankLine a = isBlankLine b := by
  induction h with
  | nil => rfl
  | char c _ ih => exact congrArg ((c == ' ') && ·) ih
  | literal => rfl

theorem extentFindings_eq (h : SameButLiterals n a b) (style : Style) :
    extentFindings style a = extentFindings style b := by
  rw [extentFindings, extentFindings, h.length_eq, h.getLast?_eq]

end SameButLiterals

/-- What holds no quote stands at the end of a text only behind its last quote. -/
theorem suffix_append_quote (hmark : '"' ∉ mark) (front a : List Char) :
    mark <:+ front ++ '"' :: a ↔ mark <:+ a := by
  refine ⟨fun h ↦ ?_, fun h ↦ h.trans ((List.suffix_cons _ _).trans (List.suffix_append _ _))⟩
  rcases List.suffix_or_suffix_of_suffix h (List.suffix_append front ('"' :: a)) with h | h
  · exact (List.suffix_cons_iff.1 h).resolve_left fun heq ↦ hmark (heq ▸ List.mem_cons_self)
  · exact absurd (h.subset List.mem_cons_self) hmark

namespace SameButLiterals

/-- A mark that holds no quote stands at the end of both texts or of neither. -/
theorem suffix_iff (h : SameButLiterals n a b) (hmark : '"' ∉ mark) : mark <:+ a ↔ mark <:+ b := by
  have whole {n : Nesting} {a b : List Char} {c : Char} (h : SameButLiterals n a b)
      (heq : mark = c :: a) : mark = c :: b := by
    rw [heq, h.eq_of_notMem fun hmem ↦ hmark (heq ▸ List.mem_cons_of_mem c hmem)]
  induction h with
  | nil => exact Iff.rfl
  | char c hrest ih =>
    rw [List.suffix_cons_iff, List.suffix_cons_iff]
    exact or_congr ⟨whole hrest, whole hrest.symm⟩ ih
  | @literal _ x y a b _ _ _ _ _ ih =>
    exact (suffix_append_quote hmark ('"' :: x) a).trans
      (ih.trans (suffix_append_quote hmark ('"' :: y) b).symm)

theorem aligns_eq (h : SameButLiterals n a b) (hmark : '"' ∉ style.noAlignMark.toList) :
    style.aligns a = style.aligns b := by
  have hsuffix := h.suffix_iff hmark
  rw [← List.isSuffixOf_iff_suffix, ← List.isSuffixOf_iff_suffix, ← Bool.eq_iff_iff] at hsuffix
  rw [Style.aligns, Style.aligns, hsuffix]

end SameButLiterals

/-! ### The states of a run -/

/-- The states that a scan passes through, from the one that it starts in to the one that it
leaves. -/
def scanStates (style : Style) (aligned : Bool) : Cursor → State → List Char → List State
  | _, st, [] => [st]
  | cur, st, c :: cs =>
    let s := step style aligned cur c st
    st ::
      match s.next with
      | .go mode => scanStates style aligned (cur.advance mode c) s.state cs
      | .comment | .stop _ => [s.state]

/-- The states that the linter passes through on a line. -/
def lineStates (style : Style) (st : State) (content : List Char) : List State :=
  if isBlankLine content ∨ (content.head? = some ';' ∧ ¬st.inString) then [st]
  else
    scanStates style (style.aligns content) (.start st.inString) { st with blanks := 0 }
      (content ++ ['\n'])

/-- The states that the linter passes through on lines in a row, up to one whose nesting leaves its
bounds. -/
def lintStates (style : Style) : State → List (List Char) → List State
  | st, [] => [st]
  | st, content :: rest =>
    let o := lintLine style st content
    lineStates style st content ++
      match o.error? with
      | some _ => []
      | none => lintStates style o.state rest

theorem mem_scanStates (style : Style) (aligned : Bool) (cur : Cursor) (st : State)
    (text : List Char) : st ∈ scanStates style aligned cur st text := by
  cases text <;> exact List.mem_cons_self

/-- The scan of the rest of a line passes through states that the scan of the line passes
through. -/
theorem Scans.scanStates_subset (h : Scans style aligned cur st a found mid st') (b : List Char) :
    scanStates style aligned mid st' b ⊆ scanStates style aligned cur st (a ++ b) := by
  induction h with
  | nil => exact List.Subset.refl _
  | char next _ ih =>
    rw [List.cons_append, scanStates, next]
    exact List.subset_cons_of_subset _ ih

/-! ### One character, one literal -/

/-- **Outside of import forms a character does the same whatever word the scan is in.** -/
theorem step_withWord (imports : st.imports = .outside) (cur : Cursor) (word : Token) :
    step style aligned { cur with word := word } c st = step style aligned cur c st := by
  by_cases hstring : cur.mode = .string
  · simp only [step, hstring]
  by_cases hspace : cur.mode = .indent ∧ c = ' '
  · simp only [step, hspace.1, if_pos hspace.2]
  have hcode : cur.mode = .indent → c ≠ ' ' := fun hmode hc ↦ hspace ⟨hmode, hc⟩
  have hstring' : Cursor.mode { cur with word := word } ≠ .string := hstring
  have hentered : (entered aligned cur c st).imports = .outside := by
    rw [imports_entered, imports]
  rw [step_of_code hstring hcode, step_of_code hstring' hcode]
  refine congrArg (Step.after (leadFindings aligned cur c st)) ?_
  show codeChar style { cur with word := word } cur.mode.operator? c (entered aligned cur c st) =
    codeChar style cur cur.mode.operator? c (entered aligned cur c st)
  unfold codeChar closeForm
  simp only [nameFindings_eq_nil hentered, rememberName_eq_self hentered]
  rfl

/-- The cursor behind the quote that ends a string. -/
def Cursor.behindString (index : Nat) (gap : Bool) (word : Token) : Cursor where
  index := index
  mode := .code
  prev := some '"'
  gap := gap
  word := word

/-- In a string the scan gets to the quote that ends it without a finding. -/
theorem scans_literalText (style : Style) (aligned : Bool) (st : State) (hx : IsLiteralText x)
    (hmode : cur.mode = .string) (hescaped : cur.escaped = false) :
    ∃ word, Scans style aligned cur st (x ++ ['"']) []
      (.behindString (cur.index + x.length + 1) cur.gap word) { st with inString := false } := by
  induction x generalizing cur with
  | nil =>
    have hclose : step style aligned cur '"' st =
        { state := { st with inString := false }, next := .go .code } := by
      simp [step, hmode, hescaped, findingIf, Step.after]
    have hgap : cur.gapAfter '"' = cur.gap := by rw [Cursor.gapAfter, hmode]
    have hnext : (step style aligned cur '"' st).next = .go .code := by rw [hclose]
    have hscans := Scans.singleton hnext
    rw [hclose, Cursor.advance, hgap] at hscans
    exact ⟨_, hscans⟩
  | cons c x ih =>
    obtain ⟨⟨hquote, hbackslash, -, htab⟩, hx⟩ := isLiteralText_cons.1 hx
    have hstep : step style aligned cur c st = { state := st, next := .go .string } :=
      step_of_string hmode (fun hc ↦ absurd hc hquote) htab aligned
    have hnext : (step style aligned cur c st).next = .go .string := by rw [hstep]
    have hinside : (cur.advance .string c).mode = .string := rfl
    have hescaped' : (cur.advance .string c).escaped = false := by
      simp [Cursor.advance, hbackslash]
    have hgap : (cur.advance .string c).gap = cur.gap := by
      rw [Cursor.advance, Cursor.gapAfter, hmode]
    obtain ⟨word, hrest⟩ := ih hx hinside hescaped'
    have hscans := Scans.char hnext (by rw [hstep]; exact hrest)
    rw [hstep, hgap] at hscans
    refine ⟨word, ?_⟩
    rw [List.length_cons, ← Nat.add_assoc, Nat.add_right_comm cur.index]
    exact hscans

/-- **What a literal holds is nowhere to be found** but in the word behind it. -/
theorem scans_literal (style : Style) (aligned : Bool) (st : State) (hx : IsLiteralText x)
    (hcode : cur.mode ≠ .string) :
    ∃ word, Scans style aligned cur st ('"' :: (x ++ ['"'])) (leadFindings aligned cur '"' st)
      (.behindString (cur.index + 1 + x.length + 1) (cur.gapAfter '"') word)
      { entered aligned cur '"' st with inString := false } := by
  have hopen : step style aligned cur '"' st =
      { findings := leadFindings aligned cur '"' st
        state := { entered aligned cur '"' st with inString := true }, next := .go .string } := by
    rw [step_of_code hcode fun _ ↦ by decide]
    simp [codeChar, Step.after]
  have hnext : (step style aligned cur '"' st).next = .go .string := by rw [hopen]
  have hinside : (cur.advance .string '"').mode = .string := rfl
  obtain ⟨word, hrest⟩ := scans_literalText style aligned
    { entered aligned cur '"' st with inString := true } hx hinside rfl
  have hscans := Scans.char hnext (by rw [hopen]; exact hrest)
  rw [hopen, List.append_nil] at hscans
  exact ⟨word, hscans⟩

/-! ### One line -/

namespace SameButLiterals

/-- **The scans of two lines that are the same but for their literals are the same**, whatever words
they start in, if no import form is open on the way. -/
theorem scan_eq (h : SameButLiterals n a b) (hregion : cur.region = n.region)
    (hnewline : '\n' ∉ a)
    (himports : ∀ s ∈ scanStates style aligned cur st (a ++ ['\n']), s.imports = .outside)
    (word : Token) :
    scan style aligned { cur with word := word } st (b ++ ['\n']) =
      scan style aligned cur st (a ++ ['\n']) := by
  induction h generalizing cur st word with
  | nil =>
    have hst := himports st (mem_scanStates ..)
    rw [List.nil_append, scan_cons, scan_cons, step_withWord hst]
    rfl
  | @char n a b c hrest ih =>
    obtain ⟨hc, ha⟩ := not_or.1 (fun hm ↦ hnewline (List.mem_cons.2 hm))
    have hst := himports st (mem_scanStates ..)
    have hmove := move_of_step style aligned cur c st
    rw [List.cons_append, scanStates] at himports
    rw [List.cons_append, List.cons_append, scan_cons, scan_cons, step_withWord hst]
    unfold Step.outcome
    rcases hnext : (step style aligned cur c st).next with mode | - | e <;>
      rw [hnext] at hmove himports
    · have hregion' : (cur.advance mode c).region = (n.step c).region := by
        rw [region_advance hmove, hregion, Nesting.region_step (Ne.symm hc)]
      exact congrArg (Outcome.after _) (ih hregion' ha
        (fun s hs ↦ himports s (List.mem_cons_of_mem _ hs)) _)
    · have hcode : n.region = .code := by
        rw [← hregion, Cursor.region_code hmove.mode_of_comment]
      have hcomment : (n.step c).region = .comment := by
        rw [hmove.eq_semicolon, Nesting.step, hcode]
        rfl
      rw [hrest.eq_of_comment hcomment ha]
  | @literal n x y a b code length left right hrest ih =>
    have hmode : cur.mode ≠ .string := Cursor.mode_ne_string (hregion.trans code)
    have hmode' : Cursor.mode { cur with word := word } ≠ .string := hmode
    obtain ⟨word₁, hleft⟩ := scans_literal style aligned st left hmode
    obtain ⟨word₂, hright⟩ := scans_literal style aligned st right hmode'
    have hline (z d : List Char) :
        '"' :: (z ++ '"' :: d) ++ ['\n'] = '"' :: (z ++ ['"']) ++ (d ++ ['\n']) := by simp
    rw [hline] at himports
    rw [hline, hline, hleft.scan_append, hright.scan_append, ← length]
    -- Behind the literals the cursors differ in their words only, as they did before.
    have himports' := fun s hs ↦ himports s (hleft.scanStates_subset (a ++ ['\n']) hs)
    refine congrArg (Outcome.after (leadFindings aligned cur '"' st)) (ih ?_ ?_ himports' word₂)
    · exact code.symm
    · exact fun hm ↦ hnewline (by simp [hm])

theorem lintTextLine_eq (h : SameButLiterals n a b) (hregion : n.region = st.region)
    (hmark : '"' ∉ style.noAlignMark.toList) (hnewline : '\n' ∉ a)
    (hblank : isBlankLine a = false)
    (himports : ∀ s ∈ lineStates style st a, s.imports = .outside) :
    lintTextLine style st b = lintTextLine style st a := by
  rw [lintTextLine, lintTextLine, ← h.extentFindings_eq style, ← h.head?_eq]
  refine congrArg (Outcome.after _) ?_
  by_cases hcomment : a.head? = some ';' ∧ ¬st.inString
  · obtain ⟨rest, rfl⟩ := List.head?_eq_some_iff.1 hcomment.1
    have hcode : n.region = .code := by rw [hregion, State.region, if_neg hcomment.2]
    have heq : ';' :: rest = b := by
      cases h with
      | char _ hrest =>
        have hstep : (n.step ';').region = .comment := by
          rw [Nesting.step, hcode]
          rfl
        rw [hrest.eq_of_comment hstep fun hm ↦ hnewline (List.mem_cons_of_mem _ hm)]
    rw [heq]
  · have hscanned : ¬(isBlankLine a = true ∨ a.head? = some ';' ∧ ¬st.inString) := by
      rw [hblank]
      exact fun h ↦ hcomment (h.resolve_left Bool.false_ne_true)
    rw [lineStates, if_neg hscanned] at himports
    rw [if_neg hcomment, if_neg hcomment, ← h.aligns_eq hmark]
    exact h.scan_eq ((Cursor.region_start st).trans hregion.symm) hnewline himports
      (Cursor.start st.inString).word

/-- **Lines that are the same but for their literals are linted alike**, if no import form is open
on the way. -/
theorem lintLine_eq (h : SameButLiterals n a b) (hregion : n.region = st.region)
    (hmark : '"' ∉ style.noAlignMark.toList) (hnewline : '\n' ∉ a)
    (himports : ∀ s ∈ lineStates style st a, s.imports = .outside) :
    lintLine style st b = lintLine style st a := by
  rw [lintLine, lintLine, ← h.isBlankLine_eq]
  split_ifs with hblank
  · rfl
  · rw [h.lintTextLine_eq hregion hmark hnewline (Bool.eq_false_iff.2 hblank) himports]

end SameButLiterals

/-! ### Lines in a row -/

/-- A line that is linted to its end leaves the next one in the region where the nesting leaves
it. -/
theorem region_run_line (hregion : n.region = st.region) (hnewline : '\n' ∉ a)
    (hends : (lintLine style st a).error? = none) :
    (n.run (a ++ ['\n'])).region = (lintLine style st a).state.region := by
  have hstep (m : Nesting) :
      (m.step '\n').region = if m.region.isString then .string false else .code := by
    obtain ⟨_ | _ | _ | _, depth⟩ := m <;> rfl
  rw [State.region, inString_lintLine_eq_isString hends, Nesting.run_append, Nesting.run_cons,
    Nesting.run_nil, hstep, Nesting.region_run hnewline, hregion]

theorem lintLines_cons_congr {rest rest' : List (List Char)}
    (hfirst : lintLine style st b = lintLine style st a)
    (hrest : (lintLine style st a).error? = none →
      lintLines style (lintLine style st a).state rest' =
        lintLines style (lintLine style st a).state rest) :
    lintLines style st (b :: rest') = lintLines style st (a :: rest) := by
  rcases herror : (lintLine style st a).error? with - | ⟨index, e⟩
  · rw [lintLines_cons_of_ok herror, lintLines_cons_of_ok (hfirst ▸ herror), hfirst,
      hrest herror]
  · rw [lintLines_cons_of_error herror, lintLines_cons_of_error (hfirst ▸ herror), hfirst]

namespace SameButLiterals

/-- Texts that are the same but for their literals are linted alike from any line on. -/
theorem lintLines_eq (h : SameButLiterals n a b) (hregion : n.region = st.region)
    (hmark : '"' ∉ style.noAlignMark.toList)
    (himports : ∀ s ∈ lintStates style st (splitLines a), s.imports = .outside) :
    lintLines style st (splitLines b) = lintLines style st (splitLines a) := by
  induction hlength : a.length using Nat.strongRecOn generalizing n a b st with
  | ind length ih =>
    rcases h.split with
      ⟨ha, hb⟩ | ⟨line, line', rest, rest', rfl, rfl, hline, hline', hfirst, hrest⟩
    · by_cases hnil : a = []
      · obtain rfl := h.eq_of_notMem (by simp [hnil])
        rfl
      have hnil' : b ≠ [] := by
        rintro rfl
        exact hnil (List.length_eq_zero_iff.1 h.length_eq)
      rw [splitLines_of_notMem hnil ha, lintStates] at himports
      rw [splitLines_of_notMem hnil ha, splitLines_of_notMem hnil' hb]
      exact lintLines_cons_congr
        (h.lintLine_eq hregion hmark ha fun s hs ↦ himports s (List.mem_append_left _ hs))
        fun _ ↦ rfl
    · rw [splitLines_append_newline hline, lintStates] at himports
      rw [splitLines_append_newline hline, splitLines_append_newline hline']
      refine lintLines_cons_congr
        (hfirst.lintLine_eq hregion hmark hline fun s hs ↦ himports s (List.mem_append_left _ hs))
        fun hends ↦ ?_
      rw [hends] at himports
      refine ih rest.length ?_ hrest (region_run_line hregion hline hends)
        (fun s hs ↦ himports s (List.mem_append_right _ hs)) rfl
      rw [← hlength, List.length_append, List.length_cons]
      omega

end SameButLiterals

/-! ### Texts -/

/-- **What string literals hold does not matter** to what is found in a text, nor to where it is
found to leave the bounds of the nesting, as long as the text is outside of import forms. -/
theorem lintText_eq_of_literals {left right : String} (hmark : '"' ∉ style.noAlignMark.toList)
    (hsame : SameButLiterals {} left.toList right.toList)
    (himports : ∀ s ∈ lintStates style {} (splitLines left.toList), s.imports.block = .outside) :
    lintText style left = lintText style right := by
  have houtside : ∀ ctx : ImportContext, ctx.block = .outside → ctx = .outside := by
    rintro (_ | _) <;> simp [ImportContext.block]
  exact (hsame.lintLines_eq rfl hmark fun s hs ↦ houtside s.imports (himports s hs)).symm

/-- Three literals whose delimiters, semicolons and spaces are all put in other places, between code
that is found fault with, a comment with quotes, a string over two lines, and a form closed too
often. -/
theorem lintText_eq_of_three_literals :
    let left :=
      "(define (f x)\n   (g \"a  (b ;c\"  \"] \"))\n; \"k\"\n(h \"e\nf\" \"#;\" )\n)\n"
    let right :=
      "(define (f x)\n   (g \"  )) [' \"  \" [\"))\n; \"k\"\n(h \"e\nf\" \"; \" )\n)\n"
    ('"' ∉ Style.standard.noAlignMark.toList ∧ SameButLiterals {} left.toList right.toList ∧
        ∀ s ∈ lintStates .standard {} (splitLines left.toList), s.imports.block = .outside) ∧
      left ≠ right ∧ (lintText .standard left).findings.length = 3 ∧
      (lintText .standard left).failure?.isSome ∧
      lintText .standard left = lintText .standard right := by
  intro left right
  have hmark : '"' ∉ Style.standard.noAlignMark.toList := by decide
  have hsame : SameButLiterals {} left.toList right.toList := by
    let text (x y z : String) : List Char :=
      "(define (f x)\n   (g ".toList ++ '"' :: (x.toList ++ '"' :: ("  ".toList ++
        '"' :: (y.toList ++ '"' :: ("))\n; \"k\"\n(h \"e\nf\" ".toList ++
          '"' :: (z.toList ++ '"' :: " )\n)\n".toList)))))
    have hleft : left.toList = text "a  (b ;c" "] " "#;" := by decide +kernel
    have hright : right.toList = text "  )) [' " " [" "; " := by decide +kernel
    rw [hleft, hright]
    refine .append_left _
      (.literal (by decide +kernel) (by decide +kernel) (by decide +kernel) (by decide +kernel) ?_)
    refine .append_left _
      (.literal (by decide +kernel) (by decide +kernel) (by decide +kernel) (by decide +kernel) ?_)
    refine .append_left _
      (.literal (by decide +kernel) (by decide +kernel) (by decide +kernel) (by decide +kernel) ?_)
    exact .refl _ _
  have himports : ∀ s ∈ lintStates .standard {} (splitLines left.toList),
      s.imports.block = .outside := by decide +kernel
  exact ⟨⟨hmark, hsame, himports⟩, by decide +kernel, by decide +kernel, by decide +kernel,
    lintText_eq_of_literals hmark hsame himports⟩

end SchemeStyle
