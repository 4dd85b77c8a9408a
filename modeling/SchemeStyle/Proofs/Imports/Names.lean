import Mathlib.Data.List.DropRight
import Mathlib.Data.String.Basic
import SchemeStyle.Proofs.Alignment.Bottom
import SchemeStyle.Proofs.Imports.Reports
import SchemeStyle.Proofs.Scan.Progress

/-!
# What counts as an imported name

Inside a declaration every word that ends is compared with the one before and then remembered. A
word is meant to be a run of characters without a space, a quote or a delimiter, and a scan has no
such runs: it collects all that stands between the last start of a word and the place where a space,
the end of the line or a closing delimiter ends one. A word starts only at a character of code that
follows a space (`StartsWord`), and neither a space nor an opening delimiter nor a quote that opens
a string starts one, so a second space, a string or a form inside of the declaration ends up in the
text that is taken for the name.

The text that was collected is a single word exactly if the run behind the last space is one, and
then it is that run (`isWord_iff_of_isCollected`). All names that are remembered and all that are
reported are texts of this kind (`lastName_stateAfter`).
-/

namespace SchemeStyle

variable {style : Style} {aligned : Bool} {st st' s : State} {cur mid last : Cursor} {c : Char}
  {next : Next} {region : Region} {front word text before content : List Char}

/-! ### Words of a line -/

/-- A word starts with the character: it follows a space, and is a character of code that is no
space and opens neither a form nor a string. -/
def StartsWord (region : Region) (before : List Char) (c : Char) : Prop :=
  before.getLast? = some ' ' ∧ c ≠ ' ' ∧ isOpener c = false ∧ region.after (before ++ [c]) = .code

/-- The second part is all that stands behind the last start of a word, or that of the line. -/
structure IsCollected (region : Region) (front word : List Char) : Prop where
  start : front = [] ∨ ∃ c rest, word = c :: rest ∧ StartsWord region front c
  last : ∀ a c b, word = a ++ c :: b → a ≠ [] → ¬StartsWord region (front ++ a) c

/-- A single word has neither a space nor a quote nor a delimiter. -/
def IsWord (word : List Char) : Prop :=
  word ≠ [] ∧ ∀ c ∈ word, c ∉ [' ', '"', '(', '[', ')', ']']

/-- What stands behind the last space. -/
def lastRun (text : List Char) : List Char :=
  text.rtakeWhile (· != ' ')

theorem lastRun_eq (hword : ' ' ∉ word) (hfront : front = [] ∨ front.getLast? = some ' ') :
    lastRun (front ++ word) = word := by
  induction word using List.reverseRecOn with
  | nil =>
    rw [lastRun, List.append_nil, List.rtakeWhile_eq_nil_iff]
    intro hne
    rw [List.getLast?_eq_some_getLast hne] at hfront
    simpa [hne] using hfront
  | append_singleton word c ih =>
    rw [List.mem_append, List.mem_singleton, not_or] at hword
    rw [lastRun, ← List.append_assoc,
      List.rtakeWhile_concat_pos (fun d ↦ d != ' ') _ c (bne_iff_ne.2 (Ne.symm hword.2))]
    exact congrArg (· ++ [c]) (ih hword.1)

theorem exists_append_lastRun (text : List Char) :
    ∃ front, text = front ++ lastRun text ∧ (front = [] ∨ front.getLast? = some ' ') := by
  refine ⟨text.rdropWhile (· != ' '), List.rdropWhile_append_rtakeWhile.symm, ?_⟩
  refine or_iff_not_imp_left.2 fun hne ↦ ?_
  rw [List.getLast?_eq_some_getLast hne]
  have hlast := List.rdropWhile_last_not (fun c ↦ c != ' ') text hne
  simpa using hlast

/-- **What was collected is a single word exactly if the run behind the last space is one**, and
then it is that run. -/
theorem isWord_iff_of_isCollected (h : IsCollected region front word)
    (hcode : region.after (front ++ word) = .code) :
    (IsWord word ↔ IsWord (lastRun (front ++ word))) ∧
      (IsWord word → word = lastRun (front ++ word)) := by
  have hfront : front = [] ∨ front.getLast? = some ' ' :=
    h.start.imp_right fun ⟨_, _, _, hstarts⟩ ↦ hstarts.1
  have hrun : IsWord word → word = lastRun (front ++ word) :=
    fun hword ↦ (lastRun_eq (fun hspace ↦ hword.2 ' ' hspace (by simp)) hfront).symm
  refine ⟨⟨fun hword ↦ hrun hword ▸ hword, fun hword ↦ ?_⟩, hrun⟩
  -- The run starts with a character of code behind a space, so no earlier start is the last one.
  obtain ⟨pre, hpre, hspace⟩ := exists_append_lastRun (front ++ word)
  generalize lastRun (front ++ word) = run at hword hpre
  obtain ⟨c, b, rfl⟩ := List.exists_cons_of_ne_nil hword.1
  rcases List.append_eq_append_iff.1 hpre with ⟨a, rfl, hrest⟩ | ⟨a, rfl, hrest⟩
  · rcases a with - | ⟨d, a⟩
    · exact hrest ▸ hword
    · refine absurd ?_ (h.last (d :: a) c b hrest (List.cons_ne_nil d a))
      have hc := hword.2 c List.mem_cons_self
      simp only [List.mem_cons, List.not_mem_nil, or_false, not_or] at hc
      refine ⟨hspace.resolve_left (by simp), hc.1, by simp [isOpener, hc], ?_⟩
      have hread : (region.after (front ++ d :: a ++ [c])).after b = .code := by
        rw [← Region.after_append, ← hcode, hrest]
        simp
      exact Region.eq_code_of_after hread fun hquote ↦
        hword.2 '"' (List.mem_cons_of_mem c hquote) (by simp)
  · rcases List.eq_nil_or_concat a with rfl | ⟨a, d, rfl⟩
    · rw [List.nil_append] at hrest
      exact hrest ▸ hword
    · have hd : d = ' ' := by
        rcases hfront with hnil | hlast
        · simp at hnil
        · simpa using hlast
      refine absurd (hword.2 d ?_) (by simp [hd])
      rw [hrest]
      simp

/-! ### What the scan collects -/

/-- A word starts for the scan where one starts in the line. -/
theorem Scans.startsWord_iff {found : List Finding} {mode : Mode}
    (h : Scans style aligned (.start st.inString) st' before found mid s)
    (hnext : (step style aligned mid c s).next = .go mode) :
    mode = .code ∧ mid.prev = some ' ' ∧ c ≠ ' ' ↔ StartsWord st.region before c := by
  have hmove := move_of_step style aligned mid c s
  rw [hnext] at hmove
  have hprev : mid.prev = before.getLast? := by
    rw [h.prev_eq]
    exact Option.or_none
  have hregion : (mid.advance mode c).region = st.region.after (before ++ [c]) := by
    rw [region_advance hmove, h.region_eq, Cursor.region_start, Region.after_append]
    rfl
  rw [StartsWord, ← hprev, ← hregion]
  constructor
  · rintro ⟨rfl, hspace, hc⟩
    refine ⟨hspace, hc, ?_, Cursor.region_code (by simp [Cursor.advance])⟩
    by_contra hopener
    rw [Bool.not_eq_false] at hopener
    by_cases hstring : mid.mode = .string
    · -- Only a quote leads out of a string.
      generalize (step style aligned mid c s).state = s' at hmove
      cases hmove with
      | closeString _ quote => rw [quote] at hopener; cases hopener
      | close mode | code _ mode | endWord _ mode => exact mode hstring
      | endOperator _ mode => rw [hstring] at mode; cases mode
    · exact Mode.noConfusion (hmove.eq_operator_of_opener hstring hopener)
  · rintro ⟨hspace, hc, hopener, hcode⟩
    refine ⟨?_, hspace, hc⟩
    have hstring : mode ≠ .string := Cursor.mode_ne_string hcode
    generalize (step style aligned mid c s).state = s' at hmove
    cases hmove with
    | indent _ space => exact absurd space hc
    | string | openString => exact absurd rfl hstring
    | «open» _ opener => rw [isOpener_iff.2 opener] at hopener; cases hopener
    | operator token hmode plain =>
      -- An operator has no space in it, nor does one stand between it and its delimiter.
      obtain ⟨front, d, name, rfl, hd, -, hname, -⟩ := h.mode_eq_operator_iff.1 hmode
      rw [hprev] at hspace
      rcases List.eq_nil_or_concat name with rfl | ⟨name, e, rfl⟩
      · rw [List.getLast?_concat, Option.some_inj] at hspace
        rw [hspace] at hd
        cases hd
      · rw [List.concat_eq_append, ← List.cons_append, ← List.append_assoc, List.getLast?_concat,
          Option.some_inj] at hspace
        have hplain := hname e (by simp)
        rw [hspace] at hplain
        simp [IsPlain] at hplain
    | _ => rfl

/-- **A scan collects what stands behind the last start of a word.** -/
theorem Scans.isCollected {found : List Finding}
    (h : Scans style aligned (.start st.inString) st' text found last s) :
    ∃ front, text = front ++ last.word.chars.reverse ∧ last.word.start = front.length ∧
      IsCollected st.region front last.word.chars.reverse := by
  refine h.induct (P := fun before mid _ ↦ ∃ front, before = front ++ mid.word.chars.reverse ∧
    mid.word.start = front.length ∧ IsCollected st.region front mid.word.chars.reverse) ?_ ?_
  · exact ⟨[], rfl, rfl, .inl rfl, by simp [Cursor.start]⟩
  · rintro before found mid s c mode hbefore ⟨front, htext, hstart, hfront, hlast⟩ hnext
    have hstarts := hbefore.startsWord_iff hnext
    by_cases hword : StartsWord st.region before c
    · have hadvance : (mid.advance mode c).word = ⟨mid.index, [c]⟩ := if_pos (hstarts.2 hword)
      have hindex : mid.index = before.length := by
        rw [hbefore.index_eq]
        exact Nat.zero_add _
      refine ⟨before, by rw [hadvance]; rfl, by rw [hadvance, hindex], ?_⟩
      rw [hadvance]
      refine ⟨.inr ⟨c, [], rfl, hword⟩, fun a d b hd hne ↦ ?_⟩
      obtain ⟨a', rest, rfl⟩ := List.exists_cons_of_ne_nil hne
      simp at hd
    · have hadvance : (mid.advance mode c).word = mid.word.push c :=
        if_neg fun hmode ↦ hword (hstarts.1 hmode)
      have hchars : (mid.word.push c).chars.reverse = mid.word.chars.reverse ++ [c] := by
        simp [Token.push]
      rw [hadvance, hchars]
      refine ⟨front, by rw [htext, List.append_assoc], hstart, ?_, fun a d b hd hne ↦ ?_⟩
      · refine hfront.imp_right ?_
        rintro ⟨d, rest, hd, hword⟩
        exact ⟨d, rest ++ [c], by rw [hd, List.cons_append], hword⟩
      · rcases List.eq_nil_or_concat b with rfl | ⟨b, e, rfl⟩
        · obtain ⟨rfl, hc⟩ := List.append_inj' hd rfl
          obtain rfl := List.singleton_inj.1 hc
          rwa [← htext]
        · rw [List.concat_eq_append, ← List.cons_append, ← List.append_assoc] at hd
          exact hlast a d b (List.append_inj_left' hd rfl) hne

/-- A word of a text ends where one of some characters stands: all that was collected of it, unless
it is blank. -/
structure Cut (region : Region) (text enders front word : List Char) : Prop where
  ends : ∃ c rest, text = front ++ word ++ c :: rest ∧ c ∈ enders
  code : region.after (front ++ word) = .code
  collected : IsCollected region front word
  nonblank : word.all isBlank = false

theorem Scans.cut {found : List Finding} {enders : List Char}
    (h : Scans style aligned (.start st.inString) st' before found mid s)
    (hmode : mid.mode ≠ .string) (hblank : mid.word.isBlank = false) (hc : c ∈ enders)
    (rest : List Char) :
    ∃ front, Cut st.region (before ++ c :: rest) enders front mid.word.chars.reverse ∧
      mid.word.start = front.length := by
  obtain ⟨front, rfl, hstart, hcollected⟩ := h.isCollected
  refine ⟨front, ⟨⟨c, rest, rfl, hc⟩, ?_, hcollected, ?_⟩, hstart⟩
  · rw [← Cursor.region_start, ← h.region_eq, Cursor.region_code hmode]
  · rw [List.all_reverse]
    exact hblank

/-! ### What one character does with names -/

/-- An operator is no name, and with a form that it opens no name is known yet. -/
theorem ImportContext.lastName_operate (style : Style) (token : Token) (depth : Nat)
    (ctx : ImportContext) :
    (ctx.operate style token depth).lastName = "" ∨
      (ctx.operate style token depth).lastName = ctx.lastName := by
  cases ctx with
  | outside | inSection =>
    rw [operate]
    split_ifs
    · exact .inl rfl
    · exact .inr rfl
  | inImports => exact .inl rfl
  | inDeclaration => exact .inr rfl

theorem lastName_finishOperator (style : Style) (token : Token) (index : Nat) (followed : Bool)
    (st : State) :
    (finishOperator style token index followed st).2.imports.lastName = "" ∨
      (finishOperator style token index followed st).2.imports.lastName = st.imports.lastName := by
  rw [finishOperator_eq]
  exact st.imports.lastName_operate style token st.depth

theorem lastName_leave (depth : Nat) (ctx : ImportContext) :
    (ctx.leave depth).2.lastName = "" ∨ (ctx.leave depth).2.lastName = ctx.lastName := by
  rw [ImportContext.leave]
  split_ifs
  · cases ctx <;> exact .inl rfl
  · exact .inr rfl

/-- The last name is forgotten, kept, or the word that ends at the character. -/
theorem Move.lastName_eq (h : Move style cur c st st' next) :
    st'.imports.lastName = "" ∨ st'.imports.lastName = st.imports.lastName ∨
      (c ∈ [' ', '\n'] ∧ cur.mode ≠ .string ∧ cur.word.isBlank = false ∧
        st'.imports.lastName = cur.word.text) := by
  cases h with
  | operatorComment token =>
    exact (lastName_finishOperator style token cur.index false st).imp_right .inl
  | endOperator token =>
    exact (lastName_finishOperator style token cur.index (c == ' ') st).imp_right .inl
  | close => exact (lastName_leave st.depth st.imports).imp_right .inl
  | endWord _ mode blank =>
    rw [rememberName_eq]
    dsimp only
    split_ifs with hblank
    · exact .inr (.inl rfl)
    · rcases himports : st.imports with - | - | - | ⟨_, _, _, _, name⟩
      · exact .inl rfl
      · exact .inl rfl
      · exact .inl rfl
      · exact .inr (.inr ⟨by simpa using blank, mode, by simpa using hblank, rfl⟩)
  | _ => exact .inr (.inl rfl)

theorem nameOrder_mem_nameFindings {column : Nat} {previous name : String}
    (h : ⟨column, .nameOrder previous name⟩ ∈ nameFindings cur st) :
    cur.word.isBlank = false ∧ column = cur.word.start ∧ previous = st.imports.lastName ∧
      name = cur.word.text ∧ namesInOrder previous name = false := by
  rw [nameFindings] at h
  split at h
  case h_1 himports =>
    rw [mem_findingIf] at h
    simp only [Bool.and_eq_true, Bool.not_eq_true', Finding.mk.injEq,
      Violation.nameOrder.injEq] at h
    obtain ⟨⟨hblank, horder⟩, rfl, rfl, rfl⟩ := h
    exact ⟨hblank, rfl, by rw [himports]; rfl, rfl, horder⟩
  case h_2 => cases h

/-- Only the check of names reports a name. -/
theorem FoundBy.nameOrder_notMem {checks : List Check} {found : List Finding}
    (h : FoundBy checks found) (hchecks : .names ∉ checks) {column : Nat}
    {previous name : String} : ⟨column, .nameOrder previous name⟩ ∉ found :=
  @FoundBy.not_mem (.nameOrder previous name) checks found h hchecks column

/-- Names are compared where a word of code ends. -/
theorem nameOrder_mem_codeChar {operator? : Option Token} {column : Nat} {previous name : String}
    (h : ⟨column, .nameOrder previous name⟩ ∈ (codeChar style cur operator? c st).findings) :
    c ∈ [' ', '\n', ')', ']'] ∧ ⟨column, .nameOrder previous name⟩ ∈ nameFindings cur st := by
  unfold codeChar at h
  split_ifs at h with quote semicolon opener closer blank
  · cases h
  · rcases operator? with - | token
    · simp [mem_findingIf] at h
    · rcases List.mem_append.1 h with h | h
      · exact absurd h
          ((foundBy_finishOperator style token cur.index false st).nameOrder_notMem (by decide))
      · simp [mem_findingIf] at h
  · exact absurd h ((foundBy_openForm style cur c st).nameOrder_notMem (by decide))
  · refine ⟨by rcases closer with rfl | rfl <;> simp, ?_⟩
    unfold closeForm at h
    split at h <;> simpa [mem_findingIf] using h
  · refine ⟨by rcases blank with rfl | rfl <;> simp, ?_⟩
    rcases operator? with - | token
    · exact h
    · exact absurd h
        ((foundBy_finishOperator style token cur.index _ st).nameOrder_notMem (by decide))
  · rcases operator? with - | token <;> cases h

theorem nameOrder_mem_step {column : Nat} {previous name : String}
    (h : ⟨column, .nameOrder previous name⟩ ∈ (step style aligned cur c st).findings) :
    c ∈ [' ', '\n', ')', ']'] ∧ cur.mode ≠ .string ∧
      ⟨column, .nameOrder previous name⟩ ∈ nameFindings cur (entered aligned cur c st) := by
  by_cases hmode : cur.mode = .string
  · simp only [step, hmode, Step.after] at h
    split_ifs at h <;> simp [mem_findingIf] at h
  by_cases hspace : cur.mode = .indent ∧ c = ' '
  · simp [step, hspace, Step.after, mem_findingIf] at h
  · rw [step_of_code hmode fun hindent hc ↦ hspace ⟨hindent, hc⟩] at h
    rcases List.mem_append.1 h with h | h
    · exact absurd h
        ((foundBy_leadFindings aligned cur c st).nameOrder_notMem (by cases aligned <;> decide))
    · obtain ⟨hc, hnames⟩ := nameOrder_mem_codeChar h
      exact ⟨hc, hmode, hnames⟩

/-- Only what is not greater than the last name is reported, so there is a last name. -/
theorem ne_empty_of_nameOrder {previous : String} {word : Token} (hblank : word.isBlank = false)
    (h : namesInOrder previous word.text = false) : previous ≠ "" := by
  rintro rfl
  have hne : word.chars ≠ [] := by
    rintro hnil
    rw [Token.isBlank, hnil] at hblank
    cases hblank
  obtain ⟨c, chars, hchars⟩ :=
    List.exists_cons_of_ne_nil (fun hnil ↦ hne (List.reverse_eq_nil_iff.1 hnil))
  rw [namesInOrder, decide_eq_false_iff_not, String.lt_iff_toList_lt, Token.text, hchars,
    @String.toList_ofList (c :: chars)] at h
  exact h (List.nil_lt_cons c chars)

/-! ### What one line does with names -/

/-- What a scan finds it finds at one of the characters that it goes over, or in a comment. -/
theorem exists_step_of_mem_scan {finding : Finding}
    (h : finding ∈ (scan style aligned cur st text).findings) :
    (∃ before c rest found mid s, text = before ++ c :: rest ∧
        Scans style aligned cur st before found mid s ∧
        finding ∈ (step style aligned mid c s).findings) ∨
      ∃ index rest, finding ∈ commentFindings index rest := by
  induction text generalizing cur st with
  | nil => cases h
  | cons c text ih =>
    have hhere : finding ∈ (step style aligned cur c st).findings →
        ∃ before d rest found mid s, c :: text = before ++ d :: rest ∧
          Scans style aligned cur st before found mid s ∧
          finding ∈ (step style aligned mid d s).findings :=
      fun hmem ↦ ⟨[], c, text, [], cur, st, rfl, .nil cur st, hmem⟩
    rw [scan] at h
    rcases hnext : (step style aligned cur c st).next with mode | - | e <;> rw [hnext] at h
    · rcases List.mem_append.1 h with h | h
      · exact .inl (hhere h)
      · rcases ih h with ⟨before, d, rest, found, mid, s, rfl, hscans, hmem⟩ | hcomment
        · exact .inl ⟨c :: before, d, rest, _, mid, s, rfl, .char hnext hscans, hmem⟩
        · exact .inr hcomment
    · rcases List.mem_append.1 h with h | h
      · exact .inl (hhere h)
      · exact .inr ⟨_, _, h⟩
    · exact .inl (hhere h)

/-- The name is forgotten, or it is the one from before, or it was cut from the text where a space
or the end of the line is. -/
def KeepsName (st : State) (text : List Char) (name : String) : Prop :=
  name = "" ∨ name = st.imports.lastName ∨
    ∃ front word, name = String.ofList word ∧ Cut st.region text [' ', '\n'] front word

theorem KeepsName.append {name : String} (h : KeepsName st text name) (rest : List Char) :
    KeepsName st (text ++ rest) name := by
  refine h.imp_right (Or.imp_right ?_)
  rintro ⟨front, word, rfl, ⟨c, behind, htext, hc⟩, hcode, hcollected, hblank⟩
  exact ⟨front, word, rfl, ⟨c, behind ++ rest, by rw [htext]; simp, hc⟩, hcode, hcollected, hblank⟩

theorem KeepsName.step {found : List Finding}
    (h : Scans style aligned (.start st.inString) st' before found mid s)
    (hname : KeepsName st before s.imports.lastName) (rest : List Char) :
    KeepsName st (before ++ c :: rest)
      (step style aligned mid c s).state.imports.lastName := by
  have hmove := (move_of_step style aligned mid c s).lastName_eq
  rw [imports_entered] at hmove
  rcases hmove with hforgets | hkeeps | ⟨hc, hmode, hblank, hword⟩
  · exact .inl hforgets
  · rw [hkeeps]
    exact hname.append (c :: rest)
  · obtain ⟨front, hcut, -⟩ := h.cut hmode hblank hc rest
    exact .inr (.inr ⟨front, _, hword, hcut⟩)

theorem Scans.keepsName {found : List Finding}
    (h : Scans style aligned (.start st.inString) st' before found mid s)
    (himports : st'.imports = st.imports) : KeepsName st before s.imports.lastName := by
  refine h.induct (P := fun before _ s ↦ KeepsName st before s.imports.lastName) ?_ ?_
  · exact .inr (.inl (by rw [himports]))
  · intro before found mid s c mode hbefore hname _
    exact hname.step hbefore []

/-- A scan from the start of a line leaves a name of the line, or the one from before. -/
theorem lastName_scan (himports : st'.imports = st.imports) (text : List Char) :
    KeepsName st text
      (scan style aligned (.start st.inString) st' text).state.imports.lastName := by
  rcases scans_or_stops style aligned (.start st.inString) st' text with
    ⟨found, last, final, h⟩ | ⟨before, c, rest, found, mid, s, rfl, h, hstops⟩
  · have hscan := h.scan_append []
    rw [List.append_nil] at hscan
    rw [hscan]
    exact h.keepsName himports
  · have hlast := (h.keepsName himports).step (c := c) h rest
    rw [h.scan_append, scan]
    rcases hnext : (step style aligned mid c s).next with mode | - | e
    · exact absurd hnext (hstops mode)
    · exact hlast
    · exact hlast

/-- What is reported about names is found where a word of the line ends. -/
theorem nameOrder_mem_scan {column : Nat} {previous name : String}
    (himports : st'.imports = st.imports)
    (h : ⟨column, .nameOrder previous name⟩ ∈
      (scan style aligned (.start st.inString) st' text).findings) :
    previous ≠ "" ∧ KeepsName st text previous ∧
      ∃ front word, column = front.length ∧ name = String.ofList word ∧
        Cut st.region text [' ', '\n', ')', ']'] front word := by
  rcases exists_step_of_mem_scan h with
    ⟨before, c, rest, found, mid, s, rfl, hscans, hmem⟩ | ⟨index, rest, hmem⟩
  · obtain ⟨hc, hmode, hnames⟩ := nameOrder_mem_step hmem
    obtain ⟨hblank, rfl, rfl, rfl, horder⟩ := nameOrder_mem_nameFindings hnames
    obtain ⟨front, hcut, hstart⟩ := hscans.cut hmode hblank hc rest
    refine ⟨ne_empty_of_nameOrder hblank horder, ?_, front, _, hstart, rfl, hcut⟩
    rw [imports_entered]
    exact (hscans.keepsName himports).append (c :: rest)
  · exact absurd hmem ((foundBy_commentFindings index rest).nameOrder_notMem (by decide))

theorem lastName_lintLine (style : Style) (st : State) (content : List Char) :
    KeepsName st (content ++ ['\n']) (lintLine style st content).state.imports.lastName := by
  rw [lintLine]
  split_ifs
  · exact .inr (.inl rfl)
  · show KeepsName st _ (lintTextLine style st content).state.imports.lastName
    rw [lintTextLine]
    split_ifs
    · exact .inr (.inl rfl)
    · exact lastName_scan rfl (content ++ ['\n'])

theorem nameOrder_mem_lintLine {column : Nat} {previous name : String}
    (h : ⟨column, .nameOrder previous name⟩ ∈ (lintLine style st content).findings) :
    previous ≠ "" ∧ KeepsName st (content ++ ['\n']) previous ∧
      ∃ front word, column = front.length ∧ name = String.ofList word ∧
        Cut st.region (content ++ ['\n']) [' ', '\n', ')', ']'] front word := by
  rw [lintLine] at h
  split_ifs at h
  · simp [lintBlankLine, mem_findingIf] at h
  · replace h : _ ∈ (lintTextLine style st content).findings := h
    rw [lintTextLine] at h
    rcases List.mem_append.1 h with h | h
    · exact absurd h ((foundBy_extentFindings style content).nameOrder_notMem (by decide))
    · split_ifs at h
      · rcases List.mem_append.1 h with h | h
        · exact absurd h ((foundBy_tabFindings 0 content).nameOrder_notMem (by decide))
        · exact absurd h
            ((foundBy_commentLineFindings st.line content).nameOrder_notMem (by decide))
      · have himports : State.imports { st with blanks := 0 } = st.imports := rfl
        exact nameOrder_mem_scan himports h

/-! ### Lines in a row -/

/-- The name was cut from the line in front of one of some characters: it is what was collected
there, and a single word exactly if what stands behind the last space is one, which it then is. -/
def CutFrom (region : Region) (content enders : List Char) (column : Nat) (name : String) : Prop :=
  ∃ front word, Cut region (content ++ ['\n']) enders front word ∧ column = front.length ∧
    name = String.ofList word ∧ (IsWord word ↔ IsWord (lastRun (front ++ word))) ∧
    (IsWord word → word = lastRun (front ++ word))

theorem Cut.cutFrom {enders : List Char}
    (h : Cut region (content ++ ['\n']) enders front word) :
    CutFrom region content enders front.length (String.ofList word) :=
  ⟨front, word, h, rfl, rfl, isWord_iff_of_isCollected h.collected h.code⟩

/-- The name was cut from one of the lines where a space or the end of the line is. -/
def CutFromLines (style : Style) (lines : List (List Char)) (name : String) : Prop :=
  ∃ before content after column, lines = before ++ content :: after ∧
    CutFrom (stateAfter style before).region content [' ', '\n'] column name

theorem cutFromLines_of_keepsName {lines : List (List Char)} {name : String}
    (hlines : (stateAfter style lines).imports.lastName = "" ∨
      CutFromLines style lines (stateAfter style lines).imports.lastName)
    (h : KeepsName (stateAfter style lines) (content ++ ['\n']) name) :
    name = "" ∨ CutFromLines style (lines ++ [content]) name := by
  rcases h with h | rfl | ⟨front, word, rfl, hcut⟩
  · exact .inl h
  · refine hlines.imp_right ?_
    rintro ⟨before, line, after, column, rfl, hcut⟩
    exact ⟨before, line, after ++ [content], column, by simp, hcut⟩
  · exact .inr ⟨lines, content, [], front.length, rfl, hcut.cutFrom⟩

theorem lastName_stateAfter_or (style : Style) (lines : List (List Char)) :
    (stateAfter style lines).imports.lastName = "" ∨
      CutFromLines style lines (stateAfter style lines).imports.lastName := by
  induction lines using List.reverseRecOn with
  | nil => exact .inl rfl
  | append_singleton lines content ih =>
    rw [stateAfter_concat]
    exact cutFromLines_of_keepsName ih (lastName_lintLine style _ content)

/-- **The names that are remembered and compared are what was collected up to the end of a word.**
Each is a single word exactly if the run behind the last space is one. -/
theorem lastName_stateAfter (style : Style) (lines : List (List Char)) :
    ((stateAfter style lines).imports.lastName = "" ∨
        CutFromLines style lines (stateAfter style lines).imports.lastName) ∧
      ∀ before content after, lines = before ++ content :: after →
        ∀ column previous name, ⟨column, .nameOrder previous name⟩ ∈
            (lintLine style (stateAfter style before) content).findings →
          CutFromLines style (before ++ [content]) previous ∧
            CutFrom (stateAfter style before).region content [' ', '\n', ')', ']'] column name := by
  refine ⟨lastName_stateAfter_or style lines, ?_⟩
  rintro before content after rfl column previous name h
  obtain ⟨hne, hkept, front, word, rfl, rfl, hcut⟩ := nameOrder_mem_lintLine h
  have hprevious := cutFromLines_of_keepsName (lastName_stateAfter_or style before) hkept
  exact ⟨hprevious.resolve_left hne, hcut.cutFrom⟩

/-- A name that is smaller than the one before it on its line is reported, and both are words. -/
theorem nameOrder_of_decreasing :
    let before := ["(Chapter 1".toList]
    let content := "  (use (:1 b a".toList
    ⟨13, .nameOrder "b" "a"⟩ ∈ (lintLine .standard (stateAfter .standard before) content).findings ∧
      CutFromLines .standard (before ++ [content]) "b" ∧
      CutFrom (stateAfter .standard before).region content [' ', '\n', ')', ']'] 13 "a" := by
  have h : ⟨13, .nameOrder "b" "a"⟩ ∈ (lintLine .standard
      (stateAfter .standard ["(Chapter 1".toList]) "  (use (:1 b a".toList).findings := by
    decide +kernel
  exact ⟨h, (lastName_stateAfter .standard ["(Chapter 1".toList, "  (use (:1 b a".toList]).2
    ["(Chapter 1".toList] "  (use (:1 b a".toList [] rfl 13 "b" "a" h⟩

/-- Behind two spaces a name with a space in it is remembered, and the next one is compared with
that. -/
theorem lastName_of_two_spaces :
    let st := stateAfter .standard ["(Chapter 1".toList]
    Reachable .standard st ∧
      (lintLine .standard st "  (use (:1 b ".toList).state.imports.lastName = "b " ∧
      ⟨14, .nameOrder "b " "b"⟩ ∈ (lintLine .standard st "  (use (:1 b  b".toList).findings ∧
      ¬IsWord "b ".toList :=
  ⟨reachable_stateAfter _ _, by decide +kernel, by decide +kernel, by simp [IsWord]⟩

end SchemeStyle
