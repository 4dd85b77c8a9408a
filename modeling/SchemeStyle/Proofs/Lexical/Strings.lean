import Mathlib.Data.List.Induction
import Mathlib.Data.Nat.Bits
import SchemeStyle.Proofs.Scan.Progress

/-!
# Where a line leaves a string

Whether a line ends in a string is decided by its double quotes, and by the backslashes before them.
Inside a string a quote ends it, unless a backslash before the quote takes its meaning, which it
does where the backslashes before the quote are odd in number (`escapesNext`). In code a quote
starts a string, whatever is before it. A backslash is seen there too, but nobody asks for it, so a
character literal such as `#\"` is taken for the start of a string.

A line therefore goes in and out of a string once for each of its quotes outside of comments that no
backslash takes the meaning of, and once more for each quote in code that has lost it
(`inString_lintLine`). Only where those are even in number does the line end where it should.
-/

namespace SchemeStyle

variable {style : Style} {aligned : Bool} {st st' : State} {cur : Cursor} {region : Region}
  {content text : List Char} {c : Char}

/-! ### Backslashes -/

/-- Whether a backslash at the end of the text takes the meaning of the next character: it does if
none before it has taken its own. -/
def escapesNext (text : List Char) : Bool :=
  (text.reverse.takeWhile (· == '\\')).length.bodd

theorem escapesNext_concat (text : List Char) (c : Char) :
    escapesNext (text ++ [c]) = (c == '\\' && !escapesNext text) := by
  rw [escapesNext, escapesNext, List.reverse_append, List.reverse_singleton, List.singleton_append,
    List.takeWhile_cons]
  by_cases hc : c = '\\' <;> simp [hc]

/-! ### Quotes -/

/-- How many double quotes of a text have characters before them that the test accepts, from the
start of the text on. -/
def countQuotes (accepts : List Char → Bool) (text : List Char) : Nat :=
  (List.range text.length).countP fun i ↦ text[i]? == some '"' && accepts (text.take i)

theorem countQuotes_concat (accepts : List Char → Bool) (text : List Char) (c : Char) :
    countQuotes accepts (text ++ [c]) =
      countQuotes accepts text + if c = '"' ∧ accepts text = true then 1 else 0 := by
  have hbefore : (List.range text.length).countP
      (fun i ↦ (text ++ [c])[i]? == some '"' && accepts ((text ++ [c]).take i)) =
      countQuotes accepts text := by
    refine List.countP_congr fun i hi ↦ ?_
    have hlt := List.mem_range.1 hi
    rw [List.getElem?_append_left hlt, List.take_append_of_le_length (Nat.le_of_lt hlt)]
  rw [countQuotes, List.length_append, List.length_singleton, List.range_succ, List.countP_append,
    hbefore, List.countP_singleton]
  simp

/-- A quote behind this text is outside of comments, and no backslash takes its meaning. -/
def Region.quoteCounts (region : Region) (before : List Char) : Bool :=
  region.after before != .comment && !escapesNext before

/-- A quote behind this text is in code, and a backslash takes its meaning. -/
def Region.quoteEscaped (region : Region) (before : List Char) : Bool :=
  region.after before == .code && escapesNext before

/-! ### Regions -/

/-- Whether the next character belongs to a string. -/
def Region.isString : Region → Bool
  | .string _ => true
  | _ => false

/-- The start of a line is escaped by nothing. -/
theorem State.region_ne_escaped (st : State) : st.region ≠ .string true := by
  rw [region]
  split_ifs <;> simp

theorem State.isString_region (st : State) : st.region.isString = st.inString := by
  rw [region]
  cases st.inString <;> rfl

/-- In a string the lexer knows the backslashes before it. -/
theorem escapesNext_of_after (hregion : region ≠ .string true) {escaped : Bool}
    (h : region.after text = .string escaped) : escapesNext text = escaped := by
  induction text using List.reverseRecOn generalizing escaped with
  | nil =>
    rw [Region.after_nil] at h
    subst h
    rcases escaped with - | -
    · rfl
    · exact absurd rfl hregion
  | append_singleton text c ih =>
    rw [Region.after_append, Region.after_cons, Region.after_nil] at h
    rw [escapesNext_concat]
    rcases hafter : region.after text with - | - | ⟨_ | _⟩ <;> rw [hafter, Region.read] at h
    · split_ifs at h with hc
      cases h
      simp [hc]
    · cases h
    · rw [ih hafter]
      split_ifs at h with hc
      · cases h
        simp [hc]
      · cases h
        simp [hc]
    · rw [ih hafter]
      cases h
      simp

/-- A character leads into a string or out of it exactly if it is a quote that counts, or one in
code that should not. -/
theorem isString_after_concat (hregion : region ≠ .string true) (text : List Char) (c : Char) :
    (region.after (text ++ [c])).isString =
      ((region.after text).isString ^^ (decide (c = '"' ∧ region.quoteCounts text = true) ^^
        decide (c = '"' ∧ region.quoteEscaped text = true))) := by
  rw [Region.after_append, Region.after_cons, Region.after_nil, Region.quoteCounts,
    Region.quoteEscaped]
  rcases hafter : region.after text with - | - | escaped
  · by_cases hc : c = '"'
    · cases escapesNext text <;> simp [hc, Region.read, Region.isString]
    · by_cases hsemicolon : c = ';' <;> simp [hc, hsemicolon, Region.read, Region.isString]
  · simp [Region.read, Region.isString]
  · rw [escapesNext_of_after hregion hafter]
    by_cases hc : c = '"'
    · cases escaped <;> simp [hc, Region.read, Region.isString]
    · cases escaped
      · by_cases hbackslash : c = '\\' <;> simp [hc, hbackslash, Region.read, Region.isString]
      · simp [hc, Region.read, Region.isString]

/-- **A text goes in and out of a string once for each quote that counts**, and once for each in
code that should not. -/
theorem isString_after (hregion : region ≠ .string true) (text : List Char) :
    (region.after text).isString =
      (region.isString ^^
        (countQuotes region.quoteCounts text + countQuotes region.quoteEscaped text).bodd) := by
  have hone (p : Prop) [Decidable p] : Nat.bodd (if p then 1 else 0) = decide p := by
    split_ifs with h <;> simp [h]
  induction text using List.reverseRecOn with
  | nil => simp [countQuotes]
  | append_singleton text c ih =>
    rw [isString_after_concat hregion, ih, countQuotes_concat, countQuotes_concat]
    simp only [Nat.bodd_add, hone, Bool.xor_assoc]
    rw [Bool.xor_left_comm (Nat.bodd (countQuotes region.quoteEscaped text))]

/-! ### One line -/

/-- Going on after a character of code or of a string keeps track of the string. -/
theorem Move.inString_eq {mode : Mode} (h : Move style cur c st st' (.go mode))
    (hstring : st.inString = decide (cur.mode = .string)) :
    st'.inString = decide (mode = .string) := by
  cases h with
  | indent hmode | operator _ hmode => simpa [hmode] using hstring
  | string hmode => rw [hstring, hmode]
  | closeString | openString => rfl
  | «open» hmode | close hmode | code _ hmode => simpa [hmode] using hstring
  | endOperator token hmode => simpa [hmode] using hstring
  | endWord _ hmode => simpa [hmode] using hstring

/-- The start of a comment leaves the string that is open as it is. -/
theorem Move.inString_of_comment (h : Move style cur c st st' .comment) :
    st'.inString = st.inString := by
  cases h with
  | comment => rfl
  | operatorComment token => exact inString_finishOperator style token cur.index false st

theorem Cursor.isString_region (cur : Cursor) :
    cur.region.isString = decide (cur.mode = .string) := by
  rw [region]
  by_cases h : cur.mode = .string <;> simp [h, Region.isString]

/-- A scan that keeps its bounds ends in a string exactly if its text does. -/
theorem inString_scan (hstring : st.inString = decide (cur.mode = .string))
    (hends : (scan style aligned cur st text).error? = none) :
    (scan style aligned cur st text).state.inString = (cur.region.after text).isString := by
  induction text generalizing cur st with
  | nil => exact hstring.trans cur.isString_region.symm
  | cons c text ih =>
    have hmove := move_of_step style aligned cur c st
    have hentered : (entered aligned cur c st).inString = decide (cur.mode = .string) := by
      rw [inString_entered, hstring]
    rw [scan] at hends ⊢
    rcases hnext : (step style aligned cur c st).next with mode | - | e <;>
      rw [hnext] at hmove hends
    · rw [Region.after_cons, ← region_advance hmove]
      exact ih (hmove.inString_eq hentered) hends
    · have hcode := hmove.mode_of_comment
      obtain rfl := hmove.eq_semicolon
      have hregion : cur.region.after (';' :: text) = .comment := by
        rw [Cursor.region_code hcode]
        exact Region.after_comment text
      rw [hregion]
      exact hmove.inString_of_comment.trans (hentered.trans (decide_eq_false hcode))
    · cases hends

/-- Spaces lead nowhere. -/
theorem after_of_isBlankLine (hblank : isBlankLine content = true)
    (hregion : region ≠ .string true) : region.after content = region := by
  induction content with
  | nil => rfl
  | cons c content ih =>
    obtain ⟨hc, hcontent⟩ : c = ' ' ∧ isBlankLine content = true := by
      simpa [isBlankLine] using hblank
    have hread : region.read c = region := by
      subst hc
      rcases region with - | - | ⟨_ | _⟩
      · rfl
      · rfl
      · rfl
      · exact absurd rfl hregion
    rw [Region.after_cons, hread, ih hcontent]

/-- The newline at the end of a line ends no string. -/
theorem isString_after_newline (region : Region) (text : List Char) :
    (region.after (text ++ ['\n'])).isString = (region.after text).isString := by
  rw [Region.after_append, Region.after_cons, Region.after_nil]
  rcases region.after text with - | - | ⟨_ | _⟩ <;> rfl

/-- A line that keeps its bounds ends in a string exactly if its text does. -/
theorem inString_lintLine_eq_isString (hends : (lintLine style st content).error? = none) :
    (lintLine style st content).state.inString = (st.region.after content).isString := by
  by_cases hblank : isBlankLine content = true
  · rw [lintLine, if_pos hblank, after_of_isBlankLine hblank st.region_ne_escaped,
      st.isString_region]
    rfl
  rw [lintLine, if_neg hblank, lintTextLine] at hends ⊢
  split_ifs at hends ⊢ with hcomment
  · obtain ⟨hhead, hstring⟩ := hcomment
    obtain ⟨rest, rfl⟩ := List.head?_eq_some_iff.1 hhead
    have hstring : st.inString = false := by simpa using hstring
    have hregion : st.region.after (';' :: rest) = .comment := by
      rw [State.region, hstring]
      exact Region.after_comment rest
    rw [hregion]
    exact hstring
  · have hstart : ({ st with blanks := 0 } : State).inString =
        decide ((Cursor.start st.inString).mode = .string) := by
      show st.inString = _
      cases st.inString <;> rfl
    rw [← isString_after_newline, ← Cursor.region_start]
    exact inString_scan hstart hends

/-- **A line goes in and out of a string once for each double quote outside of comments that no
backslash takes the meaning of, and once for each in code that has lost it.** The former alone
decide whether it ends in a string exactly if the latter are even in number. -/
theorem inString_lintLine (hends : (lintLine style st content).error? = none) :
    let counted := countQuotes st.region.quoteCounts content
    let escaped := countQuotes st.region.quoteEscaped content
    (lintLine style st content).state.inString = (st.inString ^^ (counted + escaped).bodd) ∧
      ((lintLine style st content).state.inString = (st.inString ^^ counted.bodd) ↔
        2 ∣ escaped) := by
  have hstring := isString_after st.region_ne_escaped content
  rw [st.isString_region, ← inString_lintLine_eq_isString hends] at hstring
  refine ⟨hstring, ?_⟩
  have heven (n : Nat) : 2 ∣ n ↔ n.bodd = false := by
    rw [Nat.dvd_iff_mod_eq_zero, Nat.mod_two_of_bodd]
    cases n.bodd <;> simp
  rw [hstring, Nat.bodd_add, heven, Bool.xor_right_inj]
  cases (countQuotes st.region.quoteCounts content).bodd <;> simp

/-- A line that starts in a string, ends it behind two backslashes, and starts another, in which a
quote is escaped. The quote in its comment counts for nothing. -/
theorem inString_lintLine_of_strings :
    let st := (lintLine .standard {} "(f \"a".toList).state
    let content := "   b\\\\\" \"c\\\"d\" ; \"e".toList
    let counted := countQuotes st.region.quoteCounts content
    let escaped := countQuotes st.region.quoteEscaped content
    let o := lintLine .standard st content
    o.error? = none ∧ st.inString = true ∧ counted = 3 ∧ escaped = 0 ∧ content.count '"' = 5 ∧
      o.state.inString = (st.inString ^^ (counted + escaped).bodd) ∧
      (o.state.inString = (st.inString ^^ counted.bodd) ↔ 2 ∣ escaped) := by
  intro st content counted escaped o
  have hends : o.error? = none := by decide +kernel
  exact ⟨hends, by decide +kernel, by decide +kernel, by decide +kernel, by decide +kernel,
    inString_lintLine hends⟩

/-- A character literal starts a string: behind its backslash the quote counts for nothing, and the
delimiter behind that closes no form. -/
theorem inString_of_character_literal :
    let content := "(a #\\\")".toList
    (Reachable .standard {} ∧ isBlankLine content = false ∧ ';' ∉ content ∧
        (lintLine .standard {} content).error? = none) ∧
      countQuotes (State.region {}).quoteCounts content = 0 ∧
      (lintLine .standard {} content).state.inString = true ∧
      (lintLine .standard {} content).state.depth = 1 :=
  ⟨⟨.start, by decide, by decide, by decide +kernel⟩, by decide +kernel, by decide +kernel,
    by decide +kernel⟩

end SchemeStyle
