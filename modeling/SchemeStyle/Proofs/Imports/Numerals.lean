import Mathlib.Tactic.SplitIfs
import SchemeStyle.Proofs.Imports.Order

/-!
# Ids made of numbers

The components of an id are compared by their length first and by their text only then, which is no
usual order of texts. It is made for numbers: written without leading zeros the longer numeral is
that of the greater number, and of two numerals of one length the text decides digit by digit
(`IdKey.comparePart_numeral`). The induction is on the number less its last digit, since a numeral
is that of a tenth of its number with one more digit.

So ids that are made of numbers (`numberedId`) are in the order of their lists of numbers, in which
a list comes before those that extend it (`idsInOrder_numberedId_iff`). Different sigils decide
alone.
-/

namespace SchemeStyle

/-! ### Comparing lists -/

theorem compareLex_map {α β : Type} (cmp : β → β → Ordering) (f : α → β) (a b : List α) :
    (a.map f).compareLex cmp (b.map f) = a.compareLex (fun x y ↦ cmp (f x) (f y)) b := by
  induction a generalizing b with
  | nil => cases b <;> rfl
  | cons x a ih =>
    cases b with
    | nil => rfl
    | cons y b =>
      rw [List.map_cons, List.map_cons, List.compareLex_cons_cons, List.compareLex_cons_cons, ih]

/-- Lists of one length are compared by their last elements last. -/
theorem compareLex_concat {α : Type} (cmp : α → α → Ordering) {a b : List α}
    (h : a.length = b.length) (x y : α) :
    (a ++ [x]).compareLex cmp (b ++ [y]) = (a.compareLex cmp b).then (cmp x y) := by
  induction a generalizing b with
  | nil =>
    obtain rfl := List.length_eq_zero_iff.1 h.symm
    rw [List.nil_append, List.nil_append, List.compareLex_cons_cons, List.compareLex_nil_nil]
    cases cmp x y <;> rfl
  | cons c a ih =>
    obtain ⟨d, b, rfl⟩ := List.exists_cons_of_length_eq_add_one h.symm
    rw [List.cons_append, List.cons_append, List.compareLex_cons_cons, List.compareLex_cons_cons,
      ih (Nat.succ.inj h), Ordering.then_assoc]

theorem isLE_compareLex_iff (a b : List Nat) :
    (a.compareLex compare b).isLE = true ↔ a = b ∨ List.Lex (· < ·) a b := by
  induction a generalizing b with
  | nil =>
    cases b with
    | nil => simp [List.compareLex_nil_nil]
    | cons y b => simp [List.compareLex_nil_cons]
  | cons x a ih =>
    cases b with
    | nil => simp [List.compareLex_cons_nil]
    | cons y b =>
      rw [List.compareLex_cons_cons, List.cons_lex_cons_iff, List.cons.injEq]
      rcases Nat.lt_trichotomy x y with h | rfl | h
      · simp [Nat.compare_eq_lt.2 h, h]
      · simp [ih]
      · simp [Nat.compare_eq_gt.2 h, Nat.ne_of_gt h, Nat.not_lt_of_gt h]

/-- Characters are compared by code point, and what is compared behind them counts only if they are
the same. -/
theorem isLE_compare_then (s t : Char) (o : Ordering) :
    ((compare s t).then o).isLE = true ↔ s.toNat < t.toNat ∨ s = t ∧ o.isLE = true := by
  have hcompare : compare s t =
      if s.toNat < t.toNat then .lt else if s = t then .eq else .gt := rfl
  rw [hcompare]
  split_ifs with hlt heq
  · simp [hlt]
  · simp [heq]
  · simp [hlt, heq]

/-! ### Numerals -/

namespace IdKey

/-- The component of an id that a number is written as: its decimal numeral. -/
def numeral (n : Nat) : Nat × List Char :=
  ((Nat.toDigits 10 n).length, Nat.toDigits 10 n)

theorem numeral_of_lt {n : Nat} (h : n < 10) : numeral n = (1, [n.digitChar]) := by
  rw [numeral, Nat.toDigits_of_lt_base h]
  rfl

/-- The last digit comes off the end. -/
theorem numeral_of_le {n : Nat} (h : 10 ≤ n) :
    numeral n = ((numeral (n / 10)).1 + 1, (numeral (n / 10)).2 ++ [(n % 10).digitChar]) := by
  rw [numeral, Nat.toDigits_of_base_le (by decide) h, List.length_append]
  rfl

theorem compare_digitChar {m n : Nat} (hm : m < 10) (hn : n < 10) :
    compare m.digitChar n.digitChar = compare m n := by
  have hdigits : ∀ m < 10, ∀ n < 10,
      compare (Nat.digitChar m) (Nat.digitChar n) = compare m n := by decide
  exact hdigits m hm n hn

/-- Numbers are compared by their last digits last. -/
theorem compare_eq_then (m n : Nat) :
    compare m n = (compare (m / 10) (n / 10)).then (compare (m % 10) (n % 10)) := by
  rcases Nat.lt_trichotomy (m / 10) (n / 10) with h | h | h
  · rw [Nat.compare_eq_lt.2 h, Nat.compare_eq_lt.2 (by omega)]
    rfl
  · rw [h, Nat.compare_eq_eq.2 rfl]
    show compare m n = compare (m % 10) (n % 10)
    rcases Nat.lt_trichotomy (m % 10) (n % 10) with h' | h' | h'
    · rw [Nat.compare_eq_lt.2 h', Nat.compare_eq_lt.2 (by omega)]
    · rw [Nat.compare_eq_eq.2 h', Nat.compare_eq_eq.2 (by omega)]
    · rw [Nat.compare_eq_gt.2 h', Nat.compare_eq_gt.2 (by omega)]
  · rw [Nat.compare_eq_gt.2 h, Nat.compare_eq_gt.2 (by omega)]
    rfl

/-- Components that have got one more character are compared by what they were, then by that. -/
theorem comparePart_concat {p q : Nat × List Char} (hp : p.1 = p.2.length)
    (hq : q.1 = q.2.length) (c d : Char) :
    comparePart (p.1 + 1, p.2 ++ [c]) (q.1 + 1, q.2 ++ [d]) =
      (comparePart p q).then (compare c d) := by
  have hsucc : compare (p.1 + 1) (q.1 + 1) = compare p.1 q.1 := by
    simp only [Nat.compare_eq_ite_lt, Nat.add_lt_add_iff_right]
  rw [comparePart, comparePart, hsucc, Ordering.then_assoc]
  rcases hlength : compare p.1 q.1 with - | - | -
  · rfl
  · have hsame : p.2.length = q.2.length := by rw [← hp, ← hq, Nat.compare_eq_eq.1 hlength]
    exact congrArg _ (compareLex_concat compare hsame c d)
  · rfl

/-- **Numerals are compared as their numbers.** -/
theorem comparePart_numeral (m n : Nat) :
    comparePart (numeral m) (numeral n) = compare m n := by
  induction m using Nat.strongRecOn generalizing n with
  | ind m ih =>
    have hlonger (k : Nat) : 1 < (numeral k).1 + 1 := Nat.succ_lt_succ Nat.length_toDigits_pos
    rcases Nat.lt_or_ge m 10 with hm | hm <;> rcases Nat.lt_or_ge n 10 with hn | hn
    · rw [numeral_of_lt hm, numeral_of_lt hn, comparePart, List.compare_cons_cons,
        compare_digitChar hm hn, List.compare_nil_nil, Nat.compare_eq_eq.2 rfl]
      cases compare m n <;> rfl
    · rw [numeral_of_lt hm, numeral_of_le hn, comparePart, Nat.compare_eq_lt.2 (hlonger _),
        Nat.compare_eq_lt.2 (Nat.lt_of_lt_of_le hm hn)]
      rfl
    · rw [numeral_of_le hm, numeral_of_lt hn, comparePart, Nat.compare_eq_gt.2 (hlonger _),
        Nat.compare_eq_gt.2 (Nat.lt_of_lt_of_le hn hm)]
      rfl
    · have hdigit (k : Nat) : k % 10 < 10 := Nat.mod_lt k (by decide)
      rw [numeral_of_le hm, numeral_of_le hn, comparePart_concat rfl rfl, ih (m / 10) (by omega),
        compare_digitChar (hdigit m) (hdigit n), ← compare_eq_then]

end IdKey

theorem dot_notMem_toDigits (n : Nat) : '.' ∉ Nat.toDigits 10 n := by
  intro h
  have hdigit := Nat.isDigit_of_mem_toDigits (by decide) (by decide) h
  exact absurd hdigit (by decide)

/-! ### Ids -/

/-- The id of some numbers: a sigil, and their decimal numerals divided by dots. -/
def numberedId (sigil : Char) (numbers : List Nat) : String :=
  String.singleton sigil ++ ".".intercalate (numbers.map Nat.repr)

theorem toList_numberedId (sigil : Char) (numbers : List Nat) :
    (numberedId sigil numbers).toList =
      sigil :: ['.'].intercalate (numbers.map (Nat.toDigits 10)) := by
  have hnumerals : String.toList ∘ Nat.repr = Nat.toDigits 10 := by
    funext n
    exact Nat.toList_repr
  rw [numberedId, String.toList_append, String.toList_singleton, String.toList_intercalate,
    List.map_map, hnumerals]
  rfl

/-- The key of an id of numbers has their numerals as its components. A bare sigil has an empty
one. -/
theorem IdKey.ofId_numberedId (sigil : Char) (numbers : List Nat) :
    ofId (numberedId sigil numbers) =
      ⟨some sigil, if numbers = [] then [(0, [])] else numbers.map numeral⟩ := by
  rw [ofId, toList_numberedId, List.head?_cons, List.tail_cons]
  congr 1
  split_ifs with h
  · subst h
    rfl
  · have hdot : ∀ text ∈ numbers.map (Nat.toDigits 10), '.' ∉ text := by
      intro text htext
      obtain ⟨n, -, rfl⟩ := List.mem_map.1 htext
      exact dot_notMem_toDigits n
    rw [List.splitOn_intercalate '.' hdot (by simpa using h), List.map_map]
    rfl

theorem IdKey.compareLex_numerals (a b : List Nat) :
    (a.map numeral).compareLex comparePart (b.map numeral) = a.compareLex compare b := by
  have hparts : (fun m n ↦ comparePart (numeral m) (numeral n)) = compare :=
    funext₂ comparePart_numeral
  rw [compareLex_map, hparts]

/-- Ids of numbers are compared by their sigils, then by their numbers one after the other. -/
theorem compare_ofId_numberedId (s t : Char) (a b : List Nat) :
    compare (IdKey.ofId (numberedId s a)) (IdKey.ofId (numberedId t b)) =
      (compare s t).then (a.compareLex compare b) := by
  rw [IdKey.ofId_numberedId, IdKey.ofId_numberedId]
  show (compare s t).then _ = _
  congr 1
  -- The empty component of a bare sigil is shorter than any numeral.
  have hpos (n : Nat) : 0 < (IdKey.numeral n).1 := Nat.length_toDigits_pos
  rcases a with - | ⟨m, a⟩ <;> rcases b with - | ⟨n, b⟩
  · rfl
  · show List.compareLex _ [(0, [])] (IdKey.numeral n :: b.map IdKey.numeral) = .lt
    rw [List.compareLex_cons_cons, IdKey.comparePart, Nat.compare_eq_lt.2 (hpos n)]
    rfl
  · show List.compareLex _ (IdKey.numeral m :: a.map IdKey.numeral) [(0, [])] = .gt
    rw [List.compareLex_cons_cons, IdKey.comparePart, Nat.compare_eq_gt.2 (hpos m)]
    rfl
  · exact IdKey.compareLex_numerals (m :: a) (n :: b)

/-- **Ids of numbers are in the order of their numbers**, component by component, an id before those
that extend it. That is so under one sigil; of two different ones the smaller code point comes
first, whatever the numbers. -/
theorem idsInOrder_numberedId_iff (s t : Char) (a b : List Nat) :
    idsInOrder (numberedId s a) (numberedId t b) = true ↔
      s.toNat < t.toNat ∨ s = t ∧ (a = b ∨ List.Lex (· < ·) a b) := by
  rw [idsInOrder_eq_isLE, compare_ofId_numberedId, isLE_compare_then, isLE_compareLex_iff]

/-- The numbers decide, not their texts: nine comes before ten. -/
example : numberedId ':' [1, 9, 1] = ":1.9.1" ∧
    idsInOrder (numberedId ':' [1, 9, 1]) (numberedId ':' [1, 10]) = true ∧
    ":1.10" < ":1.9.1" := by
  decide +kernel

end SchemeStyle
