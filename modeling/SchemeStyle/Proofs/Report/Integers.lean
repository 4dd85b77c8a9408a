import Mathlib.Tactic.SplitIfs
import SchemeStyle.Number.Decimal

/-!
# Integers in a report

Both forms of a report write the line and the column of a diagnostic as decimal integers, and what
reads a report back has to read those. A numeral is that of a part of its number with one more digit
behind it, in whatever base, so digits are read back by induction on the number less its last digit
(`natOfText?_toDigits`), also with zeros in front of them, as escaped characters have them. An
integer is a numeral that may have a sign (`integerOfText?_toString`); it has no other characters,
and no zero in front.
-/

namespace SchemeStyle

/-! ### Numerals -/

theorem digitValue?_digitChar {n : Nat} (h : n < 16) : digitValue? n.digitChar = some n := by
  have hdigits : ∀ n < 16, digitValue? (Nat.digitChar n) = some n := by decide
  exact hdigits n h

theorem ofDigits_concat (base : Nat) (digits : List Nat) (digit : Nat) :
    ofDigits base (digits ++ [digit]) = ofDigits base digits * base + digit := by
  rw [ofDigits, List.foldl_append]
  rfl

theorem ofDigits_replicate_append (base count : Nat) (digits : List Nat) :
    ofDigits base (List.replicate count 0 ++ digits) = ofDigits base digits := by
  induction count with
  | zero => rfl
  | succ count ih =>
    rw [List.replicate_succ, List.cons_append, ofDigits, List.foldl_cons, Nat.zero_mul,
      Nat.zero_add]
    exact ih

/-- A numeral consists of digits of its base, which have the value of the number. -/
theorem exists_digits_toDigits {base : Nat} (hbase : 1 < base) (hle : base ≤ 16) (n : Nat) :
    ∃ digits, (Nat.toDigits base n).mapM digitValue? = some digits ∧ digits ≠ [] ∧
      (∀ digit ∈ digits, digit < base) ∧ ofDigits base digits = n := by
  induction n using Nat.strongRecOn with
  | ind n ih =>
    rcases Nat.lt_or_ge n base with hn | hn
    · rw [Nat.toDigits_of_lt_base hn]
      refine ⟨[n], ?_, List.cons_ne_nil n [], by simpa using hn, by simp [ofDigits]⟩
      rw [List.mapM_cons, digitValue?_digitChar (Nat.lt_of_lt_of_le hn hle)]
      rfl
    · have hdigit : n % base < base := Nat.mod_lt n (by omega)
      obtain ⟨digits, hread, -, hdigits, hvalue⟩ :=
        ih (n / base) (Nat.div_lt_self (by omega) hbase)
      rw [Nat.toDigits_of_base_le hbase hn]
      refine ⟨digits ++ [n % base], ?_, by simp, ?_, ?_⟩
      · rw [List.mapM_append, hread, List.mapM_cons,
          digitValue?_digitChar (Nat.lt_of_lt_of_le hdigit hle)]
        rfl
      · exact List.forall_mem_append.2 ⟨hdigits, List.forall_mem_singleton.2 hdigit⟩
      · rw [ofDigits_concat, hvalue, Nat.mul_comm]
        exact Nat.div_add_mod n base

/-- **A numeral is read as its number**, with as many zeros in front as there may be. -/
theorem natOfText?_toDigits {base : Nat} (hbase : 1 < base) (hle : base ≤ 16) (zeros n : Nat) :
    natOfText? base (List.replicate zeros '0' ++ Nat.toDigits base n) = some n := by
  obtain ⟨digits, hread, hne, hdigits, hvalue⟩ := exists_digits_toDigits hbase hle n
  have hzeros : (List.replicate zeros '0').mapM digitValue? = some (List.replicate zeros 0) := by
    induction zeros with
    | zero => rfl
    | succ zeros ih =>
      rw [List.replicate_succ, List.mapM_cons, ih]
      rfl
  have hbounds : (List.replicate zeros 0 ++ digits).any (base ≤ ·) = false := by
    rw [List.any_append, Bool.or_eq_false_iff]
    constructor
    · simp [List.any_replicate, Nat.ne_of_gt (Nat.lt_trans Nat.zero_lt_one hbase)]
    · exact List.any_eq_false.2 fun digit hmem ↦ by simpa using hdigits digit hmem
  have hnotEmpty : (List.replicate zeros 0 ++ digits).isEmpty = false := by simp [hne]
  rw [natOfText?, List.mapM_append, hzeros, hread]
  show (if _ then none else _) = _
  rw [hnotEmpty, hbounds, ofDigits_replicate_append, hvalue]
  rfl

/-- Only zero is written with a zero in front. -/
theorem head?_toDigits {n : Nat} (h : (Nat.toDigits 10 n).head? = some '0') : n = 0 := by
  induction n using Nat.strongRecOn with
  | ind n ih =>
    rcases Nat.lt_or_ge n 10 with hn | hn
    · have hdigits : ∀ n < 10, n.digitChar = '0' → n = 0 := by decide
      rw [Nat.toDigits_of_lt_base hn] at h
      exact hdigits n hn (Option.some.inj h)
    · have hne := List.ne_nil_of_length_pos (Nat.length_toDigits_pos (b := 10) (n := n / 10))
      rw [Nat.toDigits_of_base_le (by decide) hn, List.head?_append, List.head?_eq_some_head hne,
        Option.some_or, ← List.head?_eq_some_head hne] at h
      have := ih (n / 10) (Nat.div_lt_self (by omega) (by decide)) h
      omega

/-! ### Integers -/

/-- The integer that a text is the numeral of: decimal digits, with a minus sign in front if it is
negative. -/
def integerOfText? : List Char → Option Int
  | '-' :: digits => (natOfText? 10 digits).map fun n : Nat ↦ -(n : Int)
  | digits => (natOfText? 10 digits).map fun n : Nat ↦ (n : Int)

/-- An integer is written as a numeral with or without a sign. -/
theorem toList_toString_int (n : Int) :
    (0 ≤ n ∧ (toString n).toList = Nat.toDigits 10 n.natAbs) ∨
      (n < 0 ∧ (toString n).toList = '-' :: Nat.toDigits 10 n.natAbs) := by
  rcases n with n | n
  · exact .inl ⟨Int.natCast_nonneg n, Nat.toList_repr⟩
  · refine .inr ⟨Int.negSucc_lt_zero n, ?_⟩
    have htext : toString (Int.negSucc n) = "-" ++ (n + 1).repr := rfl
    rw [htext, String.toList_append, Nat.toList_repr]
    rfl

theorem toList_toString_int_ne_nil (n : Int) : (toString n).toList ≠ [] := by
  have hne := List.ne_nil_of_length_pos (Nat.length_toDigits_pos (b := 10) (n := n.natAbs))
  rcases toList_toString_int n with ⟨-, htext⟩ | ⟨-, htext⟩ <;> rw [htext]
  · exact hne
  · exact List.cons_ne_nil _ _

theorem minus_notMem_toDigits (n : Nat) : '-' ∉ Nat.toDigits 10 n := by
  intro h
  have hdigit := Nat.isDigit_of_mem_toDigits (by decide) (by decide) h
  exact absurd hdigit (by decide)

/-- **An integer is read back from what is written for it.** -/
theorem integerOfText?_toString (n : Int) : integerOfText? (toString n).toList = some n := by
  have hread : natOfText? 10 (Nat.toDigits 10 n.natAbs) = some n.natAbs :=
    natOfText?_toDigits (by decide) (by decide) 0 n.natAbs
  rcases toList_toString_int n with ⟨hn, htext⟩ | ⟨hn, htext⟩ <;> rw [htext]
  · rw [integerOfText?]
    · rw [hread, Option.map_some, Int.natAbs_of_nonneg hn]
    · intro digits hdigits
      exact minus_notMem_toDigits n.natAbs (hdigits ▸ List.mem_cons_self)
  · rw [integerOfText?, hread, Option.map_some, Option.some_inj]
    omega

/-- What is written for an integer has a minus sign and digits only. -/
theorem eq_minus_or_isDigit {n : Int} {c : Char} (h : c ∈ (toString n).toList) :
    c = '-' ∨ c.isDigit = true := by
  have hdigit : c ∈ Nat.toDigits 10 n.natAbs → c.isDigit = true :=
    Nat.isDigit_of_mem_toDigits (by decide) (by decide)
  rcases toList_toString_int n with ⟨-, htext⟩ | ⟨-, htext⟩ <;> rw [htext] at h
  · exact .inr (hdigit h)
  · exact (List.mem_cons.1 h).imp_right hdigit

theorem notMem_toString_int {c : Char} (hminus : c ≠ '-') (hdigit : c.isDigit = false) (n : Int) :
    c ∉ (toString n).toList := by
  intro h
  rcases eq_minus_or_isDigit h with heq | heq
  · exact hminus heq
  · rw [heq] at hdigit
    cases hdigit

/-- A number takes one line. -/
theorem newline_notMem_repr_int (n : Int) : '\n' ∉ n.repr.toList :=
  notMem_toString_int (by decide) rfl n

end SchemeStyle
