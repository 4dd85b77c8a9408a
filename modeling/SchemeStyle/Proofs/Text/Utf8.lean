import Mathlib.Tactic.SplitIfs
import SchemeStyle.Text.Lines

/-!
# Decoding what was encoded

The decoder reads back every text from its UTF-8 bytes (`decode_toUTF8`), and no other bytes does it
read to their end (`decode_error?_eq_none_iff`). A character has one to four bytes. The first tells
how many are owed and confines the next one, and every further byte adds six bits. That the bytes of
a character keep within those bounds is what its number is good for: it is no surrogate and not
beyond the last code point. Conversely, such a number is all that the bounds let through.
-/

namespace SchemeStyle.Utf8

variable {position x k l m v : Nat} {low high b : UInt8} {bytes : List UInt8}

/-! ### Single bytes -/

theorem ofNat_lt_iff (hx : x < 256) (b : UInt8) : UInt8.ofNat x < b ↔ x < b.toNat := by
  rw [UInt8.lt_iff_toNat_lt, UInt8.toNat_ofNat_of_lt' hx]

theorem lt_ofNat_iff (hx : x < 256) (b : UInt8) : b < UInt8.ofNat x ↔ b.toNat < x := by
  rw [UInt8.lt_iff_toNat_lt, UInt8.toNat_ofNat_of_lt' hx]

theorem ofNat_eq_iff (hx : x < 256) (b : UInt8) : UInt8.ofNat x = b ↔ x = b.toNat := by
  rw [← UInt8.toNat_inj, UInt8.toNat_ofNat_of_lt' hx]

/-- What a leading byte begins, by its number. -/
theorem lead_ofNat (hx : x < 256) :
    lead (UInt8.ofNat x) =
      if x < 0x80 then .char (Char.ofNat x)
      else if x < 0xC2 then .invalid
      else if x < 0xE0 then .pending ⟨UInt8.ofNat x, 0, 1, 0x80, 0xBF, x - 0xC0⟩
      else if x < 0xF0 then
        .pending ⟨UInt8.ofNat x, 0, 2, if x = 0xE0 then 0xA0 else 0x80,
          if x = 0xED then 0x9F else 0xBF, x - 0xE0⟩
      else if x < 0xF5 then
        .pending ⟨UInt8.ofNat x, 0, 3, if x = 0xF0 then 0x90 else 0x80,
          if x = 0xF4 then 0x8F else 0xBF, x - 0xF0⟩
      else .invalid := by
  simp only [lead, ofNat_lt_iff hx, ofNat_eq_iff hx, UInt8.toNat_ofNat_of_lt' hx]
  rfl

/-- A further byte holds six bits, within bounds that the first byte may have narrowed. -/
structure Owed (low high : UInt8) (k : Nat) : Prop where
  lt : k < 64
  low_le : low.toNat ≤ k + 128
  le_high : k + 128 ≤ high.toNat

theorem Owed.of_lt (h : k < 64) : Owed 0x80 0xBF k where
  lt := h
  low_le := Nat.le_add_left 128 k
  le_high := Nat.add_le_add_right (Nat.le_of_lt_succ h) 128

/-- The bounds of the byte after some leading bytes are narrower. -/
theorem Owed.narrowed {a b : Prop} [Decidable a] [Decidable b] (h : k < 64)
    (hlow : a → low.toNat ≤ k + 128) (hhigh : b → k + 128 ≤ high.toNat) :
    Owed (if a then low else 0x80) (if b then high else 0xBF) k := by
  refine ⟨h, ?_, ?_⟩
  · split_ifs with ha
    · exact hlow ha
    · exact (Owed.of_lt h).low_le
  · split_ifs with hb
    · exact hhigh hb
    · exact (Owed.of_lt h).le_high

theorem Owed.of_narrowed {a b : Prop} [Decidable a] [Decidable b]
    (h : Owed (if a then low else 0x80) (if b then high else 0xBF) k) :
    (a → low.toNat ≤ k + 128) ∧ (b → k + 128 ≤ high.toNat) := by
  constructor
  · intro ha
    simpa only [if_pos ha] using h.low_le
  · intro hb
    simpa only [if_pos hb] using h.le_high

/-- The bytes that are owed after the first one add their bits. -/
theorem decodeFrom_owed (h : Owed low high k) (first : UInt8) (read owed bits : Nat) :
    decodeFrom position (some ⟨first, read, owed, low, high, bits⟩)
        (UInt8.ofNat (k + 128) :: bytes) =
      if owed = 1 then (decodeFrom (position + 1) none bytes).cons (Char.ofNat (bits * 64 + k))
      else
        decodeFrom (position + 1) (some ⟨first, read + 1, owed - 1, 0x80, 0xBF, bits * 64 + k⟩)
          bytes := by
  have hx : k + 128 < 256 := Nat.add_lt_add_right (Nat.lt_trans h.lt (by decide)) 128
  have hin : ¬(UInt8.ofNat (k + 128) < low ∨ high < UInt8.ofNat (k + 128)) := by
    rw [ofNat_lt_iff hx, lt_ofNat_iff hx, not_or]
    exact ⟨Nat.not_lt.2 h.low_le, Nat.not_lt.2 h.le_high⟩
  have hbits : (UInt8.ofNat (k + 128)).toNat - 0x80 = k := by
    rw [UInt8.toNat_ofNat_of_lt' hx]
    exact Nat.add_sub_cancel k 128
  rw [decodeFrom, if_neg hin, hbits]

/-! ### Characters -/

theorem decodeFrom_one (hv : v ≤ 0x7F) :
    decodeFrom position none (UInt8.ofNat v :: bytes) =
      (decodeFrom (position + 1) none bytes).cons (Char.ofNat v) := by
  rw [decodeFrom, lead_ofNat (by omega), if_pos (by omega)]

theorem decodeFrom_two (hlow : 0x80 ≤ v) (hhigh : v ≤ 0x7FF) :
    decodeFrom position none
        (UInt8.ofNat (v / 64 % 32 + 192) :: UInt8.ofNat (v % 64 + 128) :: bytes) =
      (decodeFrom (position + 2) none bytes).cons (Char.ofNat v) := by
  have hbits : (v / 64 % 32 + 192 - 0xC0) * 64 + v % 64 = v := by omega
  rw [decodeFrom, lead_ofNat (by omega), if_neg (by omega), if_neg (by omega), if_pos (by omega)]
  dsimp only
  rw [decodeFrom_owed (.of_lt (by omega)), if_pos rfl, hbits]

/-- After some leading bytes the next one is confined further, against numbers that need fewer bytes
and against surrogates. -/
theorem decodeFrom_three (hlow : 0x800 ≤ v) (hhigh : v ≤ 0xFFFF)
    (hvalid : v < 0xD800 ∨ 0xDFFF < v) :
    decodeFrom position none
        (UInt8.ofNat (v / 4096 % 16 + 224) :: UInt8.ofNat (v / 64 % 64 + 128) ::
          UInt8.ofNat (v % 64 + 128) :: bytes) =
      (decodeFrom (position + 3) none bytes).cons (Char.ofNat v) := by
  have howed : Owed (if v / 4096 % 16 + 224 = 0xE0 then 0xA0 else 0x80)
      (if v / 4096 % 16 + 224 = 0xED then 0x9F else 0xBF) (v / 64 % 64) := by
    refine .narrowed (by omega) (fun hfirst ↦ ?_) (fun hfirst ↦ ?_)
    · show 0xA0 ≤ _
      omega
    · show _ ≤ 0x9F
      omega
  have hbits : ((v / 4096 % 16 + 224 - 0xE0) * 64 + v / 64 % 64) * 64 + v % 64 = v := by omega
  rw [decodeFrom, lead_ofNat (by omega), if_neg (by omega), if_neg (by omega), if_neg (by omega),
    if_pos (by omega)]
  dsimp only
  rw [decodeFrom_owed howed, if_neg (by decide), decodeFrom_owed (.of_lt (by omega)), if_pos rfl,
    hbits]

theorem decodeFrom_four (hlow : 0x10000 ≤ v) (hhigh : v < 0x110000) :
    decodeFrom position none
        (UInt8.ofNat (v / 262144 % 8 + 240) :: UInt8.ofNat (v / 4096 % 64 + 128) ::
          UInt8.ofNat (v / 64 % 64 + 128) :: UInt8.ofNat (v % 64 + 128) :: bytes) =
      (decodeFrom (position + 4) none bytes).cons (Char.ofNat v) := by
  have howed : Owed (if v / 262144 % 8 + 240 = 0xF0 then 0x90 else 0x80)
      (if v / 262144 % 8 + 240 = 0xF4 then 0x8F else 0xBF) (v / 4096 % 64) := by
    refine .narrowed (by omega) (fun hfirst ↦ ?_) (fun hfirst ↦ ?_)
    · show 0x90 ≤ _
      omega
    · show _ ≤ 0x8F
      omega
  have hbits : (((v / 262144 % 8 + 240 - 0xF0) * 64 + v / 4096 % 64) * 64 + v / 64 % 64) * 64 +
      v % 64 = v := by omega
  rw [decodeFrom, lead_ofNat (by omega), if_neg (by omega), if_neg (by omega), if_neg (by omega),
    if_neg (by omega), if_pos (by omega)]
  dsimp only
  rw [decodeFrom_owed howed, if_neg (by decide), decodeFrom_owed (.of_lt (by omega)),
    if_neg (by decide), decodeFrom_owed (.of_lt (by omega)), if_pos rfl, hbits]

/-- **The bytes of a character are read as that character.** -/
theorem decodeFrom_utf8EncodeChar (position : Nat) (c : Char) (bytes : List UInt8) :
    ∃ next, decodeFrom position none (String.utf8EncodeChar c ++ bytes) =
      (decodeFrom next none bytes).cons c := by
  have hvalid : c.val.toNat < 0xD800 ∨ 0xDFFF < c.val.toNat ∧ c.val.toNat < 0x110000 := c.valid
  have hchar : Char.ofNat c.val.toNat = c := Char.ofNat_toNat c
  unfold String.utf8EncodeChar
  dsimp only
  split_ifs with hone htwo hthree <;> simp only [List.cons_append, List.nil_append]
  · exact ⟨position + 1, by rw [decodeFrom_one hone, hchar]⟩
  · exact ⟨position + 2, by rw [decodeFrom_two (by omega) htwo, hchar]⟩
  · exact ⟨position + 3, by rw [decodeFrom_three (by omega) hthree (by omega), hchar]⟩
  · exact ⟨position + 4, by rw [decodeFrom_four (by omega) (by omega), hchar]⟩

/-! ### Texts -/

theorem decodeFrom_flatMap (position : Nat) (chars : List Char) :
    decodeFrom position none (chars.flatMap String.utf8EncodeChar) = { chars := chars } := by
  induction chars generalizing position with
  | nil => rfl
  | cons c chars ih =>
    obtain ⟨next, h⟩ :=
      decodeFrom_utf8EncodeChar position c (chars.flatMap String.utf8EncodeChar)
    rw [List.flatMap_cons, h, ih]
    rfl

theorem toList_data_toUTF8 (text : String) :
    text.toUTF8.data.toList = text.toList.flatMap String.utf8EncodeChar :=
  calc text.toUTF8.data.toList
      = (String.ofList text.toList).toByteArray.data.toList := by
        rw [String.ofList_toList, String.toUTF8_eq_toByteArray]
    _ = text.toList.flatMap String.utf8EncodeChar := by
        rw [String.toByteArray_ofList, List.utf8Encode, List.toList_data_toByteArray]

/-- **A text is read back from its bytes.** -/
theorem decode_toUTF8 (text : String) :
    decode text.toUTF8.data.toList = { chars := text.toList } := by
  rw [toList_data_toUTF8]
  exact decodeFrom_flatMap 0 text.toList

/-! ### Nothing else is decoded -/

/-- Whether bytes are those of some character. -/
def IsChar (bytes : List UInt8) : Prop := ∃ c, String.utf8EncodeChar c = bytes

/-- The bytes of a character, by its number. -/
theorem isChar_of_isValidChar (hv : v.isValidChar) :
    IsChar <|
      if v ≤ 0x7F then [UInt8.ofNat v]
      else if v ≤ 0x7FF then [UInt8.ofNat (v / 64 % 32 + 192), UInt8.ofNat (v % 64 + 128)]
      else if v ≤ 0xFFFF then
        [UInt8.ofNat (v / 4096 % 16 + 224), UInt8.ofNat (v / 64 % 64 + 128),
          UInt8.ofNat (v % 64 + 128)]
      else
        [UInt8.ofNat (v / 262144 % 8 + 240), UInt8.ofNat (v / 4096 % 64 + 128),
          UInt8.ofNat (v / 64 % 64 + 128), UInt8.ofNat (v % 64 + 128)] :=
  ⟨Char.ofNatAux v hv, rfl⟩

theorem isChar_one (hx : x < 0x80) : IsChar [UInt8.ofNat x] := by
  have h := isChar_of_isValidChar (v := x) (.inl (by omega))
  rwa [if_pos (by omega)] at h

theorem isChar_two (hx : 0xC2 ≤ x ∧ x < 0xE0) (hk : k < 64) :
    IsChar [UInt8.ofNat x, UInt8.ofNat (k + 128)] := by
  have h := isChar_of_isValidChar (v := (x - 0xC0) * 64 + k) (.inl (by omega))
  rw [if_neg (by omega), if_pos (by omega)] at h
  have hfirst : ((x - 0xC0) * 64 + k) / 64 % 32 + 192 = x := by omega
  have hsecond : ((x - 0xC0) * 64 + k) % 64 = k := by omega
  rwa [hfirst, hsecond] at h

theorem isChar_three (hx : 0xE0 ≤ x ∧ x < 0xF0) (hk : k < 64) (hl : l < 64)
    (hlow : x = 0xE0 → 0xA0 ≤ k + 128) (hhigh : x = 0xED → k + 128 ≤ 0x9F) :
    IsChar [UInt8.ofNat x, UInt8.ofNat (k + 128), UInt8.ofNat (l + 128)] := by
  have h := isChar_of_isValidChar (v := ((x - 0xE0) * 64 + k) * 64 + l)
    (if hsurrogate : x < 0xED ∨ x = 0xED then .inl (by omega) else .inr (by omega))
  rw [if_neg (by omega), if_neg (by omega), if_pos (by omega)] at h
  have hfirst : (((x - 0xE0) * 64 + k) * 64 + l) / 4096 % 16 + 224 = x := by omega
  have hsecond : (((x - 0xE0) * 64 + k) * 64 + l) / 64 % 64 = k := by omega
  have hthird : (((x - 0xE0) * 64 + k) * 64 + l) % 64 = l := by omega
  rwa [hfirst, hsecond, hthird] at h

theorem isChar_four (hx : 0xF0 ≤ x ∧ x < 0xF5) (hk : k < 64) (hl : l < 64) (hm : m < 64)
    (hlow : x = 0xF0 → 0x90 ≤ k + 128) (hhigh : x = 0xF4 → k + 128 ≤ 0x8F) :
    IsChar [UInt8.ofNat x, UInt8.ofNat (k + 128), UInt8.ofNat (l + 128),
      UInt8.ofNat (m + 128)] := by
  have h := isChar_of_isValidChar (v := (((x - 0xF0) * 64 + k) * 64 + l) * 64 + m)
    (.inr (by omega))
  rw [if_neg (by omega), if_neg (by omega), if_neg (by omega)] at h
  have hfirst : ((((x - 0xF0) * 64 + k) * 64 + l) * 64 + m) / 262144 % 8 + 240 = x := by omega
  have hsecond : ((((x - 0xF0) * 64 + k) * 64 + l) * 64 + m) / 4096 % 64 = k := by omega
  have hthird : ((((x - 0xF0) * 64 + k) * 64 + l) * 64 + m) / 64 % 64 = l := by omega
  have hfourth : ((((x - 0xF0) * 64 + k) * 64 + l) * 64 + m) % 64 = m := by omega
  rwa [hfirst, hsecond, hthird, hfourth] at h

/-- A byte that is owed has to be there and within its bounds, and the bytes that are owed after it
are decoded. -/
theorem exists_owed {first : UInt8} {read owed bits : Nat} (hlow : 0x80 ≤ low.toNat)
    (hhigh : high.toNat ≤ 0xBF)
    (h : (decodeFrom position (some ⟨first, read, owed, low, high, bits⟩) bytes).error? = none) :
    ∃ k rest, bytes = UInt8.ofNat (k + 128) :: rest ∧ Owed low high k ∧
      (owed ≠ 1 → (decodeFrom (position + 1)
        (some ⟨first, read + 1, owed - 1, 0x80, 0xBF, bits * 64 + k⟩) rest).error? = none) := by
  rcases bytes with - | ⟨b, rest⟩
  · simp [decodeFrom] at h
  · by_cases hbounds : b < low ∨ high < b
    · simp [decodeFrom, hbounds] at h
    · rw [not_or, UInt8.lt_iff_toNat_lt, UInt8.lt_iff_toNat_lt, Nat.not_lt, Nat.not_lt] at hbounds
      obtain ⟨hb, hb'⟩ := hbounds
      have howed : Owed low high (b.toNat - 0x80) := ⟨by omega, by omega, by omega⟩
      have hbyte : UInt8.ofNat (b.toNat - 0x80 + 128) = b :=
        (ofNat_eq_iff (by omega) b).2 (by omega)
      refine ⟨b.toNat - 0x80, rest, by rw [hbyte], howed, fun hmore ↦ ?_⟩
      rwa [← hbyte, decodeFrom_owed howed, if_neg hmore] at h

/-- **What is decoded starts with a character.** -/
theorem exists_isChar_append (h : (decodeFrom position none (b :: bytes)).error? = none) :
    ∃ front rest, b :: bytes = front ++ rest ∧ IsChar front := by
  obtain ⟨x, hx, rfl⟩ : ∃ x, x < 256 ∧ UInt8.ofNat x = b :=
    ⟨b.toNat, UInt8.toNat_lt b, UInt8.ofNat_toNat⟩
  rw [decodeFrom, lead_ofNat hx] at h
  by_cases hone : x < 0x80
  · exact ⟨[UInt8.ofNat x], bytes, rfl, isChar_one hone⟩
  rw [if_neg hone] at h
  by_cases hnone : x < 0xC2
  · simp [if_pos hnone] at h
  rw [if_neg hnone] at h
  by_cases htwo : x < 0xE0
  · rw [if_pos htwo] at h
    obtain ⟨k, rest, rfl, hk, -⟩ := exists_owed (by decide) (by decide) h
    exact ⟨_, rest, rfl, isChar_two (by omega) hk.lt⟩
  rw [if_neg htwo] at h
  by_cases hthree : x < 0xF0
  · rw [if_pos hthree] at h
    obtain ⟨k, rest, rfl, hk, h⟩ :=
      exists_owed (by split_ifs <;> decide) (by split_ifs <;> decide) h
    obtain ⟨l, rest, rfl, hl, -⟩ := exists_owed (by decide) (by decide) (h (by decide))
    obtain ⟨hlow, hhigh⟩ := hk.of_narrowed
    exact ⟨_, rest, rfl, isChar_three (by omega) hk.lt hl.lt hlow hhigh⟩
  rw [if_neg hthree] at h
  by_cases hfour : x < 0xF5
  · rw [if_pos hfour] at h
    obtain ⟨k, rest, rfl, hk, h⟩ :=
      exists_owed (by split_ifs <;> decide) (by split_ifs <;> decide) h
    obtain ⟨l, rest, rfl, hl, h⟩ := exists_owed (by decide) (by decide) (h (by decide))
    obtain ⟨m, rest, rfl, hm, -⟩ := exists_owed (by decide) (by decide) (h (by decide))
    obtain ⟨hlow, hhigh⟩ := hk.of_narrowed
    exact ⟨_, rest, rfl, isChar_four (by omega) hk.lt hl.lt hm.lt hlow hhigh⟩
  simp [if_neg hfour] at h

/-- The bytes of a text that is decoded to its end are those of characters one after another. -/
theorem exists_flatMap_eq : ∀ (bytes : List UInt8) (position : Nat),
    (decodeFrom position none bytes).error? = none →
      ∃ chars : List Char, bytes = chars.flatMap String.utf8EncodeChar
  | [], _, _ => ⟨[], rfl⟩
  | b :: bytes, position, h => by
    obtain ⟨front, rest, hbytes, c, rfl⟩ := exists_isChar_append h
    obtain ⟨next, hnext⟩ := decodeFrom_utf8EncodeChar position c rest
    rw [hbytes, hnext] at h
    have hlength : rest.length < (b :: bytes).length := by
      rw [hbytes, List.length_append, String.length_utf8EncodeChar]
      have := c.utf8Size_pos
      omega
    obtain ⟨chars, hchars⟩ := exists_flatMap_eq rest next h
    exact ⟨c :: chars, by rw [hbytes, hchars, List.flatMap_cons]⟩
termination_by bytes => bytes.length
decreasing_by exact hlength

/-- **Bytes are decoded without an error if and only if they are those of a text.** -/
theorem decode_error?_eq_none_iff :
    (decode bytes).error? = none ↔ ∃ text : String, bytes = text.toUTF8.data.toList := by
  constructor
  · intro h
    obtain ⟨chars, hchars⟩ := exists_flatMap_eq bytes 0 h
    exact ⟨String.ofList chars, by rw [toList_data_toUTF8, String.toList_ofList, hchars]⟩
  · rintro ⟨text, rfl⟩
    rw [decode_toUTF8]

end SchemeStyle.Utf8

namespace SchemeStyle

/-! ### Files -/

/-- The text of a file is delivered with its line endings turned into newlines. -/
theorem readStream_toUTF8 (text : String) :
    readStream text.toUTF8.data.toList = { chars := normalizeNewlines text.toList } := by
  rw [readStream, Utf8.decode_toUTF8]

/-- Only a text is delivered to its end. -/
theorem readStream_error?_eq_none_iff {bytes : List UInt8} :
    (readStream bytes).error? = none ↔ ∃ text : String, bytes = text.toUTF8.data.toList := by
  rw [← Utf8.decode_error?_eq_none_iff, readStream]
  cases (Utf8.decode bytes).error? <;> simp

end SchemeStyle
