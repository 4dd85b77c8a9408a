import SchemeStyle.Diagnostic
import SchemeStyle.Proofs.Report.Integers

/-!
# Reading JSON objects

A report meant for programs is a sequence of JSON objects, each with texts and integers as its
members. What such an object says is settled by a reader (`Json.readObject?`). It goes by the rules
of the format and not by those of the writer: blanks may stand between any two marks, a character of
a string may stand for itself or be spelled out by a letter or by its code point, and only blanks
may follow the object. (The one thing it does not read is a character beyond the first plane that is
spelled out as a pair of surrogates.)

The reader undoes the writer. What is written for a character is read as that character, whatever
follows (`readText?_escape`), so a string ends at its own quote and at no other; and with strings
and integers told apart by their first character, members are read one after the other
(`readObject?_object`).
-/

namespace SchemeStyle

/-- The value of a member of an object. -/
inductive JsonValue where
  | text (s : String)
  | int (n : Int)
  deriving DecidableEq, Repr

/-- A member of an object: its name and its value. -/
abbrev JsonMember := String × JsonValue

namespace Json

variable {c : Char} {cs rest : List Char}

/-! ### Strings and integers -/

/-- The character that a letter after a backslash stands for. -/
def unescape? : Char → Option Char
  | '"' => some '"'
  | '\\' => some '\\'
  | '/' => some '/'
  | 'b' => some '\x08'
  | 'f' => some '\x0c'
  | 'n' => some '\n'
  | 'r' => some '\r'
  | 't' => some '\t'
  | _ => none

/-- The character with the code point that four hexadecimal digits stand for. Halves of a pair are
not characters. -/
def unescapeUnit? (digits : List Char) : Option Char := do
  let n ← natOfText? 16 digits
  if n.isValidChar then some (Char.ofNat n) else none

/-- The characters of a string up to its closing quote, and what follows the quote. A control
character has to be spelled out. -/
def readText? : List Char → Option (List Char × List Char)
  | [] => none
  | '"' :: rest => some ([], rest)
  | '\\' :: 'u' :: i :: j :: k :: l :: rest => do
    let c ← unescapeUnit? [i, j, k, l]
    let (cs, rest) ← readText? rest
    some (c :: cs, rest)
  | '\\' :: letter :: rest => do
    let c ← unescape? letter
    let (cs, rest) ← readText? rest
    some (c :: cs, rest)
  | c :: rest => do
    let (cs, rest) ← if c = '\\' ∨ c.toNat < 0x20 then none else readText? rest
    some (c :: cs, rest)

/-- Whether a character may be part of a number. -/
def isNumberChar (c : Char) : Bool :=
  c.isDigit || c == '-' || c == '+' || c == '.' || c == 'e' || c == 'E'

/-- Whether a numeral has a zero in front of other characters. -/
def hasLeadingZero : List Char → Bool
  | '-' :: '0' :: _ :: _ | '0' :: _ :: _ => true
  | _ => false

/-- The integer at the front of a text, and what follows it. -/
def readInteger? (cs : List Char) : Option (Int × List Char) := do
  let token := cs.takeWhile isNumberChar
  let n ← if hasLeadingZero token then none else integerOfText? token
  some (n, cs.dropWhile isNumberChar)

/-! ### Objects -/

/-- Whether a character may stand between two marks. -/
def isSpace (c : Char) : Bool :=
  c == ' ' || c == '\t' || c == '\n' || c == '\r'

/-- What follows a mark that comes next, behind any space. -/
def expect? (mark : Char) (cs : List Char) : Option (List Char) :=
  match cs.dropWhile isSpace with
  | [] => none
  | c :: rest => if c = mark then some rest else none

/-- The value that comes next, and what follows it. -/
def readValue? (cs : List Char) : Option (JsonValue × List Char) :=
  match expect? '"' cs with
  | some rest => (readText? rest).map fun (text, rest) ↦ (.text (String.ofList text), rest)
  | none => (readInteger? (cs.dropWhile isSpace)).map fun (n, rest) ↦ (.int n, rest)

/-- The member that comes next, and what follows it. -/
def readMember? (cs : List Char) : Option (JsonMember × List Char) := do
  let (name, rest) ← readText? (← expect? '"' cs)
  let (value, rest) ← readValue? (← expect? ':' rest)
  some ((String.ofList name, value), rest)

/-- The members that come next, divided by commas, up to the end of their object, and what follows
it. There are no more of them than the given number. -/
def readMembers? : Nat → List Char → Option (List JsonMember × List Char)
  | 0, _ => none
  | limit + 1, cs => do
    let (member, rest) ← readMember? cs
    match expect? ',' rest with
    | some rest =>
      let (members, rest) ← readMembers? limit rest
      some (member :: members, rest)
    | none => some ([member], ← expect? '\x7d' rest)

/-- The members of an object from its opening brace on, and what follows it. There cannot be more of
them than there are characters. -/
def readBody? (cs : List Char) : Option (List JsonMember × List Char) :=
  match expect? '\x7d' cs with
  | some rest => some ([], rest)
  | none => readMembers? cs.length cs

/-- The members of the object that a text consists of. -/
def readObject? (text : String) : Option (List JsonMember) := do
  let (members, rest) ← readBody? (← expect? '\x7b' text.toList)
  if rest.all isSpace then some members else none

/-! ### Strings are read back -/

theorem hexDigits_of_lt {n : Nat} (h : n < 0x20) :
    hexDigits 4 n = ['0', '0', (n / 16).digitChar, (n % 16).digitChar] := by
  have hdigits : ∀ n < 0x20,
      hexDigits 4 n = ['0', '0', (n / 16).digitChar, (n % 16).digitChar] := by decide
  exact hdigits n h

/-- A control character is read from its code point. -/
theorem unescapeUnit?_hexDigits (c : Char) :
    unescapeUnit? (hexDigits 4 c.toNat) = some c := by
  have hvalue : natOfText? 16 (hexDigits 4 c.toNat) = some c.toNat :=
    natOfText?_toDigits (by decide) (by decide) _ c.toNat
  rw [unescapeUnit?, hvalue]
  show (if c.toNat.isValidChar then some (Char.ofNat c.toNat) else none) = some c
  rw [if_pos (show c.toNat.isValidChar from c.valid), Char.ofNat_toNat]

theorem readText?_letter {letter : Char} (h : unescape? letter = some c) (rest : List Char) :
    readText? ('\\' :: letter :: rest) = (readText? rest).map fun (cs, rest) ↦ (c :: cs, rest) := by
  have hunit : letter ≠ 'u' := by
    rintro rfl
    cases h
  rw [readText?]
  · rw [h]
    cases readText? rest <;> rfl
  · rintro i j k l rest rfl
    exact absurd rfl hunit

/-- **What is written for a character is read as that character**, whatever follows. -/
theorem readText?_escape (c : Char) (rest : List Char) :
    readText? (JsonString.escape c ++ rest) =
      (readText? rest).map fun (cs, rest) ↦ (c :: cs, rest) := by
  rw [JsonString.escape]
  split_ifs with hquote hbackslash hnewline hreturn htab hfeed hbackspace hcontrol
  · exact readText?_letter (by rw [hquote]; rfl) rest
  · exact readText?_letter (by rw [hbackslash]; rfl) rest
  · exact readText?_letter (by rw [hnewline]; rfl) rest
  · exact readText?_letter (by rw [hreturn]; rfl) rest
  · exact readText?_letter (by rw [htab]; rfl) rest
  · exact readText?_letter (by rw [hfeed]; rfl) rest
  · exact readText?_letter (by rw [hbackspace]; rfl) rest
  · have hread := unescapeUnit?_hexDigits c
    rw [hexDigits_of_lt hcontrol] at hread ⊢
    show readText? ('\\' :: 'u' :: '0' :: '0' :: (c.toNat / 16).digitChar ::
      (c.toNat % 16).digitChar :: rest) = _
    rw [readText?, hread]
    cases readText? rest <;> rfl
  · rw [List.singleton_append, readText?]
    · rw [if_neg (not_or.2 ⟨hbackslash, hcontrol⟩)]
      cases readText? rest <;> rfl
    · exact hquote
    · rintro i j k l rest rfl
      exact absurd rfl hbackslash
    · rintro letter rest rfl
      exact absurd rfl hbackslash

/-- **A string ends at its own closing quote.** -/
theorem readText?_flatMap_escape (cs rest : List Char) :
    readText? (cs.flatMap JsonString.escape ++ '"' :: rest) = some (cs, rest) := by
  induction cs with
  | nil => rfl
  | cons c cs ih =>
    rw [List.flatMap_cons, List.append_assoc, readText?_escape, ih]
    rfl

/-- What is written for a character has no newline. -/
theorem newline_notMem_escape (c : Char) : '\n' ∉ JsonString.escape c := by
  rw [JsonString.escape]
  split_ifs with hquote hbackslash hnewline hreturn htab hfeed hbackspace hcontrol
  iterate 7 decide
  · have hdigits : ∀ n < 0x20, '\n' ∉ '\\' :: 'u' :: hexDigits 4 n := by decide
    exact hdigits c.toNat hcontrol
  · rw [List.mem_singleton]
    exact Ne.symm hnewline

/-- A text is written on one line. -/
theorem newline_notMem_encode (s : String) : '\n' ∉ (JsonString.encode s).toList := by
  rw [JsonString.encode, String.toList_ofList]
  simp [newline_notMem_escape]

/-! ### Members are read back -/

theorem expect?_cons (mark : Char) (hmark : isSpace mark = false) (rest : List Char) :
    expect? mark (mark :: rest) = some rest := by
  rw [expect?, List.dropWhile_cons_of_neg (by simpa using hmark)]
  exact if_pos rfl

theorem expect?_of_ne {mark : Char} (hc : isSpace c = false) (hne : c ≠ mark) (rest : List Char) :
    expect? mark (c :: rest) = none := by
  rw [expect?, List.dropWhile_cons_of_neg (by simpa using hc)]
  exact if_neg hne

theorem isNumberChar_of_mem {n : Int} (h : c ∈ (toString n).toList) : isNumberChar c = true := by
  rcases eq_minus_or_isDigit h with rfl | hdigit
  · rfl
  · simp [isNumberChar, hdigit]

theorem isSpace_of_isNumberChar (h : isNumberChar c = true) : isSpace c = false := by
  rw [Bool.eq_false_iff]
  intro hspace
  simp only [isSpace, Bool.or_eq_true, beq_iff_eq] at hspace
  rcases hspace with ((rfl | rfl) | rfl) | rfl <;> cases h

theorem hasLeadingZero_toString (n : Int) : hasLeadingZero (toString n).toList = false := by
  have hnumeral (digit : Char) (digits : List Char) :
      Nat.toDigits 10 n.natAbs ≠ '0' :: digit :: digits := by
    intro h
    rw [head?_toDigits (congrArg List.head? h)] at h
    cases h
  rw [hasLeadingZero.eq_def]
  rcases toList_toString_int n with ⟨-, htext⟩ | ⟨-, htext⟩ <;> rw [htext]
  -- A sign is told from the first digit, and the digits have no zero in front of others.
  · split
    case h_1 digit digits h =>
      exact absurd (h ▸ List.mem_cons_self) (minus_notMem_toDigits n.natAbs)
    case h_2 digit digits h => exact absurd h (hnumeral digit digits)
    case h_3 => rfl
  · split
    case h_1 digit digits h => exact absurd (List.cons.inj h).2 (hnumeral digit digits)
    case h_2 h => cases h
    case h_3 => rfl

/-- An integer ends where a character comes that is no part of a number. -/
theorem readInteger?_toString (hc : isNumberChar c = false) (n : Int) (rest : List Char) :
    readInteger? ((toString n).toList ++ c :: rest) = some (n, c :: rest) := by
  have htoken : ∀ d ∈ (toString n).toList, isNumberChar d = true := fun d ↦ isNumberChar_of_mem
  have hend : ¬isNumberChar c = true := by simp [hc]
  rw [readInteger?, List.takeWhile_append_of_pos htoken, List.dropWhile_append_of_pos htoken,
    List.takeWhile_cons_of_neg hend, List.dropWhile_cons_of_neg hend, List.append_nil]
  dsimp only
  rw [hasLeadingZero_toString, integerOfText?_toString]
  rfl

/-! ### Objects are read back -/

/-- What is written for a text. -/
def textChars (s : String) : List Char :=
  '"' :: (s.toList.flatMap JsonString.escape ++ ['"'])

/-- What is written for a value. -/
def valueChars : JsonValue → List Char
  | .text s => textChars s
  | .int n => (toString n).toList

/-- What is written for a member. -/
def memberChars (member : JsonMember) : List Char :=
  textChars member.1 ++ ':' :: ' ' :: valueChars member.2

/-- What is written for an object with the given members. -/
def objectChars (members : List JsonMember) : List Char :=
  '\x7b' :: ([',', ' '].intercalate (members.map memberChars) ++ ['\x7d'])

/-- What is written for a text is its opening quote, and then what is read up to the closing one. -/
theorem expect?_textChars (s : String) (rest : List Char) :
    ∃ cs, expect? '"' (textChars s ++ rest) = some cs ∧ readText? cs = some (s.toList, rest) := by
  refine ⟨s.toList.flatMap JsonString.escape ++ '"' :: rest, ?_,
    readText?_flatMap_escape s.toList rest⟩
  rw [textChars, List.cons_append, List.append_assoc]
  exact expect?_cons '"' rfl _

theorem readValue?_text (s : String) (rest : List Char) :
    readValue? (textChars s ++ rest) = some (.text s, rest) := by
  obtain ⟨cs, hquote, hread⟩ := expect?_textChars s rest
  rw [readValue?, hquote]
  dsimp only
  rw [hread, Option.map_some, String.ofList_toList]

theorem readValue?_int (hc : isNumberChar c = false) (n : Int) (rest : List Char) :
    readValue? ((toString n).toList ++ c :: rest) = some (.int n, c :: rest) := by
  obtain ⟨d, ds, hn⟩ := List.exists_cons_of_ne_nil (toList_toString_int_ne_nil n)
  have hd : isNumberChar d = true := isNumberChar_of_mem (hn ▸ List.mem_cons_self)
  have hspace := isSpace_of_isNumberChar hd
  have hquote : d ≠ '"' := by
    rintro rfl
    cases hd
  have hread := readInteger?_toString hc n rest
  rw [hn, List.cons_append] at hread ⊢
  rw [readValue?, expect?_of_ne hspace hquote, List.dropWhile_cons_of_neg (by simp [hspace])]
  dsimp only
  rw [hread, Option.map_some]

theorem readMember?_memberChars (hc : isNumberChar c = false) (member : JsonMember)
    (rest : List Char) :
    readMember? (memberChars member ++ c :: rest) = some (member, c :: rest) := by
  obtain ⟨name, value⟩ := member
  have hvalue : readValue? (' ' :: (valueChars value ++ c :: rest)) = some (value, c :: rest) := by
    rcases value with s | n
    · exact readValue?_text s (c :: rest)
    · exact readValue?_int hc n rest
  obtain ⟨cs, hquote, hread⟩ :=
    expect?_textChars name (':' :: ' ' :: (valueChars value ++ c :: rest))
  have hchars : memberChars (name, value) ++ c :: rest =
      textChars name ++ ':' :: ' ' :: (valueChars value ++ c :: rest) := by
    simp [memberChars]
  rw [readMember?, hchars, hquote]
  show (readText? cs >>= fun (name, rest) ↦ _) = _
  rw [hread]
  show (readValue? (' ' :: (valueChars value ++ c :: rest)) >>= fun (value, rest) ↦ _) = _
  rw [hvalue]
  show some ((String.ofList name.toList, value), c :: rest) = _
  rw [String.ofList_toList]

theorem readMembers?_space (limit : Nat) (cs : List Char) :
    readMembers? limit (' ' :: cs) = readMembers? limit cs := by
  cases limit <;> rfl

/-- Members are read one after the other, if the limit leaves room for them. -/
theorem readMembers?_intercalate (member : JsonMember) (members : List JsonMember) (limit : Nat)
    (rest : List Char) :
    readMembers? (members.length + limit + 1)
        ([',', ' '].intercalate ((member :: members).map memberChars) ++ '\x7d' :: rest) =
      some (member :: members, rest) := by
  induction members generalizing member with
  | nil =>
    rw [List.map_singleton, List.intercalate_singleton, readMembers?,
      readMember?_memberChars rfl]
    rfl
  | cons next members ih =>
    have hchars : [',', ' '].intercalate ((member :: next :: members).map memberChars) ++
          '\x7d' :: rest =
        memberChars member ++ ',' :: ' ' ::
          ([',', ' '].intercalate ((next :: members).map memberChars) ++ '\x7d' :: rest) := by
      simp [List.intercalate_cons_cons]
    have hlimit : (next :: members).length + limit = members.length + limit + 1 := by
      rw [List.length_cons]
      omega
    rw [hchars, readMembers?, readMember?_memberChars rfl]
    show (readMembers? ((next :: members).length + limit) (' ' :: _) >>=
      fun (members, rest) ↦ _) = _
    rw [hlimit, readMembers?_space, ih next]
    rfl

/-- Members start with the quote of a name, and there are fewer of them than characters. -/
theorem exists_intercalate_eq_cons (member : JsonMember) (members : List JsonMember) :
    ∃ cs, [',', ' '].intercalate ((member :: members).map memberChars) = '"' :: cs ∧
      members.length ≤ cs.length := by
  induction members generalizing member with
  | nil => exact ⟨_, List.intercalate_singleton, Nat.zero_le _⟩
  | cons next members ih =>
    obtain ⟨cs, hcs, hlength⟩ := ih next
    rw [List.map_cons, List.map_cons, List.intercalate_cons_cons, ← List.map_cons, hcs]
    refine ⟨_, rfl, ?_⟩
    simp
    omega

theorem readBody?_intercalate (members : List JsonMember) (rest : List Char) :
    readBody? ([',', ' '].intercalate (members.map memberChars) ++ '\x7d' :: rest) =
      some (members, rest) := by
  rcases members with - | ⟨member, members⟩
  · rfl
  obtain ⟨cs, hcs, hlength⟩ := exists_intercalate_eq_cons member members
  obtain ⟨limit, hlimit⟩ := Nat.exists_eq_add_of_le hlength
  have hread := readMembers?_intercalate member members (limit + 1 + rest.length) rest
  rw [hcs, List.cons_append] at hread ⊢
  rw [readBody?, expect?_of_ne rfl (by decide)]
  -- The limit of the reader is the length of what it is given, which is more than enough.
  have hfuel : ('"' :: (cs ++ '\x7d' :: rest)).length =
      members.length + (limit + 1 + rest.length) + 1 := by
    simp [hlimit]
    omega
  dsimp only
  rw [hfuel]
  exact hread

/-- **An object is read back from what is written for it.** -/
theorem readObject?_objectChars (members : List JsonMember) :
    readObject? (String.ofList (objectChars members)) = some members := by
  rw [readObject?, String.toList_ofList, objectChars, expect?_cons _ rfl]
  show (readBody? ([',', ' '].intercalate (members.map memberChars) ++ ['\x7d']) >>=
    fun (members, rest) ↦ _) = _
  rw [readBody?_intercalate]
  rfl

end Json

/-! ### Diagnostics -/

namespace Diagnostic

/-- The parts of a diagnostic, as members of an object. -/
def members (d : Diagnostic) : List JsonMember :=
  [("file", .text d.file), ("line", .int d.line), ("column", .int d.column),
    ("message", .text d.message)]

/-- The object of a diagnostic, as it is written. -/
def objectText (d : Diagnostic) : String :=
  String.ofList (Json.objectChars d.members)

/-- Whether both numbers of a diagnostic can be written. -/
def IsWritable (limit? : Option Nat) (d : Diagnostic) : Prop :=
  isWritable limit? d.line ∧ isWritable limit? d.column

instance (limit? : Option Nat) (d : Diagnostic) : Decidable (d.IsWritable limit?) := by
  unfold IsWritable
  infer_instance

/-- The numbers of a diagnostic are written, or the limit is exceeded. -/
theorem writeNumbers_eq (limit? : Option Nat) (d : Diagnostic) :
    d.writeNumbers limit? =
      if d.IsWritable limit? then .ok (toString d.line, toString d.column)
      else .error (.tooManyDigits (limit?.getD 0)) := by
  rw [writeNumbers, writeInteger_eq, writeInteger_eq]
  by_cases hline : isWritable limit? d.line = true
  · by_cases hcolumn : isWritable limit? d.column = true
    · rw [if_pos hline, if_pos hcolumn, if_pos (show d.IsWritable limit? from ⟨hline, hcolumn⟩)]
      rfl
    · rw [if_pos hline, if_neg hcolumn, if_neg fun h : d.IsWritable limit? ↦ hcolumn h.2]
      rfl
  · rw [if_neg hline, if_neg fun h : d.IsWritable limit? ↦ hline h.1]
    rfl

theorem objectText_eq (d : Diagnostic) :
    d.objectText = "\x7b\"file\": " ++ JsonString.encode d.file ++ ", \"line\": " ++
      toString d.line ++ ", \"column\": " ++ toString d.column ++ ", \"message\": " ++
        JsonString.encode d.message ++ "\x7d" := by
  have hfile : Json.textChars "file" = "\"file\"".toList := rfl
  have hline : Json.textChars "line" = "\"line\"".toList := rfl
  have hcolumn : Json.textChars "column" = "\"column\"".toList := rfl
  have hmessage : Json.textChars "message" = "\"message\"".toList := rfl
  have htext (s : String) : Json.textChars s = (JsonString.encode s).toList := by
    rw [JsonString.encode, String.toList_ofList]
    rfl
  refine String.toList_injective ?_
  rw [objectText, String.toList_ofList, Json.objectChars, members]
  simp only [List.map_cons, List.map_nil, List.intercalate_cons_cons, List.intercalate_singleton,
    Json.memberChars, Json.valueChars, hfile, hline, hcolumn, hmessage, htext d.file,
    htext d.message, String.toList_append]
  simp

/-- A diagnostic is written as an object if its numbers can be written. -/
theorem toJson_eq (limit? : Option Nat) (d : Diagnostic) :
    d.toJson limit? =
      if d.IsWritable limit? then .ok d.objectText
      else .error (.tooManyDigits (limit?.getD 0)) := by
  rw [toJson, writeNumbers_eq, objectText_eq]
  split_ifs <;> rfl

/-- A diagnostic is read back from its object. -/
theorem readObject?_objectText (d : Diagnostic) : Json.readObject? d.objectText = some d.members :=
  Json.readObject?_objectChars d.members

theorem objectText_ne_empty (d : Diagnostic) : d.objectText ≠ "" := by
  simp [objectText_eq, String.append_eq_empty_iff]

/-- A diagnostic is written on one line. -/
theorem newline_notMem_objectText (d : Diagnostic) : '\n' ∉ d.objectText.toList := by
  simp [objectText_eq, toString, Json.newline_notMem_encode, newline_notMem_repr_int]

/-- No two diagnostics have the same members. -/
theorem members_injective {d d' : Diagnostic} (h : d.members = d'.members) : d = d' := by
  obtain ⟨file, line, column, message⟩ := d
  obtain ⟨file', line', column', message'⟩ := d'
  simpa [members] using h

end Diagnostic

end SchemeStyle
