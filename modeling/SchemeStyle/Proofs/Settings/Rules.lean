import SchemeStyle.Proofs.Settings.Acceptance

/-!
# What indentation rules say

The rule of an operator names flags, one or several, in any case and in any order, and an operator
has a flag if it is named at least once (`Value.namedFlags`, `Flags.ofRule_eq`). The rules of a
mapping make a table by the names of the operators. Where two keys are the same name, as a number
and its numeral are, the later rule counts (`RuleTable.find?_ofEntries`).

Both the table and the settings as a whole are read off a list of entries, of which a later one
replaces an earlier one. What such a reading keeps of one key is told by the last entry with that
key (`foldlM_lastValue?`).
-/

namespace SchemeStyle

/-- A check in two parts passes if both parts do, the second on what the first one gave. -/
theorem bind_eq_ok_iff {ε α β : Type} {x : Except ε α} {f : α → Except ε β} {b : β} :
    (x >>= f) = .ok b ↔ ∃ a, x = .ok a ∧ f a = .ok b := by
  cases x <;> simp [bind, Except.bind]

/-! ### The last entry with a key -/

/-- The value of the last entry whose key is the right one. -/
def lastValue? (isKey : Scalar → Bool) : List (Scalar × Value) → Option Value
  | [] => none
  | (key, value) :: rest => (lastValue? isKey rest).or (if isKey key then some value else none)

/-- **Of what is read entry by entry the last one counts**, if an entry replaces what was read under
its key and leaves all else alone. -/
theorem foldlM_lastValue? {ε σ β : Type} {f : σ → Scalar × Value → Except ε σ}
    {view : σ → Option β} {isKey : Scalar → Bool} {read : Value → Option β}
    (hstep : ∀ s s' key value, f s (key, value) = .ok s' →
      view s' = if isKey key then read value else view s)
    {entries : List (Scalar × Value)} {s s' : σ} (h : entries.foldlM f s = .ok s') :
    view s' = ((lastValue? isKey entries).map read).getD (view s) := by
  induction entries generalizing s with
  | nil =>
    obtain rfl : s = s' := Except.ok.inj h
    rfl
  | cons entry rest ih =>
    obtain ⟨key, value⟩ := entry
    rw [List.foldlM_cons] at h
    obtain ⟨next, hfirst, hrest⟩ := bind_eq_ok_iff.1 h
    -- A later entry with the key decides; only if there is none does this one.
    rw [ih hrest, hstep s next key value hfirst, lastValue?]
    cases lastValue? isKey rest <;> cases isKey key <;> rfl

/-! ### Names of flags -/

namespace Flags

/-- A name in upper case, as far as the names of the flags can tell. -/
def upperCase (name : String) : String :=
  String.ofList (name.toList.map upperLetter)

/-- The names of the flags. -/
def flagNames : List String := ["SPECIAL", "WRAPPER", "UNIFORM", "DEFAULT"]

/-- A name stands for the flag that it is in upper case, if there is one. -/
theorem ofName?_eq (name : String) :
    ofName? name =
      if upperCase name ∈ flagNames then
        some {
          special := upperCase name == "SPECIAL"
          wrapper := upperCase name == "WRAPPER"
          uniform := upperCase name == "UNIFORM" }
      else none := by
  have hupper (flag : String) :
      name.toList.map upperLetter = flag.toList ↔ upperCase name = flag := by
    rw [upperCase, ← String.toList_inj, String.toList_ofList]
  simp only [ofName?, hupper]
  split_ifs <;> simp_all [flagNames]

end Flags

/-- Whether a value is a text that is the name in upper case. -/
def Value.isNamed (name : String) : Value → Bool
  | .scalar (.text s) => Flags.upperCase s == name
  | _ => false

theorem isFlagName_iff {value : Value} :
    IsFlagName value ↔ ∃ flag ∈ Flags.flagNames, value.isNamed flag = true := by
  constructor
  · rintro ⟨name, rfl, hname⟩
    rw [Flags.ofName?_eq] at hname
    split_ifs at hname with hflag
    · exact ⟨_, hflag, beq_self_eq_true _⟩
    · cases hname
  · rintro ⟨flag, hflag, hnamed⟩
    unfold Value.isNamed at hnamed
    split at hnamed
    case h_1 name =>
      refine ⟨name, rfl, ?_⟩
      rw [Flags.ofName?_eq, if_pos (eq_of_beq hnamed ▸ hflag), Option.isSome_some]
    case h_2 => cases hnamed

/-- The flags that are among the names. -/
def Flags.namedBy (names : List Value) : Flags where
  special := names.any (·.isNamed "SPECIAL")
  wrapper := names.any (·.isNamed "WRAPPER")
  uniform := names.any (·.isNamed "UNIFORM")

/-- The names in the rule of an operator: the items of a list, or else the one name. -/
def Value.ruleNames : Value → List Value
  | .list names => names
  | value => [value]

/-- The flags that the rule of an operator names. -/
def Value.namedFlags (rule : Value) : Flags := Flags.namedBy rule.ruleNames

namespace Flags

theorem ofNameValue_eq {value : Value} {flags : Flags} (h : ofNameValue value = .ok flags) :
    flags = namedBy [value] := by
  unfold ofNameValue at h
  split at h
  case h_1 name =>
    rw [ofName?_eq] at h
    split_ifs at h
    obtain rfl := Except.ok.inj h
    simp [namedBy, Value.isNamed]
  all_goals cases h

theorem ofNames_eq {names : List Value} {flags : Flags} (h : ofNames names = .ok flags) :
    flags = namedBy names := by
  induction names generalizing flags with
  | nil =>
    obtain rfl := Except.ok.inj h
    rfl
  | cons name names ih =>
    rw [ofNames] at h
    obtain ⟨first, hname, h⟩ := bind_eq_ok_iff.1 h
    obtain ⟨others, hnames, h⟩ := bind_eq_ok_iff.1 h
    obtain rfl := Except.ok.inj h
    rw [ofNameValue_eq hname, ih hnames]
    simp [Union.union, union, namedBy]

theorem named_eq {operator : Scalar} {names : List Value} {flags : Flags}
    (h : ofRule.named operator names = .ok flags) : flags = namedBy names := by
  rw [ofRule.named] at h
  split at h
  case h_1 flags' hflags =>
    split at h
    case h_1 =>
      obtain rfl := Except.ok.inj h
      exact ofNames_eq hflags
    case h_2 => cases h
  all_goals cases h

/-- **The rule of an operator gives it the flags that it names.** -/
theorem ofRule_eq {operator : Scalar} {rule : Value} {flags : Flags}
    (h : ofRule operator rule = .ok flags) : flags = rule.namedFlags := by
  unfold ofRule at h
  split at h
  case h_1 => exact named_eq h
  case h_2 => exact named_eq h
  case h_3 => cases h

end Flags

/-! ### Tables -/

namespace RuleTable

/-- **An operator has the flags of the last rule with its name.** -/
theorem find?_ofEntries {rules : List (Scalar × Value)} {t : RuleTable}
    (h : ofEntries rules = .ok t) (name : String) :
    t.find? name = (lastValue? (·.bare == name) rules).map Value.namedFlags := by
  have hstep : ∀ (t t' : RuleTable) (key : Scalar) (value : Value),
      (do
        let flags ← Flags.ofRule key value
        pure (t.insert key.bare flags) : Except SettingsError RuleTable) = .ok t' →
        t'.find? name =
          if key.bare == name then some value.namedFlags else t.find? name := by
    intro t t' key value ht
    obtain ⟨flags, hrule, ht⟩ := bind_eq_ok_iff.1 ht
    obtain rfl := Except.ok.inj ht
    rw [find?_insert, Flags.ofRule_eq hrule]
    simp only [beq_iff_eq, @eq_comm String name]
  rw [foldlM_lastValue? hstep h]
  cases lastValue? (·.bare == name) rules <;> rfl

end RuleTable

end SchemeStyle
