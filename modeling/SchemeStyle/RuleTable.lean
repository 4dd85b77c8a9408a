import SchemeStyle.Flags

/-!
# Indentation rules

A rule table maps operators to their indentation flags. It is an association list in which no name
occurs twice once it is built by `RuleTable.insert`; `RuleTable.withDefaults` completes the table of
a project by the built-in one.
-/

namespace SchemeStyle

/-- Operators and their indentation flags. -/
structure RuleTable where
  rules : List (String × Flags) := []
  deriving DecidableEq, Repr

namespace RuleTable

/-- The flags registered for exactly this name. -/
def find? (t : RuleTable) (name : String) : Option Flags := t.rules.lookup name

/-- Whether the name has a rule. -/
def contains (t : RuleTable) (name : String) : Bool := (t.find? name).isSome

/-- The number of rules. -/
def size (t : RuleTable) : Nat := t.rules.length

/-- Sets the flags of a name, in its old place if it had a rule. -/
def insert (t : RuleTable) (name : String) (flags : Flags) : RuleTable :=
  if t.contains name then
    ⟨t.rules.map fun rule ↦ if rule.1 = name then (name, flags) else rule⟩
  else
    ⟨t.rules ++ [(name, flags)]⟩

theorem lookup_cons_of_ne {name key : String} (h : name ≠ key) (flags : Flags)
    (rules : List (String × Flags)) : ((key, flags) :: rules).lookup name = rules.lookup name := by
  rw [List.lookup_cons, beq_eq_false_iff_ne.2 h]

theorem lookup_replace (name other : String) (flags : Flags) (rules : List (String × Flags)) :
    (rules.map fun rule ↦ if rule.1 = name then (name, flags) else rule).lookup other =
      if other = name then (rules.lookup name).map fun _ ↦ flags else rules.lookup other := by
  induction rules with
  | nil => simp
  | cons rule rules ih =>
    obtain ⟨key, value⟩ := rule
    rw [List.map_cons]
    by_cases hk : key = name
    · subst hk
      by_cases h : other = key
      · simp [h]
      · simpa [h, lookup_cons_of_ne h] using ih
    · by_cases h : other = key
      · subst h
        simp [hk]
      · have hn := Ne.symm hk
        simpa [hk, lookup_cons_of_ne h, lookup_cons_of_ne hn] using ih

/-- Setting a rule changes the flags of its own name and of no other. -/
theorem find?_insert (t : RuleTable) (name other : String) (flags : Flags) :
    (t.insert name flags).find? other = if other = name then some flags else t.find? other := by
  unfold insert
  split
  case isTrue h =>
    obtain ⟨old, h⟩ := Option.isSome_iff_exists.1 h
    rw [find?] at h
    rw [find?, lookup_replace, h]
    rfl
  case isFalse h =>
    have h : t.rules.lookup name = none := Option.not_isSome_iff_eq_none.1 h
    rw [find?, List.lookup_append]
    by_cases ho : other = name
    · subst ho
      simp [h]
    · simp [ho, find?, lookup_cons_of_ne ho]

/-- The table of a list of rules, of which a later one replaces an earlier one. -/
def ofList (rules : List (String × Flags)) : RuleTable :=
  rules.foldl (fun t rule ↦ t.insert rule.1 rule.2) {}

/-- The rules of `t`, and those of `base` for the names that `t` does not mention. -/
def withDefaults (t base : RuleTable) : RuleTable :=
  ⟨t.rules ++ base.rules.filter fun rule ↦ !t.contains rule.1⟩

theorem lookup_filter_not_contains {t : RuleTable} {name : String} (h : t.contains name = false)
    (rules : List (String × Flags)) :
    (rules.filter fun rule ↦ !t.contains rule.1).lookup name = rules.lookup name := by
  induction rules with
  | nil => rfl
  | cons rule rules ih =>
    obtain ⟨key, value⟩ := rule
    by_cases hk : name = key
    · subst hk
      simp [h]
    · rw [lookup_cons_of_ne hk, List.filter_cons]
      split
      · rw [lookup_cons_of_ne hk, ih]
      · exact ih

/-- A name has the flags of `t`, or, if `t` does not mention it, those of `base`. -/
theorem find?_withDefaults (t base : RuleTable) (name : String) :
    (t.withDefaults base).find? name = (t.find? name).or (base.find? name) := by
  rw [withDefaults, find?, List.lookup_append]
  cases h : t.rules.lookup name with
  | some flags => simp [find?, h]
  | none =>
    have hn : t.contains name = false := by simp [contains, find?, h]
    rw [lookup_filter_not_contains hn, find?, find?, h]

/-- The flags of an operator that starts at the given column, counted from zero. Wrappers are
recognised in column one only, that is, in a form whose opening delimiter starts the line. -/
def lookup (t : RuleTable) (name : String) (column : Int) : Flags :=
  let flags := (t.find? name).getD {}
  if column = 1 then flags else flags.nested

/-- The operators of the style guide. -/
def builtin : RuleTable where
  rules :=
    [("SICP", { wrapper := true }),
      ("begin", { special := true, uniform := true }),
      ("cond", { special := true, uniform := true }),
      ("library", { special := true, wrapper := true })] ++
    ["Chapter", "Exercise", "Section", "case", "define", "define-record-type", "define-syntax",
      "lambda", "let", "let*", "let-syntax", "let-values", "letrec", "parameterize", "syntax-case",
      "syntax-rules", "unless", "when", "with-mutex", "with-syntax"].map
      fun name ↦ (name, { special := true })

end RuleTable

end SchemeStyle
