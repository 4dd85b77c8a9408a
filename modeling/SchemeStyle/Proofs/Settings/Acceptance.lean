import Mathlib.Tactic.SplitIfs
import SchemeStyle.Style.Load

/-!
# Which settings are accepted

A mapping of settings is checked entry by entry, and within the indentation rules operator by
operator and name by name. Each check has a verdict on what it looks at, whatever was read before:
what it accepts (`Settings.Fits`), and what ends the program instead of being reported
(`Settings.IsFatal`). A traversal passes the verdict on: it accepts a list if it accepts every item,
and ends the program at the first item that it does not accept, if that one is fatal.
-/

namespace SchemeStyle

/-! ### Verdicts -/

section Verdict

variable {ε α β σ : Type} {kind : ε → Prop} {check : Except ε α} {good good' bad bad' : Prop}

/-- A check succeeds exactly if `good` is true, and fails with an error of the given kind exactly if
`bad` is. -/
structure Verdict (kind : ε → Prop) (check : Except ε α) (good bad : Prop) : Prop where
  ok_iff : (∃ a, check = .ok a) ↔ good
  error_iff : (∃ e, check = .error e ∧ kind e) ↔ bad

namespace Verdict

theorem ok (a : α) : Verdict kind (.ok a) True False := ⟨by simp, by simp⟩

theorem error (e : ε) : Verdict kind (.error e : Except ε α) False (kind e) :=
  ⟨by simp, by simp⟩

theorem congr (h : Verdict kind check good bad) (hgood : good ↔ good') (hbad : bad ↔ bad') :
    Verdict kind check good' bad' :=
  ⟨h.ok_iff.trans hgood, h.error_iff.trans hbad⟩

/-- The second of two checks is made only if the first succeeds. -/
theorem bind {next : α → Except ε β} (h : Verdict kind check good bad)
    (hnext : ∀ a, Verdict kind (next a) good' bad') :
    Verdict kind (check >>= next) (good ∧ good') (bad ∨ good ∧ bad') := by
  rw [← h.ok_iff, ← h.error_iff]
  cases check with
  | error e => exact (error e).congr (by simp) (by simp)
  | ok a => exact (hnext a).congr (by simp) (by simp)

/-- What is made of the result of a check does not change its verdict. -/
theorem map (h : Verdict kind check good bad) (f : α → β) :
    Verdict kind (check >>= fun a ↦ pure (f a)) good bad :=
  (h.bind fun a ↦ ok (f a)).congr (by simp) (by simp)

end Verdict

/-! ### Traversals -/

/-- Some item of a list is bad, and every item before it is good. -/
def FirstBad (good bad : α → Prop) (items : List α) : Prop :=
  ∃ before item after, items = before ++ item :: after ∧ (∀ x ∈ before, good x) ∧ bad item

variable {good bad : α → Prop} {item : α} {items : List α}

theorem not_firstBad_nil : ¬FirstBad good bad [] := by
  rintro ⟨before, item, after, h, -⟩
  simp at h

theorem firstBad_cons :
    FirstBad good bad (item :: items) ↔ bad item ∨ good item ∧ FirstBad good bad items := by
  constructor
  · rintro ⟨_ | ⟨first, before⟩, x, after, h, hbefore, hx⟩
    · obtain ⟨rfl, -⟩ := List.cons_eq_cons.1 h
      exact .inl hx
    · obtain ⟨rfl, rfl⟩ := List.cons_eq_cons.1 h
      have hgood := List.forall_mem_cons.1 hbefore
      exact .inr ⟨hgood.1, before, x, after, rfl, hgood.2, hx⟩
  · rintro (h | ⟨hitem, before, x, after, rfl, hbefore, hx⟩)
    · exact ⟨[], item, items, rfl, by simp, h⟩
    · exact ⟨item :: before, x, after, rfl, List.forall_mem_cons.2 ⟨hitem, hbefore⟩, hx⟩

/-- **The first item that is not good decides.** -/
theorem Verdict.foldlM {f : σ → α → Except ε σ}
    (h : ∀ s x, Verdict kind (f s x) (good x) (bad x)) (items : List α) (s : σ) :
    Verdict kind (items.foldlM f s) (∀ x ∈ items, good x) (FirstBad good bad items) := by
  induction items generalizing s with
  | nil => exact (Verdict.ok s).congr (by simp) (by simp [not_firstBad_nil])
  | cons x items ih =>
    rw [List.foldlM_cons]
    exact ((h s x).bind ih).congr List.forall_mem_cons.symm firstBad_cons.symm

end Verdict

/-! ### Indentation rules -/

theorem Scalar.isSome_obstacle?_iff (s : Scalar) :
    s.obstacle?.isSome = true ↔ s.isShowable = false := by
  cases h : s.isShowable <;> simp [obstacle?, h]

/-- Whether a value is the name of a flag. -/
def IsFlagName (value : Value) : Prop :=
  ∃ name, value = .scalar (.text name) ∧ (Flags.ofName? name).isSome

/-- Whether a value is neither a text nor bytes. -/
def IsNoText : Value → Prop
  | .scalar (.text _) | .scalar (.bytes _) => False
  | _ => True

/-- Whether a value is the rule of an operator that can be shown: the name of a flag, or a list of
such names. -/
def IsRule (operator : Scalar) (value : Value) : Prop :=
  operator.isShowable ∧
    (IsFlagName value ∨ ∃ names, value = .list names ∧ ∀ name ∈ names, IsFlagName name)

/-- Whether the rule of an operator ends the program: the operator cannot be shown, or the first
item of a list that is no name of a flag is no text either. -/
def IsFatalRule (operator : Scalar) (value : Value) : Prop :=
  operator.isShowable = false ∨
    ∃ names, value = .list names ∧ FirstBad IsFlagName IsNoText names

namespace SettingsError

/-- Whether an error ends the program: it is about the machinery, not about the style. -/
def IsFatal : SettingsError → Prop
  | flagNotText _ | unshowable _ => True
  | _ => False

theorem isAnswered_eq_false_iff {e : SettingsError} :
    (ConfigError.settings e).isAnswered = false ↔ e.IsFatal := by
  cases e <;> simp [ConfigError.isAnswered, IsFatal]

/-- Any other error ends the program too if its words cannot be shown. -/
theorem isFatal_showing {obstacle? : Option ShowError} {e : SettingsError} (he : ¬e.IsFatal) :
    (showing obstacle? e).IsFatal ↔ obstacle?.isSome = true := by
  cases obstacle? with
  | none => exact iff_of_false he (by simp)
  | some obstacle => exact iff_of_true trivial rfl

end SettingsError

namespace Flags

/-- What is no name of a flag is unknown if it is a text, and of the wrong kind if it is none. -/
theorem verdict_ofNameValue (value : Value) :
    Verdict (fun e ↦ ∀ name, e ≠ .unknown name) (ofNameValue value) (IsFlagName value)
      (IsNoText value) := by
  unfold ofNameValue
  split
  case h_1 name =>
    split
    case h_1 flags h =>
      exact (Verdict.ok flags).congr (by simp [IsFlagName, h]) (by simp [IsNoText])
    case h_2 h =>
      exact (Verdict.error _).congr (by simp [IsFlagName, h]) (by simp [IsNoText])
  case h_2 data => exact (Verdict.error _).congr (by simp [IsFlagName]) (by simp [IsNoText])
  case h_3 htext hbytes =>
    refine (Verdict.error _).congr (iff_of_false id ?_) (iff_of_true (by simp) ?_)
    · rintro ⟨name, rfl, -⟩
      exact htext name rfl
    · rw [IsNoText]
      · trivial
      · exact htext
      · exact hbytes

theorem verdict_ofNames (names : List Value) :
    Verdict (fun e ↦ ∀ name, e ≠ .unknown name) (ofNames names) (∀ name ∈ names, IsFlagName name)
      (FirstBad IsFlagName IsNoText names) := by
  induction names with
  | nil => exact (Verdict.ok _).congr (by simp) (by simp [not_firstBad_nil])
  | cons name names ih =>
    exact ((verdict_ofNameValue name).bind fun flags ↦ ih.map (flags ∪ ·)).congr
      List.forall_mem_cons.symm firstBad_cons.symm

theorem verdict_named (operator : Scalar) (names : List Value) :
    Verdict SettingsError.IsFatal (ofRule.named operator names)
      (operator.isShowable ∧ ∀ name ∈ names, IsFlagName name)
      (operator.isShowable = false ∨ FirstBad IsFlagName IsNoText names) := by
  rw [← (verdict_ofNames names).ok_iff, ← (verdict_ofNames names).error_iff, ofRule.named]
  rcases ofNames names with (name | value | value) | flags
  · refine (Verdict.error _).congr (by simp) ?_
    rw [SettingsError.isFatal_showing (by simp [SettingsError.IsFatal]),
      Scalar.isSome_obstacle?_iff]
    simp
  · exact (Verdict.error _).congr (by simp) (by simp [SettingsError.IsFatal])
  · exact (Verdict.error _).congr (by simp) (by simp [SettingsError.IsFatal])
  · dsimp only
    rw [Scalar.obstacle?]
    cases operator.isShowable with
    | true => exact (Verdict.ok _).congr (by simp) (by simp)
    | false => exact (Verdict.error _).congr (by simp) (by simp [SettingsError.IsFatal])

/-- The rule of an operator is accepted if it names flags and the operator can be shown. -/
theorem verdict_ofRule (operator : Scalar) (value : Value) :
    Verdict SettingsError.IsFatal (ofRule operator value) (IsRule operator value)
      (IsFatalRule operator value) := by
  unfold ofRule
  split
  case h_1 name =>
    refine (verdict_named operator [.scalar (.text name)]).congr (by simp [IsRule]) ?_
    simp [IsFatalRule, firstBad_cons, not_firstBad_nil, IsNoText]
  case h_2 names =>
    exact (verdict_named operator names).congr (by simp [IsRule, IsFlagName])
      (by simp [IsFatalRule])
  case h_3 htext hlist =>
    have hrule : ¬IsRule operator value := by
      rintro ⟨-, ⟨name, rfl, -⟩ | ⟨names, rfl, -⟩⟩
      · exact htext name rfl
      · exact hlist names rfl
    have hnames : ¬∃ names, value = .list names ∧ FirstBad IsFlagName IsNoText names :=
      fun ⟨names, hvalue, _⟩ ↦ hlist names hvalue
    refine (Verdict.error _).congr (by simp [hrule]) ?_
    rw [SettingsError.isFatal_showing (by simp [SettingsError.IsFatal]),
      Scalar.isSome_obstacle?_iff, IsFatalRule, or_iff_left hnames]

end Flags

/-- **Indentation rules are accepted if the rule of every operator is.** -/
theorem RuleTable.verdict_ofEntries (entries : List (Scalar × Value)) :
    Verdict SettingsError.IsFatal (ofEntries entries)
      (∀ entry ∈ entries, IsRule entry.1 entry.2)
      (FirstBad (fun entry ↦ IsRule entry.1 entry.2) (fun entry ↦ IsFatalRule entry.1 entry.2)
        entries) :=
  Verdict.foldlM (fun (t : RuleTable) entry ↦ (Flags.verdict_ofRule entry.1 entry.2).map
    fun flags ↦ t.insert entry.1.bare flags) entries {}

/-! ### Settings -/

namespace Settings

/-- Whether a value may stand under a key. -/
def Fits : Scalar → Value → Prop
  | .text "max_columns", value | .text "max_depth", value =>
    ∃ n : Nat, 0 < n ∧ value = .scalar (.int n)
  | .text "no_align_comment", value | .text "use_keyword", value =>
    ∃ s, s ≠ "" ∧ value = .scalar (.text s)
  | .text "section_operators", value | .text "extensions", value =>
    ∃ names : List String, value = .list (names.map fun s ↦ .scalar (.text s))
  | .text "indent_rules", value =>
    ∃ entries, value = .map entries ∧ ∀ entry ∈ entries, IsRule entry.1 entry.2
  | _, _ => False

/-- Whether an entry ends the program: the report of its key or value cannot be shown, or so it is
with the first operator whose rule is not accepted. -/
def IsFatal (room : Nat) : Scalar → Value → Prop
  | .text "max_columns", value | .text "max_depth", value =>
    (value.showError? (room + 3)).isSome ∧ ¬∃ n : Nat, 0 < n ∧ value = .scalar (.int n)
  | .text "indent_rules", value =>
    ∃ entries, value = .map entries ∧
      FirstBad (fun entry ↦ IsRule entry.1 entry.2) (fun entry ↦ IsFatalRule entry.1 entry.2)
        entries
  | key, _ => key.isShowable = false

/-- A value that is required is there, or the error is reported. -/
theorem verdict_require {α : Type} (x? : Option α) (e : SettingsError) :
    Verdict SettingsError.IsFatal (set.require x? e) (∃ x, x? = some x)
      (x? = none ∧ e.IsFatal) := by
  cases x? with
  | none => exact (Verdict.error e).congr (by simp) (by simp)
  | some x => exact (Verdict.ok x).congr (by simp) (by simp)

theorem toPositive?_eq_some_iff {value : Value} {n : { n : Nat // 0 < n }} :
    value.toPositive? = some n ↔ value = .scalar (.int n.val) := by
  constructor
  · unfold Value.toPositive?
    intro h
    split at h
    case h_1 m =>
      split_ifs at h with hm
      obtain rfl := Option.some.inj h
      simp only [Value.scalar.injEq, Scalar.int.injEq]
      omega
    case h_2 => cases h
  · rintro rfl
    simp [Value.toPositive?, n.property]

theorem toNonemptyText?_eq_some_iff {value : Value} {s : String} :
    value.toNonemptyText? = some s ↔ s ≠ "" ∧ value = .scalar (.text s) := by
  constructor
  · unfold Value.toNonemptyText?
    intro h
    split at h
    case h_1 t =>
      split_ifs at h with ht
      obtain rfl := Option.some.inj h
      exact ⟨by simpa using ht, rfl⟩
    case h_2 => cases h
  · rintro ⟨hs, rfl⟩
    simp [Value.toNonemptyText?, hs]

theorem toText?_eq_some_iff {value : Value} {s : String} :
    value.toText? = some s ↔ value = .scalar (.text s) := by
  constructor
  · unfold Value.toText?
    intro h
    split at h
    · rw [Option.some.inj h]
    · cases h
  · rintro rfl
    rfl

theorem mapM_toText?_eq_some_iff {items : List Value} {names : List String} :
    items.mapM Value.toText? = some names ↔ items = names.map fun s ↦ .scalar (.text s) := by
  induction items generalizing names with
  | nil => cases names <;> simp
  | cons item items ih =>
    cases names <;> simp [List.mapM_cons, Option.bind_eq_some_iff, toText?_eq_some_iff, ih]

theorem toTexts?_eq_some_iff {value : Value} {names : List String} :
    value.toTexts? = some names ↔ value = .list (names.map fun s ↦ .scalar (.text s)) := by
  constructor
  · unfold Value.toTexts?
    intro h
    split at h
    · rw [mapM_toText?_eq_some_iff.1 h]
    · cases h
  · rintro rfl
    exact mapM_toText?_eq_some_iff.2 rfl

/-- An entry is accepted if its value fits its key, whatever was set before. -/
theorem verdict_set (room : Nat) (settings : Settings) (key : Scalar) (value : Value) :
    Verdict SettingsError.IsFatal (settings.set room key value) (Fits key value)
      (IsFatal room key value) := by
  unfold set
  split
  case h_1 | h_2 =>
    refine ((verdict_require _ _).map _).congr (by simp [toPositive?_eq_some_iff, Fits]) ?_
    rw [SettingsError.isFatal_showing (by simp [SettingsError.IsFatal]),
      Option.eq_none_iff_forall_ne_some]
    simp [toPositive?_eq_some_iff, IsFatal, and_comm]
  case h_3 | h_4 =>
    exact ((verdict_require _ _).map _).congr (by simp [toNonemptyText?_eq_some_iff, Fits])
      (by simp [IsFatal, Scalar.isShowable, SettingsError.IsFatal])
  case h_5 | h_6 =>
    exact ((verdict_require _ _).map _).congr (by simp [toTexts?_eq_some_iff, Fits])
      (by simp [IsFatal, Scalar.isShowable, SettingsError.IsFatal])
  case h_7 =>
    split
    case h_1 entries =>
      exact ((RuleTable.verdict_ofEntries entries).map _).congr (by simp [Fits]) (by simp [IsFatal])
    case h_2 hmap =>
      have hentries (p : List (Scalar × Value) → Prop) :
          ¬∃ entries, value = .map entries ∧ p entries :=
        fun ⟨entries, hvalue, _⟩ ↦ hmap entries hvalue
      exact (Verdict.error _).congr (iff_of_false id (hentries _)) (iff_of_false id (hentries _))
  case h_8 =>
    refine (Verdict.error _).congr (iff_of_false id ?_) ?_
    · rw [Fits]
      · exact id
      all_goals assumption
    · rw [SettingsError.isFatal_showing (by simp [SettingsError.IsFatal]),
        Scalar.isSome_obstacle?_iff, IsFatal] <;> assumption

/-- **A mapping of settings is accepted if every value fits its key.** -/
theorem verdict_ofEntries (room : Nat) (entries : List (Scalar × Value)) :
    Verdict SettingsError.IsFatal (ofEntries room entries)
      (∀ entry ∈ entries, Fits entry.1 entry.2)
      (FirstBad (fun entry ↦ Fits entry.1 entry.2) (fun entry ↦ IsFatal room entry.1 entry.2)
        entries) :=
  Verdict.foldlM (fun (settings : Settings) entry ↦ settings.verdict_set room entry.1 entry.2)
    entries {}

end Settings

end SchemeStyle
