import Mathlib.Data.List.Basic
import SchemeStyle.Proofs.Settings.Rules

/-!
# What settings hold

In a mapping every key has one value, so the order in which its entries are read makes no difference
to what is read under a key (`IsSingleValued.lastValue?_eq_some_iff`). Six parts of a style are set
by one value each, and these values tell the style apart from others with the same indentation rules
(`Style.eq_of_value_eq`). An entry that is accepted sets the part of its key and leaves the others
as they are (`Settings.set_eq_ok`), so settings hold what the last entries with their keys say, and
a style has what its settings hold (`Settings.ofEntries_eq_ok`, `Settings.toStyle_eq_ok`).
-/

namespace SchemeStyle

variable {entries entries' rules : List (Scalar × Value)} {style : Style} {settings : Settings}
  {room : Nat}

/-! ### Entries under a name -/

/-- The entries are those of a mapping: no two of them have the same key. -/
def IsMapping (entries : List (Scalar × Value)) : Prop :=
  entries.Pairwise fun a b ↦ Scalar.sameKey a.1 b.1 = false

/-- No name has two values. -/
def IsSingleValued (entries : List (Scalar × Value)) : Prop :=
  ∀ name value value', (.text name, value) ∈ entries → (.text name, value') ∈ entries →
    value = value'

theorem IsMapping.isSingleValued (h : IsMapping entries) : IsSingleValued entries := by
  have hsame (name : String) : Scalar.sameKey (.text name) (.text name) ≠ false := by
    simp [Scalar.sameKey]
  induction entries with
  | nil => exact fun _ _ _ hmem ↦ absurd hmem List.not_mem_nil
  | cons entry rest ih =>
    obtain ⟨hentry, hrest⟩ := List.pairwise_cons.1 h
    intro name value value' hmem hmem'
    rcases List.mem_cons.1 hmem with rfl | hmem <;> rcases List.mem_cons.1 hmem' with heq | hmem'
    · exact (congrArg Prod.snd heq).symm
    · exact absurd (hentry _ hmem') (hsame name)
    · rw [← heq] at hentry
      exact absurd (hentry _ hmem) (hsame name)
    · exact ih hrest name value value' hmem hmem'

theorem IsSingleValued.perm (h : IsSingleValued entries) (hperm : entries'.Perm entries) :
    IsSingleValued entries' :=
  fun name value value' hmem hmem' ↦
    h name value value' (hperm.mem_iff.1 hmem) (hperm.mem_iff.1 hmem')

theorem lastValue?_eq_none_iff {isKey : Scalar → Bool} :
    lastValue? isKey entries = none ↔ ∀ entry ∈ entries, isKey entry.1 = false := by
  induction entries with
  | nil => exact iff_of_true rfl (List.forall_mem_nil _)
  | cons entry rest ih =>
    rw [lastValue?, Option.or_eq_none_iff, ih, List.forall_mem_cons, and_comm]
    cases isKey entry.1 <;> simp

theorem lastValue?_text_eq_none_iff {name : String} :
    lastValue? (· == .text name) entries = none ↔ ∀ value, (.text name, value) ∉ entries := by
  rw [lastValue?_eq_none_iff]
  constructor
  · intro h value hmem
    simpa using h _ hmem
  · rintro h ⟨key, value⟩ hmem
    rw [beq_eq_false_iff_ne]
    rintro rfl
    exact h value hmem

theorem exists_mem_of_lastValue? {isKey : Scalar → Bool} {value : Value}
    (h : lastValue? isKey entries = some value) :
    ∃ key, isKey key = true ∧ (key, value) ∈ entries := by
  induction entries with
  | nil => cases h
  | cons entry rest ih =>
    rw [lastValue?, Option.or_eq_some_iff] at h
    rcases h with h | ⟨-, h⟩
    · obtain ⟨key, hkey, hmem⟩ := ih h
      exact ⟨key, hkey, List.mem_cons_of_mem _ hmem⟩
    · split_ifs at h with hkey
      obtain rfl := Option.some.inj h
      exact ⟨entry.1, hkey, List.mem_cons_self⟩

/-- **A name that has but one value has it in every order.** -/
theorem IsSingleValued.lastValue?_eq_some_iff (h : IsSingleValued entries) {name : String}
    {value : Value} :
    lastValue? (· == .text name) entries = some value ↔ (.text name, value) ∈ entries := by
  have hmem {value : Value} (hlast : lastValue? (· == .text name) entries = some value) :
      (.text name, value) ∈ entries := by
    obtain ⟨key, hkey, hmem⟩ := exists_mem_of_lastValue? hlast
    rwa [eq_of_beq hkey] at hmem
  refine ⟨hmem, fun hgiven ↦ ?_⟩
  rcases hlast : lastValue? (· == .text name) entries with - | value'
  · exact absurd hgiven (lastValue?_text_eq_none_iff.1 hlast value)
  · rw [h name value' value (hmem hlast) hgiven]

theorem IsSingleValued.lastValue?_perm (h : IsSingleValued entries)
    (hperm : entries'.Perm entries) (name : String) :
    lastValue? (· == .text name) entries' = lastValue? (· == .text name) entries := by
  ext value
  rw [(h.perm hperm).lastValue?_eq_some_iff, h.lastValue?_eq_some_iff, hperm.mem_iff]

/-! ### Parts of a style -/

namespace Style

/-- The parts of a style that are set by one value each. -/
inductive Part where
  | maxColumns
  | maxDepth
  | noAlignMark
  | useKeyword
  | sectionOperators
  | extensions
  deriving DecidableEq

/-- The key that a part is set by. -/
def Part.key : Part → String
  | maxColumns => "max_columns"
  | maxDepth => "max_depth"
  | noAlignMark => "no_align_comment"
  | useKeyword => "use_keyword"
  | sectionOperators => "section_operators"
  | extensions => "extensions"

/-- A list of texts as a value. -/
def textsValue (texts : List String) : Value := .list (texts.map fun s ↦ .scalar (.text s))

/-- The value that sets a part to what it is. -/
def value (style : Style) : Part → Value
  | .maxColumns => .scalar (.int style.maxColumns)
  | .maxDepth => .scalar (.int style.maxDepth)
  | .noAlignMark => .scalar (.text style.noAlignMark)
  | .useKeyword => .scalar (.text style.useKeyword)
  | .sectionOperators => textsValue style.sectionOperators
  | .extensions => textsValue style.extensions

theorem textsValue_injective : Function.Injective textsValue := by
  intro a b h
  have hscalar : Function.Injective fun s ↦ Value.scalar (.text s) :=
    fun _ _ hst ↦ Scalar.text.inj (Value.scalar.inj hst)
  exact List.map_injective_iff.2 hscalar (Value.list.inj h)

/-- A style is told by its parts and its indentation rules. -/
theorem eq_of_value_eq {a b : Style} (h : ∀ part, a.value part = b.value part)
    (hrules : a.indentRules = b.indentRules) : a = b := by
  have hcolumns := Int.ofNat_inj.1 (Scalar.int.inj (Value.scalar.inj (h .maxColumns)))
  have hdepth := Int.ofNat_inj.1 (Scalar.int.inj (Value.scalar.inj (h .maxDepth)))
  have hmark := Scalar.text.inj (Value.scalar.inj (h .noAlignMark))
  have hkeyword := Scalar.text.inj (Value.scalar.inj (h .useKeyword))
  have hoperators := textsValue_injective (h .sectionOperators)
  have hextensions := textsValue_injective (h .extensions)
  cases a
  cases b
  simp_all

end Style

namespace Settings

/-- The value that a part was set by. -/
def value? (settings : Settings) : Style.Part → Option Value
  | .maxColumns => settings.maxColumns?.map fun n ↦ .scalar (.int n.val)
  | .maxDepth => settings.maxDepth?.map fun n ↦ .scalar (.int n.val)
  | .noAlignMark => settings.noAlignMark?.map fun s ↦ .scalar (.text s)
  | .useKeyword => settings.useKeyword?.map fun s ↦ .scalar (.text s)
  | .sectionOperators => settings.sectionOperators?.map Style.textsValue
  | .extensions => settings.extensions?.map Style.textsValue

theorem require_bind_eq_ok_iff {α β : Type} {x? : Option α} {e : SettingsError} {f : α → β}
    {b : β} :
    (set.require x? e >>= fun x ↦ pure (f x)) = .ok b ↔ ∃ x, x? = some x ∧ f x = b := by
  rw [bind_eq_ok_iff]
  cases x? <;> simp [set.require, pure, Except.pure]

/-- The table of the rules that a value holds. -/
def rulesOf? : Value → Option RuleTable
  | .map rules => (RuleTable.ofEntries rules).toOption
  | _ => none

/-- **An entry sets the part of its key**, and no other. -/
theorem set_eq_ok {settings' : Settings} {key : Scalar} {value : Value}
    (h : settings.set room key value = .ok settings') :
    (∀ part : Style.Part, settings'.value? part =
      if key == .text part.key then some value else settings.value? part) ∧
    settings'.indentRules? =
      if key == .text "indent_rules" then rulesOf? value else settings.indentRules? := by
  unfold set at h
  split at h
  case h_1 | h_2 =>
    obtain ⟨n, hn, rfl⟩ := require_bind_eq_ok_iff.1 h
    refine ⟨fun part ↦ ?_, rfl⟩
    cases part <;> simp [value?, Style.Part.key, toPositive?_eq_some_iff.1 hn]
  case h_3 | h_4 =>
    obtain ⟨s, hs, rfl⟩ := require_bind_eq_ok_iff.1 h
    refine ⟨fun part ↦ ?_, rfl⟩
    cases part <;> simp [value?, Style.Part.key, (toNonemptyText?_eq_some_iff.1 hs).2]
  case h_5 | h_6 =>
    obtain ⟨names, hnames, rfl⟩ := require_bind_eq_ok_iff.1 h
    refine ⟨fun part ↦ ?_, rfl⟩
    cases part <;>
      simp [value?, Style.Part.key, Style.textsValue, toTexts?_eq_some_iff.1 hnames]
  case h_7 =>
    split at h
    case h_1 rules =>
      obtain ⟨t, hrules, h⟩ := bind_eq_ok_iff.1 h
      obtain rfl := Except.ok.inj h
      refine ⟨fun part ↦ ?_, ?_⟩
      · cases part <;> simp [value?, Style.Part.key]
      · simp [rulesOf?, hrules, Except.toOption]
    case h_2 => cases h
  case h_8 => cases h

/-- **Settings hold what the last entries with their keys say.** -/
theorem ofEntries_eq_ok (h : ofEntries room entries = .ok settings) :
    (∀ part : Style.Part, settings.value? part = lastValue? (· == .text part.key) entries) ∧
      settings.indentRules? = (lastValue? (· == .text "indent_rules") entries).bind rulesOf? := by
  refine ⟨fun part ↦ ?_, ?_⟩
  · have hpart := foldlM_lastValue? (fun _ _ _ _ hset ↦ (set_eq_ok hset).1 part) h
    rw [hpart]
    cases lastValue? (· == .text part.key) entries with
    | none => cases part <;> rfl
    | some value => rfl
  · rw [foldlM_lastValue? (fun _ _ _ _ hset ↦ (set_eq_ok hset).2) h]
    cases lastValue? (· == .text "indent_rules") entries <;> rfl

/-- A style can be made of settings if a form may be opened at all. -/
theorem exists_toStyle_eq_ok_iff :
    (∃ style, settings.toStyle = .ok style) ↔
      2 ≤ (settings.maxDepth?.map Subtype.val).getD Style.standard.maxDepth := by
  rw [toStyle]
  split_ifs with h
  · exact iff_of_true ⟨_, rfl⟩ h
  · exact iff_of_false (by simp) h

/-- The style of some settings has what they hold in place of its own. -/
theorem toStyle_eq_ok (h : settings.toStyle = .ok style) :
    (∀ part, style.value part = (settings.value? part).getD (Style.standard.value part)) ∧
      style.indentRules = settings.indentRules?.getD Style.standard.indentRules := by
  obtain ⟨columns?, depth?, mark?, operators?, keyword?, extensions?, rules?⟩ := settings
  rw [toStyle] at h
  split_ifs at h
  obtain rfl := Except.ok.inj h
  refine ⟨fun part ↦ ?_, rfl⟩
  cases part with
  | maxColumns => cases columns? <;> rfl
  | maxDepth => cases depth? <;> rfl
  | noAlignMark => cases mark? <;> rfl
  | useKeyword => cases keyword? <;> rfl
  | sectionOperators => cases operators? <;> rfl
  | extensions => cases extensions? <;> rfl

end Settings

end SchemeStyle
