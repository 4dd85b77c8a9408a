import SchemeStyle.Proofs.Settings.Mapping

/-!
# Which mappings describe a style, and which style

A mapping of settings describes a style if every value is one that its key asks for, and every
operator with a rule can be shown, since it is named by its text (`Style.ofValue_of_isMapping`). The
entries are checked one at a time and in order, and the depth only after all of them, but none of
that can be seen in the outcome. The style is the standard one with the given parts in place of its
own, the same one in whatever order they are given.

The rules of operators complete the built-in ones: an operator that is configured has the flags that
its rule names, any other one those that it has anyway (`RuleTable.Completes`).
-/

namespace SchemeStyle

variable {entries entries' rules : List (Scalar × Value)} {style : Style} {settings : Settings}
  {key : Scalar} {value : Value} {room : Nat}

/-! ### What is accepted -/

/-- Whether a value is the rule of an operator: the name of a flag, in any case, or a list of such
names. -/
def Value.NamesFlags (rule : Value) : Prop :=
  ∀ name ∈ rule.ruleNames, ∃ flag ∈ Flags.flagNames, name.isNamed flag = true

instance (rule : Value) : Decidable rule.NamesFlags := by
  unfold Value.NamesFlags
  infer_instance

theorem isRule_iff {operator : Scalar} {rule : Value} :
    IsRule operator rule ↔ operator.isShowable = true ∧ rule.NamesFlags := by
  refine and_congr_right fun _ ↦ ?_
  simp only [Value.NamesFlags, ← isFlagName_iff]
  cases rule with
  | list names => simp [Value.ruleNames, IsFlagName]
  | _ => simp [Value.ruleNames]

/-- The rules of operators that the entries give. -/
def givenRules (entries : List (Scalar × Value)) : List (Scalar × Value) :=
  match lastValue? (· == .text "indent_rules") entries with
  | some (.map rules) => rules
  | _ => []

theorem IsSingleValued.givenRules_eq (h : IsSingleValued entries)
    (hrules : (.text "indent_rules", .map rules) ∈ entries) : givenRules entries = rules := by
  rw [givenRules, h.lastValue?_eq_some_iff.2 hrules]

theorem exists_mem_of_givenRules {rule : Scalar × Value} (h : rule ∈ givenRules entries) :
    ∃ rules, (.text "indent_rules", .map rules) ∈ entries ∧ rule ∈ rules := by
  rw [givenRules] at h
  split at h
  case h_1 rules hrules =>
    obtain ⟨key, hkey, hmem⟩ := exists_mem_of_lastValue? hrules
    rw [eq_of_beq hkey] at hmem
    exact ⟨rules, hmem, h⟩
  case h_2 => cases h

namespace Settings

/-- Whether a value is what a key asks for. -/
def IsProper : Scalar → Value → Prop
  | .text "max_columns", value => ∃ n : Nat, 1 ≤ n ∧ value = .scalar (.int n)
  | .text "max_depth", value => ∃ n : Nat, 2 ≤ n ∧ value = .scalar (.int n)
  | .text "no_align_comment", value | .text "use_keyword", value =>
    ∃ s, s ≠ "" ∧ value = .scalar (.text s)
  | .text "section_operators", value | .text "extensions", value =>
    ∃ texts, value = Style.textsValue texts
  | .text "indent_rules", value => ∃ rules, value = .map rules ∧ ∀ rule ∈ rules, rule.2.NamesFlags
  | _, _ => False

/-- A proper value fits its key if the operators in it can be shown. -/
theorem fits_of_isProper (h : IsProper key value)
    (hshown : ∀ rules, key = .text "indent_rules" → value = .map rules →
      ∀ rule ∈ rules, rule.1.isShowable = true) : Fits key value := by
  unfold IsProper at h
  split at h
  case h_1 => exact h
  case h_2 =>
    obtain ⟨n, hn, rfl⟩ := h
    exact ⟨n, Nat.lt_of_lt_of_le Nat.zero_lt_two hn, rfl⟩
  case h_3 | h_4 | h_5 | h_6 => exact h
  case h_7 =>
    obtain ⟨rules, rfl, hrules⟩ := h
    exact ⟨rules, rfl, fun rule hrule ↦
      isRule_iff.2 ⟨hshown rules rfl rfl rule hrule, hrules rule hrule⟩⟩
  case h_8 => exact absurd h id

/-- A value that fits its key is proper if a form may be opened at the depth that it allows. -/
theorem isProper_of_fits (h : Fits key value)
    (hdepth : ∀ n : Nat, key = .text "max_depth" → value = .scalar (.int n) → 2 ≤ n) :
    IsProper key value := by
  unfold Fits at h
  split at h
  case h_1 => exact h
  case h_2 =>
    obtain ⟨n, -, rfl⟩ := h
    exact ⟨n, hdepth n rfl rfl, rfl⟩
  case h_3 | h_4 | h_5 | h_6 => exact h
  case h_7 =>
    obtain ⟨rules, rfl, hrules⟩ := h
    exact ⟨rules, rfl, fun rule hrule ↦ (isRule_iff.1 (hrules rule hrule)).2⟩
  case h_8 => exact absurd h id

theorem isShowable_of_fits (h : Fits (.text "indent_rules") (.map rules)) :
    ∀ rule ∈ rules, rule.1.isShowable = true := by
  obtain ⟨rules', hrules', hfits⟩ := h
  obtain rfl := Value.map.inj hrules'
  exact fun rule hrule ↦ (isRule_iff.1 (hfits rule hrule)).1

/-- The depth of settings that were accepted is that of their entry, if they have one. -/
theorem two_le_maxDepth_iff (hsingle : IsSingleValued entries)
    (h : ofEntries room entries = .ok settings) :
    2 ≤ (settings.maxDepth?.map Subtype.val).getD Style.standard.maxDepth ↔
      ∀ n : Nat, (.text "max_depth", .scalar (.int n)) ∈ entries → 2 ≤ n := by
  have hset : settings.maxDepth?.map (fun n ↦ Value.scalar (.int n.val)) =
      lastValue? (· == .text "max_depth") entries := (ofEntries_eq_ok h).1 .maxDepth
  rcases hdepth : settings.maxDepth? with - | n
  · rw [hdepth, Option.map_none, eq_comm, lastValue?_text_eq_none_iff] at hset
    exact iff_of_true (by decide) fun n hmem ↦ absurd hmem (hset _)
  · rw [hdepth, Option.map_some, eq_comm, hsingle.lastValue?_eq_some_iff] at hset
    constructor
    · intro hle m hmem
      have hm := Scalar.int.inj (Value.scalar.inj (hsingle _ _ _ hset hmem))
      rwa [← Int.ofNat_inj.1 hm]
    · exact fun hall ↦ hall n hset

end Settings

namespace Style

theorem ofValue_map_eq_ok_iff :
    ofValue room (.map entries) = .ok style ↔
      ∃ settings, Settings.ofEntries room entries = .ok settings ∧
        settings.toStyle = .ok style := by
  rw [ofValue, bind_eq_ok_iff]

/-- **A mapping is accepted if its values are proper and its operators can be shown.** -/
theorem exists_ofValue_eq_ok_iff (hsingle : IsSingleValued entries) :
    (∃ style, ofValue room (.map entries) = .ok style) ↔
      (∀ entry ∈ entries, Settings.IsProper entry.1 entry.2) ∧
        ∀ rule ∈ givenRules entries, rule.1.isShowable = true := by
  simp only [ofValue_map_eq_ok_iff]
  -- What fits its key differs from what is proper in the depth, which is checked at the end, and in
  -- the operators, which have to be shown.
  constructor
  · rintro ⟨style, settings, hsettings, hstyle⟩
    have hfits := (Settings.verdict_ofEntries room entries).ok_iff.1 ⟨settings, hsettings⟩
    have hdepth := (Settings.two_le_maxDepth_iff hsingle hsettings).1
      (Settings.exists_toStyle_eq_ok_iff.1 ⟨style, hstyle⟩)
    refine ⟨fun entry hentry ↦ Settings.isProper_of_fits (hfits entry hentry) ?_,
      fun rule hrule ↦ ?_⟩
    · obtain ⟨key, value⟩ := entry
      rintro n rfl rfl
      exact hdepth n hentry
    · obtain ⟨rules, hrules, hmem⟩ := exists_mem_of_givenRules hrule
      exact Settings.isShowable_of_fits (hfits _ hrules) rule hmem
  · rintro ⟨hproper, hshown⟩
    have hfits : ∀ entry ∈ entries, Settings.Fits entry.1 entry.2 := by
      rintro ⟨key, value⟩ hentry
      refine Settings.fits_of_isProper (hproper _ hentry) ?_
      rintro rules rfl rfl
      rwa [hsingle.givenRules_eq hentry] at hshown
    obtain ⟨settings, hsettings⟩ := (Settings.verdict_ofEntries room entries).ok_iff.2 hfits
    have hdepth := (Settings.two_le_maxDepth_iff hsingle hsettings).2 fun n hmem ↦ by
      obtain ⟨m, hm, hvalue⟩ := hproper _ hmem
      have hn := Int.ofNat_inj.1 (Scalar.int.inj (Value.scalar.inj hvalue))
      rwa [hn]
    obtain ⟨style, hstyle⟩ := Settings.exists_toStyle_eq_ok_iff.2 hdepth
    exact ⟨style, settings, hsettings, hstyle⟩

/-! ### What it describes -/

/-- The style of a mapping has what its entries say, and all else from the standard style. -/
theorem ofValue_eq_ok (h : ofValue room (.map entries) = .ok style) :
    (∀ part, style.value part =
      (lastValue? (· == .text part.key) entries).getD (standard.value part)) ∧
    style.indentRules = ((lastValue? (· == .text "indent_rules") entries).bind
      Settings.rulesOf?).getD standard.indentRules := by
  obtain ⟨settings, hsettings, hstyle⟩ := ofValue_map_eq_ok_iff.1 h
  obtain ⟨hvalue, hrules⟩ := Settings.toStyle_eq_ok hstyle
  obtain ⟨hset, hsetRules⟩ := Settings.ofEntries_eq_ok hsettings
  exact ⟨fun part ↦ by rw [hvalue, hset], by rw [hrules, hsetRules]⟩

/-- The order of the entries does not matter. -/
theorem ofValue_perm (hsingle : IsSingleValued entries) (hperm : entries'.Perm entries)
    (h : ofValue room (.map entries) = .ok style) : ofValue room (.map entries') = .ok style := by
  have hlast := hsingle.lastValue?_perm hperm
  have hgiven : givenRules entries' = givenRules entries := by rw [givenRules, givenRules, hlast]
  have haccepted : ∃ style', ofValue room (.map entries') = .ok style' := by
    rw [exists_ofValue_eq_ok_iff (hsingle.perm hperm), hgiven]
    simp only [hperm.mem_iff]
    exact (exists_ofValue_eq_ok_iff hsingle).1 ⟨style, h⟩
  -- Both orders are accepted, so it remains to compare what the two styles have.
  obtain ⟨style', h'⟩ := haccepted
  obtain ⟨hvalue, hrules⟩ := ofValue_eq_ok h
  obtain ⟨hvalue', hrules'⟩ := ofValue_eq_ok h'
  have hsame : style' = style := by
    refine eq_of_value_eq (fun part ↦ ?_) ?_
    · rw [hvalue', hvalue, hlast]
    · rw [hrules', hrules, hlast]
  rwa [hsame] at h'

/-- The style is the standard one with what the entries give in place of its own. -/
structure IsOverridden (style : Style) (entries : List (Scalar × Value)) : Prop where
  given : ∀ (part : Part) (value : Value), (.text part.key, value) ∈ entries →
    style.value part = value
  standard : ∀ part : Part, (∀ value, (.text part.key, value) ∉ entries) →
    style.value part = Style.standard.value part
  rules : ∀ name, style.indentRules.find? name =
    (lastValue? (·.bare == name) (givenRules entries)).map Value.namedFlags

theorem isOverridden_of_ofValue (hsingle : IsSingleValued entries)
    (h : ofValue room (.map entries) = .ok style) : style.IsOverridden entries := by
  obtain ⟨hvalue, hrules⟩ := ofValue_eq_ok h
  refine ⟨fun part value hmem ↦ ?_, fun part hnone ↦ ?_, fun name ↦ ?_⟩
  · rw [hvalue, hsingle.lastValue?_eq_some_iff.2 hmem, Option.getD_some]
  · rw [hvalue, lastValue?_text_eq_none_iff.2 hnone, Option.getD_none]
  · rw [hrules, givenRules]
    rcases hlast : lastValue? (· == .text "indent_rules") entries with - | value
    · rfl
    obtain ⟨settings, hsettings, -⟩ := ofValue_map_eq_ok_iff.1 h
    have hfits := (Settings.verdict_ofEntries room entries).ok_iff.1 ⟨settings, hsettings⟩
    obtain ⟨rules, rfl, haccepted⟩ := hfits _ (hsingle.lastValue?_eq_some_iff.1 hlast)
    obtain ⟨t, ht⟩ := (RuleTable.verdict_ofEntries rules).ok_iff.2 haccepted
    have hread : Settings.rulesOf? (.map rules) = some t := by
      rw [Settings.rulesOf?, ht]
      rfl
    rw [Option.bind_some, hread, Option.getD_some]
    exact RuleTable.find?_ofEntries ht name

end Style

/-! ### What operators are looked up as -/

/-- The flags of an operator at a column, counted from zero: it is a wrapper in column one only. -/
def Flags.atColumn (flags : Flags) (column : Int) : Flags :=
  { flags with wrapper := flags.wrapper && column == 1 }

theorem RuleTable.lookup_eq (t : RuleTable) (name : String) (column : Int) :
    t.lookup name column = ((t.find? name).getD {}).atColumn column := by
  rw [lookup, Flags.atColumn]
  split_ifs with hcolumn <;> simp [hcolumn, Flags.nested]

/-- The table has the flags of the rules for their operators, and those that are built in for all
others. -/
structure RuleTable.Completes (t : RuleTable) (rules : List (Scalar × Value)) : Prop where
  configured : ∀ name rule, (.text name, rule) ∈ rules → ∀ column,
    t.lookup name column = rule.namedFlags.atColumn column
  builtIn : ∀ name, (∀ rule, (.text name, rule) ∉ rules) → ∀ column,
    t.lookup name column = ((builtin.find? name).getD {}).atColumn column

theorem lastValue?_congr {isKey isKey' : Scalar → Bool}
    (h : ∀ entry ∈ entries, isKey entry.1 = isKey' entry.1) :
    lastValue? isKey entries = lastValue? isKey' entries := by
  induction entries with
  | nil => rfl
  | cons entry rest ih =>
    obtain ⟨hentry, hrest⟩ := List.forall_mem_cons.1 h
    rw [lastValue?, lastValue?, hentry, ih hrest]

theorem Style.IsOverridden.completes (h : style.IsOverridden entries)
    (hsingle : IsSingleValued (givenRules entries))
    (htexts : ∀ rule ∈ givenRules entries, ∃ name, rule.1 = .text name) :
    style.rules.Completes (givenRules entries) := by
  have hlookup (name : String) (column : Int) : style.rules.lookup name column =
      ((((lastValue? (· == .text name) (givenRules entries)).map Value.namedFlags).or
        (RuleTable.builtin.find? name)).getD {}).atColumn column := by
    have hnames : lastValue? (·.bare == name) (givenRules entries) =
        lastValue? (· == .text name) (givenRules entries) := by
      refine lastValue?_congr fun rule hrule ↦ ?_
      obtain ⟨s, hs⟩ := htexts rule hrule
      rw [hs, Bool.eq_iff_iff]
      simp [Scalar.bare]
    rw [RuleTable.lookup_eq, Style.rules, RuleTable.find?_withDefaults, h.rules, hnames]
  refine ⟨fun name rule hmem column ↦ ?_, fun name hnone column ↦ ?_⟩
  · rw [hlookup, hsingle.lastValue?_eq_some_iff.2 hmem]
    rfl
  · rw [hlookup, lastValue?_text_eq_none_iff.2 hnone]
    rfl

/-! ### Mappings -/

/-- **A mapping is accepted exactly if its values are what their keys ask for**, and its operators
can be shown. Its style is then the standard one but for the parts that are given, whatever their
order. If operators are named by texts, each of them is looked up as its rule says, and all others
as built in. -/
theorem Style.ofValue_of_isMapping (room : Nat) (h : IsMapping entries) :
    ((∃ style, ofValue room (.map entries) = .ok style) ↔
      (∀ entry ∈ entries, Settings.IsProper entry.1 entry.2) ∧
        ∀ rule ∈ givenRules entries, rule.1.isShowable = true) ∧
    ∀ style, ofValue room (.map entries) = .ok style →
      style.IsOverridden entries ∧
      (∀ entries', entries'.Perm entries → ofValue room (.map entries') = .ok style) ∧
      (IsMapping (givenRules entries) →
        (∀ rule ∈ givenRules entries, ∃ name, rule.1 = .text name) →
          style.rules.Completes (givenRules entries)) := by
  have hsingle := h.isSingleValued
  refine ⟨exists_ofValue_eq_ok_iff hsingle, fun style hstyle ↦ ?_⟩
  have hoverridden := isOverridden_of_ofValue hsingle hstyle
  exact ⟨hoverridden, fun entries' hperm ↦ ofValue_perm hsingle hperm hstyle,
    fun hrules htexts ↦ hoverridden.completes hrules.isSingleValued htexts⟩

/-- A mapping with a depth, and with rules that name a flag twice and none at all. -/
theorem Style.ofValue_of_isMapping_begin :
    let rules : List (Scalar × Value) :=
      [(.text "begin", .list [.scalar (.text "Wrapper"), .scalar (.text "special"),
          .scalar (.text "WRAPPER")]),
        (.text "unless", .scalar (.text "default"))]
    let entries : List (Scalar × Value) :=
      [(.text "max_depth", .scalar (.int 2)), (.text "indent_rules", .map rules)]
    IsMapping entries ∧ ∃ style : Style,
      ofValue 900 (.map entries) = .ok style ∧ ofValue 900 (.map entries.reverse) = .ok style ∧
      style.maxDepth = 2 ∧ style.maxColumns = 80 ∧
      style.rules.lookup "begin" 1 = { special := true, wrapper := true } ∧
      style.rules.lookup "begin" 3 = { special := true } ∧
      style.rules.lookup "unless" 1 = {} ∧
      style.rules.lookup "define" 1 = { special := true } := by
  intro rules entries
  have hmapping : IsMapping entries := by simp [entries, IsMapping, Scalar.sameKey]
  have hgiven : givenRules entries = rules := rfl
  have hrules : IsMapping rules := by simp [rules, IsMapping, Scalar.sameKey]
  have htexts : ∀ rule ∈ rules, ∃ name, rule.1 = .text name := by simp [rules]
  have hproper : ∀ entry ∈ entries, Settings.IsProper entry.1 entry.2 := by
    have hnames : ∀ rule ∈ rules, rule.2.NamesFlags := by decide
    exact List.forall_mem_cons.2 ⟨⟨2, Nat.le_refl 2, rfl⟩,
      List.forall_mem_singleton.2 ⟨rules, rfl, hnames⟩⟩
  have hshown : ∀ rule ∈ givenRules entries, rule.1.isShowable = true := by
    simp [hgiven, rules, Scalar.isShowable]
  obtain ⟨haccepted, hstyle⟩ := Style.ofValue_of_isMapping 900 hmapping
  obtain ⟨style, hok⟩ := haccepted.2 ⟨hproper, hshown⟩
  obtain ⟨hoverridden, hperm, hcompletes⟩ := hstyle style hok
  have hdepth := hoverridden.given .maxDepth _ List.mem_cons_self
  have hcolumns := hoverridden.standard .maxColumns (by simp [entries, Part.key])
  obtain ⟨hconfigured, hbuiltIn⟩ := hcompletes hrules htexts
  refine ⟨hmapping, style, hok, hperm _ (List.reverse_perm entries), ?_, ?_, ?_, ?_, ?_, ?_⟩
  · exact Int.ofNat_inj.1 (Scalar.int.inj (Value.scalar.inj hdepth))
  · exact Int.ofNat_inj.1 (Scalar.int.inj (Value.scalar.inj hcolumns))
  · exact (hconfigured "begin" _ List.mem_cons_self 1).trans (by decide)
  · exact (hconfigured "begin" _ List.mem_cons_self 3).trans (by decide)
  · exact (hconfigured "unless" _ (List.mem_cons_of_mem _ List.mem_cons_self) 1).trans (by decide)
  · exact (hbuiltIn "define" (by simp [hgiven, rules]) 1).trans (by decide)

/-- A number of 4302 digits cannot be shown, so it is the name of no operator. -/
theorem Style.not_ofValue_of_long_operator :
    let rules : List (Scalar × Value) :=
      [(.int (Nat.pow 16 3572), .list [.scalar (.text "special")])]
    let entries : List (Scalar × Value) := [(.text "indent_rules", .map rules)]
    IsMapping entries ∧ (∀ entry ∈ entries, Settings.IsProper entry.1 entry.2) ∧
      ¬∃ style, ofValue 900 (.map entries) = .ok style := by
  intro rules entries
  have hmapping : IsMapping entries := List.pairwise_singleton _ _
  have hnames : (Value.list [.scalar (.text "special")]).NamesFlags := by decide
  have hproper : ∀ entry ∈ entries, Settings.IsProper entry.1 entry.2 :=
    List.forall_mem_singleton.2 ⟨rules, rfl, List.forall_mem_singleton.2 hnames⟩
  refine ⟨hmapping, hproper, fun haccepted ↦ ?_⟩
  have hshown := ((exists_ofValue_eq_ok_iff hmapping.isSingleValued).1 haccepted).2
  have hlong : Scalar.isShowable (.int (Nat.pow 16 3572)) = false := by decide +kernel
  exact absurd (hshown _ List.mem_cons_self) (Bool.eq_false_iff.1 hlong)

end SchemeStyle
