import Mathlib.Data.List.Pairwise
import Mathlib.Tactic.SplitIfs
import SchemeStyle.File.Tree

/-!
# What is where in a file tree

A tree is a list of entries, and what is found under some names follows from the entries together: a
plain file is an entry (`FileTree.find?_eq_file_iff`), and a directory may be one or only be on the
way to one, or to the working directory. Nothing lies below a plain file
(`FileTree.exists_directory_of_isSome`). A search comes by everything that is found further down,
once (`FileTree.mem_namesBelow`, `FileTree.nodup_namesBelow`).

What a path leads to depends on what is found under which names and on nothing else. In particular
it does not matter in which order the entries were made (`FileTree.SameContents.of_perm`).
-/

namespace SchemeStyle

instance : Std.Symm FileEntry.Compatible where
  symm _ _ h := ⟨h.1.symm, h.2.2, h.2.1⟩

namespace FileTree

variable {t t' : FileTree} {names place : List String} {bytes : List UInt8} {readable : Bool}

/-! ### Entries -/

/-- No two entries have the same names. -/
theorem eq_of_names_eq {a b : FileEntry} (ha : a ∈ t.entries) (hb : b ∈ t.entries)
    (h : a.names = b.names) : a = b := by
  by_contra hne
  exact (t.compatible.forall ha hb hne).1 h

/-- The entry with some names is the one that is looked up by them. -/
theorem find?_entries_eq_some_iff {entry : FileEntry} :
    t.entries.find? (·.names == names) = some entry ↔ entry ∈ t.entries ∧ entry.names = names := by
  constructor
  · intro h
    exact ⟨List.mem_of_find?_eq_some h, by simpa using List.find?_some h⟩
  · rintro ⟨hmem, rfl⟩
    rcases h : t.entries.find? (·.names == entry.names) with - | other
    · have := List.find?_eq_none.1 h entry hmem
      simp at this
    · have hnames : other.names = entry.names := by simpa using List.find?_some h
      rw [h, eq_of_names_eq (List.mem_of_find?_eq_some h) hmem hnames]

/-- **What is found as a plain file is an entry**, and the other way round. -/
theorem find?_eq_file_iff :
    t.find? names = some (.file bytes readable) ↔ ⟨names, .file bytes readable⟩ ∈ t.entries := by
  rw [find?]
  constructor
  · intro h
    split at h
    case h_1 entry hentry =>
      obtain ⟨hmem, rfl⟩ := find?_entries_eq_some_iff.1 hentry
      rwa [← Option.some.inj h]
    case h_2 =>
      split_ifs at h
      cases h
  · intro h
    rw [find?_entries_eq_some_iff.2 ⟨h, rfl⟩]

/-- Something is found on the way to an entry or to the working directory, and nowhere else. -/
theorem isSome_find?_iff :
    (t.find? names).isSome ↔ names <+: t.working ∨ ∃ entry ∈ t.entries, names <+: entry.names := by
  rw [find?]
  split
  case h_1 entry hentry =>
    obtain ⟨hmem, rfl⟩ := find?_entries_eq_some_iff.1 hentry
    exact iff_of_true rfl (.inr ⟨entry, hmem, List.prefix_rfl⟩)
  case h_2 =>
    rw [← List.isPrefixOf_iff_prefix]
    simp only [← List.isPrefixOf_iff_prefix, ← List.any_eq_true, ← Bool.or_eq_true]
    split_ifs with h
    · exact iff_of_true rfl h
    · exact iff_of_false (by simp) h

theorem isSome_find?_of_append {rest : List String} (h : (t.find? (place ++ rest)).isSome) :
    (t.find? place).isSome := by
  rw [isSome_find?_iff] at h ⊢
  have hprefix : place <+: place ++ rest := List.prefix_append place rest
  exact h.imp hprefix.trans fun ⟨entry, hmem, hnames⟩ ↦ ⟨entry, hmem, hprefix.trans hnames⟩

/-- **Nothing lies below a plain file.** -/
theorem exists_directory_of_isSome (h : (t.find? (place ++ names)).isSome) (hne : names ≠ []) :
    ∃ readable searchable, t.find? place = some (.directory readable searchable) := by
  obtain ⟨node, hnode⟩ := Option.isSome_iff_exists.1 (isSome_find?_of_append h)
  cases node with
  | directory readable searchable => exact ⟨readable, searchable, hnode⟩
  | file bytes readable =>
    have hmem := find?_eq_file_iff.1 hnode
    have hprefix : place <+: place ++ names := List.prefix_append place names
    rcases isSome_find?_iff.1 h with hworking | ⟨entry, hentry, hnames⟩
    · exact absurd ⟨rfl, hprefix.trans hworking⟩ (t.fits _ hmem).2
    · have hother : (⟨place, .file bytes readable⟩ : FileEntry) ≠ entry := by
        rintro rfl
        have hlength := hnames.length_le
        simp only [List.length_append] at hlength
        have := List.length_pos_iff.2 hne
        omega
      exact absurd ⟨rfl, hprefix.trans hnames⟩ (t.compatible.forall hmem hentry hother).2.1

/-- Whatever is found has names that a file may have. -/
theorem isFileName_of_isSome (h : (t.find? names).isSome) : ∀ name ∈ names, isFileName name := by
  rcases isSome_find?_iff.1 h with hworking | ⟨entry, hentry, hnames⟩
  · exact fun name hname ↦ List.all_eq_true.1 t.named name (hworking.subset hname)
  · exact fun name hname ↦ List.all_eq_true.1 (t.fits entry hentry).1 name (hnames.subset hname)

/-! ### What is below a place -/

theorem nodup_eraseDups {α : Type} [BEq α] [LawfulBEq α] (items : List α) :
    items.eraseDups.Nodup := by
  induction hlength : items.length using Nat.strongRecOn generalizing items with
  | ind n ih =>
    rcases items with - | ⟨item, items⟩
    · simp
    · have hle := List.length_filter_le (fun other ↦ !other == item) items
      rw [List.eraseDups_cons, List.nodup_cons]
      refine ⟨by simp [List.mem_eraseDups], ih _ ?_ _ rfl⟩
      rw [← hlength, List.length_cons]
      omega

/-- **A search comes by everything that is found further down.** -/
theorem mem_namesBelow :
    names ∈ t.namesBelow place ↔ names ≠ [] ∧ (t.find? (place ++ names)).isSome := by
  have htake (whole : List String) :
      (∃ n < whole.length, whole.take (n + 1) = names) ↔ names ≠ [] ∧ names <+: whole := by
    constructor
    · rintro ⟨n, hn, rfl⟩
      exact ⟨by simpa using List.ne_nil_of_length_pos (Nat.lt_of_le_of_lt (Nat.zero_le n) hn),
        List.take_prefix _ _⟩
    · rintro ⟨hne, hprefix⟩
      have hpos := List.length_pos_iff.2 hne
      have hle := hprefix.length_le
      refine ⟨names.length - 1, by omega, ?_⟩
      rw [Nat.sub_add_cancel hpos]
      exact (List.prefix_iff_eq_take.1 hprefix).symm
  have hdrop (whole : List String) :
      place <+: whole ∧ names <+: whole.drop place.length ↔ place ++ names <+: whole := by
    constructor
    · rintro ⟨⟨rest, rfl⟩, hprefix⟩
      rw [List.drop_left] at hprefix
      exact (List.prefix_append_right_inj place).2 hprefix
    · rintro ⟨rest, rfl⟩
      rw [List.append_assoc, List.drop_left]
      exact ⟨List.prefix_append _ _, List.prefix_append _ _⟩
  rw [namesBelow, List.mem_eraseDups, isSome_find?_iff]
  simp only [List.mem_flatMap, List.mem_map, List.mem_filter, List.mem_range,
    List.isPrefixOf_iff_prefix, htake]
  constructor
  · rintro ⟨_, ⟨whole, ⟨hwhole, hplace⟩, rfl⟩, hne, hprefix⟩
    refine ⟨hne, ?_⟩
    have hbelow := (hdrop whole).1 ⟨hplace, hprefix⟩
    rcases List.mem_cons.1 hwhole with rfl | hwhole
    · exact .inl hbelow
    · obtain ⟨entry, hentry, rfl⟩ := List.mem_map.1 hwhole
      exact .inr ⟨entry, hentry, hbelow⟩
  · rintro ⟨hne, hbelow⟩
    have hwhole : ∃ whole ∈ t.working :: t.entries.map FileEntry.names,
        place ++ names <+: whole := by
      simpa using hbelow
    obtain ⟨whole, hwhole, hbelow⟩ := hwhole
    obtain ⟨hplace, hprefix⟩ := (hdrop whole).2 hbelow
    exact ⟨_, ⟨whole, ⟨hwhole, hplace⟩, rfl⟩, hne, hprefix⟩

theorem nodup_namesBelow (t : FileTree) (place : List String) : (t.namesBelow place).Nodup :=
  nodup_eraseDups _

/-! ### Trees in which the same is found -/

/-- Two trees have the same working directory, and the same is found in them. -/
structure SameContents (t' t : FileTree) : Prop where
  working : t'.working = t.working
  find? : ∀ names, t'.find? names = t.find? names

namespace SameContents

/-- **The order of the entries does not matter.** -/
theorem of_perm (hworking : t'.working = t.working) (h : t'.entries.Perm t.entries) :
    SameContents t' t := by
  refine ⟨hworking, fun names ↦ ?_⟩
  have hentry : t'.entries.find? (·.names == names) = t.entries.find? (·.names == names) := by
    ext entry
    rw [find?_entries_eq_some_iff, find?_entries_eq_some_iff, h.mem_iff]
  rw [FileTree.find?, FileTree.find?, hentry, h.any_eq, hworking]

/-- What a path leads to is a matter of what is found. -/
theorem status_eq (h : SameContents t' t) (path : String) : t'.status path = t.status path := by
  have hstep : t'.stepTo = t.stepTo := by
    funext place name
    simp only [stepTo, h.find?]
  simp only [status, resolve, hstep, h.working, h.find?]

theorem isListed_eq (h : SameContents t' t) (place names : List String) :
    t'.isListed place names = t.isListed place names := by
  simp only [isListed, h.find?]

end SameContents

end FileTree

end SchemeStyle
