import Mathlib.Data.List.Forall2
import Mathlib.Data.List.Nodup
import Mathlib.Data.List.Sort
import SchemeStyle.Proofs.Files.Paths
import SchemeStyle.Run

/-!
# What arguments stand for

An argument that is a directory stands for the files below it that have one of the extensions, in
the order of the names on the way to them, and any other argument for itself. `Expands` says so of
one argument without saying how the files are found or sorted. To find out, paths have to be looked
at, and a path that cannot be looked at ends the search; `FileTree.IsSearchable` says when that does
not happen. It does not where every directory can be listed and searched, unless something is too
long or nested too deep (`FileTree.IsOpen.isSearchable`).

Names are compared one by one and by their code points, which orders the paths differently from
their texts. Below one directory no two files have the same names, so the order is strict, and there
is but one list that is in order and has the right files (`Expands.unique`). That makes the rest of
it independent of how a tree came about: what depends only on what is found in it is the same for
trees in which the same is found.
-/

namespace SchemeStyle

variable {t t' : FileTree} {levels : Nat} {extensions : List String} {p : Path} {found : List Path}

/-! ### Paths in order -/

/-- Lists of names are compared as lists of texts are, the first difference deciding. -/
theorem compare_names_eq_lt_iff {a b : List String} : compare a b = .lt ↔ a < b := by
  induction a generalizing b with
  | nil =>
    rcases b with - | ⟨name', b⟩
    · exact iff_of_false (by decide) (List.not_lt_nil [])
    · exact iff_of_true rfl (List.nil_lt_cons name' b)
  | cons name a ih =>
    rcases b with - | ⟨name', b⟩
    · exact iff_of_false (by simp) (List.not_lt_nil _)
    · rw [List.compare_cons_cons, List.cons_lt_cons_iff, Ordering.then_eq_lt, ih,
        compare_lt_iff_lt, compare_eq_iff_eq]

/-- Files below one directory are told apart by the names on the way to them. -/
theorem Path.sortKey_descend_inj {names names' : List String} :
    (p.descend names).sortKey = (p.descend names').sortKey ↔ names = names' := by
  rw [sortKey, sortKey, descend, descend]
  dsimp only
  split_ifs <;> simp

theorem Path.descend_injective (p : Path) : Function.Injective p.descend :=
  fun _ _ h ↦ sortKey_descend_inj.1 (congrArg sortKey h)

theorem mem_selectFiles {directory q : Path} {below : List (List String)} :
    q ∈ selectFiles extensions directory below ↔
      ∃ names ∈ below, q = directory.descend names ∧ q.extension ∈ extensions := by
  rw [selectFiles, (List.mergeSort_perm _ _).mem_iff, List.mem_filter, List.mem_map,
    List.contains_iff_mem]
  constructor
  · rintro ⟨⟨names, hnames, rfl⟩, hextension⟩
    exact ⟨names, hnames, rfl, hextension⟩
  · rintro ⟨names, hnames, rfl, hextension⟩
    exact ⟨⟨names, hnames, rfl⟩, hextension⟩

/-- **Selected files are in strictly increasing order.** -/
theorem pairwise_selectFiles {below : List (List String)} (h : below.Nodup) (directory : Path) :
    (selectFiles extensions directory below).Pairwise (·.sortKey < ·.sortKey) := by
  have htotal (a b : List String) : ((compare a b).isLE || (compare b a).isLE) = true := by
    have hswap : compare b a = (compare a b).swap := Std.OrientedCmp.eq_swap
    rw [hswap]
    cases compare a b <;> rfl
  have hsorted : (selectFiles extensions directory below).Pairwise
      fun a b ↦ (compare a.sortKey b.sortKey).isLE = true :=
    List.pairwise_mergeSort (fun _ _ _ ↦ Std.TransCmp.isLE_trans)
      (fun a b ↦ htotal a.sortKey b.sortKey) _
  have hnodup : (selectFiles extensions directory below).Nodup :=
    (List.mergeSort_perm _ _).nodup_iff.2 ((h.map directory.descend_injective).filter _)
  -- Sorting only gives an order that may be shared; that no two of the files share it comes from
  -- their names below the directory.
  refine (hsorted.and hnodup).imp_of_mem ?_
  rintro a b ha hb ⟨hle, hne⟩
  obtain ⟨names, -, rfl, -⟩ := mem_selectFiles.1 ha
  obtain ⟨names', -, rfl, -⟩ := mem_selectFiles.1 hb
  rcases Ordering.isLE_iff_eq_lt_or_eq_eq.1 hle with hlt | heq
  · exact compare_names_eq_lt_iff.1 hlt
  · have hnames := Path.sortKey_descend_inj.1 (Std.LawfulEqOrd.eq_of_compare heq)
    exact absurd (congrArg directory.descend hnames) hne

/-! ### Searches -/

namespace FileTree

variable {place names : List String} {found : List (List String)}

/-- The path leads to a directory, which is at this place. -/
def IsDirectory (t : FileTree) (p : Path) (place : List String) : Prop :=
  p.names.any hasNull = false ∧
    ∃ readable searchable, t.status p.toText = .ok (place, .directory readable searchable)

/-- The system refuses to look at the path, for another reason than that nothing is there. -/
def IsRefused (t : FileTree) (p : Path) : Prop :=
  p.names.any hasNull = false ∧ ∃ e, t.status p.toText = .error e ∧ e.isAbsence = false

/-- A search goes on behind what is found under some names below a directory: the path to it is not
refused, and it is no directory that is nested too deep. -/
structure LetsPass (t : FileTree) (levels : Nat) (p : Path) (place names : List String) : Prop where
  looked : ¬t.IsRefused (p.descend names)
  shallow : ∀ readable searchable,
    t.find? (place ++ names) = some (.directory readable searchable) → names.length ≤ levels

/-- An argument is expanded: it is not refused, and if it is a directory, a search goes on behind
whatever it comes by below it. -/
structure IsSearchable (t : FileTree) (levels : Nat) (p : Path) : Prop where
  looked : ¬t.IsRefused p
  below : ∀ place names, t.IsDirectory p place → names ≠ [] → (t.find? (place ++ names)).isSome →
    t.isListed place names → t.LetsPass levels p place names

/-- Whether a plain file is found under some names. -/
def isFileAt (t : FileTree) (names : List String) : Bool := (t.find? names).any Node.isFile

theorem isFileAt_iff :
    t.isFileAt names = true ↔ ∃ bytes readable, t.find? names = some (.file bytes readable) := by
  rw [isFileAt]
  rcases t.find? names with - | (⟨bytes, readable⟩ | ⟨readable, searchable⟩) <;>
    simp [Node.isFile]

theorem IsDirectory.unique {place' : List String} (h : t.IsDirectory p place)
    (h' : t.IsDirectory p place') : place = place' := by
  obtain ⟨-, readable, searchable, h⟩ := h
  obtain ⟨-, readable', searchable', h'⟩ := h'
  exact congrArg Prod.fst (Except.ok.inj (h.symm.trans h'))

theorem of_status_eq_ok {path : String} {node : Node} (h : t.status path = .ok (place, node)) :
    t.resolve path = .ok place ∧ t.find? place = some node := by
  rw [status] at h
  rcases hplace : t.resolve path with e | place'
  · rw [hplace] at h
    cases h
  · rcases hnode : t.find? place' with - | node'
    · simp [hplace, hnode, bind, Except.bind] at h
    · simp only [hplace, hnode, bind, Except.bind] at h
      split_ifs at h
      obtain ⟨rfl, rfl⟩ := Prod.mk.inj (Except.ok.inj h)
      exact ⟨rfl, hnode⟩

theorem IsDirectory.resolve (h : t.IsDirectory p place) : t.resolve p.toText = .ok place := by
  obtain ⟨-, readable, searchable, h⟩ := h
  exact (of_status_eq_ok h).1

theorem IsDirectory.isFileAt_eq_false (h : t.IsDirectory p place) : t.isFileAt place = false := by
  obtain ⟨-, readable, searchable, h⟩ := h
  rw [isFileAt, (of_status_eq_ok h).2]
  rfl

/-- **Only what is refused ends a search.** -/
theorem exists_look?_eq_error_iff : (∃ e, t.look? p = .error e) ↔ t.IsRefused p := by
  rw [look?, IsRefused]
  split_ifs with hnull
  · simp [hnull]
  · rcases t.status p.toText with e | found
    · rcases habsence : e.isAbsence with - | - <;> simp [hnull, habsence]
    · simp

theorem look?_eq_directory_iff :
    (∃ readable searchable, t.look? p = .ok (some (place, .directory readable searchable))) ↔
      t.IsDirectory p place := by
  rw [look?, IsDirectory]
  split_ifs with hnull
  · simp [hnull]
  · rcases t.status p.toText with e | found
    · rcases habsence : e.isAbsence with - | - <;> simp [habsence]
    · simp [hnull]

/-- What is found below a directory is what is looked at under the path to it. -/
theorem look?_descend {node : Node} (h : p.IsNormal) (hplace : t.IsDirectory p place)
    (hne : names ≠ []) (hfound : t.find? (place ++ names) = some node) :
    t.look? (p.descend names) = .ok (some (place ++ names, node)) ∨
      ∃ e, t.look? (p.descend names) = .error e := by
  have hnull : (p.descend names).names.any hasNull = false := by
    have hnames : names.any hasNull = false := by
      rw [List.any_eq_false]
      intro name hname
      have hfile := isFileName_of_isSome (Option.isSome_of_eq_some hfound) name
        (List.mem_append_right place hname)
      simp only [isFileName, Bool.and_eq_true, Bool.not_eq_true'] at hfile
      simp [hfile.1.2]
    rw [Path.descend, List.any_append, hplace.1, hnames]
    rfl
  rw [look?, if_neg (by simp [hnull])]
  rcases status_descend h hplace.resolve hne hfound with hok | ⟨e, herror, habsence⟩
  · exact .inl (by rw [hok])
  · exact .inr ⟨_, by rw [herror]; exact if_neg (by simp [habsence])⟩

/-- **In an open tree everything can be searched** that is neither too long nor too deep. -/
theorem IsOpen.isSearchable (h : t.IsOpen) (hp : p.IsNormal)
    (hnames : ∀ name ∈ p.names, name.utf8ByteSize ≤ longestName)
    (hlength : p.toText.utf8ByteSize ≤ longestPath)
    (hbelow : ∀ place names, t.IsDirectory p place → (t.find? (place ++ names)).isSome →
      names.length ≤ levels ∧ (p.descend names).toText.utf8ByteSize ≤ longestPath) :
    t.IsSearchable levels p := by
  have hlooked {q : Path} (hq : q.IsNormal) (hshort : ∀ name ∈ q.names,
      name.utf8ByteSize ≤ longestName) (hlong : q.toText.utf8ByteSize ≤ longestPath) :
      ¬t.IsRefused q := by
    rintro ⟨-, e, herror, habsence⟩
    rw [h.isAbsence_of_status hq hlong hshort herror] at habsence
    cases habsence
  refine ⟨hlooked hp hnames hlength, fun place names hplace _ hfound _ ↦ ?_⟩
  obtain ⟨hdepth, hlong⟩ := hbelow place names hplace hfound
  have hfile : ∀ name ∈ names, isFileName name := fun name hname ↦
    isFileName_of_isSome hfound name (List.mem_append_right place hname)
  refine ⟨hlooked (hp.descend fun name hname ↦ .of_isFileName (hfile name hname)) ?_ hlong,
    fun _ _ _ ↦ hdepth⟩
  refine List.forall_mem_append.2 ⟨hnames, fun name hname ↦ ?_⟩
  have hname := hfile name hname
  simp only [isFileName, Bool.and_eq_true, decide_eq_true_eq] at hname
  exact hname.2

/-- In an open tree a search comes by everything. -/
theorem IsOpen.isListed (h : t.IsOpen) (hfound : (t.find? (place ++ names)).isSome) :
    t.isListed place names = true := by
  rw [FileTree.isListed, List.all_eq_true]
  intro n hn
  have hsplit : place ++ names = (place ++ names.take n) ++ names.drop n := by
    rw [List.append_assoc, List.take_append_drop]
  have hrest : names.drop n ≠ [] := by simpa using hn
  rw [hsplit] at hfound
  obtain ⟨readable, searchable, hnode⟩ := exists_directory_of_isSome hfound hrest
  rw [hnode]
  exact (h _ _ _ hnode).1

/-- One step of a search: plain files are kept. -/
theorem collect_cons (h : p.IsNormal) (hplace : t.IsDirectory p place) (hne : names ≠ [])
    (hsome : (t.find? (place ++ names)).isSome) (levels : Nat) (items : List (List String)) :
    (t.LetsPass levels p place names ∧ t.collect levels p (names :: items) =
      (t.collect levels p items).map fun found ↦
        if t.isFileAt (place ++ names) then names :: found else found) ∨
    ¬t.LetsPass levels p place names ∧ ∃ e, t.collect levels p (names :: items) = .error e := by
  obtain ⟨node, hnode⟩ := Option.isSome_iff_exists.1 hsome
  rcases look?_descend h hplace hne hnode with hlook | ⟨e, hlook⟩
  · have hlooked : ¬t.IsRefused (p.descend names) := by
      rw [← exists_look?_eq_error_iff, hlook]
      simp
    cases node with
    | file bytes readable =>
      refine .inl ⟨⟨hlooked, fun _ _ hfound ↦ ?_⟩, ?_⟩
      · cases hnode.symm.trans hfound
      · rw [collect, hlook, isFileAt, hnode]
        show (t.collect levels p items >>= fun found ↦ pure (names :: found)) = _
        cases t.collect levels p items <;> rfl
    | directory readable searchable =>
      by_cases hdeep : levels < names.length
      · refine .inr ⟨fun hpass ↦ ?_, .tooDeep, ?_⟩
        · exact absurd (hpass.shallow _ _ hnode) (Nat.not_le.2 hdeep)
        · rw [collect, hlook]
          exact if_pos hdeep
      · refine .inl ⟨⟨hlooked, fun _ _ _ ↦ Nat.not_lt.1 hdeep⟩, ?_⟩
        rw [collect, hlook, isFileAt, hnode]
        show (if levels < names.length then _ else t.collect levels p items) = _
        rw [if_neg hdeep]
        cases t.collect levels p items <;> rfl
  · refine .inr ⟨fun hpass ↦ hpass.looked (exists_look?_eq_error_iff.1 ⟨e, hlook⟩), e, ?_⟩
    rw [collect, hlook]
    rfl

/-- **What is collected are the plain files**, if nothing stands in the way. -/
theorem collect_eq_ok_iff (h : p.IsNormal) (hplace : t.IsDirectory p place)
    {items : List (List String)}
    (hitems : ∀ names ∈ items, names ≠ [] ∧ (t.find? (place ++ names)).isSome) :
    t.collect levels p items = .ok found ↔
      (∀ names ∈ items, t.LetsPass levels p place names) ∧
      found = items.filter fun names ↦ t.isFileAt (place ++ names) := by
  induction items generalizing found with
  | nil => simp [collect, eq_comm]
  | cons names items ih =>
    obtain ⟨⟨hne, hsome⟩, hrest⟩ := List.forall_mem_cons.1 hitems
    rw [List.forall_mem_cons]
    rcases collect_cons h hplace hne hsome levels items with
      ⟨hpass, hcollect⟩ | ⟨hpass, e, hcollect⟩
    · rw [hcollect, and_iff_right hpass, List.filter_cons]
      have hmap (kept : List (List String)) :
          (t.collect levels p items).map (fun found ↦
            if t.isFileAt (place ++ names) then names :: found else found) = .ok kept ↔
          ∃ found, t.collect levels p items = .ok found ∧
            (if t.isFileAt (place ++ names) then names :: found else found) = kept := by
        cases t.collect levels p items <;> simp [Except.map]
      rw [hmap]
      simp only [ih hrest]
      constructor
      · rintro ⟨_, ⟨hall, rfl⟩, rfl⟩
        exact ⟨hall, rfl⟩
      · rintro ⟨hall, rfl⟩
        exact ⟨_, ⟨hall, rfl⟩, rfl⟩
    · rw [hcollect]
      exact iff_of_false (fun heq ↦ by cases heq) fun hall ↦ hpass hall.1.1

/-- What a search comes by below a directory. -/
theorem mem_listed {place names : List String} :
    names ∈ (t.namesBelow place).filter (t.isListed place) ↔
      (names ≠ [] ∧ (t.find? (place ++ names)).isSome) ∧ t.isListed place names := by
  rw [List.mem_filter, mem_namesBelow]

/-- A directory is searched, and any other argument is not. -/
theorem filesBelow?_eq_ok_iff (h : p.IsNormal) {below? : Option (List (List String))} :
    t.filesBelow? levels p = .ok below? ↔ t.IsSearchable levels p ∧
      ((∀ place, ¬t.IsDirectory p place) ∧ below? = none ∨
        ∃ place, t.IsDirectory p place ∧
          below? = some (((t.namesBelow place).filter (t.isListed place)).filter
            fun names ↦ t.isFileAt (place ++ names))) := by
  rcases hlook : t.look? p with e | found?
  · have hrefused : t.IsRefused p := exists_look?_eq_error_iff.1 ⟨e, hlook⟩
    rw [filesBelow?, hlook]
    exact iff_of_false (fun heq ↦ by cases heq) fun hok ↦ hok.1.looked hrefused
  have hlooked : ¬t.IsRefused p := by
    rw [← exists_look?_eq_error_iff, hlook]
    simp
  by_cases hdirectory : ∃ place, t.IsDirectory p place
  · obtain ⟨place, hplace⟩ := hdirectory
    obtain ⟨readable, searchable, hsome⟩ := look?_eq_directory_iff.2 hplace
    rw [filesBelow?, hsome]
    show (t.collect levels p _ >>= fun found ↦ pure (some found)) = _ ↔ _
    have hbind : (t.collect levels p ((t.namesBelow place).filter (t.isListed place)) >>=
        fun found ↦ pure (some found)) = .ok below? ↔ ∃ found,
          t.collect levels p ((t.namesBelow place).filter (t.isListed place)) = .ok found ∧
            some found = below? := by
      cases t.collect levels p ((t.namesBelow place).filter (t.isListed place)) <;>
        simp [bind, Except.bind, pure, Except.pure]
    rw [hbind]
    simp only [collect_eq_ok_iff h hplace fun names hnames ↦ (mem_listed.1 hnames).1]
    constructor
    · rintro ⟨_, ⟨hall, rfl⟩, rfl⟩
      refine ⟨⟨hlooked, fun place' names hplace' hne hfound hlisted ↦ ?_⟩,
        .inr ⟨place, hplace, rfl⟩⟩
      obtain rfl := hplace.unique hplace'
      exact hall names (mem_listed.2 ⟨⟨hne, hfound⟩, hlisted⟩)
    · rintro ⟨hsearchable, ⟨hother, -⟩ | ⟨place', hplace', rfl⟩⟩
      · exact absurd hplace (hother place)
      · obtain rfl := hplace.unique hplace'
        refine ⟨_, ⟨fun names hnames ↦ ?_, rfl⟩, rfl⟩
        obtain ⟨⟨hne, hfound⟩, hlisted⟩ := mem_listed.1 hnames
        exact hsearchable.below place names hplace hne hfound hlisted
  · have hother := not_exists.1 hdirectory
    have hnone : t.filesBelow? levels p = .ok none := by
      rw [filesBelow?, hlook]
      rcases found? with - | ⟨place, ⟨bytes, readable⟩ | ⟨readable, searchable⟩⟩
      · rfl
      · rfl
      · exact absurd (look?_eq_directory_iff.1 ⟨readable, searchable, hlook⟩) (hother place)
    rw [hnone]
    constructor
    · rintro heq
      obtain rfl := Except.ok.inj heq
      exact ⟨⟨hlooked, fun place _ hplace ↦ absurd hplace (hother place)⟩, .inl ⟨hother, rfl⟩⟩
    · rintro ⟨-, ⟨-, rfl⟩ | ⟨place, hplace, -⟩⟩
      · rfl
      · exact absurd hplace (hother place)

end FileTree

/-! ### Names that are too long -/

/-- Whether a text is one name, of more bytes than any file may have in its name. -/
structure IsTooLong (name : String) : Prop where
  piece : IsPiece name
  noNull : hasNull name = false
  long : longestName < name.utf8ByteSize

theorem isTooLong_replicate : IsTooLong (String.ofList (List.replicate 256 'a')) where
  piece := by
    refine ⟨fun hempty ↦ ?_, ?_⟩
    · have hnil := congrArg String.toList hempty
      rw [String.toList_ofList] at hnil
      exact List.cons_ne_nil _ _ hnil
    · rw [String.toList_ofList, List.mem_replicate]
      exact fun hslash ↦ absurd hslash.2 (by decide)
  noNull := by
    rw [hasNull, String.toList_ofList]
    decide +kernel
  long := by decide +kernel

/-- A name by itself is a path. -/
theorem Path.ofText_of_isPiece {name : String} (h : IsPiece name) (hdot : name ≠ ".") :
    ofText name = ⟨"", [name]⟩ := by
  have hnames : slashNames name = [name] :=
    @slashNames_of_toList_eq [name] name 0 (by simpa using h) (by simp)
  have hroot : rootOf name = "" := by
    rcases hchars : name.toList with - | ⟨c, cs⟩
    · exact absurd (by simpa using hchars) h.1
    · have hc : c ≠ '/' := fun heq ↦ h.2 (by rw [hchars, heq]; exact List.mem_cons_self)
      rw [rootOf, hchars, List.takeWhile_cons_of_neg (by simpa using hc)]
      rfl
  rw [ofText, hroot, hnames, List.filter_cons_of_pos (by simpa using hdot)]
  rfl

/-- **A name that is too long ends the search**, whatever the other arguments are. -/
theorem expandPaths_long_name_cons {name : String} (h : IsTooLong name)
    (hworking : ∃ readable, t.find? t.working = some (.directory readable true)) (levels : Nat)
    (extensions : List String) (paths : List Path) :
    expandPaths (t.view levels) extensions (Path.ofText name :: paths) =
      .error (.refused name .nameTooLong) := by
  obtain ⟨readable, hworking⟩ := hworking
  have hshort {other : String} (hle : other.utf8ByteSize ≤ longestName) : name ≠ other := by
    rintro rfl
    exact absurd h.long (Nat.not_lt.2 hle)
  have hdot : name ≠ "." := hshort (by decide)
  have hparent : name ≠ ".." := hshort (by decide)
  have hpath := Path.ofText_of_isPiece h.piece hdot
  have hnormal := Path.isNormal_ofText name
  rw [hpath] at hnormal
  have htext : Path.toText ⟨"", [name]⟩ = name := by simp [Path.toText]
  have hstep : t.stepTo t.working name = .error .nameTooLong := by
    rw [FileTree.stepTo, hworking]
    dsimp only
    rw [if_neg (by simp), if_neg hdot, if_neg hparent, if_pos h.long]
  have hresolve : t.resolve name = .error .nameTooLong := by
    have hempty : ¬((⟨"", [name]⟩ : Path).root = "" ∧ (⟨"", [name]⟩ : Path).names = []) :=
      fun hempty ↦ List.cons_ne_nil _ _ hempty.2
    have hresolve := FileTree.resolve_toText (t := t) hnormal
    rw [htext, if_neg hempty, if_pos (rfl : (⟨"", [name]⟩ : Path).root = ""), List.foldlM_cons,
      hstep] at hresolve
    rw [hresolve]
    split_ifs <;> rfl
  have hbelow : t.filesBelow? levels ⟨"", [name]⟩ = .error (.refused name .nameTooLong) := by
    rw [FileTree.filesBelow?, FileTree.look?, htext, FileTree.status, hresolve,
      if_neg (by simp [h.noNull])]
    rfl
  rw [hpath, expandPaths, List.mapM_cons, expandPath]
  show (t.filesBelow? levels _ >>= _ >>= _ >>= _) = _
  rw [hbelow]
  rfl

/-! ### Expansions -/

/-- What an argument stands for in a tree: for itself if it is no directory, and otherwise for the
plain files below it with one of the extensions, at any depth, in strictly increasing order. (A
search does not come by what is below a directory that cannot be listed.) -/
inductive Expands (t : FileTree) (extensions : List String) (p : Path) : List Path → Prop where
  | kept (other : ∀ place, ¬t.IsDirectory p place) : Expands t extensions p [p]
  | listed {place : List String} {found : List Path} (directory : t.IsDirectory p place)
      (mem_iff : ∀ q, q ∈ found ↔ ∃ names bytes readable,
        t.find? (place ++ names) = some (.file bytes readable) ∧ t.isListed place names ∧
          q = p.descend names ∧ q.extension ∈ extensions)
      (increasing : found.Pairwise (·.sortKey < ·.sortKey)) : Expands t extensions p found

namespace Expands

/-- There is but one list that an argument stands for. -/
theorem unique {found' : List Path} (h : Expands t extensions p found)
    (h' : Expands t extensions p found') : found = found' := by
  cases h with
  | kept other =>
    cases h' with
    | kept => rfl
    | listed directory => exact absurd directory (other _)
  | listed directory hmem hincreasing =>
    cases h' with
    | kept other => exact absurd directory (other _)
    | listed directory' hmem' hincreasing' =>
      obtain rfl := directory.unique directory'
      have hantisymm : Std.Antisymm fun a b : Path ↦ a.sortKey < b.sortKey :=
        ⟨fun _ _ hlt hgt ↦ absurd hgt (List.lt_asymm hlt)⟩
      have hirrefl : Std.Irrefl fun a b : Path ↦ a.sortKey < b.sortKey :=
        ⟨fun _ ↦ List.lt_irrefl _⟩
      exact hincreasing.eq_of_mem_iff hincreasing' fun q ↦ (hmem q).trans (hmem' q).symm

/-- A directory stands for the files that are selected below it. -/
theorem selectFiles {place : List String} (h : t.IsDirectory p place) (extensions : List String) :
    Expands t extensions p (selectFiles extensions p
      (((t.namesBelow place).filter (t.isListed place)).filter
        fun names ↦ t.isFileAt (place ++ names))) := by
  refine .listed h (fun q ↦ ?_)
    (pairwise_selectFiles (((t.nodup_namesBelow place).filter _).filter _) p)
  simp only [mem_selectFiles, List.mem_filter, FileTree.mem_namesBelow, FileTree.isFileAt_iff]
  constructor
  · rintro ⟨names, ⟨⟨-, hlisted⟩, bytes, readable, hfile⟩, rfl, hextension⟩
    exact ⟨names, bytes, readable, hfile, hlisted, rfl, hextension⟩
  · rintro ⟨names, bytes, readable, hfile, hlisted, rfl, hextension⟩
    refine ⟨names, ⟨⟨⟨?_, Option.isSome_of_eq_some hfile⟩, hlisted⟩, bytes, readable, hfile⟩, rfl,
      hextension⟩
    rintro rfl
    have hplace := FileTree.isFileAt_iff.2 ⟨bytes, readable, hfile⟩
    rw [List.append_nil, h.isFileAt_eq_false] at hplace
    cases hplace

end Expands

/-- **An argument that can be searched is expanded to what it stands for.** -/
theorem expandPath_eq_ok_iff (h : p.IsNormal) :
    expandPath (t.view levels) extensions p = .ok found ↔
      t.IsSearchable levels p ∧ Expands t extensions p found := by
  have hbind : expandPath (t.view levels) extensions p = .ok found ↔
      ∃ below?, t.filesBelow? levels p = .ok below? ∧
        below?.elim [p] (selectFiles extensions p) = found := by
    have hview : (t.view levels).filesBelow? p = t.filesBelow? levels p := rfl
    rw [expandPath, hview]
    rcases t.filesBelow? levels p with e | (- | below) <;>
      simp [bind, Except.bind, pure, Except.pure]
  rw [hbind]
  simp only [FileTree.filesBelow?_eq_ok_iff h]
  constructor
  · rintro ⟨_, ⟨hsearchable, ⟨hother, rfl⟩ | ⟨place, hplace, rfl⟩⟩, rfl⟩
    · exact ⟨hsearchable, .kept hother⟩
    · exact ⟨hsearchable, .selectFiles hplace extensions⟩
  · rintro ⟨hsearchable, hexpands⟩
    by_cases hdirectory : ∃ place, t.IsDirectory p place
    · obtain ⟨place, hplace⟩ := hdirectory
      exact ⟨_, ⟨hsearchable, .inr ⟨place, hplace, rfl⟩⟩,
        (Expands.selectFiles hplace extensions).unique hexpands⟩
    · have hother := not_exists.1 hdirectory
      exact ⟨_, ⟨hsearchable, .inl ⟨hother, rfl⟩⟩, (Expands.kept hother).unique hexpands⟩

/-! ### Trees in which the same is found -/

namespace FileTree.SameContents

theorem symm (h : SameContents t' t) : SameContents t t' :=
  ⟨h.working.symm, fun names ↦ (h.find? names).symm⟩

theorem isDirectory_iff (h : SameContents t' t) {place : List String} :
    t'.IsDirectory p place ↔ t.IsDirectory p place := by
  rw [IsDirectory, IsDirectory, h.status_eq]

theorem isRefused_iff (h : SameContents t' t) : t'.IsRefused p ↔ t.IsRefused p := by
  rw [IsRefused, IsRefused, h.status_eq]

theorem isSearchable (h : SameContents t' t) (hp : t.IsSearchable levels p) :
    t'.IsSearchable levels p := by
  refine ⟨fun hrefused ↦ hp.looked (h.isRefused_iff.1 hrefused), ?_⟩
  intro place names hplace hne hfound hlisted
  rw [h.find?] at hfound
  rw [h.isListed_eq] at hlisted
  have hpass := hp.below place names (h.isDirectory_iff.1 hplace) hne hfound hlisted
  refine ⟨fun hrefused ↦ hpass.looked (h.isRefused_iff.1 hrefused), fun readable searchable ↦ ?_⟩
  rw [h.find?]
  exact hpass.shallow readable searchable

theorem expands (h : SameContents t' t) (hp : Expands t extensions p found) :
    Expands t' extensions p found := by
  cases hp with
  | kept other => exact .kept fun place hplace ↦ other place (h.isDirectory_iff.1 hplace)
  | listed directory hmem hincreasing =>
    refine .listed (h.isDirectory_iff.2 directory) (fun q ↦ ?_) hincreasing
    simp only [hmem q, h.find?, h.isListed_eq]

end FileTree.SameContents

/-! ### All arguments -/

/-- Many things are done one after the other exactly if each of them is. -/
theorem mapM_eq_ok_iff {ε α β : Type} {f : α → Except ε β} {items : List α} {results : List β} :
    items.mapM f = .ok results ↔
      List.Forall₂ (fun item result ↦ f item = .ok result) items results := by
  induction items generalizing results with
  | nil =>
    rw [List.mapM_nil, List.forall₂_nil_left_iff]
    exact ⟨fun h ↦ (Except.ok.inj h).symm, fun h ↦ h ▸ rfl⟩
  | cons item items ih =>
    rw [List.mapM_cons, List.forall₂_cons_left_iff]
    simp only [← ih]
    rcases f item with e | result
    · exact iff_of_false (fun h ↦ by cases h) fun ⟨_, _, h, _⟩ ↦ by cases h
    · rcases items.mapM f with e | rest
      · exact iff_of_false (fun h ↦ by cases h) fun ⟨_, _, _, h, _⟩ ↦ by cases h
      · constructor
        · intro h
          exact ⟨result, rest, rfl, rfl, (Except.ok.inj h).symm⟩
        · rintro ⟨_, _, hresult, hrest, rfl⟩
          rw [← Except.ok.inj hresult, ← Except.ok.inj hrest]
          rfl

theorem expandPaths_eq_ok_iff {files : FileView} {paths : List Path} :
    expandPaths files extensions paths = .ok found ↔ ∃ parts,
      List.Forall₂ (fun p part ↦ expandPath files extensions p = .ok part) paths parts ∧
        found = parts.flatten := by
  simp only [← mapM_eq_ok_iff]
  show (paths.mapM (expandPath files extensions) >>= fun parts ↦ pure parts.flatten) = _ ↔ _
  cases paths.mapM (expandPath files extensions) <;>
    simp [bind, Except.bind, pure, Except.pure, eq_comm]

/-- Every argument stands for something. -/
theorem Expands.exists (t : FileTree) (extensions : List String) (p : Path) :
    ∃ part, Expands t extensions p part := by
  by_cases hdirectory : ∃ place, t.IsDirectory p place
  · obtain ⟨place, hplace⟩ := hdirectory
    exact ⟨_, .selectFiles hplace extensions⟩
  · exact ⟨_, .kept (not_exists.1 hdirectory)⟩

theorem Expands.exists_forall₂ (t : FileTree) (extensions : List String) (paths : List Path) :
    ∃ parts, List.Forall₂ (Expands t extensions) paths parts := by
  choose part hpart using Expands.exists t extensions
  exact ⟨paths.map part, by simp [List.forall₂_map_right_iff, List.forall₂_same, hpart]⟩

/-- Arguments are expanded together if each of them can be searched. -/
theorem forall₂_expandPath_iff {paths : List Path} {parts : List (List Path)}
    (hpaths : ∀ p ∈ paths, p.IsNormal) :
    List.Forall₂ (fun p part ↦ expandPath (t.view levels) extensions p = .ok part) paths parts ↔
      (∀ p ∈ paths, t.IsSearchable levels p) ∧
        List.Forall₂ (Expands t extensions) paths parts := by
  induction paths generalizing parts with
  | nil => simp
  | cons p paths ih =>
    obtain ⟨hp, hrest⟩ := List.forall_mem_cons.1 hpaths
    rcases parts with - | ⟨part, parts⟩
    · exact iff_of_false (fun h ↦ nomatch h) fun h ↦ nomatch h.2
    · rw [List.forall₂_cons, List.forall₂_cons, ih hrest, expandPath_eq_ok_iff hp,
        List.forall_mem_cons]
      exact and_and_and_comm

/-- **Directories are replaced by the files below them, and nothing else is.** Arguments are
expanded exactly if each of them can be searched, and then one by one, each to the one list that it
stands for, whatever the order in which the entries of the tree were made. -/
theorem expandPaths_expands (t : FileTree) (levels : Nat) (extensions texts : List String) :
    let paths := texts.map Path.ofText
    ((∃ found, expandPaths (t.view levels) extensions paths = .ok found) ↔
      ∀ p ∈ paths, t.IsSearchable levels p) ∧
    (∀ found, expandPaths (t.view levels) extensions paths = .ok found →
      ∃ parts, List.Forall₂ (Expands t extensions) paths parts ∧ found = parts.flatten ∧
        ∀ parts', List.Forall₂ (Expands t extensions) paths parts' → parts' = parts) ∧
    ∀ t' : FileTree, t'.working = t.working → t'.entries.Perm t.entries → ∀ found,
      expandPaths (t'.view levels) extensions paths = .ok found ↔
        expandPaths (t.view levels) extensions paths = .ok found := by
  intro paths
  have hnormal : ∀ p ∈ paths, p.IsNormal := by
    rintro p hp
    obtain ⟨text, -, rfl⟩ := List.mem_map.1 hp
    exact Path.isNormal_ofText text
  have hunique : Relator.RightUnique (Expands t extensions) := fun _ _ _ h h' ↦ h.unique h'
  have hok (t : FileTree) (found : List Path) :
      expandPaths (t.view levels) extensions paths = .ok found ↔
        (∀ p ∈ paths, t.IsSearchable levels p) ∧
          ∃ parts, List.Forall₂ (Expands t extensions) paths parts ∧ found = parts.flatten := by
    simp only [expandPaths_eq_ok_iff, forall₂_expandPath_iff hnormal, and_assoc, exists_and_left]
  have hsame {t t' : FileTree} (h : t'.SameContents t) (found : List Path)
      (hfound : expandPaths (t.view levels) extensions paths = .ok found) :
      expandPaths (t'.view levels) extensions paths = .ok found := by
    obtain ⟨hsearchable, parts, hparts, hflatten⟩ := (hok t found).1 hfound
    exact (hok t' found).2 ⟨fun p hp ↦ h.isSearchable (hsearchable p hp), parts,
      hparts.imp fun _ _ ↦ h.expands, hflatten⟩
  refine ⟨⟨?_, fun hsearchable ↦ ?_⟩, fun found hfound ↦ ?_, fun t' hworking hperm found ↦ ?_⟩
  · rintro ⟨found, hfound⟩
    exact ((hok t found).1 hfound).1
  · obtain ⟨parts, hparts⟩ := Expands.exists_forall₂ t extensions paths
    exact ⟨_, (hok t _).2 ⟨hsearchable, parts, hparts, rfl⟩⟩
  · obtain ⟨-, parts, hparts, hflatten⟩ := (hok t found).1 hfound
    exact ⟨parts, hparts, hflatten, fun parts' hparts' ↦ hunique.forall₂ hparts' hparts⟩
  · have h := FileTree.SameContents.of_perm hworking hperm
    exact ⟨hsame h.symm found, hsame h found⟩

/-- A name that is too long for a file is not kept, but ends the search. -/
theorem expandPaths_of_long_name :
    let name := String.ofList (List.replicate 256 'a')
    expandPaths ({} : FileTree).view [".ss"] [Path.ofText name] =
        .error (.refused name .nameTooLong) ∧
      ¬(∃ found, expandPaths ({} : FileTree).view [".ss"] [Path.ofText name] = .ok found) := by
  intro name
  have herror := expandPaths_long_name_cons (t := {}) isTooLong_replicate ⟨true, rfl⟩ 900 [".ss"] []
  exact ⟨herror, by rintro ⟨found, hfound⟩; cases herror.symm.trans hfound⟩

end SchemeStyle
