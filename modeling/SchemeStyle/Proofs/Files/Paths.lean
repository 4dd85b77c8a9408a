import Mathlib.Data.List.Basic
import Mathlib.Data.String.Basic
import SchemeStyle.Proofs.Files.Tree

/-!
# Where paths lead

A path is looked up by its text, so what it leads to is said of texts; a search goes by the names on
the way from a directory. The two agree. The names in the text of a path are its own
(`slashNames_toText`), and so a path further down leads on from where the path above it leads
(`FileTree.resolve_descend`): to what is found there, unless a directory on the way may not be
searched or the path gets too long (`FileTree.status_descend`).
-/

namespace SchemeStyle

variable {p : Path} {names : List String}

/-! ### Names between slashes -/

theorem splitOn_slash_cons (cs : List Char) :
    ('/' :: cs).splitOn '/' = [] :: cs.splitOn '/' := by
  rw [List.splitOn, List.splitOnP_cons_eq_if_modifyHead]
  rfl

/-- What is between two slashes has none. -/
theorem slash_notMem_of_mem_splitOn {cs piece : List Char} (h : piece ∈ cs.splitOn '/') :
    '/' ∉ piece := by
  induction cs generalizing piece with
  | nil =>
    obtain rfl : piece = [] := by simpa using h
    exact List.not_mem_nil
  | cons c cs ih =>
    rw [List.splitOn, List.splitOnP_cons_eq_if_modifyHead] at h
    split_ifs at h with hc
    · rcases List.mem_cons.1 h with rfl | h
      · exact List.not_mem_nil
      · exact ih h
    · obtain ⟨first, rest, hsplit⟩ :=
        List.exists_cons_of_ne_nil (List.splitOnP_ne_nil (· == '/') cs)
      rw [hsplit, List.modifyHead_cons] at h
      have hmem {other : List Char} (hother : other ∈ first :: rest) : '/' ∉ other :=
        ih (by rw [List.splitOn, hsplit]; exact hother)
      rcases List.mem_cons.1 h with rfl | h
      · have hne : '/' ≠ c := fun heq ↦ hc (by simpa using heq.symm)
        simpa [hne] using hmem List.mem_cons_self
      · exact hmem (List.mem_cons_of_mem _ h)

/-- Whether a name can stand between two slashes. -/
def IsPiece (name : String) : Prop := name ≠ "" ∧ '/' ∉ name.toList

theorem IsPiece.of_mem_slashNames {s name : String} (h : name ∈ slashNames s) : IsPiece name := by
  obtain ⟨piece, hpiece, rfl⟩ := List.mem_map.1 h
  obtain ⟨hsplit, hne⟩ := List.mem_filter.1 hpiece
  refine ⟨fun hempty ↦ ?_, ?_⟩
  · have hnil : piece = [] := by simpa using hempty
    simp [hnil] at hne
  · rw [String.toList_ofList]
    exact slash_notMem_of_mem_splitOn hsplit

theorem IsPiece.of_isFileName {name : String} (h : isFileName name = true) : IsPiece name := by
  simp only [isFileName, Bool.and_eq_true, bne_iff_ne, Bool.not_eq_true', List.contains_eq_mem,
    decide_eq_false_iff_not] at h
  exact ⟨h.1.1.1.1.1, h.1.1.2⟩

/-- The names between slashes are read back, however many slashes are in front. -/
theorem slashNames_of_toList_eq {s : String} {slashes : Nat}
    (hpieces : ∀ name ∈ names, IsPiece name)
    (h : s.toList = List.replicate slashes '/' ++ ['/'].intercalate (names.map String.toList)) :
    slashNames s = names := by
  have hid : String.ofList ∘ String.toList = id := funext fun _ ↦ String.ofList_toList
  rw [slashNames, h]
  clear h
  induction slashes with
  | zero =>
    rcases names with - | ⟨name, rest⟩
    · rfl
    have hslash : ∀ piece ∈ (name :: rest).map String.toList, '/' ∉ piece := by
      rintro piece hpiece
      obtain ⟨other, hother, rfl⟩ := List.mem_map.1 hpiece
      exact (hpieces other hother).2
    have hkeep : ((name :: rest).map String.toList).filter (fun piece ↦ !piece.isEmpty) =
        (name :: rest).map String.toList := by
      refine List.filter_eq_self.2 ?_
      rintro piece hpiece
      obtain ⟨other, hother, rfl⟩ := List.mem_map.1 hpiece
      simpa using (hpieces other hother).1
    rw [List.replicate_zero, List.nil_append,
      List.splitOn_intercalate '/' hslash (by simp), hkeep, List.map_map, hid, List.map_id]
  | succ slashes ih =>
    rw [List.replicate_succ, List.cons_append, splitOn_slash_cons,
      List.filter_cons_of_neg (by simp)]
    exact ih

/-! ### Paths -/

namespace Path

/-- Whether a path is as one that is read from a text: its names can stand between slashes. -/
structure IsNormal (p : Path) : Prop where
  root : ∃ slashes, p.root = String.ofList (List.replicate slashes '/')
  names : ∀ name ∈ p.names, IsPiece name

theorem isNormal_ofText (s : String) : (ofText s).IsNormal := by
  refine ⟨?_, fun name hname ↦ IsPiece.of_mem_slashNames (List.mem_filter.1 hname).1⟩
  show ∃ slashes, rootOf s = _
  unfold rootOf
  split
  · exact ⟨0, rfl⟩
  · exact ⟨2, rfl⟩
  · exact ⟨1, rfl⟩

theorem IsNormal.descend (h : p.IsNormal) (hnames : ∀ name ∈ names, IsPiece name) :
    (p.descend names).IsNormal :=
  ⟨h.root, List.forall_mem_append.2 ⟨h.names, hnames⟩⟩

/-- The text of a path that has a root or a name. -/
theorem IsNormal.exists_toList_toText (h : p.IsNormal) (hne : ¬(p.root = "" ∧ p.names = [])) :
    ∃ slashes, p.root = String.ofList (List.replicate slashes '/') ∧
      p.toText.toList =
        List.replicate slashes '/' ++ ['/'].intercalate (p.names.map String.toList) := by
  obtain ⟨slashes, hroot⟩ := h.root
  refine ⟨slashes, hroot, ?_⟩
  have hdot : (p.root.isEmpty && p.names.isEmpty) = false := by
    rw [Bool.eq_false_iff]
    intro hempty
    exact hne (by simpa using hempty)
  rw [toText, hdot, if_neg (by simp), String.toList_append, String.toList_intercalate, hroot,
    String.toList_ofList]
  rfl

/-- The names in the text of a path are its own, and a dot if there are none at all. -/
theorem IsNormal.slashNames_toText (h : p.IsNormal) :
    slashNames p.toText = if p.root = "" ∧ p.names = [] then ["."] else p.names := by
  split_ifs with hempty
  · rw [toText, hempty.1, hempty.2]
    decide
  · obtain ⟨slashes, -, htext⟩ := h.exists_toList_toText hempty
    exact slashNames_of_toList_eq h.names htext

/-- The text of a path starts with a slash if the path has a root. -/
theorem IsNormal.head?_toText (h : p.IsNormal) :
    p.toText.toList.head? = some '/' ↔ p.root ≠ "" := by
  by_cases hempty : p.root = "" ∧ p.names = []
  · rw [toText, hempty.1, hempty.2]
    decide
  obtain ⟨slashes, hroot, htext⟩ := h.exists_toList_toText hempty
  rw [htext, hroot]
  cases slashes with
  | succ slashes => simp [List.replicate_succ]
  | zero =>
    refine iff_of_false ?_ (by simp)
    obtain ⟨name, rest, hnames⟩ : ∃ name rest, p.names = name :: rest :=
      List.exists_cons_of_ne_nil fun hnil ↦ hempty ⟨by rw [hroot]; rfl, hnil⟩
    have hpiece := h.names name (hnames ▸ List.mem_cons_self)
    obtain ⟨c, cs, hname⟩ := List.exists_cons_of_ne_nil
      (show name.toList ≠ [] by simpa using hpiece.1)
    have hc : c ≠ '/' := fun heq ↦ hpiece.2 (by rw [hname, heq]; exact List.mem_cons_self)
    rw [hnames, List.map_cons, hname]
    rcases rest with - | ⟨next, rest⟩ <;> simp [List.intercalate_cons_cons, hc]

theorem IsNormal.toText_ne_empty (h : p.IsNormal) : p.toText ≠ "" := by
  intro hempty
  by_cases hdot : p.root = "" ∧ p.names = []
  · rw [toText, hdot.1, hdot.2] at hempty
    exact absurd hempty (by decide)
  · have hnames := h.slashNames_toText
    have hhead := h.head?_toText
    rw [hempty] at hnames hhead
    rw [if_neg hdot] at hnames
    exact hdot ⟨by simpa using hhead, hnames.symm⟩

/-- Pieces that are put together end in the last of them. -/
theorem exists_intercalate_concat (front : List (List Char)) (last : List Char) :
    ∃ cs, ['/'].intercalate (front ++ [last]) = cs ++ last := by
  induction front with
  | nil => exact ⟨[], by simp⟩
  | cons piece front ih =>
    obtain ⟨next, rest, hrest⟩ : ∃ next rest, front ++ [last] = next :: rest :=
      List.exists_cons_of_ne_nil (by simp)
    obtain ⟨cs, hcs⟩ := ih
    refine ⟨piece ++ ['/'] ++ cs, ?_⟩
    rw [List.cons_append, hrest, List.intercalate_cons_cons, ← hrest, hcs]
    simp only [List.append_assoc]

/-- The text of a path with a name does not end in a slash. -/
theorem IsNormal.getLast?_toText (h : p.IsNormal) (hne : p.names ≠ []) :
    p.toText.toList.getLast? ≠ some '/' := by
  obtain ⟨slashes, -, htext⟩ := h.exists_toList_toText fun hempty ↦ hne hempty.2
  obtain ⟨front, last, hnames⟩ := (List.eq_nil_or_concat p.names).resolve_left hne
  rw [List.concat_eq_append] at hnames
  obtain ⟨cs, hcs⟩ := exists_intercalate_concat (front.map String.toList) last.toList
  have hlast := h.names last (by rw [hnames]; simp)
  have hend : p.toText.toList = List.replicate slashes '/' ++ cs ++ last.toList := by
    rw [htext, hnames, List.map_append, List.map_singleton, hcs, List.append_assoc]
  rw [hend, List.getLast?_append_of_ne_nil _ (by simpa using hlast.1)]
  exact fun hslash ↦ hlast.2 (List.mem_of_getLast? hslash)

end Path

/-! ### Further down from a directory -/

namespace FileTree

variable {t : FileTree} {place : List String} {node : Node}

/-- A path that is read from a text is followed from the root or the working directory. -/
theorem resolve_toText (h : p.IsNormal) :
    t.resolve p.toText =
      if longestPath < p.toText.utf8ByteSize then .error .nameTooLong
      else (if p.root = "" ∧ p.names = [] then ["."] else p.names).foldlM t.stepTo
        (if p.root = "" then t.working else []) := by
  have hstart : (if p.toText.toList.head? = some '/' then [] else t.working) =
      if p.root = "" then t.working else [] := by
    simp only [h.head?_toText, ite_not]
  rw [resolve, if_neg (by simpa using h.toText_ne_empty), h.slashNames_toText, hstart]

/-- A dot stays where it is. -/
theorem eq_of_stepTo_dot {place' : List String} (h : t.stepTo place "." = .ok place') :
    place' = place := by
  unfold stepTo at h
  split at h
  case h_1 | h_2 => cases h
  case h_3 =>
    split_ifs at h <;> first | exact (Except.ok.inj h).symm | contradiction

/-- **A path further down leads on from where the path above it leads.** -/
theorem resolve_descend (h : p.IsNormal) (hnames : ∀ name ∈ names, IsPiece name) (hne : names ≠ [])
    (hplace : t.resolve p.toText = .ok place) :
    t.resolve (p.descend names).toText =
      if longestPath < (p.descend names).toText.utf8ByteSize then .error .nameTooLong
      else names.foldlM t.stepTo place := by
  have hsome : ¬((p.descend names).root = "" ∧ (p.descend names).names = []) :=
    fun hempty ↦ hne (List.append_eq_nil_iff.1 hempty.2).2
  rw [resolve_toText (h.descend hnames), if_neg hsome]
  congr 1
  show (p.names ++ names).foldlM t.stepTo (if p.root = "" then t.working else []) = _
  rw [resolve_toText h] at hplace
  split_ifs at hplace with htoolong hroot hempty hempty
  · -- The path above is a dot, which stays in the working directory.
    have hdot : t.stepTo t.working "." = .ok place := by simpa using hplace
    rw [hempty.2, if_pos hroot, eq_of_stepTo_dot hdot]
    rfl
  · rw [if_pos hroot, List.foldlM_append, hplace]
    rfl
  · exact absurd hempty.1 hroot
  · rw [if_neg hroot, List.foldlM_append, hplace]
    rfl

/-- Every directory of the tree can be listed and searched. -/
def IsOpen (t : FileTree) : Prop :=
  ∀ names readable searchable, t.find? names = some (.directory readable searchable) →
    readable = true ∧ searchable = true

/-- In an open tree, all that can be wrong with names that are short enough is that nothing is found
under them. -/
theorem IsOpen.isAbsence_of_stepTo (h : t.IsOpen) {name : String} {e : FileError}
    (hname : name.utf8ByteSize ≤ longestName) (herror : t.stepTo place name = .error e) :
    e.isAbsence = true := by
  rw [stepTo] at herror
  split at herror
  case h_1 => rw [← Except.error.inj herror]; rfl
  case h_2 => rw [← Except.error.inj herror]; rfl
  case h_3 readable searchable hfound =>
    rw [(h place readable searchable hfound).2] at herror
    split_ifs at herror with hdenied hdot hparent hlong hsome
    · exact absurd hdenied (by simp)
    · exact absurd hname (Nat.not_le.2 hlong)
    · rw [← Except.error.inj herror]; rfl

theorem IsOpen.isAbsence_of_foldlM (h : t.IsOpen) {e : FileError}
    (hnames : ∀ name ∈ names, name.utf8ByteSize ≤ longestName)
    (herror : names.foldlM t.stepTo place = .error e) : e.isAbsence = true := by
  induction names generalizing place with
  | nil => cases herror
  | cons name names ih =>
    obtain ⟨hname, hrest⟩ := List.forall_mem_cons.1 hnames
    rw [List.foldlM_cons] at herror
    rcases hstep : t.stepTo place name with e' | place'
    · rw [hstep] at herror
      obtain rfl : e' = e := Except.error.inj herror
      exact h.isAbsence_of_stepTo hname hstep
    · rw [hstep] at herror
      exact ih hrest herror

/-- **In an open tree nothing is refused** but what is too long. -/
theorem IsOpen.isAbsence_of_status (h : t.IsOpen) (hp : p.IsNormal) {e : FileError}
    (hlength : p.toText.utf8ByteSize ≤ longestPath)
    (hnames : ∀ name ∈ p.names, name.utf8ByteSize ≤ longestName)
    (herror : t.status p.toText = .error e) : e.isAbsence = true := by
  rw [status, resolve_toText hp, if_neg (Nat.not_lt.2 hlength)] at herror
  have hshort : ∀ name ∈ if p.root = "" ∧ p.names = [] then ["."] else p.names,
      name.utf8ByteSize ≤ longestName := by
    split_ifs
    · exact List.forall_mem_singleton.2 (by decide)
    · exact hnames
  rcases hfold : (if p.root = "" ∧ p.names = [] then ["."] else p.names).foldlM t.stepTo
      (if p.root = "" then t.working else []) with e' | place
  · rw [hfold] at herror
    obtain rfl : e' = e := Except.error.inj herror
    exact h.isAbsence_of_foldlM hshort hfold
  · simp only [hfold, bind, Except.bind] at herror
    split at herror
    · rw [← Except.error.inj herror]; rfl
    · split_ifs at herror
      rw [← Except.error.inj herror]; rfl

/-- Names of what is found lead to it, unless a directory on the way may not be searched. -/
theorem foldlM_stepTo (hfound : (t.find? (place ++ names)).isSome) :
    names.foldlM t.stepTo place = .ok (place ++ names) ∨
      names.foldlM t.stepTo place = .error .denied := by
  induction names generalizing place with
  | nil => exact .inl (by rw [List.append_nil]; rfl)
  | cons name names ih =>
    obtain ⟨readable, searchable, hplace⟩ :=
      exists_directory_of_isSome hfound (List.cons_ne_nil name names)
    have hrest : (t.find? ((place ++ [name]) ++ names)).isSome := by
      rwa [List.append_assoc, List.singleton_append]
    have hname := isFileName_of_isSome hfound name (by simp)
    simp only [isFileName, Bool.and_eq_true, bne_iff_ne, decide_eq_true_eq] at hname
    rw [List.foldlM_cons, stepTo, hplace]
    dsimp only
    cases searchable with
    | false => exact .inr rfl
    | true =>
      rw [if_neg (by simp), if_neg hname.1.1.1.1.2, if_neg hname.1.1.1.2,
        if_neg (Nat.not_lt.2 hname.2), if_pos (isSome_find?_of_append hrest)]
      have hih := ih hrest
      rwa [List.append_assoc, List.singleton_append] at hih

/-- **What is found below a directory is found under the path to it**, unless that path is refused.
-/
theorem status_descend (h : p.IsNormal) (hplace : t.resolve p.toText = .ok place)
    (hne : names ≠ []) (hfound : t.find? (place ++ names) = some node) :
    t.status (p.descend names).toText = .ok (place ++ names, node) ∨
      ∃ e, t.status (p.descend names).toText = .error e ∧ e.isAbsence = false := by
  have hsome : (t.find? (place ++ names)).isSome := Option.isSome_of_eq_some hfound
  have hpieces : ∀ name ∈ names, IsPiece name := fun name hname ↦
    .of_isFileName (isFileName_of_isSome hsome name (List.mem_append_right place hname))
  have hend := (h.descend hpieces).getLast?_toText (by simp [Path.descend, hne])
  rw [status, resolve_descend h hpieces hne hplace]
  split_ifs with htoolong
  · exact .inr ⟨_, rfl, rfl⟩
  · rcases foldlM_stepTo hsome with hok | herror
    · refine .inl ?_
      simp only [hok, hfound, bind, Except.bind]
      exact if_neg fun hfile ↦ hend hfile.2
    · exact .inr ⟨_, by rw [herror]; rfl, rfl⟩

end FileTree

end SchemeStyle
