import Mathlib.Data.List.Chain
import SchemeStyle.Import.Order

/-!
# The orders of ids and names

Keys of ids are compared by their parts, and the comparison is transitive because those of
characters, numbers and lists are. The empty id has the least key, so the exception that is made for
it is none (`idsInOrder_eq_isLE`), and ids may be compared through others. Names are texts in their
usual order.

Both orders are checked between neighbours only. What is in order there is in order throughout
(`pairwise_idsInOrder_iff`, `pairwise_lt_iff`).

A key loses nothing of its id, since the pieces of a text between its dots make up the text again
(`IdKey.ofId_injective`). So no two ids are equal in the order, which is linear on all texts
(`idsInOrder_linear`), whether or not they look like ids.
-/

namespace SchemeStyle

namespace IdKey

instance : Std.TransCmp comparePart :=
  inferInstanceAs (Std.TransCmp (compareLex (compareOn Prod.fst) (compareOn Prod.snd)))

instance : Std.TransCmp fun a b : IdKey ↦ a.parts.compareLex comparePart b.parts where
  eq_swap {a b} := (Std.OrientedCmp.eq_swap : a.parts.compareLex comparePart b.parts = _)
  isLE_trans {a _ c} h h' :=
    (Std.TransCmp.isLE_trans h h' : (a.parts.compareLex comparePart c.parts).isLE = true)

instance : Std.TransOrd IdKey :=
  inferInstanceAs (Std.TransCmp (compareLex (compareOn sigil)
    fun a b ↦ a.parts.compareLex comparePart b.parts))

/-! ### Equal keys -/

instance : Std.LawfulEqCmp comparePart where
  compare_self := Std.ReflCmp.compare_self
  eq_of_compare {a b} h := by
    obtain ⟨hlength, htext⟩ := Ordering.then_eq_eq.1 h
    exact Prod.ext (Std.LawfulEqOrd.eq_of_compare hlength) (Std.LawfulEqOrd.eq_of_compare htext)

instance : Std.LawfulEqOrd IdKey where
  compare_self := Std.ReflCmp.compare_self
  eq_of_compare {a b} h := by
    obtain ⟨hsigil, hparts⟩ := Ordering.then_eq_eq.1 h
    have hparts : a.parts = b.parts := Std.LawfulEqCmp.eq_of_compare hparts
    rcases a with ⟨sigil, parts⟩
    rcases b with ⟨sigil', parts'⟩
    exact congr (congrArg mk (Std.LawfulEqOrd.eq_of_compare hsigil)) hparts

/-- The components make up the text behind the sigil again. -/
theorem intercalate_parts_ofId (id : String) :
    ['.'].intercalate ((ofId id).parts.map Prod.snd) = id.toList.tail := by
  rw [ofId, List.map_map]
  exact (congrArg _ (List.map_id _)).trans (List.intercalate_splitOn '.')

/-- **A key loses nothing of its id.** -/
theorem ofId_injective : Function.Injective ofId := by
  intro a b h
  have htail : a.toList.tail = b.toList.tail := by
    rw [← intercalate_parts_ofId, h, intercalate_parts_ofId]
  have hhead : a.toList.head? = b.toList.head? := congrArg sigil h
  refine String.toList_injective ?_
  cases ha : a.toList <;> cases hb : b.toList <;> simp_all

end IdKey

/-- The empty id has the least key. -/
theorem isLE_compare_ofId_empty (id : String) :
    (compare (IdKey.ofId "") (IdKey.ofId id)).isLE = true := by
  rcases hid : id.toList with - | ⟨sigil, rest⟩
  · obtain rfl : id = "" := String.toList_injective hid
    decide
  · have hsigil : (IdKey.ofId id).sigil = some sigil := by rw [IdKey.ofId, hid]; rfl
    show ((compare none (IdKey.ofId id).sigil).then _).isLE = true
    rw [hsigil]
    rfl

/-- Ids are in order if their keys are. -/
theorem idsInOrder_eq_isLE (last current : String) :
    idsInOrder last current = (compare (IdKey.ofId last) (IdKey.ofId current)).isLE := by
  rw [idsInOrder]
  by_cases h : last = ""
  · subst h
    rw [isLE_compare_ofId_empty]
    rfl
  · simp [h]

theorem idsInOrder_refl (a : String) : idsInOrder a a = true := by
  rw [idsInOrder_eq_isLE]
  exact Std.ReflCmp.isLE_rfl

theorem idsInOrder_trans {a b c : String} (h : idsInOrder a b = true) (h' : idsInOrder b c = true) :
    idsInOrder a c = true := by
  rw [idsInOrder_eq_isLE] at *
  exact Std.TransCmp.isLE_trans h h'

/-- Of two ids one may follow the other. -/
theorem idsInOrder_total (a b : String) : idsInOrder a b = true ∨ idsInOrder b a = true := by
  rw [idsInOrder_eq_isLE, idsInOrder_eq_isLE, ← Ordering.isGE_swap, ← Std.OrientedOrd.eq_swap]
  cases compare (IdKey.ofId b) (IdKey.ofId a) <;> simp

/-- Only the same id may both follow another and be followed by it. -/
theorem idsInOrder_antisymm {a b : String} (h : idsInOrder a b = true)
    (h' : idsInOrder b a = true) : a = b := by
  rw [idsInOrder_eq_isLE] at h h'
  exact IdKey.ofId_injective (Std.LawfulEqOrd.eq_of_compare (Std.OrientedCmp.isLE_antisymm h h'))

/-! ### Neighbours -/

/-- Ids that are in order with their neighbours are in order throughout. -/
theorem pairwise_idsInOrder_iff {ids : List String} :
    ids.Pairwise (fun a b ↦ idsInOrder a b = true) ↔
      ids.IsChain fun a b ↦ idsInOrder a b = true :=
  have : Trans (fun a b ↦ idsInOrder a b = true) (fun a b ↦ idsInOrder a b = true)
      (fun a b ↦ idsInOrder a b = true) := ⟨idsInOrder_trans⟩
  List.isChain_iff_pairwise.symm

/-- **Ids are in a linear order, in which the empty one is the least.** The exception for the empty
id agrees with its key, keys tell all ids apart, and ids that are in order with their neighbours are
in order with all that follow. -/
theorem idsInOrder_linear :
    (∀ a, idsInOrder a a = true) ∧
    (∀ a b c, idsInOrder a b = true → idsInOrder b c = true → idsInOrder a c = true) ∧
    (∀ a b, idsInOrder a b = true ∨ idsInOrder b a = true) ∧
    (∀ a b, idsInOrder a b = true → idsInOrder b a = true → a = b) ∧
    (∀ a, idsInOrder "" a = true) ∧
    (∀ a b, idsInOrder a b = (compare (IdKey.ofId a) (IdKey.ofId b)).isLE) ∧
    Function.Injective IdKey.ofId ∧
    ∀ ids : List String, ids.IsChain (fun a b ↦ idsInOrder a b = true) ↔
      ids.Pairwise fun a b ↦ idsInOrder a b = true :=
  ⟨idsInOrder_refl, fun _ _ _ ↦ idsInOrder_trans, idsInOrder_total, fun _ _ ↦ idsInOrder_antisymm,
    fun _ ↦ rfl, idsInOrder_eq_isLE, IdKey.ofId_injective,
    fun _ ↦ pairwise_idsInOrder_iff.symm⟩

/-- Names that are in order with their neighbours are in order throughout. -/
theorem pairwise_lt_iff {names : List String} :
    names.Pairwise (· < ·) ↔ names.IsChain (· < ·) :=
  have : Trans (fun a b : String ↦ a < b) (fun a b : String ↦ a < b)
      (fun a b : String ↦ a < b) := ⟨String.lt_trans⟩
  List.isChain_iff_pairwise.symm

end SchemeStyle
