import Mathlib.Data.Set.Lattice
import Mathlib.Order.CompletePartialOrder

/-!
# Searches that pick an element

A search of a set returns any one of its elements, and nothing only if the set is empty. What the
order of the search is does not matter for how searches compose.
-/

variable {α : Type*} {S T : Set α} {a : α} {o o' : Option α}

/-- `o` is a result of a search of `S`. -/
def Finds (S : Set α) : Option α → Prop
  | some a => a ∈ S
  | none => S = ∅

namespace Finds

theorem isSome_iff (h : Finds S o) : o.isSome = true ↔ S.Nonempty := by
  cases o with
  | none =>
      rw [show S = ∅ from h]
      simp
  | some a => exact iff_of_true rfl ⟨a, h⟩

theorem isSome_eq (h : Finds S o) (h' : Finds S o') : o.isSome = o'.isSome := by
  rw [Bool.eq_iff_iff, h.isSome_iff, h'.isSome_iff]

theorem eq_none (h : Finds ∅ o) : o = none := by
  cases o with
  | none => rfl
  | some a => exact h.elim

theorem exists_result (S : Set α) : ∃ o, Finds S o := by
  obtain rfl | ⟨a, ha⟩ := S.eq_empty_or_nonempty
  · exact ⟨none, rfl⟩
  · exact ⟨some a, ha⟩

end Finds

/-- `o` is a result of a search of `S` that is followed by one of `T` if it finds nothing. -/
def FindsInTurn (S T : Set α) (o : Option α) : Prop := (∃ a ∈ S, o = some a) ∨ (S = ∅ ∧ Finds T o)

namespace FindsInTurn

theorem first (h : a ∈ S) : FindsInTurn S T (some a) := .inl ⟨a, h, rfl⟩

theorem second (h : Finds S none) (h' : Finds T o) : FindsInTurn S T o := .inr ⟨h, h'⟩

theorem of_or (h : Finds S o) (h' : Finds T o') : FindsInTurn S T (o.or o') := by
  cases o with
  | none => exact second h h'
  | some a => exact first h

theorem finds (h : FindsInTurn S T o) : Finds (S ∪ T) o := by
  obtain ⟨a, ha, rfl⟩ | ⟨rfl, h⟩ := h
  · exact .inl ha
  · rwa [Set.empty_union]

/-- Every hit lies in `U` exactly if `S` does and, where `S` has nothing to offer, `T` does. -/
theorem forall_mem_iff {U : Set α} : (∀ a, FindsInTurn S T (some a) → a ∈ U) ↔
    S ⊆ U ∧ (S = ∅ → T ⊆ U) := by
  constructor
  · intro h
    exact ⟨fun a ha => h a (first ha), fun hS a ha => h a (second hS ha)⟩
  · rintro ⟨hS, hT⟩ a (⟨b, hb, hab⟩ | ⟨hempty, ha⟩)
    · exact hS (Option.some.inj hab ▸ hb)
    · exact hT hempty ha

end FindsInTurn

/-- `o` is a result of a search of `S` that may overlook the elements of `T`. -/
def FindsBut (T S : Set α) : Option α → Prop
  | some a => a ∈ S
  | none => S ⊆ T

namespace FindsBut

variable {S' : Set α}

theorem empty : FindsBut T ∅ none := Set.empty_subset T

/-- A search in parts: the later ones are reached only if the earlier ones find nothing. -/
theorem next (h : FindsBut T S none) (h' : FindsBut T S' o) : FindsBut T (S ∪ S') o := by
  cases o with
  | none => exact Set.union_subset h h'
  | some a => exact .inr h'

/-- A search that overlooks nothing of what it searches. -/
theorem finds (h : FindsBut T S o) (hT : Disjoint S T) : Finds S o := by
  cases o with
  | none => exact Set.subset_empty_iff.1 (hT le_rfl h)
  | some a => exact h

theorem eq_none (h : FindsBut T ∅ o) : o = none := (h.finds (Set.empty_disjoint T)).eq_none

end FindsBut
