import Mathlib.Data.List.DropRight

/-!
# Spaced sequences

A text lists some items if these stand in it in order, with any number of characters of a class
before, between and after them. Where no item belongs to the class, the items are what is left of
the text when the class is filtered out, so a text lists one sequence at most.
-/

variable {α : Type*} (space : α → Bool)

/-- Each item is preceded by any number of spaces, and any number of them follows the last. -/
def Spaced : List α → List α → Prop
  | [], text => ∀ a ∈ text, space a = true
  | d :: ds, text => ∃ gap rest, (∀ a ∈ gap, space a = true) ∧ text = gap ++ d :: rest ∧
      Spaced ds rest

variable {space} {ds text : List α} {a : α}

namespace Spaced

theorem space_cons (ha : space a = true) (h : Spaced space ds text) :
    Spaced space ds (a :: text) := by
  cases ds with
  | nil => exact List.forall_mem_cons.2 ⟨ha, h⟩
  | cons d ds =>
      obtain ⟨gap, rest, hgap, rfl, hrest⟩ := h
      exact ⟨a :: gap, rest, List.forall_mem_cons.2 ⟨ha, hgap⟩, rfl, hrest⟩

theorem item_cons (h : Spaced space ds text) : Spaced space (a :: ds) (a :: text) :=
  ⟨[], text, by simp, rfl, h⟩

theorem filter_eq (h : Spaced space ds text) (hds : ∀ d ∈ ds, space d = false) :
    text.filter (!space ·) = ds := by
  induction ds generalizing text with
  | nil => exact List.filter_eq_nil_iff.2 fun a ha => by simp [h a ha]
  | cons d ds ih =>
      obtain ⟨gap, rest, hgap, rfl, hrest⟩ := h
      obtain ⟨hd, hds⟩ := List.forall_mem_cons.1 hds
      have hempty : gap.filter (!space ·) = [] :=
        List.filter_eq_nil_iff.2 fun a ha => by simp [hgap a ha]
      rw [List.filter_append, hempty, List.nil_append, List.filter_cons_of_pos (by simp [hd]),
        ih hrest hds]

theorem of_filter (text : List α) : Spaced space (text.filter (!space ·)) text := by
  induction text with
  | nil => simp [Spaced]
  | cons a text ih =>
      cases ha : space a with
      | true =>
          rw [List.filter_cons_of_neg (by simp [ha])]
          exact ih.space_cons ha
      | false =>
          rw [List.filter_cons_of_pos (by simp [ha])]
          exact ih.item_cons

/-- The items of a text are what is left when the spaces are taken away. -/
theorem iff_filter (hds : ∀ d ∈ ds, space d = false) :
    Spaced space ds text ↔ text.filter (!space ·) = ds := by
  constructor
  · exact fun h => h.filter_eq hds
  · rintro rfl
    exact of_filter text

theorem self (ds : List α) : Spaced space ds ds := by
  induction ds with
  | nil => simp [Spaced]
  | cons d ds ih => exact ih.item_cons

/-! ## Taking spaces away at the ends -/

theorem filter_dropWhile {blank : α → Bool} (h : ∀ a, blank a = true → space a = true)
    (text : List α) : (text.dropWhile blank).filter (!space ·) = text.filter (!space ·) := by
  induction text with
  | nil => rfl
  | cons a text ih =>
      cases ha : blank a with
      | true =>
          rw [List.dropWhile_cons_of_pos ha, ih, List.filter_cons_of_neg (by simp [h a ha])]
      | false => rw [List.dropWhile_cons_of_neg (by simp [ha])]

theorem filter_rdropWhile {blank : α → Bool} (h : ∀ a, blank a = true → space a = true)
    (text : List α) : (text.rdropWhile blank).filter (!space ·) = text.filter (!space ·) := by
  rw [List.rdropWhile, List.filter_reverse, filter_dropWhile h, List.filter_reverse,
    List.reverse_reverse]

end Spaced
