import Mathlib.Data.Int.ConditionallyCompleteOrder
import Mathlib.Data.Set.Prod
import Mathlib.Order.ConditionallyCompleteLattice.Basic
import Mathlib.Order.Interval.Set.Basic

/-!
# Strides

The numbers that a loop visits which starts at the lower end of an interval and goes on in equal
steps. Every stretch of the interval as long as a step holds one of them.
-/

variable {m a b c : ℤ}

def strided (m a b : ℤ) : Set ℤ := {x | x ∈ Set.Icc a b ∧ m ∣ x - a}

namespace Strided

theorem subset_Icc : strided m a b ⊆ Set.Icc a b := fun _ hx => hx.1

theorem eq_empty (h : b < a) : strided m a b = ∅ :=
  Set.subset_empty_iff.1 (subset_Icc.trans (Set.Icc_eq_empty (not_le.2 h)).subset)

/-- The loop visits the lower end and goes on from one step above it. -/
theorem eq_insert (hm : 0 < m) (h : a ≤ b) :
    strided m a b = insert a (strided m (a + m) b) := by
  ext x
  rw [Set.mem_insert_iff]
  constructor
  · intro hx
    obtain ⟨⟨hax, hxb⟩, hdvd⟩ := hx
    obtain rfl | hne := eq_or_ne x a
    · exact .inl rfl
    · have hle : m ≤ x - a := Int.le_of_dvd (by omega) hdvd
      refine .inr ⟨⟨by omega, hxb⟩, ?_⟩
      rw [← Int.sub_sub]
      exact Int.dvd_sub hdvd (Int.dvd_refl m)
  · intro hx
    obtain rfl | ⟨⟨hax, hxb⟩, hdvd⟩ := hx
    · exact ⟨⟨le_rfl, h⟩, by simp⟩
    · refine ⟨⟨by omega, hxb⟩, ?_⟩
      have hsum := Int.dvd_add hdvd (Int.dvd_refl m)
      rwa [show x - (a + m) + m = x - a by omega] at hsum

theorem exists_mem (hm : 0 < m) (hac : a ≤ c) (hcb : c + m - 1 ≤ b) :
    ∃ x ∈ strided m a b, x ∈ Set.Icc c (c + m - 1) := by
  have hnonneg := Int.emod_nonneg (a - c) hm.ne'
  have hlt := Int.emod_lt_of_pos (a - c) hm
  have hdiv := Int.emod_add_mul_ediv (a - c) m
  refine ⟨c + (a - c) % m, ⟨⟨by omega, by omega⟩, ?_⟩, by omega, by omega⟩
  have hmul : c + (a - c) % m - a = m * -((a - c) / m) := by
    rw [Int.mul_neg]
    omega
  exact ⟨_, hmul⟩

/-- Two loops in each other visit a point of every block that is as large as their steps. -/
theorem exists_mem_prod {n a' b' c' : ℤ} (hm : 0 < m) (hn : 0 < n)
    (hx : Set.Icc c (c + m - 1) ⊆ Set.Icc a b) (hy : Set.Icc c' (c' + n - 1) ⊆ Set.Icc a' b') :
    ∃ p ∈ strided m a b ×ˢ strided n a' b',
      p ∈ Set.Icc c (c + m - 1) ×ˢ Set.Icc c' (c' + n - 1) := by
  obtain ⟨hac, hcb⟩ := (Set.Icc_subset_Icc_iff (by omega)).1 hx
  obtain ⟨hac', hcb'⟩ := (Set.Icc_subset_Icc_iff (by omega)).1 hy
  obtain ⟨x, hx, hxc⟩ := exists_mem hm hac hcb
  obtain ⟨y, hy, hyc⟩ := exists_mem hn hac' hcb'
  exact ⟨(x, y), ⟨hx, hy⟩, hxc, hyc⟩

end Strided
