import Mathlib.Algebra.Order.Archimedean.Basic
import Mathlib.Algebra.Order.Ring.Abs
import Mathlib.Order.Interval.Set.UnorderedInterval
import Mathlib.Tactic.Linarith
import Mathlib.Tactic.Ring

/-!
# Ease-out movement

A point that covers a fixed share `c` of its remaining distance at every step, over any linearly
ordered field. The distance shrinks geometrically, so it never grows, the point never passes its
target, and over an Archimedean field every tolerance is eventually met.
-/

namespace EaseOut

section Gap

variable {K : Type*} [Field K] {c tgt cur : K}

def ease (c tgt cur : K) : K := cur + (tgt - cur) * c

theorem gap_ease (c tgt cur : K) : tgt - ease c tgt cur = (1 - c) * (tgt - cur) := by
  unfold ease
  ring

theorem gap_iterate (n : ℕ) : tgt - (ease c tgt)^[n] cur = (1 - c) ^ n * (tgt - cur) := by
  induction n with
  | zero => simp
  | succ n ih => rw [Function.iterate_succ_apply', gap_ease, ih, pow_succ]; ring

end Gap

variable {K : Type*} [Field K] [LinearOrder K] [IsStrictOrderedRing K] {c tgt cur : K}

theorem abs_gap_ease_le (h₀ : 0 ≤ c) (h₁ : c ≤ 1) :
    |tgt - ease c tgt cur| ≤ |tgt - cur| := by
  rw [gap_ease, abs_mul, abs_of_nonneg (sub_nonneg.2 h₁)]
  exact mul_le_of_le_one_left (abs_nonneg _) (by linarith)

theorem ease_mem_uIcc (h₀ : 0 ≤ c) (h₁ : c ≤ 1) : ease c tgt cur ∈ Set.uIcc cur tgt := by
  have hgap := gap_ease c tgt cur
  unfold ease at hgap ⊢
  rcases le_total cur tgt with h | h
  · rw [Set.uIcc_of_le h]
    have := mul_nonneg (sub_nonneg.2 h) h₀
    have := mul_nonneg (sub_nonneg.2 h₁) (sub_nonneg.2 h)
    exact ⟨by linarith, by linarith⟩
  · rw [Set.uIcc_of_ge h]
    have := mul_nonneg (sub_nonneg.2 h) h₀
    have := mul_nonneg (sub_nonneg.2 h₁) (sub_nonneg.2 h)
    exact ⟨by linarith, by linarith⟩

theorem abs_gap_iterate_antitone (h₀ : 0 ≤ c) (h₁ : c ≤ 1) {m n : ℕ} (hmn : m ≤ n) :
    |tgt - (ease c tgt)^[n] cur| ≤ |tgt - (ease c tgt)^[m] cur| := by
  induction n, hmn using Nat.le_induction with
  | base => exact le_rfl
  | succ n _ ih =>
      rw [Function.iterate_succ_apply']
      exact (abs_gap_ease_le h₀ h₁).trans ih

/-- Every positive tolerance is met after finitely many steps. -/
theorem exists_abs_gap_le [Archimedean K] (h₀ : 0 < c) (h₁ : c ≤ 1) (tgt cur : K) {ε : K}
    (hε : 0 < ε) : ∃ n, |tgt - (ease c tgt)^[n] cur| ≤ ε := by
  have hd : 0 < |tgt - cur| + 1 := by positivity
  obtain ⟨n, hn⟩ := exists_pow_lt_of_lt_one (div_pos hε hd) (show 1 - c < 1 by linarith)
  refine ⟨n, ?_⟩
  rw [gap_iterate, abs_mul, abs_of_nonneg (pow_nonneg (sub_nonneg.2 h₁) n)]
  calc
    (1 - c) ^ n * |tgt - cur| ≤ (1 - c) ^ n * (|tgt - cur| + 1) :=
      mul_le_mul_of_nonneg_left (by linarith) (pow_nonneg (sub_nonneg.2 h₁) n)
    _ ≤ ε / (|tgt - cur| + 1) * (|tgt - cur| + 1) := mul_le_mul_of_nonneg_right hn.le hd.le
    _ = ε := div_mul_cancel₀ ε hd.ne'

/-- Two axes meet a common tolerance together. -/
theorem exists_abs_gap_le₂ [Archimedean K] (h₀ : 0 < c) (h₁ : c ≤ 1) (tx cx ty cy : K) {ε : K}
    (hε : 0 < ε) :
    ∃ n, |tx - (ease c tx)^[n] cx| ≤ ε ∧ |ty - (ease c ty)^[n] cy| ≤ ε := by
  obtain ⟨m, hm⟩ := exists_abs_gap_le h₀ h₁ tx cx hε
  obtain ⟨n, hn⟩ := exists_abs_gap_le h₀ h₁ ty cy hε
  exact ⟨max m n, (abs_gap_iterate_antitone h₀.le h₁ (le_max_left m n)).trans hm,
    (abs_gap_iterate_antitone h₀.le h₁ (le_max_right m n)).trans hn⟩

end EaseOut
