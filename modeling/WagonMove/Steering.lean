import Mathlib.Algebra.Order.Ring.Abs
import Mathlib.Data.List.Chain
import Mathlib.Tactic.Linarith
import Mathlib.Tactic.Ring

/-!
# Steering by fixed steps

An error is corrected by steps towards zero until it lies within a tolerance. The steps are not
known, but bounded on both sides. If none is longer than the tolerance to both sides, then no step
passes the tolerance, so all go the same way, and their number is bounded by the first error.
-/

namespace Steering

variable {K : Type*} [CommRing K] [LinearOrder K] [IsStrictOrderedRing K] {lo hi tol : K}

/-- One step brings `e` to `e'`. -/
def Corrects (lo hi e' e : K) : Prop :=
  ∃ d, lo ≤ d ∧ d ≤ hi ∧ e' = if 0 < e then e - d else e + d

theorem Corrects.neg {e' e : K} (he : e ≠ 0) (h : Corrects lo hi e' e) :
    Corrects lo hi (-e') (-e) := by
  obtain ⟨d, hlo, hhi, rfl⟩ := h
  refine ⟨d, hlo, hhi, ?_⟩
  obtain hneg | hpos := lt_or_gt_of_ne he
  · rw [if_neg hneg.le.not_gt, if_pos (neg_pos.2 hneg)]
    ring
  · rw [if_pos hpos, if_neg (neg_neg_of_pos hpos).le.not_gt]
    ring

theorem Corrects.not_past {e' e : K} (h : Corrects lo hi e' e) (htol : 0 ≤ tol)
    (hband : hi ≤ 2 * tol) (he : tol < e) : -tol < e' ∧ e' + lo ≤ e := by
  obtain ⟨d, hlo, hhi, rfl⟩ := h
  rw [if_pos (htol.trans_lt he)]
  constructor <;> linarith

/-- Errors outside the tolerance, the newest first, that start on the right: they stay there, and
each step brings them closer. -/
theorem falling (htol : 0 ≤ tol) (hband : hi ≤ 2 * tol) {e : K} {es : List K}
    (hchain : (e :: es).IsChain (Corrects lo hi)) (hoff : ∀ x ∈ e :: es, tol < |x|)
    (hfirst : 0 < (e :: es).getLast (List.cons_ne_nil e es)) :
    (∀ x ∈ e :: es, tol < x) ∧
      e + es.length * lo ≤ (e :: es).getLast (List.cons_ne_nil e es) := by
  induction es generalizing e with
  | nil =>
      have he := hoff e List.mem_cons_self
      rw [List.getLast_singleton] at hfirst
      rw [abs_of_pos hfirst] at he
      simpa using he
  | cons e' es ih =>
      rw [List.isChain_cons_cons] at hchain
      rw [List.getLast_cons_cons] at hfirst ⊢
      obtain ⟨hright, hbound⟩ := ih hchain.2 (fun x hx => hoff x (List.mem_cons_of_mem e hx)) hfirst
      obtain ⟨hpast, hcloser⟩ := hchain.1.not_past htol hband (hright e' List.mem_cons_self)
      have he : tol < e := by
        rcases lt_abs.1 (hoff e List.mem_cons_self) with h | h
        · exact h
        · linarith
      refine ⟨List.forall_mem_cons.2 ⟨he, hright⟩, ?_⟩
      rw [List.length_cons]
      push_cast
      linarith

theorem one_sided (htol : 0 ≤ tol) (hband : hi ≤ 2 * tol) {e : K} {es : List K}
    (hchain : (e :: es).IsChain (Corrects lo hi)) (hoff : ∀ x ∈ e :: es, tol < |x|) :
    ((∀ x ∈ e :: es, 0 < x) ∨ ∀ x ∈ e :: es, x < 0) ∧
      tol + es.length * lo < |(e :: es).getLast (List.cons_ne_nil e es)| := by
  have hne : ∀ x ∈ e :: es, x ≠ 0 := fun x hx => abs_pos.1 (htol.trans_lt (hoff x hx))
  obtain hneg | hpos := lt_or_gt_of_ne (hne _ (List.getLast_mem (List.cons_ne_nil e es)))
  · have hchain' : ((e :: es).map Neg.neg).IsChain (Corrects lo hi) :=
      (List.isChain_map Neg.neg).2 (hchain.imp_of_mem_imp fun _ b _ hb h => h.neg (hne b hb))
    have hoff' : ∀ x ∈ (e :: es).map Neg.neg, tol < |x| := by
      rw [List.forall_mem_map]
      exact fun x hx => (hoff x hx).trans_eq (abs_neg x).symm
    have hlast : ((e :: es).map Neg.neg).getLast (by simp) =
        -(e :: es).getLast (List.cons_ne_nil e es) := List.getLast_map _
    obtain ⟨hright, hbound⟩ :=
      falling htol hband hchain' hoff' ((neg_pos.2 hneg).trans_eq hlast.symm)
    rw [← List.map_cons, List.forall_mem_map] at hright
    rw [List.length_map] at hbound
    replace hbound := hbound.trans_eq hlast
    refine ⟨.inr fun x hx => neg_pos.1 (htol.trans_lt (hright x hx)), ?_⟩
    rw [abs_of_neg hneg]
    have := hright e List.mem_cons_self
    linarith
  · obtain ⟨hright, hbound⟩ := falling htol hband hchain hoff hpos
    refine ⟨.inl fun x hx => htol.trans_lt (hright x hx), ?_⟩
    rw [abs_of_pos hpos]
    have := hright e List.mem_cons_self
    linarith

end Steering
