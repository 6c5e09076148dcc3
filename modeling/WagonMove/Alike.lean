import WagonMove.Prog

/-!
# Programs side by side

Two programs that are started alike, in environments related by `C` and states related by `R`, end
alike: with the same value or the same early end, in states related by `R`.
-/

namespace Prog

variable {ρ σ ε α β γ : Type} {C : ρ → ρ → Prop} {R : σ → σ → Prop}

def Alike (C : ρ → ρ → Prop) (R : σ → σ → Prop) (x y : Prog ρ σ ε α) : Prop :=
  ∀ r r' s s', C r r' → R s s' →
    ∃ out t t', x.run r s = (out, t) ∧ y.run r' s' = (out, t') ∧ R t t'

namespace Alike

theorem pure (a : α) : Alike C R (pure a : Prog ρ σ ε α) (pure a) := fun _ _ _ _ _ hs =>
  ⟨_, _, _, rfl, rfl, hs⟩

theorem abort (e : Abort ε) : Alike C R (abort e : Prog ρ σ ε α) (abort e) := fun _ _ _ _ _ hs =>
  ⟨_, _, _, rfl, rfl, hs⟩

theorem update {f g : σ → σ} (h : ∀ s s', R s s' → R (f s) (g s')) :
    Alike C R (update f : Prog ρ σ ε Unit) (update g) := fun _ _ s s' _ hs =>
  ⟨_, _, _, rfl, rfl, h s s' hs⟩

theorem gets {f g : σ → α} (h : ∀ s s', R s s' → f s = g s') :
    Alike C R (gets f : Prog ρ σ ε α) (gets g) := fun _ _ s s' _ hs =>
  ⟨.ok (f s), s, s', rfl, by rw [h s s' hs]; rfl, hs⟩

/-- Related states are read alike, or what follows does not see the difference. -/
theorem gets_bind {f g : σ → β} {k l : β → Prog ρ σ ε α}
    (h : ∀ s s', R s s' → Alike C R (k (f s)) (l (g s'))) :
    Alike C R (Prog.gets f >>= k) (Prog.gets g >>= l) := fun r r' s s' hr hs =>
  h s s' hs r r' s s' hr hs

theorem bind {x y : Prog ρ σ ε β} {f g : β → Prog ρ σ ε α} (hx : Alike C R x y)
    (hf : ∀ b, Alike C R (f b) (g b)) : Alike C R (x >>= f) (y >>= g) := by
  intro r r' s s' hr hs
  obtain ⟨out, t, t', hxt, hyt, ht⟩ := hx r r' s s' hr hs
  simp only [Bind.bind, hxt, hyt]
  cases out with
  | error e => exact ⟨_, _, _, rfl, rfl, ht⟩
  | ok b => exact hf b r r' t t' hr ht

theorem ite {c : Prop} [Decidable c] {x x' y y' : Prog ρ σ ε α} (hx : Alike C R x y)
    (hx' : Alike C R x' y') : Alike C R (if c then x else x') (if c then y else y') := by
  split
  · exact hx
  · exact hx'

theorem under {g : ρ → ρ} (hg : ∀ r r', C r r' → C (g r) (g r')) {x y : Prog ρ σ ε α}
    (hx : Alike C R x y) : Alike C R (under g x) (under g y) := fun r r' s s' hr hs =>
  hx _ _ s s' (hg r r' hr) hs

theorem rescue {x y : Prog ρ σ ε α} {h k : ε → Prog ρ σ ε α} (hx : Alike C R x y)
    (hh : ∀ e, Alike C R (h e) (k e)) : Alike C R (rescue x h) (rescue y k) := by
  intro r r' s s' hr hs
  obtain ⟨out, t, t', hxt, hyt, ht⟩ := hx r r' s s' hr hs
  simp only [Prog.rescue, hxt, hyt]
  cases out with
  | ok a => exact ⟨_, _, _, rfl, rfl, ht⟩
  | error e =>
      cases e with
      | thrown e => exact hh e r r' t t' hr ht
      | exited code | closed | starved => exact ⟨_, _, _, rfl, rfl, ht⟩

theorem ensure {x y : Prog ρ σ ε α} {fin fin' : Prog ρ σ ε Unit} (hx : Alike C R x y)
    (hfin : Alike C R fin fin') : Alike C R (ensure x fin) (ensure y fin') := by
  intro r r' s s' hr hs
  obtain ⟨out, t, t', hxt, hyt, ht⟩ := hx r r' s s' hr hs
  simp only [Prog.ensure, hxt, hyt]
  cases out with
  | ok a => exact hfin.bind (fun _ => .pure a) r r' t t' hr ht
  | error e =>
      cases e with
      | thrown e => exact hfin.bind (fun _ => .abort (.thrown e)) r r' t t' hr ht
      | exited code | closed | starved => exact ⟨_, _, _, rfl, rfl, ht⟩

theorem loop {body body' : γ → Prog ρ σ ε (Turn α γ)} {last last' : γ → Prog ρ σ ε α}
    (hbody : ∀ c, Alike C R (body c) (body' c)) (hlast : ∀ c, Alike C R (last c) (last' c)) (n : ℕ)
    (c : γ) : Alike C R (loop body last n c) (loop body' last' n c) := by
  induction n generalizing c with
  | zero => exact hlast c
  | succ n ih =>
      refine (hbody c).bind fun t => ?_
      cases t with
      | leave b => exact .pure b
      | again c' => exact ih c'

/-- What leaves the state related to itself may come in between on either side. -/
theorem skip [IsEquiv σ R] {x : Prog ρ σ ε β} {y : Prog ρ σ ε γ} {f : β → Prog ρ σ ε α}
    {g : γ → Prog ρ σ ε α} (hx : Does R x) (hy : Does R y) (hf : ∀ b c, Alike C R (f b) (g c)) :
    Alike C R (x >>= f) (y >>= g) := by
  intro r r' s s' hr hs
  obtain ⟨b, t, hxt, ht⟩ := exists_value (hx r s)
  obtain ⟨c, t', hyt, ht'⟩ := exists_value (hy r' s')
  simp only [Bind.bind, hxt, hyt]
  exact hf b c r r' t t' hr (trans_of R (symm_of R ht) (trans_of R hs ht'))

end Alike
end Prog
