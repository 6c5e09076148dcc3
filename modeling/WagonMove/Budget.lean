import WagonMove.Prog

/-!
# Costs of programs

`Costs D cost b x` says that a run of `x`, in an environment of `D`, raises the measure `cost` of
the state by at most `b`, whichever way it ends. The bounds add up along a program.
-/

namespace Prog

variable {ρ σ ε α β γ : Type} {D : ρ → Prop} {cost : σ → ℕ} {a b n : ℕ}

def Costs (D : ρ → Prop) (cost : σ → ℕ) (b : ℕ) (x : Prog ρ σ ε α) : Prop :=
  ∀ r, D r → ∀ s,
    wp x (fun _ s' => cost s' ≤ cost s + b) (fun _ s' => cost s' ≤ cost s + b) r s

/-- What holds however a program ends holds of the state that it leaves. -/
theorem of_every_end {x : Prog ρ σ ε α} {r : ρ} {s : σ} {P : σ → Prop}
    (h : wp x (fun _ => P) (fun _ => P) r s) : P (x.run r s).2 := by
  obtain ⟨hvalue, hend⟩ := wp_iff_run.1 h
  cases hrun : x.run r s with
  | mk out s' =>
      cases out with
      | error e => exact hend e s' hrun
      | ok v => exact hvalue v s' hrun

namespace Costs

theorem mono {x : Prog ρ σ ε α} (hx : Costs D cost a x) (hab : a ≤ b) : Costs D cost b x := by
  intro r hr s
  refine wp_mono (hx r hr s) (fun _ s' h => ?_) fun _ s' h => ?_
  · omega
  · omega

theorem pure (v : α) : Costs D cost b (pure v : Prog ρ σ ε α) := fun _ _ s => by
  rw [wp_pure]
  exact Nat.le_add_right _ _

theorem gets (f : σ → α) : Costs D cost b (gets f : Prog ρ σ ε α) := fun _ _ s => by
  rw [wp_gets]
  exact Nat.le_add_right _ _

theorem abort (e : Abort ε) : Costs D cost b (abort e : Prog ρ σ ε α) := fun _ _ s => by
  rw [wp_abort]
  exact Nat.le_add_right _ _

theorem update {f : σ → σ} (hf : ∀ s, cost (f s) ≤ cost s + b) :
    Costs D cost b (update f : Prog ρ σ ε Unit) := fun _ _ s => by
  rw [wp_update]
  exact hf s

theorem bind {x : Prog ρ σ ε β} {f : β → Prog ρ σ ε α} (hx : Costs D cost a x)
    (hf : ∀ v, Costs D cost b (f v)) : Costs D cost (a + b) (x >>= f) := by
  intro r hr s
  rw [wp_bind]
  refine wp_mono (hx r hr s) (fun v s' h => ?_) fun _ s' h => by omega
  refine wp_mono (hf v r hr s') (fun _ s'' h' => ?_) fun _ s'' h' => ?_
  · omega
  · omega

/-- What is free comes first. -/
theorem after {x : Prog ρ σ ε β} {f : β → Prog ρ σ ε α} (hx : Costs D cost 0 x)
    (hf : ∀ v, Costs D cost b (f v)) : Costs D cost b (x >>= f) :=
  (hx.bind hf).mono (by omega)

/-- What is free comes last. -/
theorem before {x : Prog ρ σ ε β} {f : β → Prog ρ σ ε α} (hx : Costs D cost b x)
    (hf : ∀ v, Costs D cost 0 (f v)) : Costs D cost b (x >>= f) :=
  (hx.bind hf).mono (by omega)

theorem ite {c : Prop} [Decidable c] {x y : Prog ρ σ ε α} (hx : Costs D cost b x)
    (hy : Costs D cost b y) : Costs D cost b (if c then x else y) := by
  split
  · exact hx
  · exact hy

theorem under {g : ρ → ρ} {x : Prog ρ σ ε α} (hg : ∀ r, D r → D (g r)) (hx : Costs D cost b x) :
    Costs D cost b (under g x) := fun r hr s => (wp_under g x).2 (hx (g r) (hg r hr) s)

theorem ensure {x : Prog ρ σ ε α} {fin : Prog ρ σ ε Unit} (hx : Costs D cost a x)
    (hfin : Costs D cost b fin) : Costs D cost (a + b) (ensure x fin) := by
  intro r hr s
  have hlast (s' : σ) (h : cost s' ≤ cost s + a) : wp fin (fun _ s'' => cost s'' ≤ cost s + (a + b))
      (fun _ s'' => cost s'' ≤ cost s + (a + b)) r s' := by
    refine wp_mono (hfin r hr s') (fun _ s'' h' => ?_) fun _ s'' h' => ?_
    · omega
    · omega
  rw [wp_ensure]
  refine wp_mono (hx r hr s) (fun _ s' h => hlast s' h) fun e s' h => ?_
  cases e with
  | thrown e => exact hlast s' h
  | exited code | closed | starved => omega

theorem rescue {x : Prog ρ σ ε α} {h : ε → Prog ρ σ ε α} (hx : Costs D cost a x)
    (hh : ∀ e, Costs D cost b (h e)) : Costs D cost (a + b) (rescue x h) := by
  intro r hr s
  rw [wp_rescue]
  refine wp_mono (hx r hr s) (fun _ s' h' => by omega) fun e s' h' => ?_
  cases e with
  | thrown e =>
      refine wp_mono (hh e r hr s') (fun _ s'' h'' => ?_) fun _ s'' h'' => ?_
      · omega
      · omega
  | exited code | closed | starved => omega

theorem loop {body : γ → Prog ρ σ ε (Turn α γ)} {last : γ → Prog ρ σ ε α}
    (hbody : ∀ c, Costs D cost a (body c)) (hlast : ∀ c, Costs D cost b (last c)) (n : ℕ) (c : γ) :
    Costs D cost (n * a + b) (loop body last n c) := by
  intro r hr s₀
  refine wp_loop (fun left _ s => cost s + left * a ≤ cost s₀ + n * a) ?_ ?_ n c s₀ (Nat.le_refl _)
  · intro left c s hs
    rw [Nat.add_one_mul] at hs
    refine wp_mono (hbody c r hr s) (fun t s' h => ?_) fun _ s' h => by omega
    cases t with
    | leave v =>
        change cost s' ≤ cost s₀ + (n * a + b)
        omega
    | again c' =>
        change cost s' + left * a ≤ cost s₀ + n * a
        omega
  · intro c s hs
    refine wp_mono (hlast c r hr s) (fun _ s' h => ?_) fun _ s' h => ?_
    · omega
    · omega

theorem run_le {x : Prog ρ σ ε α} (hx : Costs D cost b x) {r : ρ} (hr : D r) (s : σ) :
    cost (x.run r s).2 ≤ cost s + b :=
  of_every_end (P := fun s' => cost s' ≤ cost s + b) (hx r hr s)

end Costs
end Prog
