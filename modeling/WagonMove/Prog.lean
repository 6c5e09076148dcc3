import Mathlib.Data.Nat.Notation
import Mathlib.Order.Defs.Unbundled
import Mathlib.Tactic.TypeStar

/-!
# Programs with state, errors and early ends

A program reads an environment, updates a state, and either returns a value or ends early: by an
error that a handler may catch, by leaving the process, by the process being closed from outside,
or by a loop running out of the iterations it was granted. `wp` is the weakest precondition of a
program and `Keeps` the invariants that survive every way out of it.
-/

/-- The ways in which a program ends without a value. -/
inductive Abort (ε : Type) where
  | thrown (e : ε)
  | exited (code : ℕ)
  | closed
  | starved
  deriving DecidableEq

/-- A program with environment `ρ`, state `σ`, errors `ε` and values `α`. -/
structure Prog (ρ σ ε α : Type) where
  run : ρ → σ → Except (Abort ε) α × σ

inductive Turn (β γ : Type) where
  | leave (b : β)
  | again (c : γ)

namespace Prog

variable {ρ σ ε α β γ : Type}

instance : Monad (Prog ρ σ ε) where
  pure a := ⟨fun _ s => (.ok a, s)⟩
  bind x f := ⟨fun r s =>
    match x.run r s with
    | (.ok a, s') => (f a).run r s'
    | (.error e, s') => (.error e, s')⟩

def abort (e : Abort ε) : Prog ρ σ ε α := ⟨fun _ s => (.error e, s)⟩

def raise (e : ε) : Prog ρ σ ε α := abort (.thrown e)

def gets (f : σ → α) : Prog ρ σ ε α := ⟨fun _ s => (.ok (f s), s)⟩

def update (f : σ → σ) : Prog ρ σ ε Unit := ⟨fun _ s => (.ok (), f s)⟩

def under (g : ρ → ρ) (x : Prog ρ σ ε α) : Prog ρ σ ε α := ⟨fun r s => x.run (g r) s⟩

/-- `try x catch h`: only errors reach the handler. -/
def rescue (x : Prog ρ σ ε α) (h : ε → Prog ρ σ ε α) : Prog ρ σ ε α := ⟨fun r s =>
  match x.run r s with
  | (.error (.thrown e), s') => (h e).run r s'
  | out => out⟩

/-- `try x finally fin`: a process that is gone runs no `finally`. -/
def ensure (x : Prog ρ σ ε α) (fin : Prog ρ σ ε Unit) : Prog ρ σ ε α := ⟨fun r s =>
  match x.run r s with
  | (.ok a, s') => (fin >>= fun _ => (pure a : Prog ρ σ ε α)).run r s'
  | (.error (.thrown e), s') => (fin >>= fun _ => (raise e : Prog ρ σ ε α)).run r s'
  | out => out⟩

/-- At most `n` passes through `body`, then `last`. -/
def loop (body : γ → Prog ρ σ ε (Turn β γ)) (last : γ → Prog ρ σ ε β) : ℕ → γ → Prog ρ σ ε β
  | 0, c => last c
  | n + 1, c => do
    match ← body c with
    | .leave b => pure b
    | .again c' => loop body last n c'

/-- `Q` holds of a returned value and its state, `E` of an early end and its state. -/
def wp (x : Prog ρ σ ε α) (Q : α → σ → Prop) (E : Abort ε → σ → Prop) (r : ρ) (s : σ) : Prop :=
  match x.run r s with
  | (.ok a, s') => Q a s'
  | (.error e, s') => E e s'

section Rules

variable {Q Q' : α → σ → Prop} {E E' : Abort ε → σ → Prop} {r : ρ} {s : σ}

@[simp] theorem wp_pure (a : α) : wp (pure a : Prog ρ σ ε α) Q E r s ↔ Q a s := Iff.rfl

@[simp] theorem wp_abort (e : Abort ε) : wp (abort e : Prog ρ σ ε α) Q E r s ↔ E e s := Iff.rfl

@[simp] theorem wp_raise (e : ε) : wp (raise e : Prog ρ σ ε α) Q E r s ↔ E (.thrown e) s := Iff.rfl

@[simp] theorem wp_gets (f : σ → α) : wp (gets f : Prog ρ σ ε α) Q E r s ↔ Q (f s) s := Iff.rfl

@[simp] theorem wp_update (f : σ → σ) {Q : Unit → σ → Prop} :
    wp (update f : Prog ρ σ ε Unit) Q E r s ↔ Q () (f s) := Iff.rfl

@[simp] theorem wp_under (g : ρ → ρ) (x : Prog ρ σ ε α) :
    wp (under g x) Q E r s ↔ wp x Q E (g r) s := Iff.rfl

@[simp] theorem wp_bind (x : Prog ρ σ ε β) (f : β → Prog ρ σ ε α) :
    wp (x >>= f) Q E r s ↔ wp x (fun b s' => wp (f b) Q E r s') E r s := by
  simp only [wp, Bind.bind]
  rcases x.run r s with ⟨_ | b, s'⟩ <;> rfl

@[simp] theorem wp_rescue (x : Prog ρ σ ε α) (h : ε → Prog ρ σ ε α) :
    wp (rescue x h) Q E r s ↔
      wp x Q (fun e s' => match e with
        | .thrown e => wp (h e) Q E r s'
        | e => E e s') r s := by
  simp only [wp, rescue]
  rcases x.run r s with ⟨(_ | _ | _ | _) | b, s'⟩ <;> rfl

@[simp] theorem wp_ensure (x : Prog ρ σ ε α) (fin : Prog ρ σ ε Unit) :
    wp (ensure x fin) Q E r s ↔
      wp x (fun a s' => wp fin (fun _ => Q a) E r s')
        (fun e s' => match e with
          | .thrown e => wp fin (fun _ => E (.thrown e)) E r s'
          | e => E e s') r s := by
  simp only [wp, ensure]
  rcases x.run r s with ⟨(_ | _ | _ | _) | b, s'⟩
  · exact wp_bind fin _
  · rfl
  · rfl
  · rfl
  · exact wp_bind fin _

theorem wp_mono {x : Prog ρ σ ε α} (h : wp x Q E r s) (hQ : ∀ a s', Q a s' → Q' a s')
    (hE : ∀ e s', E e s' → E' e s') : wp x Q' E' r s := by
  unfold wp at h ⊢
  generalize x.run r s = out at h ⊢
  rcases out with ⟨e | a, s'⟩
  · exact hE e s' h
  · exact hQ a s' h

theorem wp_imp {x : Prog ρ σ ε α} (h : wp x Q E r s) (hQ : ∀ a s', Q a s' → Q' a s') :
    wp x Q' E r s := wp_mono h hQ fun _ _ he => he

theorem wp_ite {c : Prop} [Decidable c] {x y : Prog ρ σ ε α} (hx : c → wp x Q E r s)
    (hy : ¬c → wp y Q E r s) : wp (if c then x else y) Q E r s := by
  split
  · exact hx ‹_›
  · exact hy ‹_›

/-- What `wp` says about a run: of the value if there is one, of the early end if not. -/
theorem wp_iff_run {x : Prog ρ σ ε α} : wp x Q E r s ↔
    (∀ a s', x.run r s = (.ok a, s') → Q a s') ∧ (∀ e s', x.run r s = (.error e, s') → E e s') := by
  unfold wp
  rcases x.run r s with ⟨e | a, s'⟩ <;> simp

theorem exists_value {x : Prog ρ σ ε α} (h : wp x Q (fun _ _ => False) r s) :
    ∃ a s', x.run r s = (.ok a, s') ∧ Q a s' := by
  obtain ⟨hvalue, hend⟩ := wp_iff_run.1 h
  rcases hx : x.run r s with ⟨e | a, s'⟩
  · exact (hend e s' hx).elim
  · exact ⟨a, s', rfl, hvalue a s' hx⟩

theorem exists_end {x : Prog ρ σ ε α} (h : wp x (fun _ _ => False) E r s) :
    ∃ e s', x.run r s = (.error e, s') ∧ E e s' := by
  obtain ⟨hvalue, hend⟩ := wp_iff_run.1 h
  rcases hx : x.run r s with ⟨e | a, s'⟩
  · exact ⟨e, s', rfl, hend e s' hx⟩
  · exact (hvalue a s' hx).elim

theorem wp_trivial {x : Prog ρ σ ε α} : wp x (fun _ _ => True) (fun _ _ => True) r s := by
  simp [wp_iff_run]

/-- The rule of a bounded loop; the invariant may count the passes that are left. -/
theorem wp_loop {body : γ → Prog ρ σ ε (Turn α γ)} {last : γ → Prog ρ σ ε α}
    (Inv : ℕ → γ → σ → Prop)
    (hbody : ∀ n c s, Inv (n + 1) c s →
      wp (body c) (fun t s' => match t with
        | .leave b => Q b s'
        | .again c' => Inv n c' s') E r s)
    (hlast : ∀ c s, Inv 0 c s → wp (last c) Q E r s)
    (n : ℕ) (c : γ) (s : σ) (h : Inv n c s) : wp (loop body last n c) Q E r s := by
  induction n generalizing c s with
  | zero => exact hlast c s h
  | succ n ih =>
      rw [loop, wp_bind]
      apply wp_imp (hbody n c s h)
      intro t s' ht
      cases t with
      | leave b => exact ht
      | again c' => exact ih c' s' ht

theorem wp_and {x : Prog ρ σ ε α} (h : wp x Q E r s) (h' : wp x Q' E' r s) :
    wp x (fun a s' => Q a s' ∧ Q' a s') (fun e s' => E e s' ∧ E' e s') r s := by
  unfold wp at h h' ⊢
  generalize x.run r s = out at h h' ⊢
  rcases out with ⟨e | a, s'⟩ <;> exact ⟨h, h'⟩

theorem wp_and_run {x : Prog ρ σ ε α} (h : wp x Q E r s) :
    wp x (fun a s' => Q a s' ∧ x.run r s = (.ok a, s')) E r s := by
  obtain ⟨hvalue, hend⟩ := wp_iff_run.1 h
  exact wp_iff_run.2 ⟨fun a s' hx => ⟨hvalue a s' hx, hx⟩, hend⟩

end Rules

/-! ## The heads of a loop -/

/-- After `n` passes a loop that began with `c₀` in `s₀` stands at its head with `c` in `s`. -/
inductive Head (body : γ → Prog ρ σ ε (Turn β γ)) (r : ρ) (c₀ : γ) (s₀ : σ) : ℕ → γ → σ → Prop
  | first : Head body r c₀ s₀ 0 c₀ s₀
  | next {n : ℕ} {c c' : γ} {s s' : σ} (h : Head body r c₀ s₀ n c s)
      (hrun : (body c).run r s = (.ok (.again c'), s')) : Head body r c₀ s₀ (n + 1) c' s'

section Heads

variable {body : γ → Prog ρ σ ε (Turn α γ)} {r : ρ} {c₀ : γ} {s₀ : σ}

/-- What a pass preserves holds at every head, whatever the granted number of passes. -/
theorem Head.invariant (Inv : ℕ → γ → σ → Prop) (hfirst : Inv 0 c₀ s₀)
    (hpass : ∀ n c s, Inv n c s → wp (body c) (fun t s' => match t with
      | .leave _ => True
      | .again c' => Inv (n + 1) c' s') (fun _ _ => True) r s) {n : ℕ} {c : γ} {s : σ}
    (h : Head body r c₀ s₀ n c s) : Inv n c s := by
  induction h with
  | first => exact hfirst
  | next h hrun ih => exact (wp_iff_run.1 (hpass _ _ _ ih)).1 _ _ hrun

/-- The rule of a bounded loop whose passes are looked at from the heads that it reaches. -/
theorem wp_loop_heads {last : γ → Prog ρ σ ε α} {Q : α → σ → Prop} {E : Abort ε → σ → Prop}
    {n : ℕ} (hbody : ∀ k c s, k < n → Head body r c₀ s₀ k c s →
      wp (body c) (fun t s' => match t with
        | .leave b => Q b s'
        | .again _ => True) E r s)
    (hlast : ∀ c s, Head body r c₀ s₀ n c s → wp (last c) Q E r s) :
    wp (loop body last n c₀) Q E r s₀ := by
  refine wp_loop (fun left c s => ∃ k, k + left = n ∧ Head body r c₀ s₀ k c s) ?_ ?_ n c₀ s₀
    ⟨0, Nat.zero_add n, .first⟩
  · intro left c s hinv
    obtain ⟨k, hk, hhead⟩ := hinv
    apply wp_imp (wp_and_run (hbody k c s (by omega) hhead))
    intro t s' ht
    obtain ⟨hQ, hrun⟩ := ht
    cases t with
    | leave b => exact hQ
    | again c' => exact ⟨k + 1, by omega, hhead.next hrun⟩
  · intro c s hinv
    obtain ⟨k, rfl, hhead⟩ := hinv
    exact hlast c s hhead

end Heads

/-! ## Invariants that survive every way out -/

/-- From a state with `I`, in any environment of `D`, a value is returned in a state with `I` and
an early end happens in a state with `E`. -/
def Keeps (D : ρ → Prop) (I : σ → Prop) (E : Abort ε → σ → Prop) (x : Prog ρ σ ε α) : Prop :=
  ∀ r, D r → ∀ s, I s → wp x (fun _ => I) E r s

namespace Keeps

variable {D : ρ → Prop} {I : σ → Prop} {E : Abort ε → σ → Prop}

theorem pure (a : α) : Keeps D I E (pure a : Prog ρ σ ε α) := fun _ _ _ h => h

theorem gets (f : σ → α) : Keeps D I E (gets f : Prog ρ σ ε α) := fun _ _ _ h => h

theorem update {f : σ → σ} (hf : ∀ s, I s → I (f s)) : Keeps D I E (update f : Prog ρ σ ε Unit) :=
  fun _ _ s h => hf s h

theorem abort {e : Abort ε} (hE : ∀ s, I s → E e s) : Keeps D I E (abort e : Prog ρ σ ε α) :=
  fun _ _ s h => hE s h

theorem raise (hE : ∀ e s, I s → E (.thrown e) s) (e : ε) :
    Keeps D I E (raise e : Prog ρ σ ε α) := fun _ _ s h => hE e s h

theorem bind {x : Prog ρ σ ε α} {f : α → Prog ρ σ ε β} (hx : Keeps D I E x)
    (hf : ∀ a, Keeps D I E (f a)) : Keeps D I E (x >>= f) := by
  intro r hr s h
  rw [wp_bind]
  exact wp_imp (hx r hr s h) fun a s' h' => hf a r hr s' h'

theorem ite {c : Prop} [Decidable c] {x y : Prog ρ σ ε α} (hx : Keeps D I E x)
    (hy : Keeps D I E y) : Keeps D I E (if c then x else y) := by
  split
  · exact hx
  · exact hy

theorem under {g : ρ → ρ} {x : Prog ρ σ ε α} (hg : ∀ r, D r → D (g r)) (hx : Keeps D I E x) :
    Keeps D I E (under g x) := fun r hr s h => hx (g r) (hg r hr) s h

theorem loop {body : γ → Prog ρ σ ε (Turn α γ)} {last : γ → Prog ρ σ ε α}
    (hbody : ∀ c, Keeps D I E (body c)) (hlast : ∀ c, Keeps D I E (last c)) (n : ℕ) (c : γ) :
    Keeps D I E (loop body last n c) := by
  intro r hr s hs
  apply wp_loop (fun _ _ s => I s) _ (fun c s h => hlast c r hr s h) n c s hs
  intro n c s h
  apply wp_imp (hbody c r hr s h)
  intro t s' h'
  cases t <;> exact h'

end Keeps

def Leads (D : ρ → Prop) (P : σ → Prop) (Q : α → σ → Prop) (E : Abort ε → σ → Prop)
    (x : Prog ρ σ ε α) : Prop := ∀ r, D r → ∀ s, P s → wp x Q E r s

theorem Keeps.leads {D : ρ → Prop} {I : σ → Prop} {E : Abort ε → σ → Prop} {x : Prog ρ σ ε α}
    (hx : Keeps D I E x) : Leads D I (fun _ => I) E x := hx

namespace Leads

variable {D : ρ → Prop} {P P' : σ → Prop} {Q Q' : α → σ → Prop} {E : Abort ε → σ → Prop}

theorem pure {a : α} (h : ∀ s, P s → Q a s) : Leads D P Q E (pure a : Prog ρ σ ε α) :=
  fun _ _ s hs => h s hs

theorem mono {x : Prog ρ σ ε α} (hx : Leads D P Q E x) (hP : ∀ s, P' s → P s)
    (hQ : ∀ a s, Q a s → Q' a s) : Leads D P' Q' E x :=
  fun r hr s hs => wp_imp (hx r hr s (hP s hs)) hQ

theorem mono_end {E' : Abort ε → σ → Prop} {x : Prog ρ σ ε α} (hx : Leads D P Q E x)
    (hE : ∀ e s, E e s → E' e s) : Leads D P Q E' x :=
  fun r hr s hs => wp_mono (hx r hr s hs) (fun _ _ hQ => hQ) hE

/-- A value that only the specification knows of may be fixed before the run. -/
theorem ghost {ι : Type*} {P : ι → σ → Prop} {x : Prog ρ σ ε α}
    (hx : ∀ i, Leads D (P i) Q E x) : Leads D (fun s => ∃ i, P i s) Q E x := by
  rintro r hr s ⟨i, hs⟩
  exact hx i r hr s hs

theorem bind {x : Prog ρ σ ε α} {f : α → Prog ρ σ ε β} {R : β → σ → Prop} (hx : Leads D P Q E x)
    (hf : ∀ a, Leads D (Q a) R E (f a)) : Leads D P R E (x >>= f) := by
  intro r hr s h
  rw [wp_bind]
  exact wp_imp (hx r hr s h) fun a s' h' => hf a r hr s' h'

theorem ite {c : Prop} [Decidable c] {x y : Prog ρ σ ε α} (hx : c → Leads D P Q E x)
    (hy : ¬c → Leads D P Q E y) : Leads D P Q E (if c then x else y) := by
  split
  · exact hx ‹_›
  · exact hy ‹_›

theorem under {D' : ρ → Prop} {g : ρ → ρ} {x : Prog ρ σ ε α} (hg : ∀ r, D r → D' (g r))
    (hx : Leads D' P Q E x) : Leads D P Q E (under g x) := fun r hr s h => hx (g r) (hg r hr) s h

theorem ensure {x : Prog ρ σ ε α} {fin : Prog ρ σ ε Unit}
    (hx : Leads D P Q (fun _ _ => False) x) (hfin : ∀ a, Leads D (Q a) (fun _ => Q' a) E fin) :
    Leads D P Q' E (ensure x fin) := by
  intro r hr s h
  rw [wp_ensure]
  exact wp_mono (hx r hr s h) (fun a s' h' => hfin a r hr s' h') fun _ _ hf => hf.elim

theorem rescue {E' : Abort ε → σ → Prop} {x : Prog ρ σ ε α} {h : ε → Prog ρ σ ε α}
    (hx : Leads D P Q E' x) (hcaught : ∀ e, Leads D (E' (.thrown e)) Q E (h e))
    (hpassed : ∀ e s, (∀ err, e ≠ .thrown err) → E' e s → E e s) :
    Leads D P Q E (rescue x h) := by
  intro r hr s hs
  rw [wp_rescue]
  refine wp_mono (hx r hr s hs) (fun _ _ hQ => hQ) fun e s' he => ?_
  cases e with
  | thrown e => exact hcaught e r hr s' he
  | exited code | closed | starved => exact hpassed _ s' (by simp) he

theorem loop {body : γ → Prog ρ σ ε (Turn α γ)} {last : γ → Prog ρ σ ε α}
    (hbody : ∀ c, Leads D P (fun t s => match t with
      | .leave a => Q a s
      | .again _ => P s) E (body c))
    (hlast : ∀ c, Leads D P Q E (last c)) (n : ℕ) (c : γ) :
    Leads D P Q E (loop body last n c) := by
  intro r hr s hs
  exact wp_loop (fun _ _ => P) (fun _ c s h => hbody c r hr s h) (fun c s h => hlast c r hr s h)
    n c s hs

end Leads

/-! ## Code that cannot fail -/

/-- `x` always returns, and takes every state to one related to it by `R`. -/
def Does (R : σ → σ → Prop) (x : Prog ρ σ ε α) : Prop :=
  ∀ r s, wp x (fun _ => R s) (fun _ _ => False) r s

namespace Does

variable {R S : σ → σ → Prop}

theorem mono {x : Prog ρ σ ε α} (hx : Does R x) (h : ∀ s s', R s s' → S s s') : Does S x :=
  fun r s => wp_mono (hx r s) (fun _ s' => h s s') (fun _ _ h => h)

theorem wp {x : Prog ρ σ ε α} (hx : Does R x) {Q : α → σ → Prop} {E : Abort ε → σ → Prop}
    {r : ρ} {s : σ} (hQ : ∀ a s', R s s' → Q a s') : wp x Q E r s :=
  wp_mono (hx r s) hQ (fun _ _ h => h.elim)

theorem keeps {x : Prog ρ σ ε α} (hx : Does R x) {D : ρ → Prop} {I : σ → Prop}
    {E : Abort ε → σ → Prop} (hI : ∀ s s', R s s' → I s → I s') : Keeps D I E x :=
  fun _ _ s hs => hx.wp fun _ s' h => hI s s' h hs

theorem update {f : σ → σ} (hf : ∀ s, R s (f s)) : Does R (update f : Prog ρ σ ε Unit) :=
  fun _ s => hf s

variable [IsPreorder σ R]

theorem pure (a : α) : Does R (pure a : Prog ρ σ ε α) := fun _ s => refl_of R s

theorem gets (f : σ → α) : Does R (gets f : Prog ρ σ ε α) := fun _ s => refl_of R s

theorem bind {x : Prog ρ σ ε α} {f : α → Prog ρ σ ε β} (hx : Does R x) (hf : ∀ a, Does R (f a)) :
    Does R (x >>= f) := by
  intro r s
  rw [wp_bind]
  apply hx.wp
  intro a s' h
  exact (hf a).wp fun _ s'' h' => trans_of R h h'

omit [IsPreorder σ R] in
theorem ite {c : Prop} [Decidable c] {x y : Prog ρ σ ε α} (hx : Does R x) (hy : Does R y) :
    Does R (if c then x else y) := by
  split
  · exact hx
  · exact hy

theorem ensure {x : Prog ρ σ ε α} {fin : Prog ρ σ ε Unit} (hx : Does R x) (hfin : Does R fin) :
    Does R (ensure x fin) := by
  intro r s
  rw [wp_ensure]
  exact hx.wp fun _ s' h => hfin.wp fun _ s'' h' => trans_of R h h'

end Does

/-! ## Code that ignores a part of the environment -/

/-- `x` runs alike in `r` and in `g r`. -/
def Ignores (g : ρ → ρ) (x : Prog ρ σ ε α) : Prop := ∀ r s, x.run (g r) s = x.run r s

namespace Ignores

variable {g : ρ → ρ}

theorem pure (a : α) : Ignores g (pure a : Prog ρ σ ε α) := fun _ _ => rfl

theorem update (f : σ → σ) : Ignores g (update f : Prog ρ σ ε Unit) := fun _ _ => rfl

theorem bind {x : Prog ρ σ ε α} {f : α → Prog ρ σ ε β} (hx : Ignores g x)
    (hf : ∀ a, Ignores g (f a)) : Ignores g (x >>= f) := by
  intro r s
  simp only [Bind.bind, hx r s]
  rcases x.run r s with ⟨e | a, s'⟩
  · rfl
  · exact hf a r s'

theorem ite {c : Prop} [Decidable c] {x y : Prog ρ σ ε α} (hx : Ignores g x)
    (hy : Ignores g y) : Ignores g (if c then x else y) := by
  split
  · exact hx
  · exact hy

end Ignores

-- From here on programs are taken apart by the rules only; running one is never a matter of `rfl`.
attribute [irreducible] wp

end Prog
