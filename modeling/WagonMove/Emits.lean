import Mathlib.Computability.Language
import Mathlib.Order.CompletePartialOrder
import WagonMove.Prog

/-!
# Programs that emit words

A tape reads off a state the word that has been emitted, for as long as the state is live. `Emits`
gives for each value and for each early end of a program the language of what it adds to the word.
A program that is broken off has emitted a prefix of what it would have emitted.
-/

namespace Language

variable {A : Type*} {K L : Language A}

def prefixes (L : Language A) : Language A := {w | ∃ v ∈ L, w <+: v}

theorem le_prefixes (L : Language A) : L ≤ prefixes L := fun w hw => ⟨w, hw, List.prefix_refl w⟩

theorem prefixes_mono (h : K ≤ L) : prefixes K ≤ prefixes L := by
  rintro w ⟨v, hv, hw⟩
  exact ⟨v, h hv, hw⟩

theorem prefixes_le_mul (hL : ∃ w, w ∈ L) : prefixes K ≤ prefixes (K * L) := by
  obtain ⟨u, hu⟩ := hL
  rintro w ⟨v, hv, hw⟩
  exact ⟨v ++ u, Language.append_mem_mul hv hu, hw.trans (List.prefix_append v u)⟩

theorem mul_prefixes_le (K L : Language A) : K * prefixes L ≤ prefixes (K * L) := by
  intro w hw
  obtain ⟨u, hu, v, ⟨v', hv', hv⟩, rfl⟩ := Language.mem_mul.1 hw
  exact ⟨u ++ v', Language.append_mem_mul hu hv', (List.prefix_append_right_inj u).2 hv⟩

theorem nil_mem_prefixes (hL : ∃ w, w ∈ L) : [] ∈ prefixes L := by
  obtain ⟨w, hw⟩ := hL
  exact ⟨w, hw, List.nil_prefix⟩

theorem prefixes_one_le (hL : ∃ w, w ∈ L) : prefixes 1 ≤ prefixes L := by
  rintro w ⟨_, rfl, hw⟩
  exact List.prefix_nil.1 hw ▸ nil_mem_prefixes hL

/-- Words of `K` before a word of `last`: `n` of them, or fewer and then one of `L`. -/
def rounds (L K last : Language A) : ℕ → Language A
  | 0 => last
  | n + 1 => L + K * rounds L K last n

theorem exists_mem_mul (hK : ∃ w, w ∈ K) (hL : ∃ w, w ∈ L) : ∃ w, w ∈ K * L := by
  obtain ⟨u, hu⟩ := hK
  obtain ⟨v, hv⟩ := hL
  exact ⟨u ++ v, append_mem_mul hu hv⟩

theorem exists_mem_rounds {last : Language A} (hL : ∃ w, w ∈ L) (hlast : ∃ w, w ∈ last) (n : ℕ) :
    ∃ w, w ∈ rounds L K last n := by
  cases n with
  | zero => exact hlast
  | succ n => exact hL.imp fun w hw => .inl hw

section Measures

variable {M : Type*} [AddMonoid M] {measure : List A → M}
  (happend : ∀ u v, measure (u ++ v) = measure u + measure v)
include happend

/-- What an additive measure says about all words of two languages it says about their product. -/
theorem forall_mem_mul {a b : M} (hK : ∀ w ∈ K, measure w = a) (hL : ∀ w ∈ L, measure w = b) :
    ∀ w ∈ K * L, measure w = a + b := by
  intro w hw
  obtain ⟨u, hu, v, hv, rfl⟩ := mem_mul.1 hw
  rw [happend, hK u hu, hL v hv]

theorem forall_mem_prod (hnil : measure [] = 0) {Ls : List (Language A)} {as : List M}
    (h : List.Forall₂ (fun L a => ∀ w ∈ L, measure w = a) Ls as) :
    ∀ w ∈ Ls.prod, measure w = as.sum := by
  induction h with
  | nil =>
      rintro w rfl
      exact hnil
  | cons hL _ ih =>
      rw [List.prod_cons, List.sum_cons]
      exact forall_mem_mul happend hL ih

theorem forall_mem_rounds {last : Language A} (hL : ∀ w ∈ L, measure w = 0)
    (hK : ∀ w ∈ K, measure w = 0) (hlast : ∀ w ∈ last, measure w = 0) (n : ℕ) :
    ∀ w ∈ rounds L K last n, measure w = 0 := by
  induction n with
  | zero => exact hlast
  | succ n ih =>
      rintro w (hw | hw)
      · exact hL w hw
      · rw [forall_mem_mul happend hK ih w hw, add_zero]

end Measures

end Language

namespace Prog

variable {ρ σ ε α β γ A : Type}

structure Tape (σ A : Type) where
  live : σ → Prop
  word : σ → List A

/-- If `s'` is live, then `s` was, and a word of `L` has been emitted between them. -/
def Tape.Added (t : Tape σ A) (L : Language A) (s s' : σ) : Prop :=
  t.live s' → t.live s ∧ ∃ w ∈ L, t.word s' = t.word s ++ w

namespace Tape

variable {t : Tape σ A} {K L : Language A} {s s' s'' : σ}

theorem added_refl (t : Tape σ A) (s : σ) : t.Added 1 s s :=
  fun h => ⟨h, [], Language.nil_mem_one, (List.append_nil _).symm⟩

theorem Added.mono (h : t.Added K s s') (hKL : K ≤ L) : t.Added L s s' := by
  intro hlive
  obtain ⟨hs, w, hw, hword⟩ := h hlive
  exact ⟨hs, w, hKL hw, hword⟩

theorem Added.trans (h : t.Added K s s') (h' : t.Added L s' s'') : t.Added (K * L) s s'' := by
  intro hlive
  obtain ⟨hs', v, hv, hword'⟩ := h' hlive
  obtain ⟨hs, u, hu, hword⟩ := h hs'
  exact ⟨hs, u ++ v, Language.append_mem_mul hu hv, by rw [hword', hword, List.append_assoc]⟩

theorem Added.of_dead (h : ¬t.live s') : t.Added L s s' := fun hlive => absurd hlive h

end Tape

def Emits (D : ρ → Prop) (t : Tape σ A) (L : α → Language A) (P : Abort ε → Language A)
    (x : Prog ρ σ ε α) : Prop :=
  ∀ r, D r → ∀ s, wp x (fun a => t.Added (L a) s) (fun e => t.Added (P e) s) r s

namespace Emits

variable {D : ρ → Prop} {t : Tape σ A} {L L' : α → Language A} {P P' : Abort ε → Language A}
  {x : Prog ρ σ ε α}

theorem pure {a : α} (h : 1 ≤ L a) : Emits D t L P (pure a : Prog ρ σ ε α) := fun _ _ s =>
  (wp_pure a).2 ((t.added_refl s).mono h)

theorem mono (hx : Emits D t L P x) (hL : ∀ a, L a ≤ L' a) (hP : ∀ e, P e ≤ P' e) :
    Emits D t L' P' x := fun r hr s =>
  wp_mono (hx r hr s) (fun a _ h => h.mono (hL a)) fun e _ h => h.mono (hP e)

theorem bind {f : α → Prog ρ σ ε β} {N : β → Language A} {O : α → Abort ε → Language A}
    {K : α → β → Language A} (hx : Emits D t L P x) (hf : ∀ a, Emits D t (K a) (O a) (f a))
    (hN : ∀ a b, L a * K a b ≤ N b) (hP : ∀ e, P e ≤ P' e) (hO : ∀ a e, L a * O a e ≤ P' e) :
    Emits D t N P' (x >>= f) := by
  intro r hr s
  rw [wp_bind]
  refine wp_mono (hx r hr s) (fun a s' h => ?_) fun e s' h => h.mono (hP e)
  exact wp_mono (hf a r hr s') (fun b _ h' => (h.trans h').mono (hN a b))
    fun e _ h' => (h.trans h').mono (hO a e)

theorem under {D' : ρ → Prop} {g : ρ → ρ} (hg : ∀ r, D r → D' (g r)) (hx : Emits D' t L P x) :
    Emits D t L P (under g x) := fun r hr s => (wp_under g x).2 (hx (g r) (hg r hr) s)

theorem ite {c : Prop} [Decidable c] {y : Prog ρ σ ε α} (hx : c → Emits D t L P x)
    (hy : ¬c → Emits D t L P y) : Emits D t L P (if c then x else y) := by
  split
  · exact hx ‹_›
  · exact hy ‹_›

/-- The words of a pass that leaves a loop, and of one that goes on. -/
def onTurn (L : α → Language A) (K : Language A) : Turn α γ → Language A
  | .leave a => L a
  | .again _ => K

/-- A bounded loop emits rounds; `O` grows by what one more pass can come before. -/
theorem loop {body : γ → Prog ρ σ ε (Turn α γ)} {last : γ → Prog ρ σ ε α} {K : Language A}
    {Z : α → Language A} {O : ℕ → Abort ε → Language A}
    (hbody : ∀ c, Emits D t (onTurn L K) P (body c))
    (hlast : ∀ c, Emits D t Z (O 0) (last c)) (hP : ∀ n e, P e ≤ O (n + 1) e)
    (hO : ∀ n e, K * O n e ≤ O (n + 1) e) (n : ℕ) (c : γ) :
    Emits D t (fun a => Language.rounds (L a) K (Z a) n) (O n) (loop body last n c) := by
  induction n generalizing c with
  | zero => exact hlast c
  | succ n ih =>
      rw [Prog.loop]
      intro r hr s
      rw [wp_bind]
      refine wp_mono (hbody c r hr s) (fun u s' h => ?_) fun e s' h => h.mono (hP n e)
      cases u with
      | leave a => exact (wp_pure a).2 (h.mono le_sup_left)
      | again c' =>
          exact wp_mono (ih c' r hr s') (fun a _ h' => (h.trans h').mono le_sup_right)
            fun e _ h' => (h.trans h').mono (hO n e)

end Emits

end Prog
