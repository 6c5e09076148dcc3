import Mathlib.Data.Finset.Erase
import Mathlib.Data.Finset.Insert
import Mathlib.Data.List.Infix

/-!
# Traces of events and the keys they hold down

A trace lists events newest first, so the moments of a run are the suffixes of its trace. `Since`
is the past-time "since" of temporal logic and `Answered` its response pattern; `Always` and `tally`
look at each event together with its past. `held` reads off the set of keys that are down, for any
type of events some of which are key strokes.
-/

namespace Trace

variable {α : Type*}

/-- Some `p` event has happened, and no `q` event after it. -/
def Since (p q : α → Prop) : List α → Prop
  | [] => False
  | e :: t => p e ∨ (¬q e ∧ Since p q t)

theorem since_iff {p q : α → Prop} {t : List α} :
    Since p q t ↔ ∃ later x earlier, t = later ++ x :: earlier ∧ p x ∧ ∀ e ∈ later, ¬q e := by
  induction t with
  | nil => simp [Since]
  | cons e t ih =>
      rw [Since, ih]
      constructor
      · rintro (he | ⟨hq, later, x, earlier, rfl, hx, hl⟩)
        · exact ⟨[], e, t, rfl, he, by simp⟩
        · exact ⟨e :: later, x, earlier, rfl, hx, by simpa using ⟨hq, hl⟩⟩
      · rintro ⟨later, x, earlier, ht, hx, hl⟩
        cases later with
        | nil =>
            obtain ⟨rfl, rfl⟩ := List.cons.inj ht
            exact .inl hx
        | cons e' later =>
            obtain ⟨rfl, rfl⟩ := List.cons.inj ht
            exact .inr ⟨hl _ (by simp), later, x, earlier, rfl, hx, fun e he => hl e (by simp [he])⟩

theorem Since.append {p q : α → Prop} {l t : List α} (h : Since p q t) (hl : ∀ e ∈ l, ¬q e) :
    Since p q (l ++ t) := by
  induction l with
  | nil => exact h
  | cons e l ih =>
      exact .inr ⟨hl e (by simp), ih fun a ha => hl a (by simp [ha])⟩

/-- An event that is not among the latest ones is found below them. -/
theorem split_append {x : α} {l t later earlier : List α} (h : l ++ t = later ++ x :: earlier)
    (hx : x ∉ l) : ∃ later', later = l ++ later' ∧ t = later' ++ x :: earlier := by
  induction l generalizing later with
  | nil => exact ⟨later, rfl, h⟩
  | cons e l ih =>
      cases later with
      | nil =>
          obtain ⟨rfl, -⟩ := List.cons.inj h
          exact absurd List.mem_cons_self hx
      | cons e' later =>
          obtain ⟨rfl, ht⟩ := List.cons.inj h
          obtain ⟨later', rfl, ht'⟩ := ih ht fun hm => hx (List.mem_cons_of_mem _ hm)
          exact ⟨later', rfl, ht'⟩

/-- Every `p` event has been followed by a `q` event. -/
def Answered (p q : α → Prop) (t : List α) : Prop :=
  ∀ later x earlier, t = later ++ x :: earlier → p x → ∃ e ∈ later, q e

/-! ## Events with their past -/

/-- Each event of a trace satisfies `p` together with what happened before it. -/
def Always (p : α → List α → Prop) (t : List α) : Prop :=
  ∀ later e earlier, t = later ++ e :: earlier → p e earlier

theorem always_nil {p : α → List α → Prop} : Always p [] := by simp [Always]

theorem always_cons {p : α → List α → Prop} {e : α} {t : List α} :
    Always p (e :: t) ↔ p e t ∧ Always p t := by
  constructor
  · intro h
    refine ⟨h [] e t rfl, fun later x earlier ht => h (e :: later) x earlier ?_⟩
    rw [ht, List.cons_append]
  · rintro ⟨he, ht⟩ later x earlier heq
    cases later with
    | nil =>
        obtain ⟨rfl, rfl⟩ := List.cons.inj heq
        exact he
    | cons a later =>
        obtain ⟨rfl, rfl⟩ := List.cons.inj heq
        exact ht later x earlier rfl

theorem Always.append {p : α → List α → Prop} {l t : List α} (ht : Always p t)
    (hl : ∀ e ∈ l, ∀ earlier, p e earlier) : Always p (l ++ t) := by
  induction l with
  | nil => exact ht
  | cons e l ih =>
      exact always_cons.2 ⟨hl e (by simp) _, ih fun a ha => hl a (by simp [ha])⟩

theorem Always.suffix {p : α → List α → Prop} {t t' : List α} (h : Always p t) (ht : t' <:+ t) :
    Always p t' := by
  obtain ⟨l, rfl⟩ := ht
  rintro later e earlier rfl
  exact h (l ++ later) e earlier (by rw [List.append_assoc])

/-- How many events of a trace satisfy `p` together with what happened before them. -/
def tally (p : α → List α → Bool) : List α → ℕ
  | [] => 0
  | e :: t => (if p e t then 1 else 0) + tally p t

theorem tally_append {p : α → List α → Bool} {l : List α} (t : List α)
    (hl : ∀ e ∈ l, ∀ earlier, p e earlier = false) : tally p (l ++ t) = tally p t := by
  induction l with
  | nil => rfl
  | cons e l ih =>
      rw [List.cons_append, tally, hl e (by simp), ih fun a ha => hl a (by simp [ha])]
      simp

theorem tally_le_of_suffix {p : α → List α → Bool} {t t' : List α} (h : t' <:+ t) :
    tally p t' ≤ tally p t := by
  obtain ⟨l, rfl⟩ := h
  induction l with
  | nil => rfl
  | cons e l ih =>
      rw [List.cons_append, tally]
      omega

end Trace

/-- A key stroke: a key goes down or comes up. -/
inductive Stroke (K : Type) where
  | down (k : K)
  | up (k : K)
  deriving DecidableEq

namespace Trace

variable {α : Type*} {K : Type} [DecidableEq K] (stroke : α → Option (Stroke K))

/-- The keys that are down after the events of a trace. -/
def held : List α → Finset K
  | [] => ∅
  | e :: t =>
    match stroke e with
    | some (.down k) => insert k (held t)
    | some (.up k) => (held t).erase k
    | none => held t

variable {stroke} {e : α} {k : K}

theorem held_down (t : List α) (h : stroke e = some (.down k)) :
    held stroke (e :: t) = insert k (held stroke t) := by simp only [held, h]

theorem held_up (t : List α) (h : stroke e = some (.up k)) :
    held stroke (e :: t) = (held stroke t).erase k := by simp only [held, h]

theorem held_other (t : List α) (h : stroke e = none) : held stroke (e :: t) = held stroke t := by
  simp only [held, h]

theorem held_append {l t : List α} (h : ∀ e ∈ l, stroke e = none) :
    held stroke (l ++ t) = held stroke t := by
  induction l with
  | nil => rfl
  | cons e l ih =>
      rw [List.cons_append, held_other _ (h e (by simp))]
      exact ih fun a ha => h a (by simp [ha])

/-- A key is held exactly if it has gone down and has not come up since. -/
theorem mem_held_iff (t : List α) : k ∈ held stroke t ↔
    Since (fun e => stroke e = some (.down k)) (fun e => stroke e = some (.up k)) t := by
  induction t with
  | nil => simp [held, Since]
  | cons e t ih =>
      cases he : stroke e with
      | none => simp [held_other t he, Since, he, ih]
      | some a =>
          cases a with
          | down j => simp [held_down t he, Since, he, ih, eq_comm]
          | up j => simp [held_up t he, Since, he, ih, eq_comm]

/-- Nothing is held exactly if every key that went down came up afterwards. -/
theorem held_eq_empty_iff (t : List α) : held stroke t = ∅ ↔
    ∀ k, Answered (fun e => stroke e = some (.down k)) (fun e => stroke e = some (.up k)) t := by
  simp only [Finset.eq_empty_iff_forall_notMem, mem_held_iff, since_iff, Answered]
  constructor
  · intro h k later x earlier ht hx
    by_contra! hno
    exact h k ⟨later, x, earlier, ht, hx, hno⟩
  · rintro h k ⟨later, x, earlier, ht, hx, hno⟩
    obtain ⟨e, he, hup⟩ := h k later x earlier ht hx
    exact hno e he hup

end Trace
