import WagonMove.Answers
import WagonMove.Script

/-!
# The stop flag

The states of a run before and after another pseudo-thread has cleared `Running`. Before, all that
counts is how many looks in a row have missed. After it a key has been pressed or not, and the stop
is dropped or not; while it is open which of the two comes, `Ahead` reads it off the answers of the
environment, and once it is settled a key has been pressed exactly if the stop is dropped.
-/

namespace WagonMove

open Prog

def Event.presses : Event → Prop
  | .key (.down _) | .wheelDown => True
  | _ => False

/-- The events that have nothing to do with stops. -/
def Event.isIdle : Event → Prop
  | .key (.down _) | .wheelDown | .searched _ | .stopped _ _ | .signal _ _ => False
  | _ => True

/-- The events of a run before a stop and its signal. -/
def Event.isOpen : Event → Prop
  | .stopped _ _ | .signal _ _ => False
  | _ => True

theorem Event.isIdle.isOpen (e : Event) (h : e.isIdle) : e.isOpen := by
  cases e <;> first | exact h | exact trivial

theorem Event.isIdle.not_presses (e : Event) (h : e.isIdle) : ¬e.presses := by
  cases e with
  | key k => cases k <;> first | exact h.elim | exact id
  | _ => first | exact h.elim | exact id

theorem misses_append {l : List Event} (t : List Event) (h : ∀ e ∈ l, e.isIdle) :
    misses (l ++ t) = misses t := by
  induction l with
  | nil => rfl
  | cons e l ih =>
      have he := h e (by simp)
      have ih := ih fun a ha => h a (by simp [ha])
      cases e <;> first | exact he.elim | exact ih

/-! ## States -/

/-- No stop has come. -/
structure Going (missed : ℕ) (s : St) : Prop where
  isOpen : ∀ e ∈ s.trace, e.isOpen
  misses : s.running = true → misses s.trace = missed

/-- A stop has come: whether a key has been pressed since, and whether it is dropped. -/
structure Stopped (drops : List Site → ℕ → Moment → Bool) (pressed dropped : Bool) (s : St) :
    Prop where
  halted : s.running = false
  sound : pressed = true → dropped = true
  split : ∃ later sc m earlier, s.trace = later ++ .stopped sc m :: earlier ∧
    (∀ e ∈ later ++ earlier, e.isOpen) ∧ ((∃ e ∈ later, e.presses) ↔ pressed = true) ∧
    drops sc (misses earlier) m = dropped

section States

variable {drops : List Site → ℕ → Moment → Bool} {missed : ℕ} {pressed dropped : Bool} {s s' : St}

theorem Going.of_append (h : Going missed s) {l : List Event} (hl : s'.trace = l ++ s.trace)
    (hi : ∀ e ∈ l, e.isIdle) (hr : s'.running = true → s.running = true) : Going missed s' where
  isOpen e he := by
    rw [hl] at he
    rcases List.mem_append.1 he with h' | h'
    · exact (hi e h').isOpen
    · exact h.isOpen e h'
  misses hrun := by rw [hl, misses_append _ hi, h.misses (hr hrun)]

theorem Stopped.of_append (h : Stopped drops pressed dropped s) {l : List Event}
    (hl : s'.trace = l ++ s.trace) (hopen : ∀ e ∈ l, e.isOpen) {pressed' : Bool}
    (hpress : ((∃ e ∈ l, e.presses) ∨ pressed = true) ↔ pressed' = true)
    (hsound : pressed' = true → dropped = true) (hr : s'.running = false) :
    Stopped drops pressed' dropped s' where
  halted := hr
  sound := hsound
  split := by
    obtain ⟨later, sc, m, earlier, ht, hlater, hp, hd⟩ := h.split
    refine ⟨l ++ later, sc, m, earlier, by rw [hl, ht, List.append_assoc], ?_, ?_, hd⟩
    · intro e he
      rw [List.append_assoc] at he
      rcases List.mem_append.1 he with h' | h'
      · exact hopen e h'
      · exact hlater e h'
    · rw [← hpress, ← hp]
      simp only [List.mem_append, or_and_right, exists_or]

theorem Going.quiet {p : Event → Prop} (hp : ∀ e, p e → e.isIdle) (hq : Quiet p s s')
    (h : Going missed s) : Going missed s' := by
  obtain ⟨l, hl, hlp⟩ := hq.trace
  exact h.of_append hl (fun e he => hp e (hlp e he)) fun hr => hq.running ▸ hr

theorem Stopped.quiet {p : Event → Prop} (hp : ∀ e, p e → e.isIdle) (hq : Quiet p s s')
    (h : Stopped drops pressed dropped s) : Stopped drops pressed dropped s' := by
  obtain ⟨l, hl, hlp⟩ := hq.trace
  have hidle : ∀ e ∈ l, e.isIdle := fun e he => hp e (hlp e he)
  refine h.of_append hl (fun e he => (hidle e he).isOpen) ⟨?_, .inr⟩ h.sound
    (hq.running.trans h.halted)
  rintro (⟨e, he, hpress⟩ | hpressed)
  · exact absurd hpress ((hidle e he).not_presses)
  · exact hpressed

/-- After a look that reports `hit`. -/
def missedAfter (missed : ℕ) (hit : Option (ℤ × ℤ)) : ℕ := if hit.isSome then 0 else missed + 1

theorem Going.searched (h : Going missed s) (hit : Option (ℤ × ℤ)) :
    Going (missedAfter missed hit) (s.record (.searched hit)) where
  isOpen e he := by
    rcases List.mem_cons.1 he with rfl | he
    · exact trivial
    · exact h.isOpen e he
  misses hr := by
    cases hit with
    | some p => rfl
    | none => exact congrArg (· + 1) (h.misses hr)

theorem Stopped.searched (h : Stopped drops pressed dropped s) (hit : Option (ℤ × ℤ)) :
    Stopped drops pressed dropped (s.record (.searched hit)) :=
  h.of_append (l := [_]) rfl (by simp [Event.isOpen]) (by simp [Event.presses]) h.sound h.halted

theorem Going.press (h : Going missed s) {e : Event} (he : e.presses) :
    Going missed (s.record e) where
  isOpen a ha := by
    rcases List.mem_cons.1 ha with rfl | ha
    · cases a <;> first | exact he.elim | exact trivial
    · exact h.isOpen a ha
  misses hr := by
    rw [← h.misses hr]
    cases e <;> first | exact he.elim | rfl

theorem Stopped.press (h : Stopped drops pressed true s) {e : Event} (he : e.presses) :
    Stopped drops true true (s.record e) := by
  refine h.of_append (l := [e]) rfl ?_ ?_ (fun _ => rfl) h.halted
  · simp only [List.mem_singleton, forall_eq]
    cases e <;> first | exact he.elim | exact trivial
  · simp [he]

theorem Stopped.nap (h : Stopped drops pressed dropped s) (n : Nap) (sc : List Site) (ms : ℕ) :
    Stopped drops pressed dropped (s.nap n sc ms) := by
  refine h.of_append (l := [.slept sc ms]) ?_ (by simp [Event.isOpen]) (by simp [Event.presses])
    h.sound ?_
  · rw [St.nap_trace, h.halted]
    rfl
  · rw [St.nap_running, h.halted]
    rfl

/-- A nap is over without a stop, or with one whose fate the place, the misses and the answers
decide. -/
theorem Going.nap (h : Going missed s) (n : Nap) (sc : List Site) (ms : ℕ) :
    Going missed (s.nap n sc ms) ∨
      Stopped drops false (drops sc missed (s.nap n sc ms).moment) (s.nap n sc ms) := by
  cases hstop : s.running && n.stop with
  | false =>
      refine .inl (h.of_append (l := [.slept sc ms]) ?_ (by simp [Event.isIdle]) fun hr => ?_)
      · rw [St.nap_trace, hstop]
        rfl
      · rw [St.nap_running, Bool.and_eq_true] at hr
        exact hr.1
  | true =>
      obtain ⟨hrun, hn⟩ := (Bool.and_eq_true _ _).mp hstop
      have hhalted : (s.nap n sc ms).running = false := by
        rw [St.nap_running, hn, Bool.not_true, Bool.and_false]
      refine .inr ⟨hhalted, nofun, [], sc, (s.nap n sc ms).moment, .slept sc ms :: s.trace, ?_, ?_,
        by simp, ?_⟩
      · rw [St.nap_trace, if_pos hstop]
        rfl
      · intro e he
        rcases List.mem_cons.1 he with rfl | he
        · exact trivial
        · exact h.isOpen e he
      · rw [← h.misses hrun]
        rfl

/-! ## What is settled and what is open -/

variable (drops)

/-- A stop that has come has led to a key exactly if it is dropped. -/
def Alert (missed : ℕ) (s : St) : Prop := Going missed s ∨ ∃ b, Stopped drops b b s

/-- No key has followed a stop yet; the answers to come decide with `g` whether one does. -/
def Ahead (missed : ℕ) (g : ℕ → Bool) (s : St) : Prop :=
  Going missed s ∨ Stopped drops false (g s.asked) s

/-- A stop that has come is dropped. -/
def Due (missed : ℕ) (pressed : Bool) (s : St) : Prop :=
  Going missed s ∨ Stopped drops pressed true s

variable {drops}

theorem Going.alert (h : Going missed s) : Alert drops missed s := .inl h

theorem Going.mono {missed' : ℕ} (h : Going missed s) (hr : s.running = false) :
    Going missed' s := ⟨h.isOpen, fun hrun => absurd (hr.symm.trans hrun) Bool.false_ne_true⟩

theorem Alert.quiet {p : Event → Prop} (hp : ∀ e, p e → e.isIdle) (hq : Quiet p s s')
    (h : Alert drops missed s) : Alert drops missed s' := by
  obtain hgo | ⟨b, hstop⟩ := h
  · exact .inl (hgo.quiet hp hq)
  · exact .inr ⟨b, hstop.quiet hp hq⟩

theorem Due.quiet {p : Event → Prop} (hp : ∀ e, p e → e.isIdle) (hq : Quiet p s s')
    (h : Due drops missed pressed s) : Due drops missed pressed s' :=
  h.imp (·.quiet hp hq) (·.quiet hp hq)

theorem isCalm_isIdle (e : Event) (h : e.isCalm) : e.isIdle := by
  cases e <;> first | exact h.elim | exact trivial

theorem Alert.calm (s s' : St) (hq : Calm s s') (h : Alert drops missed s) :
    Alert drops missed s' := h.quiet isCalm_isIdle hq

theorem Due.calm (s s' : St) (hq : Calm s s') (h : Due drops missed pressed s) :
    Due drops missed pressed s' := h.quiet isCalm_isIdle hq

theorem Due.press (h : Due drops missed pressed s) {e : Event} (he : e.presses) :
    Due drops missed true (s.record e) := h.imp (·.press he) (·.press he)

theorem Due.alert (h : Due drops missed true s) : Alert drops missed s :=
  h.imp_right fun hstop => ⟨true, hstop⟩

theorem Ahead.alert {g : ℕ → Bool} (h : Ahead drops missed g s) (hg : ∀ n, g n = false) :
    Alert drops missed s := by
  unfold Ahead at h
  rw [hg] at h
  exact h.imp_right fun hstop => ⟨false, hstop⟩

theorem Ahead.due {g : ℕ → Bool} (h : Ahead drops missed g s) (hg : ∀ n, g n = true) :
    Due drops missed false s := by
  unfold Ahead at h
  rwa [hg] at h

/-! ## Code that a stop makes silent -/

/-- The events are idle, and in a stopped script no answer is taken. -/
structure Hushed (s s' : St) : Prop where
  quiet : Quiet Event.isIdle s s'
  asked : s.running = false → s'.asked = s.asked

instance : IsPreorder St Hushed where
  refl s := ⟨refl_of (Quiet Event.isIdle) s, fun _ => rfl⟩
  trans := fun _ _ _ hab hbc => ⟨trans_of (Quiet Event.isIdle) hab.quiet hbc.quiet, fun hr =>
    (hbc.asked (hab.quiet.running.trans hr)).trans (hab.asked hr)⟩

theorem Ahead.hushed {g : ℕ → Bool} (s s' : St) (hs : Hushed s s') (h : Ahead drops missed g s) :
    Ahead drops missed g s' := by
  obtain hgo | hstop := h
  · exact .inl (hgo.quiet (fun _ he => he) hs.quiet)
  · refine .inr ?_
    rw [hs.asked hstop.halted]
    exact hstop.quiet (fun _ he => he) hs.quiet

end States

theorem hushed_hideSpecialMarker : Does Hushed hideSpecialMarker :=
  .update fun _ => ⟨.of_silent rfl rfl rfl le_rfl (fun h => h.hideSpecialMarker) rfl, fun _ => rfl⟩

theorem hushed_showSpecialMarker (f : ScriptFile) (x y : ℤ) :
    Does Hushed (showSpecialMarker f x y) :=
  .update fun _ => ⟨.of_silent rfl rfl rfl le_rfl (fun h => h.step f (.show x y)) rfl, fun _ => rfl⟩

theorem hushed_toolTip : Does Hushed toolTip :=
  .update fun _ => ⟨.of_silent rfl rfl rfl le_rfl id rfl, fun _ => rfl⟩

theorem hushed_log {e : Event} (he : e.isIdle) : Does Hushed (log e) :=
  .update fun _ => ⟨.record he, fun _ => rfl⟩

theorem hushed_sendUp (ks : List Key) : Does Hushed (sendUp ks) := by
  induction ks with
  | nil => exact .pure _
  | cons k ks ih => exact .bind (hushed_log trivial) fun _ => ih

theorem hushed_check : Does Hushed (specialCheckStop false) :=
  .bind (.gets _) fun _ => .ite (.pure _) <| .bind (hushed_sendUp _) fun _ => .pure _

/-- A calm function that takes no answer in a stopped script. -/
theorem hushed_of_calm {α : Type} {x : Ahk α} (hx : IsCalm x)
    (h : ∀ r s, s.running = false → wp x (fun _ s' => s'.asked = s.asked) (fun _ _ => False) r s) :
    Does Hushed x := by
  intro r s
  by_cases hr : s.running = false
  · exact wp_mono (wp_and (hx r s) (h r s hr)) (fun _ s' h =>
      ⟨h.1.mono isCalm_isIdle, fun _ => h.2⟩) fun _ _ h => h.2.elim
  · exact wp_mono (hx r s) (fun _ s' h => ⟨h.mono isCalm_isIdle, fun hr' => absurd hr' hr⟩)
      fun _ _ h => h.elim

theorem hushed_setStatus (text : String) : Does Hushed (setStatus text) := by
  refine hushed_of_calm (calm_setStatus text) fun r s hr => ?_
  rw [setStatus, wp_bind, wp_update, wp_bind, toolTip, wp_update, wp_bind, wp_gets,
    if_neg (by simp [hr]), hideStatusOverlay, wp_bind, toolTip, wp_update, wp_update]

theorem hushed_endScreenRead : Does Hushed endScreenRead := by
  refine hushed_of_calm calm_endScreenRead fun r s hr => ?_
  rw [endScreenRead, wp_bind, wp_update, wp_bind, wp_gets, if_neg (by simp [hr]), wp_pure]

end WagonMove
