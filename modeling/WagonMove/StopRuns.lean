import WagonMove.StopFlag

/-!
# Stops, keys and checks

A `Sleep` lets a stop in. From then on a check ends the matter, a key that is pressed settles it,
and in between the answers of the environment decide, query by query, which of the two comes first.
-/

namespace WagonMove

open Prog

def At (env : Env) (sc : List Site) (r : Ctx) : Prop := r.env = env ∧ r.scope = sc

theorem At.enter {env : Env} {sc : List Site} (site : Site) (r : Ctx) (h : At env sc r) :
    At env (site :: sc) (r.enter site) := ⟨h.1, congrArg _ h.2⟩

/-- Nothing that the script does from here on depends on a stop that has come. -/
def Noticed (drops : List Site → ℕ → Moment → Bool) (s : St) : Prop :=
  ∃ missed, Alert drops missed s

/-- A stop that has come and an `ok` that is returned go together only if the stop is dropped. -/
def Outcome (drops : List Site → ℕ → Moment → Bool) (ok : Bool) (s : St) : Prop :=
  if ok then ∃ missed, Due drops missed false s else Noticed drops s

/-- How a run ends, given what an error on its way to a handler leaves behind. -/
def StopEnd (drops : List Site → ℕ → Moment → Bool) (thrown : St → Prop) : Abort Err → St → Prop
  | .thrown _, s => thrown s
  | .starved, s => ∀ e ∈ s.trace, e.isOpen
  | .closed, s => (∀ e ∈ s.trace, e.isOpen) ∨ ∃ pressed dropped, Stopped drops pressed dropped s
  | .exited code, s => ∃ (ok : Bool) (detail : String) (s₀ : St), code = (if ok then 0 else 1) ∧
      Outcome drops ok s₀ ∧ Signalled (if ok then .ok else .error) detail s₀.trace s.trace

/-! ## Sleeps, keys and checks -/

section Helpers

variable {drops : List Site → ℕ → Moment → Bool} {thrown : St → Prop} {env : Env} {r : Ctx} {s : St}
  {sc : List Site} {missed : ℕ} {pressed dropped : Bool} {g : ℕ → Bool}

theorem Going.closed (h : Going missed s) :
    StopEnd drops thrown .closed (s.record .gdipShutdown) := by
  refine .inl fun e he => ?_
  rcases List.mem_cons.1 he with rfl | he
  · exact trivial
  · exact h.isOpen e he

theorem Stopped.closed (h : Stopped drops pressed dropped s) :
    StopEnd drops thrown .closed (s.record .gdipShutdown) :=
  .inr ⟨pressed, dropped, h.quiet (fun _ he => he) (.record (p := Event.isIdle) trivial)⟩

theorem wp_sleep_going {site : Site} {ms : ℕ} {Q : St → Prop} (hr : At env sc r)
    (hs : Going missed s) (hgo : ∀ s', Going missed s' → Q s')
    (hstop : ∀ s', Stopped drops false (drops (site :: sc) missed s'.moment) s' → Q s') :
    wp (sleep site ms) (fun _ => Q) (StopEnd drops thrown) r s := by
  obtain ⟨-, rfl⟩ := hr
  have hnap : Going missed (s.nap (r.env.sleep s.asked) (site :: r.scope) ms) ∨
      Stopped drops false _ (s.nap (r.env.sleep s.asked) (site :: r.scope) ms) := hs.nap _ _ ms
  refine wp_sleep site ms (fun _ => ?_) fun _ => ?_
  · obtain h | h := hnap
    · exact hgo _ h
    · exact hstop _ h
  · obtain h | h := hnap
    · exact h.closed
    · exact h.closed

theorem wp_sleep_stopped {site : Site} {ms : ℕ} (hs : Stopped drops pressed dropped s) :
    wp (sleep site ms) (fun _ s' => Stopped drops pressed dropped s' ∧ s'.asked = s.asked + 1)
      (StopEnd drops thrown) r s :=
  wp_sleep site ms (fun _ => ⟨hs.nap _ _ ms, rfl⟩) fun _ => (hs.nap _ _ ms).closed

/-- A `Sleep` in which a stop that comes is dropped or not whatever the environment answers. -/
theorem going_sleep {site : Site} (h : ∀ m, drops (site :: sc) missed m = dropped) (ms : ℕ) :
    Leads (At env sc) (Going missed) (fun _ => Ahead drops missed fun _ => dropped)
      (StopEnd drops thrown) (sleep site ms) := fun _ hr _ hs =>
  wp_sleep_going hr hs (fun _ h => .inl h) fun s' hs' => .inr (h s'.moment ▸ hs')

theorem alert_sleep {site : Site} (h : ∀ m, drops (site :: sc) missed m = false) (ms : ℕ) :
    Keeps (At env sc) (Alert drops missed) (StopEnd drops thrown) (sleep site ms) := by
  rintro r hr s (hs | ⟨b, hs⟩)
  · exact wp_imp (going_sleep h ms r hr s hs) fun _ _ h => h.alert fun _ => rfl
  · exact wp_imp (wp_sleep_stopped hs) fun _ _ h => .inr ⟨b, h.1⟩

theorem due_sleep {site : Site} (h : ∀ m, drops (site :: sc) missed m = true) (ms : ℕ) :
    Keeps (At env sc) (Due drops missed false) (StopEnd drops thrown) (sleep site ms) := by
  rintro r hr s (hs | hs)
  · exact wp_imp (going_sleep h ms r hr s hs) fun _ _ h => h.due fun _ => rfl
  · exact wp_imp (wp_sleep_stopped hs) fun _ _ h => .inr h.1

theorem ahead_sleep {site : Site} (h : ∀ m, drops (site :: sc) missed m = g m.asked) (ms : ℕ) :
    Leads (At env sc) (Ahead drops missed fun n => g (n + 1)) (fun _ => Ahead drops missed g)
      (StopEnd drops thrown) (sleep site ms) := by
  rintro r hr s (hs | hs)
  · exact wp_sleep_going hr hs (fun _ h => .inl h) fun s' hs' => .inr (h s'.moment ▸ hs')
  · refine wp_imp (wp_sleep_stopped hs) fun _ s' h => .inr ?_
    rw [h.2]
    exact h.1

theorem hushed_keeps {D : Ctx → Prop} {E : Abort Err → St → Prop} {α : Type} {x : Ahk α}
    (hx : Does Hushed x) : Keeps D (Ahead drops missed g) E x := hx.keeps Ahead.hushed

/-- A check whose answer is looked at. -/
theorem leads_checkStop {D : Ctx → Prop} {P : St → Prop} {E : Abort Err → St → Prop}
    (hP : ∀ s s', Hushed s s' → P s → P s') : Leads D P
      (fun stop s => P s ∧ s.running = !stop) E (specialCheckStop false) := by
  intro r _ s hs
  rw [specialCheckStop, wp_bind, wp_gets]
  refine wp_ite (fun hr => (wp_pure _).2 ⟨hs, hr⟩) fun hr => ?_
  rw [wp_bind, releaseSpecialKeys]
  refine (hushed_sendUp specialKeys).wp fun _ s' hq => (wp_pure _).2 ⟨hP s s' hq hs, ?_⟩
  exact hq.quiet.running.trans (Bool.eq_false_of_not_eq_true hr)

theorem Alert.hushed (s s' : St) (hq : Hushed s s') (h : Alert drops missed s) :
    Alert drops missed s' := h.quiet (fun _ he => he) hq.quiet

theorem Due.hushed (s s' : St) (hq : Hushed s s') (h : Due drops missed pressed s) :
    Due drops missed pressed s' := h.quiet (fun _ he => he) hq.quiet

theorem Alert.going (h : Alert drops missed s) (hr : s.running = true) : Going missed s := by
  obtain h | ⟨b, h⟩ := h
  · exact h
  · exact absurd (h.halted.symm.trans hr) Bool.false_ne_true

theorem Due.going (h : Due drops missed pressed s) (hr : s.running = true) : Going missed s :=
  h.resolve_right fun h => absurd (h.halted.symm.trans hr) Bool.false_ne_true

theorem Ahead.going (h : Ahead drops missed g s) (hr : s.running = true) : Going missed s :=
  h.resolve_right fun h => absurd (h.halted.symm.trans hr) Bool.false_ne_true

/-- A check that throws: afterwards the script goes on. -/
theorem alert_check : Leads (At env sc) (Alert drops missed)
    (fun _ s => Alert drops missed s ∧ s.running = true) (StopEnd drops (Noticed drops))
    specialCheckStop := by
  intro r _ s hs
  rw [specialCheckStop, wp_bind, wp_gets]
  refine wp_ite (fun hr => (wp_pure _).2 ⟨hs, hr⟩) fun _ => ?_
  rw [wp_bind, releaseSpecialKeys, if_pos rfl]
  exact (hushed_sendUp specialKeys).wp fun _ s' hq => (wp_throwErr _).2 ⟨missed, hs.hushed s s' hq⟩

theorem due_sendDown {D : Ctx → Prop} {E : Abort Err → St → Prop} (key : Key) (keys : List Key) :
    Leads D (Due drops missed pressed) (fun _ => Due drops missed true) E
      (sendDown (key :: keys)) := by
  induction keys generalizing key pressed with
  | nil =>
      intro r _ s hs
      rw [sendDown, wp_bind, wp_log, sendDown, wp_pure]
      exact hs.press trivial
  | cons key' keys ih =>
      intro r hr s hs
      rw [sendDown, wp_bind, wp_log]
      exact ih key' r hr _ (hs.press trivial)

theorem going_sendDown {D : Ctx → Prop} {E : Abort Err → St → Prop} (keys : List Key) :
    Keeps D (Going missed) E (sendDown keys) := by
  induction keys with
  | nil => exact .pure _
  | cons key keys ih => exact .bind (.update fun _ hs => hs.press trivial) fun _ => ih

/-- The helpers that hold keys for one `Sleep`, after a check whose answer they drop. -/
def pressFor (site : Site) (ms : ℕ) (keys : List Key) : Ahk Unit := do
  let _ ← specialCheckStop false
  sendDown keys
  sleep site ms
  sendUp keys

/-- A key that is pressed while the script goes on. -/
theorem going_press {site : Site} (h : ∀ m, drops (site :: sc) missed m = dropped) (ms : ℕ)
    (keys : List Key) : Leads (At env sc) (Going missed)
      (fun _ => Ahead drops missed fun _ => dropped) (StopEnd drops thrown)
      (pressFor site ms keys) := by
  have hcheck : Keeps (At env sc) (Going missed) (StopEnd drops thrown) (specialCheckStop false) :=
    hushed_check.keeps fun _ _ hq hs => hs.quiet (fun _ he => he) hq.quiet
  exact hcheck.leads.bind fun _ => (going_sendDown keys).leads.bind fun _ =>
    (going_sleep h ms).bind fun _ => hushed_keeps (hushed_sendUp keys)

/-- A key that is pressed although a stop may have come. -/
theorem due_press {site : Site} (h : ∀ m, drops (site :: sc) missed m = false) (ms : ℕ)
    (key : Key) (keys : List Key) : Leads (At env sc) (Due drops missed pressed)
      (fun _ => Alert drops missed) (StopEnd drops thrown) (pressFor site ms (key :: keys)) := by
  have hcheck : Keeps (At env sc) (Due drops missed pressed) (StopEnd drops thrown)
      (specialCheckStop false) := hushed_check.keeps Due.hushed
  have hsleep : Leads (At env sc) (Due drops missed true) (fun _ => Alert drops missed)
      (StopEnd drops thrown) (sleep site ms) :=
    (alert_sleep h ms).leads.mono (fun _ hs => hs.alert) fun _ _ hs => hs
  exact hcheck.leads.bind fun _ => (due_sendDown key keys).bind fun _ => hsleep.bind fun _ =>
    (hushed_sendUp _).keeps Alert.hushed

theorem alert_press {site : Site} (h : ∀ m, drops (site :: sc) missed m = false) (ms : ℕ)
    (keys : List Key) : Leads (At env sc) (fun s => Alert drops missed s ∧ s.running = true)
      (fun _ => Alert drops missed) (StopEnd drops thrown) (pressFor site ms keys) :=
  (going_press h ms keys).mono (fun _ hs => hs.1.going hs.2) fun _ _ hs => hs.alert fun _ => rfl

/-- One turn of the wheel; `P` says what may come of a stop. -/
theorem keeps_zoomTick {P : St → Prop} (hhushed : ∀ s s', Hushed s s' → P s → P s')
    (hgoing : ∀ s, P s → s.running = true → Going missed s) {ms : ℕ}
    (hsleep : Leads (At env sc) (Going missed) (fun _ => P) (StopEnd drops thrown)
      (sleep .specialFullZoomOut ms)) :
    Keeps (At env sc) P (StopEnd drops thrown) (zoomTick ms) := by
  refine (leads_checkStop hhushed).bind fun stop => .ite (fun _ => .pure fun _ hs => hs.1) ?_
  intro hstop
  have hwheel : Leads (At env sc) (fun s => P s ∧ s.running = !stop) (fun _ => Going missed)
      (StopEnd drops thrown) (log .wheelDown) := by
    rintro r - s ⟨hs, hr⟩
    have hrun : s.running = true := by rw [hr, Bool.eq_false_of_not_eq_true hstop]; rfl
    exact (wp_log _).2 ((hgoing s hs hrun).press trivial)
  exact hwheel.bind fun _ => hsleep.bind fun _ => .pure fun _ hs => hs

/-- An activation of Roblox: what the answers behind it decide is decided in front of it. -/
theorem ahead_activate (h : ∀ m, drops (.activateRoblox :: sc) missed m = g m.asked) :
    Leads (At env sc) (Ahead drops missed fun n => env.activatedAt n g)
      (fun _ => Ahead drops missed g) (StopEnd drops (Noticed drops)) activateRoblox := by
  intro r hr s hs
  rw [activateRoblox, wp_bind, wp_getRobloxHwnd_at, hr.1]
  unfold Ahead Env.activatedAt at hs
  dsimp only at hs
  generalize env.hwndAt s.asked = answer at hs ⊢
  obtain ⟨hwnd, n⟩ := answer
  have hgo (n' : ℕ) (hs : Going missed s) : Going missed { s with asked := n' } :=
    ⟨hs.isOpen, hs.misses⟩
  have hstopped {d : Bool} (n' : ℕ) (hs : Stopped drops false d s) :
      Stopped drops false d { s with asked := n' } := ⟨hs.halted, hs.sound, hs.split⟩
  have hfails (n' : ℕ) (hzero : (hwnd ≠ 0 && env.winActivate n = none) = false) :
      Noticed drops { s with asked := n' } := by
    refine ⟨missed, hs.imp (hgo n') fun hs => ⟨false, ?_⟩⟩
    rw [hzero, Bool.false_and] at hs
    exact hstopped n' hs
  refine wp_ite (fun hzero => (wp_throwErr _).2 (hfails n (by simp_all))) fun hne => ?_
  rw [wp_bind, wp_ask, hr.1]
  dsimp only
  cases he : env.winActivate n with
  | some e => exact (wp_raise e).2 (hfails (n + 1) (by simp [he]))
  | none =>
      refine ahead_sleep h 250 r hr _ (hs.imp (hgo (n + 1)) fun hs => ?_)
      rw [he, decide_eq_true hne, decide_eq_true rfl, Bool.true_and, Bool.true_and] at hs
      exact hstopped (n + 1) hs

end Helpers

end WagonMove
