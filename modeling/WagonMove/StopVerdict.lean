import WagonMove.StopLooks

/-!
# Which stops are honoured

The flows phase by phase: between the jumps a key is outstanding, and after the last check every
stop is missed. A run that is not closed from outside then honours a stop exactly if `dropsStop`
does not say of its place, of the misses so far and of the answers to come that it is dropped.
-/

namespace WagonMove

open Prog

def StopIn (drops : List Site → ℕ → Moment → Bool) : Phase → St → Prop
  | .idle | .found => Alert drops 0
  | .jumping | .closing => Due drops 0 false

theorem stop_calm {drops : List Site → ℕ → Moment → Bool} (ph : Phase) (s s' : St)
    (hq : Calm s s') (h : StopIn drops ph s) : StopIn drops ph s' := by
  cases ph with
  | idle | found => exact Alert.calm s s' hq h
  | jumping | closing => exact Due.calm s s' hq h

/-- Between two parts of the flow, or inside of one. -/
def Part (env : Env) (step : Option FlowStep) : Ctx → Prop := At env (step.toList.map .step)

section Parts

variable {f : ScriptFile} {node : Node} {env : Env}

/-- A stop in the first jump is missed, since the second one presses its key in any case. -/
theorem stop_firstJump : Leads (Part env none)
    (fun s => Alert (dropsStop f node env) 0 s ∧ s.running = true)
    (fun _ => Due (dropsStop f node env) 0 false) (FlowEnd f node env) (within (.step .firstJump) do
      specialTapKey .space 60
      sleep .flowPause 250) := by
  have htap : Leads (Part env (some .firstJump))
      (fun s => Alert (dropsStop f node env) 0 s ∧ s.running = true)
      (fun _ => Due (dropsStop f node env) 0 false) (FlowEnd f node env)
      (specialTapKey .space 60) :=
    (going_press (fun _ => rfl) 60 [.space]).mono (fun _ hs => hs.1.going hs.2)
      fun _ _ hs => hs.due fun _ => rfl
  exact .under (At.enter _) (htap.bind fun _ => due_sleep (fun _ => rfl) 250)

theorem stop_secondJump : Leads (Part env none) (Due (dropsStop f node env) 0 false)
    (fun _ => Alert (dropsStop f node env) 0) (FlowEnd f node env) (within (.step .secondJump) do
      specialTapKey .space 60
      sleep .flowPause 50) := by
  have htap : Leads (Part env (some .secondJump)) (Due (dropsStop f node env) 0 false)
      (fun _ => Alert (dropsStop f node env) 0) (FlowEnd f node env) (specialTapKey .space 60) :=
    due_press (fun _ => rfl) 60 .space []
  exact .under (At.enter _) (htap.bind fun _ => alert_sleep (fun _ => rfl) 50)

/-- A stop in the last walk is missed, since the flow returns true in any case. -/
theorem stop_lastWalk : Leads (Part env none)
    (fun s => Alert (dropsStop f node env) 0 s ∧ s.running = true)
    (fun _ => Due (dropsStop f node env) 0 false) (FlowEnd f node env) (within (.step .lastWalk) do
      specialHoldKey .w 350
      sleep .flowPause 120) := by
  have hhold : Leads (Part env (some .lastWalk))
      (fun s => Alert (dropsStop f node env) 0 s ∧ s.running = true)
      (fun _ => Due (dropsStop f node env) 0 false) (FlowEnd f node env) (specialHoldKey .w 350) :=
    (going_press (fun _ => rfl) 350 [.w]).mono (fun _ hs => hs.1.going hs.2)
      fun _ _ hs => hs.due fun _ => rfl
  exact .under (At.enter _) (hhold.bind fun _ => due_sleep (fun _ => rfl) 120)

theorem stop_zoomOut {step : FlowStep} (hstep : step.isChecked = true) :
    Keeps (Part env (some step)) (Alert (dropsStop f node env) 0) (FlowEnd f node env)
      (specialFullZoomOut 30 15) := by
  have hheeded (m : Moment) : dropsStop f node env
      [.activateRoblox, .specialFullZoomOut, .step step] 0 m = false := by
    cases step <;> first | rfl | exact nomatch hstep
  have hactivate : Leads (At env [.specialFullZoomOut, .step step])
      (Alert (dropsStop f node env) 0) (fun _ => Alert (dropsStop f node env) 0)
      (FlowEnd f node env) activateRoblox :=
    leads_activateRoblox Alert.calm (fun _ _ hs => ⟨0, hs⟩) (alert_sleep hheeded 250)
  have htick : Keeps (At env [.step step]) (Alert (dropsStop f node env) 0) (FlowEnd f node env)
      (zoomTick 15) :=
    keeps_zoomTick Alert.hushed (fun _ => Alert.going) <|
      (going_sleep (fun m => dropsStop_heeded f node env 0 m rfl hstep) 15).mono (fun _ hs => hs)
        fun _ _ hs => hs.alert fun _ => rfl
  have hzoom : Leads (Part env (some step)) (Alert (dropsStop f node env) 0)
      (fun _ => Alert (dropsStop f node env) 0) (FlowEnd f node env) (specialFullZoomOut 30 15) :=
    .bind (.under (At.enter _) hactivate) fun _ =>
      Keeps.loop (fun _ => htick) (fun _ => .pure _) _ _
  exact hzoom

/-- The same in the last zoom, unless Roblox cannot be activated for it. -/
theorem stop_lastZoomOut : Leads (Part env none)
    (fun s => Alert (dropsStop f node env) 0 s ∧ s.running = true)
    (fun _ => Due (dropsStop f node env) 0 false) (FlowEnd f node env)
    (within (.step .lastZoomOut) do
      let _ ← specialFullZoomOut 30 15
      sleep .flowPause 100) := by
  have hsleep {site : Site} {sc : List Site} {ms : ℕ}
      (h : ∀ m, dropsStop f node env (site :: sc) 0 m = true) : Leads (At env sc) (Going 0)
      (fun _ => Due (dropsStop f node env) 0 false) (FlowEnd f node env) (sleep site ms) :=
    (going_sleep h ms).mono (fun _ hs => hs) fun _ _ hs => hs.due fun _ => rfl
  have hactivate : Leads (At env [.specialFullZoomOut, .step .lastZoomOut]) (Going 0)
      (fun _ => Due (dropsStop f node env) 0 false) (FlowEnd f node env) activateRoblox :=
    leads_activateRoblox (fun _ _ hq hs => hs.quiet isCalm_isIdle hq)
      (fun _ _ hs => ⟨0, hs.alert⟩) (hsleep fun _ => rfl)
  have hzoom : Leads (Part env (some .lastZoomOut)) (Going 0)
      (fun _ => Due (dropsStop f node env) 0 false) (FlowEnd f node env)
      (specialFullZoomOut 30 15) :=
    .bind (.under (At.enter _) hactivate) fun _ => Keeps.loop
      (fun _ => keeps_zoomTick Due.hushed (fun _ => Due.going) (hsleep fun _ => rfl))
      (fun _ => .pure _) _ _
  have hpart : Leads (Part env (some .lastZoomOut)) (Going 0)
      (fun _ => Due (dropsStop f node env) 0 false) (FlowEnd f node env) (do
        let _ ← specialFullZoomOut 30 15
        sleep .flowPause 100) := hzoom.bind fun _ => due_sleep (fun _ => rfl) 100
  exact .under (At.enter _) (hpart.mono (fun _ hs => hs.1.going hs.2) fun _ _ hs => hs)

end Parts

theorem stop_flowRules (f : ScriptFile) (passes : ℕ) (node : Node) (env : Env) :
    FlowRules f passes node (Part env) (StopIn (dropsStop f node env)) (FlowEnd f node env) := by
  have hheeded {site : Site} {step : FlowStep} (hsite : site.isHeeded = true)
      (hstep : step.isChecked = true) (m : Moment) :
      dropsStop f node env [site, .step step] 0 m = false :=
    dropsStop_heeded f node env 0 m hsite hstep
  exact
    { calm := stop_calm
      enter := fun step => At.enter (.step step)
      activate := leads_activateRoblox Alert.calm (fun _ _ hs => ⟨0, hs⟩)
        (alert_sleep (fun _ => rfl) 250)
      check := fun ph hph => by
        cases ph with
        | idle | found => exact alert_check
        | jumping | closing => exact hph.elim
      pause := fun step ph ms hstep hph => by
        cases ph with
        | idle | found => exact alert_sleep (hheeded rfl hstep) ms
        | jumping | closing => exact hph.elim
      zoomOut := fun step hstep => stop_zoomOut hstep
      search := fun step hstep => by
        have hchecked : step.isChecked = true := by
          cases step <;> first | rfl | exact nomatch hstep
        have hown : step.ownLooks = 0 := if_pos hstep
        refine (stop_search hchecked passes).mono (fun s hs => hown.symm ▸ hs) fun hit s hs => ?_
        cases hit with
        | none => exact hs
        | some p => exact AfterHit.alert hstep hs
      center := fun step hstep => stop_center hstep passes
      tap := fun step key ms hstep _ => alert_press (hheeded rfl hstep) ms [key]
      hold := fun step key ms hstep _ => alert_press (hheeded rfl hstep) ms [key]
      walk := fun step ms hstep => alert_press (hheeded rfl hstep) ms [.w]
      walkJumping := fun step ms hstep => alert_press (hheeded rfl hstep) ms [.w, .space]
      firstJump := stop_firstJump
      secondJump := stop_secondJump
      lastWalk := stop_lastWalk
      lastZoomOut := stop_lastZoomOut
      releaseIdle := (hushed_sendUp _).keeps Alert.hushed
      releaseClosing := (hushed_sendUp _).keeps Due.hushed }

/-! ## From the start of a run to its end -/

/-- The run has not come to its flow. -/
def Begun (s : St) : Prop := (∀ e ∈ s.trace, e.isOpen) ∧ misses s.trace = 0

theorem Begun.going {s : St} (h : Begun s) : Going 0 s := ⟨h.1, fun _ => h.2⟩

section Outcomes

variable {drops : List Site → ℕ → Moment → Bool} {missed : ℕ} {pressed dropped ok : Bool}
  {s s' : St}

theorem Going.halted (h : Going missed s) : Going missed { s with running := false } :=
  ⟨h.isOpen, nofun⟩

theorem Stopped.halt (h : Stopped drops pressed dropped s) :
    Stopped drops pressed dropped { s with running := false } := ⟨rfl, h.sound, h.split⟩

/-- A property of all outcomes is one of the states they are made of. -/
theorem Outcome.imp (h : Outcome drops ok s) (hgo : ∀ missed, Going missed s → Going missed s')
    (hstop : ∀ pressed dropped,
      Stopped drops pressed dropped s → Stopped drops pressed dropped s') :
    Outcome drops ok s' := by
  cases ok with
  | true =>
      obtain ⟨missed, hdue⟩ := h
      exact ⟨missed, hdue.imp (hgo missed) (hstop _ _)⟩
  | false =>
      obtain ⟨missed, halert⟩ := h
      exact ⟨missed, halert.imp (hgo missed) fun ⟨b, hb⟩ => ⟨b, hstop b b hb⟩⟩

theorem Outcome.quiet {p : Event → Prop} (hp : ∀ e, p e → e.isIdle) (hq : Quiet p s s')
    (h : Outcome drops ok s) : Outcome drops ok s' :=
  h.imp (fun _ hgo => hgo.quiet hp hq) fun _ _ hs => hs.quiet hp hq

/-- A stop that has come before the outcome is dropped if a key has been pressed since or the run
is a success. -/
theorem Outcome.cases (h : Outcome drops ok s) :
    (∃ missed, Going missed s) ∨ ∃ pressed, Stopped drops pressed (ok || pressed) s := by
  cases ok with
  | true =>
      obtain ⟨missed, hgo | hstop⟩ := h
      · exact .inl ⟨missed, hgo⟩
      · exact .inr ⟨false, hstop⟩
  | false =>
      obtain ⟨missed, hgo | ⟨b, hstop⟩⟩ := h
      · exact .inl ⟨missed, hgo⟩
      · exact .inr ⟨b, hstop⟩

/-- Once the flag is cleared, a nap brings no stop. -/
theorem Outcome.nap (h : Outcome drops ok s) (hr : s.running = false) (n : Nap) (sc : List Site)
    (ms : ℕ) : Outcome drops ok (s.nap n sc ms) := by
  refine h.imp (fun missed hgo => ?_) fun _ _ hstop => hstop.nap n sc ms
  refine hgo.of_append (l := [.slept sc ms]) ?_ (by simp [Event.isIdle]) fun hrun => ?_
  · rw [St.nap_trace, hr]
    rfl
  · rw [St.nap_running, hr] at hrun
    exact absurd hrun Bool.false_ne_true

theorem Outcome.closed {thrown : St → Prop} (h : Outcome drops ok s) :
    StopEnd drops thrown .closed (s.record .gdipShutdown) := by
  obtain ⟨missed, hgo⟩ | ⟨pressed, hstop⟩ := h.cases
  · exact hgo.closed
  · exact hstop.closed

end Outcomes

theorem stop_keptScript (f : ScriptFile) (passes : ℕ) (node : Node) (env : Env) :
    KeptScript f passes node (Part env none) Begun (Outcome (dropsStop f node env))
      (FlowEnd f node env) (StopEnd (dropsStop f node env) fun s => s.trace = []) where
  calm s s' hq hs := by
    obtain ⟨l, hl, hlc⟩ := hq.trace
    have hidle : ∀ e ∈ l, e.isIdle := fun e he => isCalm_isIdle e (hlc e he)
    exact ⟨(hs.going.quiet isCalm_isIdle hq).isOpen, by rw [hl, misses_append _ hidle, hs.2]⟩
  calmEnd _ _ _ hq hs := hs.quiet isCalm_isIdle hq
  entered path s hs := by
    refine ⟨fun e he => ?_, hs.2⟩
    rcases List.mem_cons.1 he with rfl | he
    · exact trivial
    · exact hs.1 e he
  setSignalFile path s hs := hs
  start s hs := hs
  runFlow := by
    have hflow := (stop_flowRules f passes node env).flow.mono
      (fun s (hs : Begun s) => hs.going.alert)
      (fun ok s hs => (by cases ok <;> exact ⟨0, hs⟩ : Outcome (dropsStop f node env) ok s))
    refine hflow.bind fun ok => ?_
    intro r _ s hs
    rw [wp_bind, wp_log, wp_pure]
    exact hs.quiet (p := Event.isIdle) (fun _ he => he) (.record trivial)
  caught _ _ hs := hs
  passed e s hne he := by
    cases e with
    | thrown err => exact absurd rfl (hne err)
    | exited code | closed | starved => exact he
  missing _ hs := ⟨0, hs.going.alert⟩
  stop _ s hs := hs.imp (fun _ => Going.halted) fun _ _ => Stopped.halt
  release _ := (hushed_sendUp _).keeps fun _ _ hq hs => hs.quiet (fun _ he => he) hq.quiet
  ending ok ms := by
    rintro r - s ⟨hs, hr⟩
    have hnap := hs.nap hr (r.env.sleep s.asked) (.ending :: r.scope) ms
    exact wp_sleep _ _ (fun _ => hnap) fun _ => hnap.closed
  signal ok := stop_signal ok f

/-- The node of a run. A tolerance that cannot be read ends it before there is one. -/
def Config.readNode (cfg : Config) : Node :=
  cfg.node ((integer (trim (cfg.tolerance.getD "0"))).getD 0)

theorem stop_at_end (f : ScriptFile) (cfg : Config) (passes : ℕ) (env : Env)
    (files : String → Option String) : ∃ e s, execute f cfg passes env files = (.error e, s) ∧
      StopEnd (dropsStop f cfg.readNode env) (fun s => s.trace = []) e s := by
  cases ht : integer (trim (cfg.tolerance.getD "0")) with
  | none => exact ⟨_, _, execute_of_none passes ht, rfl⟩
  | some tolerance =>
      have hnode : cfg.readNode = cfg.node tolerance := by rw [Config.readNode, ht]; rfl
      rw [hnode]
      refine (stop_keptScript f passes _ env).executed ht ⟨rfl, rfl⟩ ⟨?_, rfl⟩
      simp [St.atEntry, Event.isOpen]

/-! ## The stop of a run -/

section Runs

variable {drops : List Site → ℕ → Moment → Bool} {missed : ℕ} {pressed dropped : Bool} {s : St}
  {later earlier : List Event} {sc : List Site} {m : Moment}

theorem Going.not_stopped (h : Going missed s) : s.trace ≠ later ++ .stopped sc m :: earlier :=
  fun ht => h.isOpen (.stopped sc m) (by simp [ht])

/-- There is only one stop in the trace. -/
theorem Stopped.at_stop (h : Stopped drops pressed dropped s)
    (ht : s.trace = later ++ .stopped sc m :: earlier) : (∀ e ∈ later, e.isOpen) ∧
      ((∃ e ∈ later, e.presses) ↔ pressed = true) ∧ drops sc (misses earlier) m = dropped := by
  obtain ⟨later', sc', m', earlier', ht', hopen, hpress, hdrops⟩ := h.split
  have hnot : Event.stopped sc m ∉ later' := fun hmem =>
    hopen _ (List.mem_append_left _ hmem)
  obtain ⟨l, rfl, hrest⟩ := Trace.split_append (ht'.symm.trans ht) hnot
  cases l with
  | nil =>
      obtain ⟨hevent, rfl⟩ := List.cons.inj hrest
      cases hevent
      exact ⟨fun e he => hopen e (by simpa using .inl (by simpa using he)), by simpa using hpress,
        hdrops⟩
  | cons e l =>
      obtain ⟨-, rfl⟩ := List.cons.inj hrest
      exact (hopen (.stopped sc m) (by simp)).elim

end Runs

section OpenRuns

variable {f : ScriptFile} {cfg : Config} {passes : ℕ} {env : Env} {files : String → Option String}
  {later earlier : List Event} {sc : List Site} {m : Moment}

theorem isFileOp_not_presses {e : Event} (h : e.isFileOp) : ¬e.presses := by
  cases e <;> first | exact h.elim | exact id

/-- A run that has been stopped and is not closed reports, and what it reports goes with the keys
pressed after the stop. -/
theorem stopped_run_reports (hopen : (execute f cfg passes env files).1 ≠ .error .closed)
    (ht : (execute f cfg passes env files).2.trace = later ++ .stopped sc m :: earlier) :
    ∃ (ok pressed : Bool) (detail : String),
      (execute f cfg passes env files).1 = .error (.exited (if ok then 0 else 1)) ∧
      .signal (if ok then .ok else .error) detail ∈ later ∧
      (ok = false → ∀ detail, .signal .ok detail ∉ later) ∧
      ((∃ e ∈ later, e.presses) ↔ pressed = true) ∧
      dropsStop f cfg.readNode env sc (misses earlier) m = (ok || pressed) := by
  obtain ⟨e, s, he, hend⟩ := stop_at_end f cfg passes env files
  rw [he] at hopen ht ⊢
  simp only at ht
  cases e with
  | thrown e =>
      rw [show s.trace = [] from hend] at ht
      simp at ht
  | closed => exact absurd rfl hopen
  | starved => exact (hend (.stopped sc m) (ht ▸ by simp)).elim
  | exited code =>
      obtain ⟨ok, detail, s₀, rfl, houtcome, ops, htrace, hops⟩ := hend
      have hsplit : (Event.gdipShutdown :: .exitApp (if ok then 0 else 1) ::
          (ops ++ [.signal (if ok then .ok else .error) detail])) ++ s₀.trace =
          later ++ .stopped sc m :: earlier := by
        rw [← ht, htrace]
        cases ok <;> simp
      have hnot : Event.stopped sc m ∉ Event.gdipShutdown :: .exitApp (if ok then 0 else 1) ::
          (ops ++ [.signal (if ok then .ok else .error) detail]) := by
        have hops' : Event.stopped sc m ∉ ops := fun hmem => hops _ hmem
        simpa using hops'
      obtain ⟨later', rfl, ht₀⟩ := Trace.split_append hsplit hnot
      obtain ⟨missed, hgo⟩ | ⟨pressed, hstop⟩ := houtcome.cases
      · exact absurd ht₀ hgo.not_stopped
      · obtain ⟨hlater, hpress, hdrops⟩ := hstop.at_stop ht₀
        refine ⟨ok, pressed, detail, rfl, by simp, ?_, ?_, hdrops⟩
        · rintro rfl d hd
          have hops' : Event.signal .ok d ∉ ops := fun hmem => hops _ hmem
          have hlater' : Event.signal .ok d ∉ later' := fun hmem => hlater _ hmem
          simp [hops', hlater'] at hd
        · rw [← hpress]
          refine ⟨?_, fun ⟨e, he, hp⟩ => ⟨e, by simp [he], hp⟩⟩
          rintro ⟨e, he, hp⟩
          have hcases : (e = .gdipShutdown ∨ e = .exitApp (if ok then 0 else 1) ∨ e ∈ ops ∨
              e = .signal (if ok then .ok else .error) detail) ∨ e ∈ later' := by
            simpa [or_assoc] using he
          obtain (rfl | rfl | hop | rfl) | he := hcases
          · exact hp.elim
          · exact hp.elim
          · exact absurd hp (isFileOp_not_presses (hops e hop))
          · exact hp.elim
          · exact ⟨e, he, hp⟩

theorem closed_run_presses (hclosed : (execute f cfg passes env files).1 = .error .closed)
    (ht : (execute f cfg passes env files).2.trace = later ++ .stopped sc m :: earlier)
    (hdrops : dropsStop f cfg.readNode env sc (misses earlier) m = false) :
    ∀ e ∈ later, ¬e.presses := by
  obtain ⟨e, s, he, hend⟩ := stop_at_end f cfg passes env files
  rw [he] at hclosed ht
  cases hclosed
  obtain hopen | ⟨pressed, dropped, hstop⟩ := hend
  · exact (hopen (.stopped sc m) (ht ▸ by simp)).elim
  · obtain ⟨-, hpress, rfl⟩ := hstop.at_stop ht
    intro e he hp
    rw [hstop.sound (hpress.1 ⟨e, he, hp⟩)] at hdrops
    exact absurd hdrops.symm Bool.false_ne_true

end OpenRuns

/-- A stop that is not dropped is the end of all key-downs and wheel events. In a run that is not
closed from outside it is moreover reported as an error, and no other stop is honoured in full. -/
theorem stop_honoured_iff (f : ScriptFile) (cfg : Config) (passes : ℕ) (env : Env)
    (files : String → Option String) (later : List Event) (sc : List Site) (m : Moment)
    (earlier : List Event)
    (ht : (execute f cfg passes env files).2.trace = later ++ .stopped sc m :: earlier) :
    (dropsStop f cfg.readNode env sc (misses earlier) m = false → ∀ e ∈ later, ¬e.presses) ∧
    ((execute f cfg passes env files).1 ≠ .error .closed →
      (((∀ e ∈ later, ¬e.presses) ∧ (execute f cfg passes env files).1 = .error (.exited 1) ∧
        (∃ detail, .signal .error detail ∈ later) ∧ ∀ detail, .signal .ok detail ∉ later) ↔
      dropsStop f cfg.readNode env sc (misses earlier) m = false)) := by
  by_cases hclosed : (execute f cfg passes env files).1 = .error .closed
  · exact ⟨closed_run_presses hclosed ht, fun hopen => absurd hclosed hopen⟩
  · obtain ⟨ok, pressed, detail, hexit, hsignal, hnone, hpress, hdrops⟩ :=
      stopped_run_reports hclosed ht
    have hquiet : (∀ e ∈ later, ¬e.presses) ↔ pressed = false := by
      rw [← Bool.not_eq_true, ← hpress]
      simp only [not_exists, not_and]
    rw [hdrops, hexit, hquiet, Bool.or_eq_false_iff]
    refine ⟨And.right, fun _ => ⟨fun h => ⟨?_, h.1⟩, ?_⟩⟩
    · by_contra hok
      rw [Bool.eq_true_of_not_eq_false hok] at h
      exact absurd h.2.1 (by decide)
    · rintro ⟨rfl, rfl⟩
      exact ⟨rfl, rfl, ⟨detail, hsignal⟩, hnone rfl⟩

/-- The colour is always in the middle of the window, and the flag is cleared in the nap that takes
answer `k` or a later one. -/
def stoppedFrom (k : ℕ) : Env :=
  { Env.idle with
    pixelSearch := fun _ _ => .hit 400 300
    sleep := fun n => { elapsed := 1, stop := k ≤ n } }

abbrev stoppedRun (k : ℕ) : Except (Abort Err) Unit × St :=
  execute .wagonMove ⟨none, none, none⟩ 10 (stoppedFrom k) fun _ => none

/-- A stop during a look of the centring is noticed, as the colour is in the middle. -/
theorem stop_during_look_honoured :
    (∀ e ∈ (stoppedRun 50).2.trace.take 29, ¬e.presses) ∧
    (stoppedRun 50).1 = .error (.exited 1) ∧
    (∃ detail, .signal .error detail ∈ (stoppedRun 50).2.trace.take 29) ∧
    ∀ detail, .signal .ok detail ∉ (stoppedRun 50).2.trace.take 29 := by
  have ht : (stoppedRun 50).2.trace =
      (stoppedRun 50).2.trace.take 29 ++
        .stopped [.beginScreenRead, .step .center] ⟨64, 35, 0, 0, 0⟩ ::
          (stoppedRun 50).2.trace.drop 30 := by
    decide +kernel
  have hopen : (stoppedRun 50).1 ≠ .error .closed := by decide +kernel
  exact ((stop_honoured_iff _ _ _ _ _ _ _ _ _ ht).2 hopen).2 (by decide +kernel)

/-- A stop during the last walk is not: no check follows, and the flow returns true. -/
theorem stop_during_last_walk_reported_ok :
    (stoppedRun 169).2.trace = (stoppedRun 169).2.trace.take 29 ++
      .stopped [.specialHoldKey, .step .lastWalk] ⟨172, 79, 0, 0, 0⟩ ::
        (stoppedRun 169).2.trace.drop 30 ∧
    (stoppedRun 169).1 = .error (.exited 0) ∧
    .signal .ok "movement_complete" ∈ (stoppedRun 169).2.trace.take 29 := by
  decide +kernel

end WagonMove
