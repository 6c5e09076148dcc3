import WagonMove.HeldKeys

/-!
# Key discipline of whole runs

A search that succeeds arms W, the centring keeps it armed, and the two flows press W only then.
Every run therefore obeys the key discipline and, unless it is closed from outside, ends with no
key held; a run that is closed ends so exactly if the exit request missed the key helpers.
-/

namespace WagonMove

open Prog

theorem arms_find (f : ScriptFile) (node : Node) :
    Leads (fun _ => True) (Steady false) (fun hit => Steady hit.isSome) KeysAtEnd
      (findTargetColor f node) := by
  obtain ⟨find, hlooked, he⟩ := findTargetColor_eq f node
  rw [he]
  have hread {b : Bool} (s s' : St) (hq : Quiet Event.isRead s s') (hs : Steady b s) :
      Steady b s' := Holding.look s s' (hq.mono Event.isRead.isLook) hs
  refine Leads.bind (leads_screenRead node hlooked hread hread (steady_sleep 20 rfl)) fun hit => ?_
  intro r _ s hs
  rw [wp_bind, wp_log, wp_pure]
  have hrec : Steady false (s.record (.searched hit)) := hs.record rfl
  refine ⟨hrec.disciplined, hrec.held, fun hsome _ => ?_⟩
  obtain ⟨p, rfl⟩ := Option.isSome_iff_exists.1 hsome
  exact .inl ⟨p, rfl⟩

theorem arms_search (f : ScriptFile) (passes : ℕ) (node : Node) :
    Leads (fun _ => True) (Steady false) (fun hit => Steady hit.isSome) KeysAtEnd
      (search f passes node) := by
  have hk := steady_kept f node false
  refine (hk.leads_search (arms_find f node) (fun _ => Holding.calm) hk (fun _ hs => hs) passes
    fun start => hk.leads_searchLast (fun _ hs => hs.ended nofun) start).mono (fun _ hs => hs) ?_
  intro hit s hs
  cases hit <;> exact hs

/-- W may be pressed after a hit; it stays so between the jumps, which are made with Space. -/
def KeysIn : Phase → St → Prop
  | .found | .jumping => Steady true
  | .idle | .closing => Steady false

theorem keysIn_ofHit (hit : Option (ℤ × ℤ)) : KeysIn (.ofHit hit) = Steady hit.isSome := by
  cases hit <;> rfl

theorem keysIn_steady (ph : Phase) : ∃ b, KeysIn ph = Steady b := by
  cases ph <;> exact ⟨_, rfl⟩

theorem keys_flowRules (f : ScriptFile) (passes : ℕ) (node : Node) :
    FlowRules f passes node (fun _ _ => True) KeysIn KeysAtEnd := by
  have hfound := steady_kept f node true
  have hpause {b : Bool} {P : St → Prop} {x : Ahk Unit} (step : FlowStep) {ms : ℕ}
      (hx : Leads (fun _ => True) P (fun _ => Steady b) KeysAtEnd x) :
      Leads (fun _ => True) P (fun _ => Steady b) KeysAtEnd
        (within (.step step) do x; sleep .flowPause ms) :=
    .under (fun _ h => h) (hx.bind fun _ => steady_sleep ms rfl)
  have hspace : Keeps (fun _ => True) (Steady true) KeysAtEnd (specialTapKey .space 60) :=
    steady_press rfl 60 (by decide)
  have hzoom : Leads (fun _ => True) (fun s => Steady false s ∧ s.running = true)
      (fun _ => Steady false) KeysAtEnd (specialFullZoomOut 30 15) :=
    ((steady_kept f node false).fullZoomOut 30 15).leads.mono (fun _ hs => hs.1) fun _ _ hs => hs
  exact
    { calm := fun ph => by obtain ⟨b, hb⟩ := keysIn_steady ph; rw [hb]; exact Holding.calm
      enter := fun _ _ h => h
      activate := (steady_kept f node false).activateRoblox
      check := fun ph _ => by
        obtain ⟨b, hb⟩ := keysIn_steady ph
        rw [hb]
        exact (steady_check true).mono (fun _ hs => hs) fun _ _ hs => ⟨hs.1, hs.2 (.inl rfl)⟩
      pause := fun _ ph ms _ _ => by
        obtain ⟨b, hb⟩ := keysIn_steady ph
        rw [hb]
        exact steady_sleep ms rfl
      zoomOut := fun _ _ => (steady_kept f node false).fullZoomOut 30 15
      search := fun _ _ => (arms_search f passes node).mono (fun _ hs => hs) fun hit _ hs => by
        rwa [keysIn_ofHit]
      center := fun _ _ => hfound.centerColor (hfound.search (fun _ hs => hs.ended nofun) passes)
      tap := fun _ key ms _ hkey => (steady_press rfl ms hkey).leads.mono (fun _ hs => hs.1)
        fun _ _ hs => hs
      hold := fun _ key ms _ hkey => (steady_press rfl ms hkey).leads.mono (fun _ hs => hs.1)
        fun _ _ hs => hs
      walk := fun _ ms _ => steady_hold_w ms
      walkJumping := fun _ ms _ => steady_hold_w_space ms
      firstJump := (hpause _ hspace).mono (fun _ hs => hs.1) fun _ _ hs => hs
      secondJump := hpause _ hspace
      lastWalk := hpause _ (steady_hold_w 350)
      lastZoomOut := .under (fun _ h => h) (hzoom.bind fun _ => steady_sleep 100 rfl)
      releaseIdle := steady_release
      releaseClosing := steady_release }

/-! ## Whole runs -/

theorem steady_keptScript (f : ScriptFile) (passes : ℕ) (node : Node) :
    KeptScript f passes node (fun _ => True) (Steady false) (fun _ => Steady false) KeysAtEnd
      KeysAtEnd where
  calm := Holding.calm
  calmEnd _ := Holding.calm
  entered _ _ hs := hs.record rfl
  setSignalFile _ _ hs := ⟨hs.disciplined, hs.held, nofun⟩
  start _ hs := ⟨hs.disciplined, hs.held, nofun⟩
  runFlow := by
    refine leads_runFlow ?_ fun _ _ hs => hs.record rfl
    refine (keys_flowRules f passes node).flow.mono (fun _ hs => hs) fun ok s hs => ?_
    cases ok <;> exact hs
  caught _ _ he := ⟨he.disciplined, he.released nofun, nofun⟩
  passed _ _ _ he := he
  missing _ hs := hs
  stop _ _ hs := ⟨hs.disciplined, hs.held, nofun⟩
  release _ := steady_release
  ending _ ms := (steady_sleep ms rfl).leads.mono (fun _ hs => hs.1) fun _ _ hs => hs
  signal ok := steady_signal f (if ok then .ok else .error)

theorem keys_at_end (f : ScriptFile) (cfg : Config) (passes : ℕ) (env : Env)
    (files : String → Option String) : ∃ e s,
      execute f cfg passes env files = (.error e, s) ∧ KeysAtEnd e s :=
  KeptScript.execute (steady_keptScript f passes) cfg env files trivial ⟨.nil, rfl, nofun⟩
    fun _ _ => ⟨.nil, fun _ => rfl, nofun⟩

/-- At every moment of every run the held keys are none, one, or W with Space; a key that goes
down was up, and W goes down only after a successful search. A run that is not closed from outside
ends with no key held. -/
theorem run_is_disciplined (f : ScriptFile) (cfg : Config) (passes : ℕ) (env : Env)
    (files : String → Option String) :
    Disciplined (execute f cfg passes env files).2.trace ∧
    ((execute f cfg passes env files).1 ≠ .error .closed →
      heldKeys (execute f cfg passes env files).2.trace = ∅) := by
  obtain ⟨e, s, he, hkeys⟩ := keys_at_end f cfg passes env files
  rw [he]
  exact ⟨hkeys.disciplined, fun hne => hkeys.released fun hc => hne (congrArg Except.error hc)⟩

theorem stroke_eq_some_iff {e : Event} {k : Stroke Key} : e.stroke = some k ↔ e = .key k := by
  cases e <;> simp [Event.stroke]

theorem answered_iff_heldKeys_eq_empty (t : List Event) :
    (∀ k, Trace.Answered (fun e => e = .key (.down k)) (fun e => e = .key (.up k)) t) ↔
      heldKeys t = ∅ := by
  simp only [heldKeys, Trace.held_eq_empty_iff, stroke_eq_some_iff]

/-- When a run is closed from outside, every key that went down has come up again exactly if the
exit request did not arrive during a `Sleep` that holds a key. -/
theorem closed_run_releases_keys_iff (f : ScriptFile) (cfg : Config) (passes : ℕ) (env : Env)
    (files : String → Option String) (h : (execute f cfg passes env files).1 = .error .closed) :
    (∀ k, Trace.Answered (fun e => e = .key (.down k)) (fun e => e = .key (.up k))
      (execute f cfg passes env files).2.trace) ↔
    ∃ site, lastSleep (execute f cfg passes env files).2.trace = some site ∧
      site.holdsKey = false := by
  obtain ⟨e, s, he, hkeys⟩ := keys_at_end f cfg passes env files
  rw [he] at h ⊢
  exact (answered_iff_heldKeys_eq_empty s.trace).trans (hkeys.closed (Except.error.inj h))

/-- The exit request arrives in the nap that takes answer `k` or a later one. -/
def exitFrom (k : ℕ) : Env := { Env.idle with sleep := fun n => { elapsed := 1, close := k ≤ n } }

abbrev exitRun (k : ℕ) : Except (Abort Err) Unit × St :=
  execute .alienWagonMove ⟨none, none, none⟩ 1 (exitFrom k) fun _ => none

/-- In the pause after Space has been held, F and Space have gone down and come up. -/
theorem exit_after_hold_releases_keys :
    (exitRun 16).1 = .error .closed ∧
    .key (.down .f) ∈ (exitRun 16).2.trace ∧ .key (.down .space) ∈ (exitRun 16).2.trace ∧
    ∀ k, Trace.Answered (fun e => e = .key (.down k)) (fun e => e = .key (.up k))
      (exitRun 16).2.trace := by
  have hclosed : (exitRun 16).1 = .error .closed := by decide +kernel
  have hsleep : lastSleep (exitRun 16).2.trace = some .flowPause := by decide +kernel
  exact ⟨hclosed, by decide +kernel, by decide +kernel,
    (closed_run_releases_keys_iff _ _ _ _ _ hclosed).2 ⟨_, hsleep, rfl⟩⟩

/-- During the three seconds for which Space is held, it has gone down and does not come up. -/
theorem exit_during_hold_leaves_space_down :
    (exitRun 14).1 = .error .closed ∧
    ¬∀ k, Trace.Answered (fun e => e = .key (.down k)) (fun e => e = .key (.up k))
      (exitRun 14).2.trace := by
  refine ⟨rfl, fun h => ?_⟩
  have hheld := (answered_iff_heldKeys_eq_empty _).1 h
  have hspace : heldKeys (exitRun 14).2.trace = {.space} := by decide +kernel
  exact Finset.singleton_ne_empty _ (hspace.symm.trans hheld)

end WagonMove
