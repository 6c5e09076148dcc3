import WagonMove.Endings

/-!
# Bad configurations

What becomes of a run whose configuration is of no use. A colour or a tolerance with which no
search can hit lets the flow fail in the ordinary way. A tolerance that is not a number ends the
auto-execute thread before the entry point, where nothing catches the error.
-/

namespace WagonMove

open Prog

/-- With this node no colour search can hit: the colour is not one, or every `PixelSearch` with the
tolerance misses or fails. -/
def Blind (env : Env) (node : Node) : Prop :=
  normalizeHex node.colorHex false = "" ∨
    ∀ n q x y, q.variation = node.tolerance → env.pixelSearch n q ≠ .hit x y

/-! ## Searches that cannot hit -/

section Blind

variable {env : Env} {node : Node} {E : Abort Err → St → Prop}

/-- In the environment `env` the program returns `none`. -/
abbrev Misses (env : Env) (E : Abort Err → St → Prop) (x : Ahk (Option (ℤ × ℤ))) : Prop :=
  Leads (fun r => r.env = env) (fun _ => True) (fun hit _ => hit = none) E x

theorem misses_trySearch {q : Search} (hq : ∀ n x y, env.pixelSearch n q ≠ .hit x y) :
    Misses env E (trySearch q) := by
  intro r hr s _
  rw [trySearch, wp_bind, pixelSearch, wp_bind, wp_gets, wp_bind, wp_log, wp_ask, hr]
  cases hres : env.pixelSearch (s.record (.pixelSearch q s.view)).asked q with
  | hit x y => exact absurd hres (hq _ x y)
  | miss | threw => exact (wp_pure _).2 rfl

theorem Misses.orElse {x y : Ahk (Option (ℤ × ℤ))} {f : ℤ × ℤ → Ahk (Option (ℤ × ℤ))}
    (hx : Misses env E x) (hy : Misses env E y) : Misses env E (do
      match ← x with
      | some p => f p
      | none => y) := by
  refine .bind hx fun hit => ?_
  cases hit with
  | none => exact fun r hr s _ => hy r hr s trivial
  | some p => exact fun _ _ _ h => nomatch h

theorem misses_searchBoth {t : Target} (x1 y1 x2 y2 : ℤ)
    (ht : ∀ n q x y, q.variation = t.tol → env.pixelSearch n q ≠ .hit x y) :
    Misses env E (searchBoth x1 y1 x2 y2 t) := by
  have hcolor (color : ℕ) : Misses env E (trySearch ⟨x1, y1, x2, y2, color, t.tol⟩) :=
    misses_trySearch fun n x y => ht n _ x y rfl
  exact .orElse (hcolor t.colorRGB) (hcolor t.colorBGR)

theorem misses_searchRoi {t : Target}
    (ht : ∀ n q x y, q.variation = t.tol → env.pixelSearch n q ≠ .hit x y) :
    Misses env E (Alien.searchRoi t) := by
  have hclock : Keeps (fun r : Ctx => r.env = env) (fun _ => True) E tickCount :=
    looked_tickCount.keeps fun _ _ _ _ => trivial
  have hvalid : Keeps (fun r : Ctx => r.env = env) (fun _ => True) E Alien.roiValid :=
    .bind (.gets _) fun _ => .ite (.pure _) <|
      .bind hclock fun _ => .bind (.gets _) fun _ => .pure _
  exact .bind hvalid fun valid => .ite
    (fun _ => .bind (Keeps.gets _) fun s => misses_searchBoth _ _ _ _ ht)
    fun _ => .pure fun _ _ => rfl

theorem misses_screenRead {search : Target → Ahk (Option (ℤ × ℤ))} (hclosed : ∀ s, E .closed s)
    (hsearch : normalizeHex node.colorHex false ≠ "" → ∀ r : Rect,
      Misses env (fun _ _ => False) (search (r.target (normalizeHex node.colorHex false) node))) :
    Misses env E (screenRead node search) := by
  let D (r : Ctx) : Prop := r.env = env
  have hquiet {α : Type} {x : Ahk α} {E : Abort Err → St → Prop} {Q : Prop} (hx : IsCalm x) :
      Keeps D (fun _ => Q) E x := hx.keeps fun _ _ _ h => h
  have hbegin : Keeps D (fun _ => True) E beginScreenRead :=
    .bind (.update fun _ _ => trivial) fun _ => .bind (hquiet quiet_hideStatusOverlay) fun _ =>
      fun _ _ _ _ => wp_sleep _ _ (fun _ => trivial) fun _ => hclosed _
  refine .bind (hquiet quiet_hideSpecialMarker) fun _ => .bind hbegin fun _ =>
    .ensure (Q := fun hit _ => hit = none) ?_ fun hit => hquiet calm_endScreenRead
  refine .bind (hquiet (asked_clientRectOrScreen.mono fun _ _ => Asked.quiet)) fun r =>
    .ite (fun _ => .pure fun _ _ => rfl) fun hhex => hsearch hhex r

theorem misses_findTargetColor (f : ScriptFile) (h : Blind env node) (hclosed : ∀ s, E .closed s) :
    Misses env E (findTargetColor f node) := by
  have hlog {x : Ahk (Option (ℤ × ℤ))} (hx : Misses env E x) :
      Misses env E (do let hit ← x; log (.searched hit); pure hit) :=
    .bind hx fun hit => .bind (fun _ _ _ h => (wp_log _).2 h) fun _ => .pure fun _ h => h
  cases f with
  | wagonMove =>
      refine hlog (misses_screenRead hclosed fun hhex r => ?_)
      have ht := h.resolve_left hhex
      exact .orElse (misses_searchBoth _ _ _ _ ht) (.pure fun _ _ => rfl)
  | alienWagonMove =>
      refine hlog (misses_screenRead hclosed fun hhex r => ?_)
      have ht := h.resolve_left hhex
      exact .orElse (misses_searchRoi ht)
        (.orElse (misses_searchBoth _ _ _ _ ht) (.pure fun _ _ => rfl))

end Blind

/-! ## Runs that cannot hit -/

/-- An exit is that of an error. -/
def Fails : Abort Err → St → Prop
  | .exited code, s => code = 1 ∧ ∃ detail, .signal .error detail ∈ s.trace
  | .thrown _, _ | .closed, _ | .starved, _ => True

theorem fails_signalError {D : Ctx → Prop} {α : Type} (f : ScriptFile) (detail : String) :
    Leads D (fun _ => True) (fun _ _ => False) Fails
      (writeSignalAndExit f .error detail : Ahk α) := by
  intro r _ s _
  refine wp_mono (signalled_writeSignalAndExit f .error detail r s) (fun _ _ hf => hf) ?_
  rintro _ s' ⟨rfl, ops, ht, -⟩
  exact ⟨rfl, detail, by simp [ht]⟩

theorem fails_loose (f : ScriptFile) (env : Env) :
    Loose f (fun r => r.env = env) (fun _ => True) Fails where
  enter _ _ h := h
  thrown _ _ _ := trivial
  plain _ _ _ _ := trivial
  sleep _ _ _ _ _ _ := wp_sleep _ _ (fun _ => trivial) fun _ => trivial
  find node := keeps_findTargetColor f node (fun _ _ _ _ => trivial) fun _ _ _ _ =>
    wp_sleep _ _ (fun _ => trivial) fun _ => trivial
  signalError := fails_signalError f

theorem misses_search {env : Env} {node : Node} (f : ScriptFile) (passes : ℕ) (h : Blind env node) :
    Misses env Fails (search f passes node) := by
  let Unseen (hit : Option (ℤ × ℤ)) (_ : St) : Prop := hit.elim True fun _ => False
  have hk := (fails_loose f env).kept node
  have hfind : Leads (fun r => r.env = env) (fun _ => True) Unseen Fails (findTargetColor f node) :=
    (misses_findTargetColor f h fun _ => trivial).mono (fun _ h => h) fun _ _ hnone =>
      hnone ▸ trivial
  refine (hk.leads_search hfind (fun _ _ _ _ hno => hno) hk (fun _ hs => hs) passes fun start =>
    hk.leads_searchLast (fun _ _ => trivial) start).mono (fun _ hs => hs) ?_
  intro hit s hs
  cases hit with
  | none => rfl
  | some p => exact hs.elim

section Flow

variable {f : ScriptFile} {passes : ℕ} {env : Env} {node : Node}

theorem fails_flowRules (h : Blind env node) :
    FlowRules f passes node (fun _ r => r.env = env) (fun _ _ => True) Fails := by
  have hsearch : Keeps (fun r => r.env = env) (fun _ => True) Fails (search f passes node) :=
    (misses_search f passes h).mono (fun _ h => h) fun _ _ _ => trivial
  exact (fails_loose f env).flowRules hsearch

theorem fails_afterSearch {step : FlowStep} (h : Blind env node) {rest : ℤ × ℤ → Ahk Bool} :
    Leads (fun r => r.env = env) (fun _ => True) (fun ok _ => ok = false) Fails (do
        match ← within (.step step) (search f passes node) with
        | none => pure false
        | some p => rest p) := by
  refine .bind (.under (fun _ hr => hr) (misses_search f passes h)) fun hit => ?_
  cases hit with
  | none => exact .pure fun _ _ => rfl
  | some p => exact fun _ _ _ hs => nomatch hs

theorem fails_flow (h : Blind env node) : Leads (fun r => r.env = env) (fun _ => True)
    (fun ok _ => ok = false) Fails (specialMovementFlow f passes node) := by
  have hrest {x y : Ahk Bool} (hx : Leads (fun r => r.env = env) (fun s => True ∧ s.running = true)
      (fun ok _ => ok = false) Fails x) : Leads (fun r => r.env = env)
        (fun s => True ∧ s.running = true) (fun ok _ => ok = false) Fails (do
          if ← x then y else pure false) := by
    refine .bind hx fun ok => .ite (fun hok => ?_) fun _ => .pure fun _ _ => rfl
    exact fun _ _ _ hfalse => nomatch hok.symm.trans hfalse
  cases f with
  | wagonMove =>
      have hr : FlowRules .wagonMove passes node _ _ _ := fails_flowRules h
      have happroach : Leads (fun r => r.env = env) (FlowRules.Going (fun _ _ => True) .idle)
          (fun ok _ => ok = false) Fails (Wagon.approach passes node) := by
        refine hr.part .idle trivial _ (hr.zoomedOut rfl) ?_
        exact hr.announced _ (FlowRules.going (fails_afterSearch h))
      refine .bind (Keeps.gets _) fun _ => .ite (fun _ => .pure fun _ _ => rfl) fun _ => ?_
      exact .bind hr.activate fun _ => hr.checked .idle trivial (hrest happroach)
  | alienWagonMove =>
      have hr : FlowRules .alienWagonMove passes node _ _ _ := fails_flowRules h
      have happroach : Leads (fun r => r.env = env) (FlowRules.Going (fun _ _ => True) .idle)
          (fun ok _ => ok = false) Fails (Alien.approach passes node) :=
        hr.announced _ (FlowRules.going (fails_afterSearch h))
      refine .bind (Keeps.gets _) fun _ => .ite (fun _ => .pure fun _ _ => rfl) fun _ => ?_
      refine .bind hr.activate fun _ => hr.checked .idle trivial ?_
      exact .bind hr.alienPrepare fun _ => hrest happroach

theorem fails_keptScript (h : Blind env node) :
    KeptScript f passes node (fun r => r.env = env) (fun _ => True) (fun ok _ => ok = false) Fails
      Fails where
  calm _ _ _ _ := trivial
  calmEnd _ _ _ _ h := h
  entered _ _ _ := trivial
  setSignalFile _ _ _ := trivial
  start _ _ := trivial
  runFlow := (fails_flow h).bind fun _ => .bind (fun _ _ _ hs => (wp_log _).2 hs) fun _ =>
    .pure fun _ hs => hs
  caught _ _ _ := rfl
  passed _ _ _ he := he
  missing _ _ := rfl
  stop _ _ hs := hs
  release _ := (quiet_sendUp specialKeys).keeps fun _ _ _ h => h
  ending _ _ _ _ _ hs := wp_sleep _ _ (fun _ => hs.1) fun _ => trivial
  signal ok detail := by
    cases ok with
    | true => exact fun _ _ _ hs => nomatch hs
    | false => exact (fails_signalError f detail).mono (fun _ _ => trivial) fun _ _ hf => hf

end Flow

/-! ## The entry point -/

theorem happened_keptScript (f : ScriptFile) (passes : ℕ) (node : Node) (e : Event) :
    KeptScript f passes node (fun _ => True) (fun s => e ∈ s.trace) (fun _ s => e ∈ s.trace)
      (fun _ s => e ∈ s.trace) (fun _ s => e ∈ s.trace) := by
  have hsignal {α : Type} (status : Status) (detail : String) : Leads (fun _ => True)
      (fun s => e ∈ s.trace) (fun _ _ => False) (fun _ s => e ∈ s.trace)
      (writeSignalAndExit f status detail : Ahk α) := by
    intro r _ s hs
    refine wp_mono (signalled_writeSignalAndExit f status detail r s) (fun _ _ hf => hf) ?_
    rintro _ s' ⟨-, ops, ht, -⟩
    simp [ht, hs]
  have hquiet {p : Event → Prop} (s s' : St) (hq : Quiet p s s') (hs : e ∈ s.trace) :
      e ∈ s'.trace := by
    obtain ⟨l, hl, -⟩ := hq.trace
    exact hl ▸ List.mem_append_right l hs
  have hsleep (site : Site) (ms : ℕ) : Keeps (fun _ => True) (fun s => e ∈ s.trace)
      (fun _ s => e ∈ s.trace) (sleep site ms) := by
    intro r _ s hs
    obtain ⟨l, hl, -⟩ := s.nap_trace_append (r.env.sleep s.asked) (site :: r.scope) ms
    have hnap : e ∈ (s.nap (r.env.sleep s.asked) (site :: r.scope) ms).trace :=
      hl ▸ List.mem_append_right l hs
    exact wp_sleep site ms (fun _ => hnap) fun _ => List.mem_cons_of_mem _ hnap
  have hloose : Loose f (fun _ => True) (fun s => e ∈ s.trace) (fun _ s => e ∈ s.trace) :=
    { enter := fun _ _ h => h
      thrown := fun _ _ hs => hs
      plain := hquiet
      sleep := hsleep
      find := fun node => keeps_findTargetColor f node hquiet (hsleep _ _)
      signalError := hsignal .error }
  exact hloose.keptScript ((hloose.kept node).search (fun _ hs => hs) passes) (fun _ _ hs => hs)
    (fun _ _ hs => List.mem_cons_of_mem _ hs) (fun _ _ hs => List.mem_cons_of_mem _ hs)
    (fun _ _ hs => hs) (fun _ _ hs => hs) hsignal

theorem signalPath_ne_empty (cfg : Config) (f : ScriptFile) (scriptDir : String) :
    cfg.signalPath f scriptDir ≠ "" := by
  rw [Config.signalPath]
  split
  · intro h
    have hfile := (String.append_eq_empty_iff.1 h).2
    cases f <;> exact absurd hfile (by decide)
  · assumption

/-- With a readable tolerance the entry point is reached, and a run that is blind by its
configuration fails. -/
theorem readable_run_starts {f : ScriptFile} {cfg : Config} {tolerance : ℤ} (passes : ℕ) (env : Env)
    (files : String → Option String)
    (ht : integer (trim (cfg.tolerance.getD "0")) = some tolerance) :
    .entered (cfg.node tolerance) (cfg.signalPath f env.scriptDir) ∈
        (execute f cfg passes env files).2.trace ∧
      (Blind env (cfg.node tolerance) →
        ∃ e s, execute f cfg passes env files = (.error e, s) ∧ Fails e s) := by
  refine ⟨?_, fun hblind => (fails_keptScript hblind).executed ht rfl trivial⟩
  have hstart : Event.entered (cfg.node tolerance) (cfg.signalPath f env.scriptDir) ∈
      (St.atEntry (cfg.signalPath f env.scriptDir) (cfg.node tolerance) files).trace :=
    List.mem_singleton_self _
  obtain ⟨e, s, he, hmem⟩ := (happened_keptScript f passes _ _).executed ht trivial hstart
  rw [he]
  exact hmem

/-- Start-up reaches the entry point with a node and a signal path and raises no error that nothing
catches, and the run goes on to a signal, that of an error if no search can hit, exactly if the
tolerance is absent or a number. -/
theorem bad_configuration_reported_iff (f : ScriptFile) (cfg : Config) (passes : ℕ) (env : Env)
    (files : String → Option String) :
    ((∃ tolerance path, path ≠ "" ∧
        .entered (cfg.node tolerance) path ∈ (execute f cfg passes env files).2.trace ∧
        (120000 ≤ passes → (∀ n, 0 < (env.sleep n).elapsed) →
          (execute f cfg passes env files).1 ≠ .error .closed → ∃ status detail,
            (execute f cfg passes env files).1 = .error (.exited (if status = .ok then 0 else 1)) ∧
            .signal status detail ∈ (execute f cfg passes env files).2.trace ∧
            (Blind env (cfg.node tolerance) → status = .error))) ∧
      ∀ e, (execute f cfg passes env files).1 ≠ .error (.thrown e)) ↔
    ∀ text, cfg.tolerance = some text → (integer (trim text)).isSome = true := by
  constructor
  · rintro ⟨-, hcaught⟩ text htext
    by_contra hnone
    have ht : integer (trim (cfg.tolerance.getD "0")) = none := by
      simpa [htext] using hnone
    exact hcaught _ (by rw [execute_of_none passes ht])
  · intro hread
    have hsome : (integer (trim (cfg.tolerance.getD "0"))).isSome = true := by
      cases htext : cfg.tolerance with
      | none => decide +kernel
      | some text => exact hread text htext
    obtain ⟨tolerance, ht⟩ := Option.isSome_iff_exists.1 hsome
    obtain ⟨hentered, hblind⟩ := readable_run_starts passes env files ht
    obtain ⟨e, s, he, hend⟩ := readable_run_ends passes env files ht
    have hpath := signalPath_ne_empty cfg f env.scriptDir
    refine ⟨⟨tolerance, _, hpath, hentered, fun hp hclock hopen => ?_⟩, fun err herr => ?_⟩
    · have hstarved := run_never_starves f cfg files hclock hp
      rw [he] at hopen hstarved hblind ⊢
      cases e with
      | thrown err => exact hend.elim
      | closed => exact absurd rfl hopen
      | starved => exact absurd rfl hstarved
      | exited code =>
          obtain ⟨status, detail, t, rfl, -, -, ops, htrace, -⟩ := hend
          refine ⟨status, detail, rfl, by simp [htrace], fun hb => ?_⟩
          obtain ⟨e', s', he', hfail⟩ := hblind hb
          cases he'
          cases status with
          | ok => exact nomatch hfail.1
          | error => rfl
    · rw [he] at herr
      cases Except.error.inj herr
      exact hend

/-- The comment that the header of the script shows behind the value, as `IniRead` returns it. -/
theorem commented_tolerance_goes_uncaught :
    (execute .wagonMove ⟨none, some "0         ; tolerância da cor", none⟩ 120000 Env.idle
      fun _ => none).1 = .error (.thrown ⟨"Expected a Number but got a String."⟩) ∧
    (execute .wagonMove ⟨none, some "0         ; tolerância da cor", none⟩ 120000 Env.idle
      fun _ => none).2.trace = [] := by
  rw [execute_of_none 120000 (by decide +kernel)]
  exact ⟨rfl, rfl⟩

end WagonMove
