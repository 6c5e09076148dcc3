import WagonMove.Phases

/-!
# Whole scripts

`KeptScript` lists what a script does around its flow: the entry point and the three ways to the
one call of `WriteSignalAndExit` that ends it. `I` holds until the flow returns and `J` afterwards,
with what it has returned; a run ends by `E` inside the flow and by `F` outside of it.
-/

namespace WagonMove

open Prog

structure KeptScript (f : ScriptFile) (passes : ℕ) (node : Node) (D : Ctx → Prop) (I : St → Prop)
    (J : Bool → St → Prop) (E F : Abort Err → St → Prop) : Prop where
  calm : ∀ s s', Calm s s' → I s → I s'
  calmEnd : ∀ ok s s', Calm s s' → J ok s → J ok s'
  entered : ∀ path s, I s → I (s.record (.entered node path))
  setSignalFile : ∀ path s, I s → I { s with signalFile := path }
  start : ∀ s, I s → I { s with running := true }
  runFlow : Leads D I J E (runFlow f passes node)
  caught : ∀ e s, E (.thrown e) s → J false s
  passed : ∀ e s, (∀ err, e ≠ .thrown err) → E e s → F e s
  missing : ∀ s, I s → J false s
  stop : ∀ ok s, J ok s → J ok { s with running := false }
  release : ∀ ok, Keeps D (J ok) F releaseSpecialKeys
  ending : ∀ ok ms, Leads D (fun s => J ok s ∧ s.running = false) (fun _ => J ok) F
    (sleep .ending ms)
  signal : ∀ {α : Type} (ok : Bool) detail, Leads D (J ok) (fun _ _ => False) F
    (writeSignalAndExit f (if ok then .ok else .error) detail : Ahk α)

namespace KeptScript

variable {f : ScriptFile} {passes : ℕ} {node : Node} {D : Ctx → Prop} {I : St → Prop}
  {J : Bool → St → Prop} {E F : Abort Err → St → Prop}

/-- What follows the flow: keys, marker and flag, a status text, a pause, the signal. -/
theorem wrapUp (h : KeptScript f passes node D I J E F) (ok : Bool) {α : Type} (text : String)
    (ms : ℕ) (detail : String) : Leads D (J ok) (fun _ _ => False) F (do
      releaseSpecialKeys
      hideSpecialMarker
      setRunning false
      setStatus text
      sleep .ending ms
      (writeSignalAndExit f (if ok then .ok else .error) detail : Ahk α)) := by
  let Stopped (s : St) : Prop := J ok s ∧ s.running = false
  have hhide : Leads D (J ok) (fun _ => J ok) F hideSpecialMarker :=
    quiet_hideSpecialMarker.keeps (h.calmEnd ok)
  have hstop : Leads D (J ok) (fun _ => Stopped) F (setRunning false) := fun _ _ s hs =>
    (wp_update _).2 ⟨h.stop ok s hs, rfl⟩
  have hstatus : Leads D Stopped (fun _ => Stopped) F (setStatus text) :=
    (calm_setStatus text).keeps fun s s' hq hs => ⟨h.calmEnd ok s s' hq hs.1, hq.running.trans hs.2⟩
  exact .bind (h.release ok) fun _ => .bind hhide fun _ => .bind hstop fun _ =>
    .bind hstatus fun _ => .bind (h.ending ok ms) fun _ => h.signal ok detail

theorem reportResult (h : KeptScript f passes node D I J E F) (ok : Bool) :
    Leads D (J ok) (fun _ _ => False) F (reportResult f ok) := by
  cases ok with
  | true => exact h.wrapUp true _ _ _
  | false => exact h.wrapUp false _ _ _

theorem reportError (h : KeptScript f passes node D I J E F) (e : Err) :
    Leads D (J false) (fun _ _ => False) F (reportError f e) := h.wrapUp false _ _ _

/-- The `try` around the flow: an error is reported inside it, a result goes on after it. -/
theorem tried (h : KeptScript f passes node D I J E F) :
    Leads D I J F (rescue (WagonMove.runFlow f passes node) (WagonMove.reportError f)) := by
  intro r hr s hs
  rw [wp_rescue]
  refine wp_mono (h.runFlow r hr s hs) (fun _ _ hJ => hJ) (fun e s' he => ?_)
  cases e with
  | thrown e =>
      exact wp_mono (h.reportError e r hr s' (h.caught e s' he)) (fun _ _ hf => hf.elim)
        (fun _ _ hF => hF)
  | exited code | closed | starved => exact h.passed _ s' nofun he

theorem entryPoint (h : KeptScript f passes node D I J E F) :
    Leads D I (fun _ _ => False) F (entryPoint f passes node) := by
  have hquiet {β : Type} {x : Ahk β} (hx : IsCalm x) : Leads D I (fun _ => I) F x :=
    hx.keeps h.calm
  have hstart : Leads D I (fun _ => I) F (setRunning true) := Keeps.update h.start
  refine .bind (hquiet calm_createStatusOverlayGui) fun _ =>
    .bind (hquiet (asked_getRobloxHwnd.mono fun _ _ => Asked.quiet)) fun _ =>
      .ite (fun _ => (h.signal false _).mono h.missing fun _ _ hf => hf) fun _ => ?_
  exact .bind hstart fun _ => .bind (hquiet (calm_setStatus _)) fun _ =>
    .bind h.tried h.reportResult

end KeptScript

/-! ## From the configuration to the end -/

/-- A tolerance that `Integer` does not take ends the auto-execute thread before anything else. -/
theorem execute_of_none {f : ScriptFile} {cfg : Config} {env : Env}
    {files : String → Option String} (passes : ℕ)
    (h : integer (trim (cfg.tolerance.getD "0")) = none) :
    execute f cfg passes env files =
      (.error (.thrown ⟨"Expected a Number but got a String."⟩), { files := files }) := by
  simp only [execute, script, loadConfig, h]
  rfl

def Config.node (cfg : Config) (tolerance : ℤ) : Node :=
  ⟨trim (cfg.colorHex.getD "0xCDE3FE"), tolerance⟩

def Config.signalPath (cfg : Config) (f : ScriptFile) (scriptDir : String) : String :=
  if trim (cfg.signalFile.getD "") = "" then scriptDir ++ doneFile f
  else trim (cfg.signalFile.getD "")

def St.atEntry (path : String) (node : Node) (files : String → Option String) : St :=
  { files := files, signalFile := path, trace := [.entered node path] }

theorem execute_of_some {f : ScriptFile} {cfg : Config} {env : Env}
    {files : String → Option String} {tolerance : ℤ} (passes : ℕ)
    (h : integer (trim (cfg.tolerance.getD "0")) = some tolerance) :
    execute f cfg passes env files =
      (entryPoint f passes (cfg.node tolerance)).run { env := env }
        (.atEntry (cfg.signalPath f env.scriptDir) (cfg.node tolerance) files) := by
  simp only [execute, script, loadConfig, h]
  rfl

/-- A run with a readable tolerance never returns, and it ends as the invariant says. -/
theorem KeptScript.executed {f : ScriptFile} {passes : ℕ} {cfg : Config} {env : Env}
    {files : String → Option String} {tolerance : ℤ} {D : Ctx → Prop} {I : St → Prop}
    {J : Bool → St → Prop} {E F : Abort Err → St → Prop}
    (h : KeptScript f passes (cfg.node tolerance) D I J E F)
    (ht : integer (trim (cfg.tolerance.getD "0")) = some tolerance) (hD : D { env := env })
    (hI : I (.atEntry (cfg.signalPath f env.scriptDir) (cfg.node tolerance) files)) :
    ∃ e s, execute f cfg passes env files = (.error e, s) ∧ F e s := by
  rw [execute_of_some passes ht]
  exact exists_end (h.entryPoint { env := env } hD _ hI)

theorem KeptScript.execute {f : ScriptFile} {passes : ℕ} {D : Ctx → Prop} {I : St → Prop}
    {J : Bool → St → Prop} {E F : Abort Err → St → Prop}
    (h : ∀ node, KeptScript f passes node D I J E F) (cfg : Config) (env : Env)
    (files : String → Option String) (hD : D { env := env }) (hI : I { files := files })
    (hthrown : integer (trim (cfg.tolerance.getD "0")) = none →
      ∀ e, F (.thrown e) { files := files }) :
    ∃ e s, execute f cfg passes env files = (.error e, s) ∧ F e s := by
  cases ht : integer (trim (cfg.tolerance.getD "0")) with
  | none => exact ⟨_, _, execute_of_none passes ht, hthrown ht _⟩
  | some tolerance =>
      have hnode := h (cfg.node tolerance)
      exact hnode.executed ht hD (hnode.entered _ _ (hnode.setSignalFile _ _ hI))

/-! ## Invariants that are the same throughout -/

theorem leads_runFlow {f : ScriptFile} {D : Ctx → Prop} {I : St → Prop} {E : Abort Err → St → Prop}
    {passes : ℕ} {node : Node} (hflow : Keeps D I E (specialMovementFlow f passes node))
    (returned : ∀ ok s, I s → I (s.record (.flowReturned ok))) :
    Leads D I (fun _ => I) E (runFlow f passes node) :=
  Keeps.bind hflow fun ok => .bind (.update (returned ok)) fun _ => .pure _

/-- A property that no file operation touches survives until the exit, which does not return. -/
theorem leads_writeSignalAndExit {D : Ctx → Prop} {P : St → Prop} (I : St → Prop)
    {E : Abort Err → St → Prop} {α : Type} (f : ScriptFile) (status : Status) (detail : String)
    (signal : ∀ s, P s → I (s.record (.signal status detail)))
    (silent : ∀ s s', Quiet (fun _ => False) s s' → I s → I s')
    (wrote : ∀ s s', Wrote s s' → I s → I s')
    (exited : ∀ s, I s → E (.exited (if status = .ok then 0 else 1))
      ((s.record (.exitApp (if status = .ok then 0 else 1))).record .gdipShutdown)) :
    Leads D P (fun _ _ => False) E (writeSignalAndExit f status detail : Ahk α) := by
  have hwrite (a : Attempt) (path content : String) : Keeps D I E (tryWrite a path content) :=
    (wrote_tryWrite a path content).keeps wrote
  have hsilent {β : Type} {x : Ahk β} (hx : Does (Quiet fun _ => False) x) :
      Leads D I (fun _ => I) E x := hx.keeps silent
  have hlog : Leads D P (fun _ => I) E (log (.signal status detail)) := fun _ _ s hs =>
    (wp_log _).2 (signal s hs)
  refine hlog.bind fun _ => (hsilent quiet_hideSpecialMarker).bind fun _ =>
    (hsilent quiet_hideStatusOverlay).bind fun _ => (hsilent quiet_tickCount).bind fun _ =>
      (Keeps.gets _).leads.bind fun _ => (hsilent (does_constant _)).bind fun _ =>
        (hwrite _ _ _).leads.bind fun _ => (Keeps.ite (.pure _) (hwrite _ _ _)).leads.bind
          fun _ => ?_
  exact fun r _ s hs => (wp_exitApp _).2 (exited s hs)

/-- What a call of `WriteSignalAndExit` does to the trace. -/
def Signalled (status : Status) (detail : String) (t t' : List Event) : Prop :=
  ∃ ops, t' = .gdipShutdown :: .exitApp (if status = .ok then 0 else 1) ::
    (ops ++ .signal status detail :: t) ∧ ∀ e ∈ ops, e.isFileOp

/-- `WriteSignalAndExit` works on files and then exits, in every environment. -/
theorem signalled_writeSignalAndExit {α : Type} (f : ScriptFile) (status : Status) (detail : String)
    (r : Ctx) (s : St) : wp (writeSignalAndExit f status detail : Ahk α) (fun _ _ => False)
      (fun e s' => e = .exited (if status = .ok then 0 else 1) ∧
        Signalled status detail s.trace s'.trace) r s := by
  let Writing (s' : St) : Prop :=
    ∃ ops, s'.trace = ops ++ .signal status detail :: s.trace ∧ ∀ e ∈ ops, e.isFileOp
  refine leads_writeSignalAndExit Writing f status detail (D := fun _ => True) (P := (· = s))
    ?_ ?_ ?_ ?_ r trivial s rfl
  · rintro _ rfl
    exact ⟨[], rfl, by simp⟩
  · rintro s₁ s₂ hq ⟨ops, ht, hops⟩
    obtain ⟨l, hl, hno⟩ := hq.trace
    obtain rfl : l = [] := List.eq_nil_iff_forall_not_mem.2 hno
    exact ⟨ops, hl.trans ht, hops⟩
  · rintro s₁ s₂ hw ⟨ops, ht, hops⟩
    obtain ⟨l, hl, hfile⟩ := hw.trace
    refine ⟨l ++ ops, by rw [hl, ht, List.append_assoc], fun e he => ?_⟩
    rcases List.mem_append.1 he with h | h
    · exact hfile e h
    · exact hops e h
  · rintro s₁ ⟨ops, ht, hops⟩
    exact ⟨rfl, ops, by simp [ht], hops⟩

/-! ## Invariants that do not look at keys -/

/-- The events between the start of a flow and its result, screen reads apart. -/
def Event.isPlain : Event → Prop
  | .key _ | .wheelDown | .turning | .aimed _ _ => True
  | e => e.isCalm

theorem Event.isCalm.isPlain (e : Event) (h : e.isCalm) : e.isPlain := by
  cases e <;> trivial

/-- Whatever keys are sent, `I` survives; what is left are naps, screen reads and the signal. -/
structure Loose (f : ScriptFile) (D : Ctx → Prop) (I : St → Prop) (E : Abort Err → St → Prop) :
    Prop where
  enter : ∀ site r, D r → D (r.enter site)
  thrown : ∀ e s, I s → E (.thrown e) s
  plain : ∀ s s', Quiet Event.isPlain s s' → I s → I s'
  sleep : ∀ site ms, Keeps D I E (sleep site ms)
  find : ∀ node, Keeps D I E (findTargetColor f node)
  signalError : ∀ {α : Type} detail,
    Leads D I (fun _ _ => False) E (writeSignalAndExit f .error detail : Ahk α)

namespace Loose

variable {f : ScriptFile} {D : Ctx → Prop} {I : St → Prop} {E : Abort Err → St → Prop}

theorem calm (h : Loose f D I E) (s s' : St) (hs : Calm s s') (hi : I s) : I s' :=
  h.plain s s' (hs.mono Event.isCalm.isPlain) hi

theorem quiet (h : Loose f D I E) {α : Type} {x : Ahk α} (hx : IsCalm x) : Keeps D I E x :=
  hx.keeps h.calm

theorem log (h : Loose f D I E) {e : Event} (he : e.isPlain) : Keeps D I E (log e) :=
  .update fun s hs => h.plain s _ (.record he) hs

theorem sendDown (h : Loose f D I E) (ks : List Key) : Keeps D I E (sendDown ks) := by
  induction ks with
  | nil => exact .pure _
  | cons k ks ih => exact .bind (h.log trivial) fun _ => ih

theorem sendUp (h : Loose f D I E) (ks : List Key) : Keeps D I E (sendUp ks) := by
  induction ks with
  | nil => exact .pure _
  | cons k ks ih => exact .bind (h.log trivial) fun _ => ih

theorem check (h : Loose f D I E) (b : Bool) : Keeps D I E (specialCheckStop b) :=
  .bind (.gets _) fun _ => .ite (.pure _) <| .bind (h.sendUp _) fun _ =>
    .ite (.raise h.thrown _) (.pure _)

theorem press (h : Loose f D I E) (ks : List Key) (site : Site) (ms : ℕ) : Keeps D I E (do
    let _ ← specialCheckStop false
    WagonMove.sendDown ks
    WagonMove.sleep site ms
    WagonMove.sendUp ks) :=
  .bind (h.check false) fun _ => .bind (h.sendDown ks) fun _ => .bind (h.sleep site ms) fun _ =>
    h.sendUp ks

theorem timedOut (h : Loose f D I E) : Leads D I (fun _ _ => False) E (searchTimedOut f) :=
  (h.quiet (calm_setStatus _)).leads.bind fun _ => (h.sleep _ _).leads.bind fun _ =>
    (h.sendUp _).leads.bind fun _ => (h.quiet quiet_hideSpecialMarker).leads.bind fun _ =>
      h.signalError _

theorem kept (h : Loose f D I E) (node : Node) : Kept f node D I E where
  enter := h.enter
  thrown := h.thrown
  calm := h.calm
  sleep site ms _ := h.sleep site ms
  check := h.check
  find := h.find node
  zoomTick _ := .bind (h.check false) fun _ => .ite (.pure _) <|
    .bind (h.log trivial) fun _ => .bind (h.sleep _ _) fun _ => .pure _
  pulse := .bind (h.log trivial) fun _ => .bind (h.sleep _ _) fun _ =>
    .bind (h.sendDown _) fun _ => .bind (h.sleep _ _) fun _ => .bind (h.sendUp _) fun _ =>
      h.sleep _ _
  aim c totals fx r := keeps_aim c totals h.calm (h.log trivial)
    (h.press [centerKey (centerError fx r)] .specialTapKey centerPulseMs) (h.sleep _ _)
  timedOut := h.timedOut.mono (fun _ => id) (fun _ _ hf => hf.elim)

theorem flowRules (h : Loose f D I E) {passes : ℕ} {node : Node}
    (hsearch : Keeps D I E (search f passes node)) :
    FlowRules f passes node (fun _ => D) (fun _ => I) E := by
  have hkept := h.kept node
  have hrunning {α : Type} {x : Ahk α} (hx : Keeps D I E x) :
      Leads D (fun s => I s ∧ s.running = true) (fun _ => I) E x :=
    hx.leads.mono (fun _ hs => hs.1) fun _ _ h => h
  have hpart {α : Type} {x : Ahk α} (step : FlowStep) {ms : ℕ} (hx : Keeps D I E x) :
      Keeps D I E (within (.step step) do let _ ← x; WagonMove.sleep .flowPause ms) :=
    .under (h.enter _) (.bind hx fun _ => h.sleep _ _)
  exact
    { calm := fun _ => h.calm
      enter := fun step => h.enter (.step step)
      activate := hkept.activateRoblox
      check := fun _ _ r hr s hs => by
        rw [specialCheckStop, wp_bind, wp_gets]
        refine wp_ite (fun hrun => (wp_pure _).2 ⟨hs, hrun⟩) fun _ => ?_
        rw [wp_bind]
        exact wp_imp (h.sendUp _ r hr s hs) fun _ _ h' => (wp_throwErr _).2 (h.thrown _ _ h')
      pause := fun _ _ ms _ _ => h.sleep .flowPause ms
      zoomOut := fun _ _ => hkept.fullZoomOut 30 15
      search := fun _ _ => hsearch
      center := fun _ _ => hkept.centerColor hsearch
      tap := fun _ key ms _ _ => hrunning (h.press [key] _ ms)
      hold := fun _ key ms _ _ => hrunning (h.press [key] _ ms)
      walk := fun _ ms _ => hrunning (h.press [.w] _ ms)
      walkJumping := fun _ ms _ => hrunning (h.press [.w, .space] _ ms)
      firstJump := hrunning (hpart _ (h.press [.space] _ 60))
      secondJump := hpart _ (h.press [.space] _ 60)
      lastWalk := hrunning (hpart _ (h.press [.w] _ 350))
      lastZoomOut := hrunning (hpart _ (hkept.fullZoomOut 30 15))
      releaseIdle := h.sendUp _
      releaseClosing := h.sendUp _ }

theorem keptScript (h : Loose f D I E) {passes : ℕ} {node : Node}
    (hsearch : Keeps D I E (search f passes node)) (caught : ∀ e s, E (.thrown e) s → I s)
    (returned : ∀ ok s, I s → I (s.record (.flowReturned ok)))
    (entered : ∀ path s, I s → I (s.record (.entered node path)))
    (setRunning : ∀ b s, I s → I { s with running := b })
    (setSignalFile : ∀ path s, I s → I { s with signalFile := path })
    (signal : ∀ {α : Type} status detail,
      Leads D I (fun _ _ => False) E (writeSignalAndExit f status detail : Ahk α)) :
    KeptScript f passes node D I (fun _ => I) E E where
  calm := h.calm
  calmEnd _ := h.calm
  entered := entered
  setSignalFile := setSignalFile
  start := setRunning true
  runFlow := leads_runFlow (h.flowRules hsearch).flow returned
  caught := caught
  passed _ _ _ he := he
  missing _ hs := hs
  stop _ := setRunning false
  release _ := h.sendUp _
  ending _ ms := (h.sleep .ending ms).leads.mono (fun _ hs => hs.1) fun _ _ hs => hs
  signal ok := signal (if ok then .ok else .error)

end Loose
end WagonMove
