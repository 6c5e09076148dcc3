import WagonMove.Script

/-!
# How runs end

Each pass of a search sleeps, so with a clock that moves during every `Sleep` a search meets its
deadline after at most 120000 passes. A run then ends by the only call of `WriteSignalAndExit`, and
that call says `ok` exactly if the flow has returned true.
-/

namespace WagonMove

open Prog

def Advancing (env : Env) : Prop := ∀ n, 0 < (env.sleep n).elapsed

/-! ## Searches meet their deadline -/

/-- The clock never runs back, and no part but a search can run out of passes. -/
theorem clock_loose (f : ScriptFile) (a : ℕ) :
    Loose f (fun r => Advancing r.env) (fun s => a ≤ s.now) (fun e _ => e ≠ .starved) where
  enter _ _ h := h
  thrown _ _ _ := nofun
  plain _ _ hq ha := ha.trans hq.now
  sleep _ ms _ _ _ ha := wp_sleep _ ms (fun _ => ha.trans (Nat.le_add_right _ _)) fun _ => nofun
  find node := keeps_findTargetColor f node (fun _ _ hq ha => ha.trans hq.now) fun _ _ _ ha =>
    wp_sleep _ _ (fun _ => ha.trans (Nat.le_add_right _ _)) fun _ => nofun
  signalError _ := by
    refine leads_writeSignalAndExit (fun s => a ≤ s.now) f .error _ (fun _ ha => ha)
      (fun _ _ hq ha => ha.trans hq.now) (fun _ _ hw ha => ?_) (fun _ _ => nofun)
    exact hw.now ▸ ha

theorem clock_find (f : ScriptFile) (node : Node) (a : ℕ) :
    Leads (fun r => Advancing r.env) (fun s => a ≤ s.now) (fun _ s => a + 1 ≤ s.now)
      (fun e _ => e ≠ .starved) (findTargetColor f node) := by
  refine leads_findTargetColor f node (fun _ _ hq ha => ha.trans hq.now)
    (fun _ _ hq ha => ha.trans hq.now) fun r hr s ha => wp_sleep _ _ (fun _ => ?_) fun _ => nofun
  have := hr s.asked
  rw [St.nap_now]
  omega

theorem clock_searchPass (f : ScriptFile) (node : Node) (start missCount a : ℕ) :
    Leads (fun r => Advancing r.env) (fun s => a ≤ s.now)
      (fun t s => match t with
        | .leave _ => True
        | .again _ => a + 1 ≤ s.now)
      (fun e _ => e ≠ .starved)
      (searchPass f (findTargetColor f node) (beforeTurn f) start missCount) := by
  have hpass := ((clock_loose f a).kept node).leads_searchPass (clock_find f node a)
    (fun _ _ _ hq ha => ha.trans hq.now) ((clock_loose f (a + 1)).kept node) start missCount
  refine hpass.mono (fun _ ha => ha) fun t s ht => ?_
  cases t with
  | leave hit => trivial
  | again missCount' => exact ht

theorem clock_searchLast (f : ScriptFile) (start : ℕ) :
    Leads (fun r => Advancing r.env) (fun s => start + 120000 ≤ s.now) (fun _ _ => True)
      (fun e _ => e ≠ .starved) (searchLast f start) := by
  have hl := clock_loose f (start + 120000)
  intro r hr s hs
  rw [searchLast, searchHead, wp_bind, wp_bind]
  refine wp_mono (hl.check false r hr s hs) (fun stop s' hs' => ?_) (fun _ _ h => h)
  apply wp_ite
  · intro _
    rw [wp_pure, if_pos rfl, wp_pure]
    trivial
  · intro _
    rw [wp_bind, wp_tickCount]
    refine wp_ite (fun _ => ?_) (fun hlate => absurd ?_ hlate)
    · exact wp_mono (hl.timedOut r hr _ (hs'.trans (Nat.le_add_right _ _))) (fun _ _ h => h.elim)
        (fun _ _ h => h)
    · rw [searchTimeoutMs]
      omega

/-- Each pass uses up some of the two minutes, so 120000 passes are enough for any search. -/
theorem search_never_starves (f : ScriptFile) {passes : ℕ} (hp : 120000 ≤ passes) (node : Node) :
    Leads (fun r => Advancing r.env) (fun _ => True) (fun _ _ => True) (fun e _ => e ≠ .starved)
      (search f passes node) := by
  intro r hr s _
  rw [search, searchUntilFound, wp_bind, wp_tickCount]
  generalize s.now + r.env.drift s.asked = start
  refine wp_loop (fun left _ s => start + 120000 ≤ s.now + left) ?_ ?_ _ _ _ ?_
  · intro left missCount s hs
    refine wp_mono (clock_searchPass f node start missCount s.now r hr s le_rfl)
      (fun t s' ht => ?_) (fun _ _ h => h)
    cases t with
    | leave hit => trivial
    | again missCount' =>
        have : s.now + 1 ≤ s'.now := ht
        omega
  · exact fun _ s hs => clock_searchLast f start r hr s hs
  · simp only
    omega

theorem clock_keptScript (f : ScriptFile) {passes : ℕ} (hp : 120000 ≤ passes) (node : Node) :
    KeptScript f passes node (fun r => Advancing r.env) (fun s => 0 ≤ s.now) (fun _ s => 0 ≤ s.now)
      (fun e _ => e ≠ .starved) (fun e _ => e ≠ .starved) := by
  have hloose := clock_loose f 0
  refine hloose.keptScript ?_ (fun _ _ _ => Nat.zero_le _) (fun _ _ hs => hs) (fun _ _ hs => hs)
    (fun _ _ hs => hs) (fun _ _ hs => hs) fun status detail => ?_
  · exact (search_never_starves f hp node).mono (fun _ _ => trivial) fun _ _ _ => Nat.zero_le _
  · exact leads_writeSignalAndExit (fun s => 0 ≤ s.now) f status detail (fun _ hs => hs)
      (fun _ _ _ _ => Nat.zero_le _) (fun _ _ _ _ => Nat.zero_le _) fun _ _ => nofun

/-! ## The result of a run -/

def Event.isFinal : Event → Prop
  | .signal _ _ | .exitApp _ | .gdipShutdown => True
  | e => e.isFileOp

/-- Nothing has been signalled; `ok` tells whether the flow has returned true. -/
structure Pending (ok : Bool) (s : St) : Prop where
  unsignalled : ∀ e ∈ s.trace, ¬e.isFinal
  returned : .flowReturned true ∈ s.trace ↔ ok = true

/-- The one signal of a run, with the status that tells whether the flow has returned true. -/
structure ReportedBy (status : Status) (detail : String) (t t' : List Event) : Prop where
  unsignalled : ∀ e ∈ t, ¬e.isFinal
  truthful : status = .ok ↔ .flowReturned true ∈ t
  signalled : Signalled status detail t t'

/-- How the rest of a run ends, given what an error on its way to a handler leaves behind. -/
def Ends (thrown : St → Prop) : Abort Err → St → Prop
  | .thrown _, s => thrown s
  | .exited code, s => ∃ status detail t, code = (if status = .ok then 0 else 1) ∧
      ReportedBy status detail t s.trace
  | .closed, _ | .starved, _ => True

namespace Pending

variable {ok : Bool} {s s' : St}

theorem of_append (h : Pending ok s) {l : List Event} (hl : s'.trace = l ++ s.trace)
    (hf : ∀ e ∈ l, ¬e.isFinal) (hr : ∀ b, .flowReturned b ∉ l) : Pending ok s' where
  unsignalled e he := by
    rw [hl] at he
    rcases List.mem_append.1 he with hm | hm
    · exact hf e hm
    · exact h.unsignalled e hm
  returned := by
    rw [hl, List.mem_append, h.returned]
    exact or_iff_right (hr true)

theorem quiet {p : Event → Prop} (hp : ∀ e, p e → ¬e.isFinal ∧ ∀ b, e ≠ .flowReturned b)
    (hq : Quiet p s s') (h : Pending ok s) : Pending ok s' := by
  obtain ⟨l, hl, hlp⟩ := hq.trace
  exact h.of_append hl (fun e he => (hp e (hlp e he)).1) fun b hb => (hp _ (hlp _ hb)).2 b rfl

theorem plain (s s' : St) (hq : Quiet Event.isPlain s s') (h : Pending ok s) : Pending ok s' :=
  h.quiet (fun e he => by cases e <;> first | exact he.elim | exact ⟨id, nofun⟩) hq

theorem nap (h : Pending ok s) (n : Nap) (sc : List Site) (ms : ℕ) :
    Pending ok (s.nap n sc ms) := by
  obtain ⟨l, hl, hle⟩ := s.nap_trace_append n sc ms
  refine h.of_append hl (fun e he => ?_) (fun b hb => ?_)
  · obtain rfl | ⟨m, rfl⟩ := hle e he <;> exact id
  · obtain ⟨⟨⟩⟩ | ⟨m, ⟨⟩⟩ := hle _ hb

theorem sleep {thrown : St → Prop} {D : Ctx → Prop} (site : Site) (ms : ℕ) :
    Keeps D (Pending ok) (Ends thrown) (sleep site ms) := fun _ _ _ h =>
  wp_sleep site ms (fun _ => h.nap _ _ ms) fun _ => trivial

theorem signal {α : Type} {thrown : St → Prop} {D : Ctx → Prop} (f : ScriptFile)
    (detail : String) : Leads D (Pending ok) (fun _ _ => False) (Ends thrown)
      (writeSignalAndExit f (if ok then .ok else .error) detail : Ahk α) := by
  intro r _ s h
  refine wp_mono (signalled_writeSignalAndExit f _ detail r s) (fun _ _ hf => hf) ?_
  rintro _ s' ⟨rfl, hsig⟩
  refine ⟨_, detail, s.trace, rfl, h.unsignalled, ?_, hsig⟩
  rw [h.returned]
  cases ok <;> decide

end Pending

/-- In the flow nothing is signalled but a timeout. -/
theorem pending_loose (f : ScriptFile) :
    Loose f (fun _ => True) (Pending false) (Ends (Pending false)) where
  enter _ _ h := h
  thrown _ _ hs := hs
  plain := Pending.plain
  sleep := Pending.sleep
  find node := by
    refine keeps_findTargetColor f node (fun _ _ hq h => h.quiet (fun e he => ?_) hq)
      (Pending.sleep _ _)
    cases e <;> first | exact he.elim | exact ⟨id, nofun⟩
  signalError detail := Pending.signal f detail

theorem pending_keptScript (f : ScriptFile) (passes : ℕ) (node : Node) :
    KeptScript f passes node (fun _ => True) (Pending false) Pending (Ends (Pending false))
      (Ends fun _ => False) where
  calm s s' hq := Pending.plain s s' (hq.mono Event.isCalm.isPlain)
  calmEnd _ s s' hq := Pending.plain s s' (hq.mono Event.isCalm.isPlain)
  entered path s hs := by
    refine hs.of_append (l := [.entered node path]) rfl ?_ (by simp)
    simp [Event.isFinal, Event.isFileOp]
  setSignalFile _ _ hs := ⟨hs.unsignalled, hs.returned⟩
  start _ hs := ⟨hs.unsignalled, hs.returned⟩
  runFlow := by
    have hloose := pending_loose f
    have hsearch := (hloose.kept node).search (fun _ _ => trivial) passes
    refine (hloose.flowRules hsearch).flow.bind fun ok => ?_
    intro r _ s hs
    rw [wp_bind, wp_log, wp_pure]
    refine ⟨fun e he => ?_, ?_⟩
    · obtain rfl | he := List.mem_cons.1 he
      · exact id
      · exact hs.unsignalled e he
    · have hno : Event.flowReturned true ∉ s.trace := fun h => nomatch hs.returned.1 h
      rw [St.record_trace, List.mem_cons, or_iff_left hno]
      simp [eq_comm]
  caught _ _ he := he
  passed e s hne he := by
    cases e with
    | thrown err => exact absurd rfl (hne err)
    | exited code | closed | starved => exact he
  missing _ hs := hs
  stop _ _ hs := ⟨hs.unsignalled, hs.returned⟩
  release ok := by
    refine (quiet_sendUp specialKeys).keeps fun s s' hq hs => hs.quiet ?_ hq
    rintro e ⟨k, -, rfl⟩
    exact ⟨id, nofun⟩
  ending _ ms := (Pending.sleep .ending ms).leads.mono (fun _ hs => hs.1) fun _ _ hs => hs
  signal ok := Pending.signal f

/-- A run with a readable tolerance ends in one of three ways: it is closed from outside, a search
is granted too few passes, or it exits with its one signal. -/
theorem readable_run_ends {f : ScriptFile} {cfg : Config} (passes : ℕ) (env : Env)
    (files : String → Option String) {tolerance : ℤ}
    (ht : integer (trim (cfg.tolerance.getD "0")) = some tolerance) :
    ∃ e s, execute f cfg passes env files = (.error e, s) ∧ Ends (fun _ => False) e s := by
  refine (pending_keptScript f passes _).executed ht trivial ⟨?_, ?_⟩
  · simp [St.atEntry, Event.isFinal, Event.isFileOp]
  · simp [St.atEntry]

theorem run_never_starves (f : ScriptFile) (cfg : Config) {passes : ℕ} {env : Env}
    (files : String → Option String) (hclock : Advancing env) (hp : 120000 ≤ passes) :
    (execute f cfg passes env files).1 ≠ .error .starved := by
  obtain ⟨e, s, he, hne⟩ := KeptScript.execute (clock_keptScript f hp) cfg env files hclock
    (Nat.zero_le _) fun _ _ => nofun
  rw [he]
  exact fun h => hne (Except.error.inj h)

/-- Every run with a readable configuration and a moving clock that is not closed from outside ends
after finitely many passes by exactly one signal. Its status is `ok` exactly if the flow has
returned true, and only the file operations of the signal and the exit follow it. -/
theorem run_reports_once (f : ScriptFile) (cfg : Config) (passes : ℕ) (env : Env)
    (files : String → Option String)
    (hcfg : (integer (trim (cfg.tolerance.getD "0"))).isSome = true)
    (hclock : ∀ n, 0 < (env.sleep n).elapsed) (hpasses : 120000 ≤ passes)
    (hopen : (execute f cfg passes env files).1 ≠ .error .closed) :
    ∃ status detail t ops s,
      execute f cfg passes env files = (.error (.exited (if status = .ok then 0 else 1)), s) ∧
      s.trace = .gdipShutdown :: .exitApp (if status = .ok then 0 else 1) ::
        (ops ++ .signal status detail :: t) ∧
      (∀ e ∈ ops, e.isFileOp) ∧ (∀ e ∈ t, ¬e.isFinal) ∧
      (status = .ok ↔ .flowReturned true ∈ t) := by
  obtain ⟨tolerance, ht⟩ := Option.isSome_iff_exists.1 hcfg
  have hstarved := run_never_starves f cfg files hclock hpasses
  obtain ⟨e, s, he, hend⟩ := readable_run_ends passes env files ht
  rw [he] at hopen hstarved ⊢
  cases e with
  | thrown e => exact hend.elim
  | closed => exact absurd rfl hopen
  | starved => exact absurd rfl hstarved
  | exited code =>
      obtain ⟨status, detail, t, rfl, hnone, htrue, ops, htrace, hops⟩ := hend
      exact ⟨status, detail, t, ops, s, rfl, htrace, hops, hnone, htrue⟩

/-- A run in which Roblox cannot be activated. -/
theorem failed_activation_reported_once :
    ∃ status detail t ops s,
      execute .wagonMove ⟨none, none, none⟩ 120000
        { Env.idle with winActivate := fun _ => some ⟨"Target window not found."⟩ }
        (fun _ => none) =
        (.error (.exited (if status = .ok then 0 else 1)), s) ∧
      s.trace = .gdipShutdown :: .exitApp (if status = .ok then 0 else 1) ::
        (ops ++ .signal status detail :: t) ∧
      (∀ e ∈ ops, e.isFileOp) ∧ (∀ e ∈ t, ¬e.isFinal) ∧
      (status = .ok ↔ .flowReturned true ∈ t) :=
  run_reports_once _ _ _ _ _ (by decide +kernel) (fun _ => Nat.zero_lt_one) le_rfl
    (by intro h; cases h)

end WagonMove
