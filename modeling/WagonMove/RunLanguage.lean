import WagonMove.Endings
import WagonMove.FlowLanguage

/-!
# The language of a run

What a whole run sends, unless another thread stops it: a word of its flow, or the beginning of one,
and then one of the endings. Each way in which a run can end leaves its own language.
-/

namespace WagonMove

open Prog

/-- Nothing has stopped the flow so far. -/
def Undisturbed (s : St) : Prop := ∀ scope m, .stopped scope m ∉ s.trace

/-- Unless something has stopped the flow, the acts so far are a word of `L`. -/
def Spoken (L : Language Event) (s : St) : Prop := Undisturbed s → s.acts.reverse ∈ L

def signalled (status : Status) (detail : String) : Language Event := {[.signal status detail]}

def anyError : Language Event := {w | ∃ message, w ∈ signalled .error message}

/-- Words that a run sends only for want of the window. -/
def withoutWindow (env : Env) (L : Language Event) : Language Event :=
  {w | ¬WindowPresent env ∧ w ∈ L}

/-- What a flow leaves behind that has been broken off by an error. -/
def failed (f : ScriptFile) (env : Env) : Language Event :=
  withoutWindow env ((flowWords f).prefixes * release)

def robloxMissing : String := "Roblox nao encontrado. Abra o Roblox primeiro."

/-- What a run sends that ends in the given way. -/
def runWords (f : ScriptFile) (env : Env) : Abort Err → Language Event
  | .exited 0 => flowWords f * release * signalled .ok "movement_complete"
  | .exited _ =>
      withoutWindow env (signalled .error robloxMissing) +
        (flowWords f).prefixes * {timeoutActs.reverse} +
        failed f env * anyError
  | .closed => (flowWords f).prefixes + flowWords f * release + failed f env
  | .starved => (flowWords f).prefixes
  | .thrown _ => 1

/-! ## Undisturbed runs -/

/-- The flag is still set if nothing has stopped the flow. -/
def Alive (s : St) : Prop := Undisturbed s → s.running = true

section Undisturbed

variable {s s' : St}

theorem Undisturbed.of_append (h : Undisturbed s') {l : List Event}
    (hl : s'.trace = l ++ s.trace) : Undisturbed s := fun scope m hmem =>
  h scope m (hl ▸ List.mem_append_right l hmem)

theorem Alive.of_append (hs : Alive s) (hrun : s'.running = s.running)
    (hl : ∃ l, s'.trace = l ++ s.trace) : Alive s' := by
  obtain ⟨l, hl⟩ := hl
  exact fun hno => hrun.trans (hs (hno.of_append hl))

theorem Alive.quiet {p : Event → Prop} (hq : Quiet p s s') (hs : Alive s) : Alive s' :=
  hs.of_append hq.running (hq.trace.imp fun _ h => h.1)

theorem Alive.record (e : Event) (hs : Alive s) : Alive (s.record e) :=
  hs.of_append rfl ⟨[e], rfl⟩

theorem Alive.nap (hs : Alive s) (n : Nap) (sc : List Site) (ms : ℕ) : Alive (s.nap n sc ms) := by
  intro hno
  obtain ⟨l, hl, -⟩ := s.nap_trace_append n sc ms
  have hrun := hs (hno.of_append hl)
  have hgo : n.stop = false := by
    refine Bool.eq_false_iff.2 fun hstop => hno sc (s.nap n sc ms).moment ?_
    rw [St.nap_trace, hrun, hstop]
    exact List.mem_cons_self
  rw [St.nap_running, hrun, hgo]
  rfl

theorem Alive.sleep {D : Ctx → Prop} (site : Site) (ms : ℕ) :
    Keeps D Alive (fun _ => Alive) (sleep site ms) := fun _ _ _ hs =>
  wp_sleep site ms (fun _ => hs.nap _ _ ms) fun _ => (hs.nap _ _ ms).record _

theorem alive_loose (f : ScriptFile) : Loose f (fun _ => True) Alive (fun _ => Alive) where
  enter _ _ h := h
  thrown _ _ hs := hs
  plain _ _ hq hs := hs.quiet hq
  sleep := Alive.sleep
  find node := keeps_findTargetColor f node (fun _ _ hq hs => hs.quiet hq) (Alive.sleep _ _)
  signalError _ := leads_writeSignalAndExit Alive f .error _ (fun _ hs => hs.record _)
    (fun _ _ hq hs => hs.quiet hq)
    (fun _ _ hw hs => hs.of_append hw.running (hw.trace.imp fun _ h => h.1))
    fun _ hs => (hs.record _).record _

theorem alive_flow (f : ScriptFile) (passes : ℕ) (node : Node) :
    Leads (fun _ => True) Alive (fun _ => Alive) (fun _ => Alive)
      (specialMovementFlow f passes node) := by
  have hloose := alive_loose f
  exact (hloose.flowRules ((hloose.kept node).search (fun _ hs => hs) passes)).flow

end Undisturbed

/-! ## Spoken words -/

namespace Spoken

variable {α : Type} {K L : Language Event} {s s' : St} {D : Ctx → Prop} {E : Abort Err → St → Prop}

theorem mono (h : Spoken K s) (hKL : K ≤ L) : Spoken L s := fun hno => hKL (h hno)

theorem of_append (h : Spoken L s) {l : List Event} (hl : s'.trace = l ++ s.trace) :
    Spoken (L * {(l.filter Event.isAct).reverse}) s' := by
  intro hno
  rw [St.acts, hl, List.filter_append, List.reverse_append]
  exact Language.append_mem_mul (h (hno.of_append hl)) rfl

theorem of_silent (h : Spoken L s) {p : Event → Prop} (hp : ∀ e, p e → e.isAct = false)
    (htrace : ∃ l, s'.trace = l ++ s.trace ∧ ∀ e ∈ l, p e) : Spoken L s' := by
  obtain ⟨l, hl, hlp⟩ := htrace
  have hsilent : l.filter Event.isAct = [] :=
    List.filter_eq_nil_iff.2 fun e he => by simp [hp e (hlp e he)]
  have happend := h.of_append hl
  rw [hsilent] at happend
  exact happend.mono (mul_one L).le

theorem calm (hq : Calm s s') (h : Spoken L s) : Spoken L s' :=
  h.of_silent (fun e he => by cases e <;> first | rfl | exact he.elim) hq.trace

theorem record (e : Event) (he : e.isAct = true) (h : Spoken L s) :
    Spoken (L * {[e]}) (s.record e) := by
  have htrace : (s.record e).trace = [e] ++ s.trace := rfl
  have happend := h.of_append htrace
  rwa [List.filter_cons_of_pos he] at happend

theorem record_silent {e : Event} (he : e.isAct = false) (h : Spoken L s) :
    Spoken L (s.record e) := by
  refine h.of_silent (p := (· = e)) (fun _ heq => heq ▸ he) ⟨[e], rfl, by simp⟩

theorem nap (h : Spoken L s) (n : Nap) (sc : List Site) (ms : ℕ) : Spoken L (s.nap n sc ms) := by
  refine h.of_silent (fun e he => ?_) (s.nap_trace_append n sc ms)
  obtain rfl | ⟨m, rfl⟩ := he <;> rfl

theorem sleep (site : Site) (ms : ℕ) (hE : ∀ s, Spoken L s → E .closed s) :
    Keeps D (Spoken L) E (sleep site ms) := fun _ _ _ hs =>
  wp_sleep site ms (fun _ => hs.nap _ _ ms) fun _ => hE _ ((hs.nap _ _ ms).record_silent rfl)

theorem sendUp (ks : List Key) : Leads D (Spoken L)
    (fun _ => Spoken (L * {ks.map fun k => .key (.up k)})) E (sendUp ks) := by
  induction ks generalizing L with
  | nil => exact .pure fun s hs => hs.mono (mul_one L).ge
  | cons k ks ih =>
      intro r hr s hs
      rw [WagonMove.sendUp, wp_bind, wp_log]
      refine wp_imp (ih r hr _ (hs.record _ rfl)) fun _ s' hs' => hs'.mono ?_
      rintro w hw
      obtain ⟨u, hu, v, rfl, rfl⟩ := Language.mem_mul.1 hw
      obtain ⟨u', hu', _, rfl, rfl⟩ := Language.mem_mul.1 hu
      rw [List.append_assoc]
      exact Language.append_mem_mul hu' rfl

theorem signal (f : ScriptFile) (status : Status) (detail : String)
    (hE : ∀ s, Spoken (L * signalled status detail) s →
      E (.exited (if status = .ok then 0 else 1)) s) :
    Leads D (Spoken L) (fun _ _ => False) E (writeSignalAndExit f status detail : Ahk α) := by
  refine leads_writeSignalAndExit (Spoken (L * signalled status detail)) f status detail ?_ ?_ ?_ ?_
  · exact fun s hs => hs.record _ rfl
  · exact fun s s' hq hs => hs.of_silent (fun _ he => he.elim) hq.trace
  · exact fun s s' hw hs => hs.of_silent (fun e he => by
      cases e <;> first | rfl | exact he.elim) hw.trace
  · exact fun s hs => hE _ ((hs.record_silent rfl).record_silent rfl)

end Spoken

/-! ## From the flow to the exit -/

section Runs

variable {f : ScriptFile} {env : Env} {passes : ℕ} {node : Node}

/-- A run that has not sent anything. -/
def Unspoken (s : St) : Prop := s.acts = []

theorem Unspoken.calm {s s' : St} (hq : Calm s s') (h : Unspoken s) : Unspoken s' := by
  obtain ⟨l, hl, hcalm⟩ := hq.trace
  have hsilent : l.filter Event.isAct = [] := List.filter_eq_nil_iff.2 fun e he => by
    have := hcalm e he
    cases e <;> first | exact Bool.false_ne_true | exact this.elim
  unfold Unspoken St.acts at h ⊢
  rw [hl, List.filter_append, hsilent, h]
  rfl

theorem Unspoken.spoken {s : St} (h : Unspoken s) : Spoken 1 s := fun _ => by rw [h]; rfl

/-- A flow that has not been disturbed has gone through its stages if it returns, and begun them
if it does not. -/
theorem spoken_flow (f : ScriptFile) (passes : ℕ) (node : Node) :
    Leads (fun r => r.env = env) (fun s => Unspoken s ∧ s.running = true)
      (fun ok => Spoken (ifOk (flowWords f) ok)) (fun e => Spoken (begun env (flowWords f) e))
      (specialMovementFlow f passes node) := by
  intro r hr s hs
  obtain ⟨hfresh, hrun⟩ := hs
  have hwords := (follows_flow f passes node).emits r hr s
  have halive := alive_flow f passes node r trivial s fun _ => hrun
  have hspoken {L : Language Event} (s' : St) (h : tape.Added L s s') (hlive : Alive s') :
      Spoken L s' := by
    intro hno
    obtain ⟨-, w, hw, heq⟩ := h (hlive hno)
    have hword : s'.acts.reverse = s.acts.reverse ++ w := heq
    rw [hword, hfresh]
    exact hw
  exact wp_mono (wp_and hwords halive) (fun ok s' h => hspoken s' h.1 h.2)
    fun e s' h => hspoken s' h.1 h.2

/-- What a run leaves behind that ends early. -/
def Closing (f : ScriptFile) (env : Env) (e : Abort Err) : St → Prop := Spoken (runWords f env e)

/-- What comes after a flow that has sent a word of `L`. -/
theorem spoken_wrapUp {L : Language Event} (ok : Bool) {α : Type} (text : String) (ms : ℕ)
    (detail : String) (hclosed : L * release ≤ runWords f env .closed)
    (hexit : L * release * signalled (if ok then .ok else .error) detail ≤
      runWords f env (.exited (if (if ok then Status.ok else .error) = .ok then 0 else 1))) :
    Leads (fun r => r.env = env) (Spoken L) (fun _ _ => False)
      (Closing f env) (do
        releaseSpecialKeys
        hideSpecialMarker
        setRunning false
        setStatus text
        sleep .ending ms
        (writeSignalAndExit f (if ok then .ok else .error) detail : Ahk α)) := by
  have hquiet {β : Type} {x : Ahk β} (hx : IsCalm x) :
      Leads (fun r => r.env = env) (Spoken (L * release)) (fun _ => Spoken (L * release))
        (Closing f env) x := hx.keeps fun _ _ => Spoken.calm
  have hstop : Leads (fun r => r.env = env) (Spoken (L * release))
      (fun _ => Spoken (L * release)) (Closing f env) (setRunning false) :=
    Keeps.update fun _ hs => hs
  refine .bind (Spoken.sendUp specialKeys) fun _ => .bind (hquiet quiet_hideSpecialMarker)
    fun _ => .bind hstop fun _ => .bind (hquiet (calm_setStatus text)) fun _ => .bind
      (Spoken.sleep _ _ fun _ hs => hs.mono hclosed).leads fun _ => ?_
  exact Spoken.signal f _ detail fun _ hs => hs.mono hexit

theorem spoken_reportResult (f : ScriptFile) (ok : Bool) :
    Leads (fun r => r.env = env) (Spoken (ifOk (flowWords f) ok)) (fun _ _ => False)
      (Closing f env) (reportResult f ok) := by
  cases ok with
  | true => exact spoken_wrapUp true _ _ _ (le_sup_right.trans le_sup_left) le_rfl
  | false =>
      have hnone : ifOk (flowWords f) false * release = 0 := zero_mul _
      refine spoken_wrapUp false _ _ _ (hnone.le.trans bot_le) ?_
      rw [hnone, zero_mul]
      exact bot_le

theorem mul_release_le (f : ScriptFile) (env : Env) :
    withoutWindow env (flowWords f).prefixes * release ≤ failed f env := by
  intro w hw
  obtain ⟨u, hu, v, hv, rfl⟩ := Language.mem_mul.1 hw
  exact ⟨hu.1, Language.append_mem_mul hu.2 hv⟩

theorem spoken_reportError (f : ScriptFile) (err : Err) :
    Leads (fun r => r.env = env) (Spoken (begun env (flowWords f) (.thrown err)))
      (fun _ _ => False) (Closing f env) (reportError f err) := by
  have hrelease := mul_release_le f env
  have herror : signalled .error err.message ≤ anyError := fun _ hw => ⟨_, hw⟩
  refine spoken_wrapUp false _ _ _ (hrelease.trans le_sup_right) ?_
  exact (mul_le_mul' hrelease herror).trans le_sup_right

theorem spoken_tried (f : ScriptFile) (passes : ℕ) (node : Node) :
    Leads (fun r => r.env = env) (fun s => Unspoken s ∧ s.running = true)
      (fun ok => Spoken (ifOk (flowWords f) ok)) (Closing f env)
      (rescue (runFlow f passes node) (reportError f)) := by
  have hflow : Leads (fun r => r.env = env) (fun s => Unspoken s ∧ s.running = true)
      (fun ok => Spoken (ifOk (flowWords f) ok)) (fun e => Spoken (begun env (flowWords f) e))
      (runFlow f passes node) :=
    (spoken_flow f passes node).bind fun ok => .bind
      (Keeps.update fun _ hs => hs.record_silent rfl).leads fun _ => .pure fun _ hs => hs
  refine hflow.rescue (fun err => ?_) fun e s hne hs => ?_
  · exact (spoken_reportError f err).mono (fun _ hs => hs) fun _ _ hf => hf.elim
  · cases e with
    | thrown err => exact absurd rfl (hne err)
    | exited code =>
        refine hs.mono ?_
        rintro w ⟨rfl, hw⟩
        exact .inl (.inr hw)
    | closed => exact hs.mono (le_sup_left.trans le_sup_left)
    | starved => exact hs

theorem spoken_entryPoint (f : ScriptFile) (passes : ℕ) (node : Node) :
    Leads (fun r => r.env = env) Unspoken (fun _ _ => False) (Closing f env)
      (entryPoint f passes node) := by
  have hquiet {β : Type} {x : Ahk β} (hx : IsCalm x) :
      Leads (fun r => r.env = env) Unspoken (fun _ => Unspoken) (Closing f env) x :=
    hx.keeps fun _ _ => Unspoken.calm
  have hwindow : Leads (fun r => r.env = env) Unspoken
      (fun hwnd s => (WindowPresent env → hwnd ≠ 0) ∧ Unspoken s) (Closing f env)
      getRobloxHwnd := by
    rintro r rfl s hs
    exact wp_imp wp_getRobloxHwnd fun hwnd s' h => ⟨h.1, hs.calm h.2.quiet⟩
  refine .bind (hquiet calm_createStatusOverlayGui) fun _ => .bind hwindow fun hwnd =>
    .ite (fun hzero => ?_) fun _ => ?_
  · have hmissing : withoutWindow env 1 * signalled .error robloxMissing ≤
        runWords f env (.exited 1) := by
      rintro w hw
      obtain ⟨_, ⟨hwin, rfl⟩, v, hv, rfl⟩ := Language.mem_mul.1 hw
      exact .inl (.inl ⟨hwin, hv⟩)
    refine (Spoken.signal f .error _ fun s hs => hs.mono hmissing).mono (fun s hs => ?_)
      fun _ _ hf => hf
    have hwin : ¬WindowPresent env := fun hwin => hs.1 hwin hzero
    exact fun hno => ⟨hwin, hs.2.spoken hno⟩
  · have hstart : Leads (fun r => r.env = env)
        (fun s => (WindowPresent env → hwnd ≠ 0) ∧ Unspoken s)
        (fun _ s => Unspoken s ∧ s.running = true) (Closing f env) (setRunning true) :=
      fun _ _ _ hs => (wp_update _).2 ⟨hs.2, rfl⟩
    have hstatus (text : String) : Leads (fun r => r.env = env)
        (fun s => Unspoken s ∧ s.running = true) (fun _ s => Unspoken s ∧ s.running = true)
        (Closing f env) (setStatus text) :=
      (calm_setStatus text).keeps fun s s' hq hs => ⟨hs.1.calm hq, hq.running.trans hs.2⟩
    exact .bind hstart fun _ => .bind (hstatus _) fun _ => .bind (spoken_tried f passes node)
      (spoken_reportResult f)

end Runs

theorem spoken_run (f : ScriptFile) (cfg : Config) (passes : ℕ) (env : Env)
    (files : String → Option String) :
    ∃ e s, execute f cfg passes env files = (.error e, s) ∧ Spoken (runWords f env e) s := by
  cases ht : integer (trim (cfg.tolerance.getD "0")) with
  | none => exact ⟨_, _, execute_of_none passes ht, fun _ => rfl⟩
  | some tolerance =>
      rw [execute_of_some passes ht]
      exact exists_end (spoken_entryPoint f passes (cfg.node tolerance) { env := env } rfl _ rfl)

theorem Spoken.stopped_or {L : Language Event} {s : St} (h : Spoken L s) :
    (∃ scope m, .stopped scope m ∈ s.trace) ∨ s.acts.reverse ∈ L := by
  by_cases hno : Undisturbed s
  · exact .inr (h hno)
  · unfold Undisturbed at hno
    push Not at hno
    exact .inl hno

/-- A run sends the words of its flow: unless something stops the flow, an exit with 0 comes after
one whole word, its keys lifted again and the signal that reports it, and every other end after the
beginning of a word, with one of the other endings. -/
theorem run_speaks_flow (f : ScriptFile) (cfg : Config) (passes : ℕ) (env : Env)
    (files : String → Option String) : ∃ e s, execute f cfg passes env files = (.error e, s) ∧
      ((∃ scope m, .stopped scope m ∈ s.trace) ∨ s.acts.reverse ∈ runWords f env e) := by
  obtain ⟨e, s, he, hs⟩ := spoken_run f cfg passes env files
  exact ⟨e, s, he, hs.stopped_or⟩

end WagonMove
