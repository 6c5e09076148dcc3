import WagonMove.Parts

/-!
# What a running script sends

The acts of a script are the keys and wheel events it sends, the detections and comparisons they
depend on, and the signal. `Sent` follows them from a state on for as long as no stop arrives, and
`Performs` says that a part of the script has fixed acts, of which it may leave out the last ones
only if it is closed or if it does not find the window.
-/

namespace WagonMove

open Prog

def Event.isAct : Event → Bool
  | .key _ | .wheelDown | .searched _ | .turning | .aimed _ _ | .signal _ _ => true
  | _ => false

/-- The acts of a run so far, the newest first. -/
def St.acts (s : St) : List Event := s.trace.filter Event.isAct

/-- Whenever the script asks for the Roblox window, it finds it, and it can activate it. -/
def WindowPresent (env : Env) : Prop :=
  (∀ n, env.winExist n "ahk_exe RobloxPlayerBeta.exe" ≠ 0 ∨ env.winExist (n + 1) "Roblox" ≠ 0) ∧
    ∀ n, env.winActivate n = none

/-- If no stop has arrived in `s`, none has since `s₀`, and the acts since then are `l`. -/
def Sent (s₀ : St) (l : List Event) (s : St) : Prop :=
  s.running = true → s₀.running = true ∧ s.acts = l ++ s₀.acts

/-- An exit request arrives in one of the `Sleep`s. -/
def Closes (env : Env) : Prop := ∃ n, (env.sleep n).close = true

/-- Ends that the script does not bring about itself. -/
def Broken (env : Env) : Abort Err → Prop
  | .closed => Closes env
  | .thrown _ => ¬WindowPresent env
  | .exited _ | .starved => False

/-- Broken off, with `l₀` and after it some of the acts `l` sent since `s₀`. -/
def Cut (env : Env) (s₀ : St) (l₀ l : List Event) (e : Abort Err) (s : St) : Prop :=
  s.running = true → Broken env e ∧ ∃ l', l' <:+ l ∧ Sent s₀ (l' ++ l₀) s

namespace Sent

variable {s₀ s s' : St} {l : List Event}

theorem refl (s : St) : Sent s [] s := fun hr => ⟨hr, rfl⟩

theorem of_stopped (h : s.running = false) : Sent s₀ l s := fun hr => absurd (h.symm.trans hr) nofun

theorem trans {l' : List Event} (h : Sent s₀ l s) (h' : Sent s l' s') : Sent s₀ (l' ++ l) s' := by
  intro hr
  obtain ⟨hr, hl'⟩ := h' hr
  obtain ⟨hr₀, hl⟩ := h hr
  exact ⟨hr₀, by rw [hl', hl, List.append_assoc]⟩

theorem of_acts (h : Sent s₀ l s) (l' : List Event) (hrun : s'.running = true → s.running = true)
    (hacts : s'.acts = l' ++ s.acts) : Sent s₀ (l' ++ l) s' := h.trans fun hr => ⟨hrun hr, hacts⟩

theorem of_silent {p : Event → Prop} (hp : ∀ e, p e → e.isAct = false)
    (hrun : s'.running = s.running) (htrace : ∃ m, s'.trace = m ++ s.trace ∧ ∀ e ∈ m, p e)
    (h : Sent s₀ l s) : Sent s₀ l s' := by
  obtain ⟨m, hm, hmp⟩ := htrace
  have hsilent : m.filter Event.isAct = [] :=
    List.filter_eq_nil_iff.2 fun e he => by simp [hp e (hmp e he)]
  refine h.of_acts [] (fun hr => hrun ▸ hr) ?_
  rw [St.acts, hm, List.filter_append, hsilent]
  rfl

theorem quiet {p : Event → Prop} (hp : ∀ e, p e → e.isAct = false) (hq : Quiet p s s')
    (h : Sent s₀ l s) : Sent s₀ l s' := h.of_silent hp hq.running hq.trace

theorem wrote (hw : Wrote s s') (h : Sent s₀ l s) : Sent s₀ l s' :=
  h.of_silent (fun e he => by cases e <;> first | rfl | exact he.elim) hw.running hw.trace

theorem calm (hq : Calm s s') (h : Sent s₀ l s) : Sent s₀ l s' :=
  h.quiet (fun e he => by cases e <;> first | rfl | exact he.elim) hq

theorem read (hq : Quiet Event.isRead s s') (h : Sent s₀ l s) : Sent s₀ l s' :=
  h.quiet (fun e he => by cases e <;> first | rfl | exact he.elim) hq

theorem record {e : Event} (he : e.isAct = true) (h : Sent s₀ l s) :
    Sent s₀ (e :: l) (s.record e) :=
  h.of_acts [e] (fun hr => hr) (by simp [St.acts, he])

theorem record_silent {e : Event} (he : e.isAct = false) (h : Sent s₀ l s) :
    Sent s₀ l (s.record e) :=
  h.of_acts [] (fun hr => hr) (by simp [St.acts, he])

theorem nap (h : Sent s₀ l s) (n : Nap) (sc : List Site) (ms : ℕ) : Sent s₀ l (s.nap n sc ms) := by
  have hrun (hr : (s.nap n sc ms).running = true) : s.running = true := by
    rw [St.nap_running, Bool.and_eq_true] at hr
    exact hr.1
  refine h.of_acts [] hrun ?_
  rw [St.acts, St.nap_trace]
  split <;> rfl

end Sent

namespace Cut

variable {env : Env} {s₀ s : St} {l₀ m : List Event} {e : Abort Err}

theorem start {l : List Event} (he : Broken env e) (h : Sent s₀ l₀ s) : Cut env s₀ l₀ l e s :=
  fun _ => ⟨he, [], List.nil_suffix, h⟩

theorem mono {l : List Event} (h : Cut env s₀ l₀ l e s) (hlm : l <:+ m) : Cut env s₀ l₀ m e s := by
  intro hr
  obtain ⟨he, l', hl', hs⟩ := h hr
  exact ⟨he, l', hl'.trans hlm, hs⟩

theorem later (l : List Event) (h : Cut env s₀ (l ++ l₀) m e s) : Cut env s₀ l₀ (m ++ l) e s := by
  intro hr
  obtain ⟨he, l', hl', hs⟩ := h hr
  refine ⟨he, l' ++ l, ?_, ?_⟩
  · obtain ⟨k, rfl⟩ := hl'
    exact ⟨k, (List.append_assoc _ _ _).symm⟩
  · rwa [List.append_assoc]

end Cut

/-! ## Parts with fixed acts -/

/-- Unless it is broken off, `x` has the acts `l`. -/
def Performs {α : Type} (env : Env) (l : List Event) (x : Ahk α) : Prop :=
  ∀ s₀ l₀, Leads (fun r => r.env = env) (Sent s₀ l₀) (fun _ => Sent s₀ (l ++ l₀))
    (Cut env s₀ l₀ l) x

namespace Performs

variable {α β : Type} {env : Env} {l l₁ l₂ : List Event} {x : Ahk α}

theorem pure (a : α) : Performs env [] (pure a : Ahk α) := fun _ _ => .pure fun _ hs => hs

theorem of_does {R : St → St → Prop} (hx : Does R x)
    (hR : ∀ s₀ l s s', R s s' → Sent s₀ l s → Sent s₀ l s') : Performs env [] x :=
  fun s₀ l₀ => hx.keeps (hR s₀ l₀)

theorem calm (hx : IsCalm x) : Performs env [] x := of_does hx fun _ _ _ _ => Sent.calm

/-- In the middle of a stretch with the acts `m`, of which `l'` have been sent before. -/
theorem leads (hx : Performs env l x) (s₀ : St) (l₀ l' : List Event) {m : List Event}
    (hm : l ++ l' <:+ m) : Leads (fun r => r.env = env) (Sent s₀ (l' ++ l₀))
      (fun _ => Sent s₀ (l ++ l' ++ l₀)) (Cut env s₀ l₀ m) x := by
  have hcut := (hx s₀ (l' ++ l₀)).mono_end fun e s h => (Cut.later l' h).mono hm
  exact hcut.mono (fun _ hs => hs) fun _ _ hs => by rwa [List.append_assoc]

theorem bind {f : α → Ahk β} (hx : Performs env l₁ x) (hf : ∀ a, Performs env l₂ (f a))
    (hl : l = l₂ ++ l₁) : Performs env l (x >>= f) := by
  subst hl
  intro s₀ l₀
  have hfirst := (hx s₀ l₀).mono_end fun e s h => h.mono (List.suffix_append l₂ l₁)
  exact hfirst.bind fun a => (hf a).leads s₀ l₀ l₁ (List.suffix_refl _)

/-- Something without acts comes first. -/
theorem after {f : α → Ahk β} (hx : Performs env [] x) (hf : ∀ a, Performs env l (f a)) :
    Performs env l (x >>= f) := hx.bind hf (List.append_nil l).symm

theorem within (site : Site) (hx : Performs env l x) : Performs env l (within site x) :=
  fun s₀ l₀ => .under (fun _ hr => hr) (hx s₀ l₀)

theorem log {e : Event} (he : e.isAct = true) : Performs env [e] (log e) :=
  fun _ _ _ _ _ hs => (wp_log e).2 (Sent.record he hs)

theorem sleep (site : Site) (ms : ℕ) : Performs env [] (sleep site ms) := by
  intro s₀ l₀ r hr s hs
  refine wp_sleep site ms (fun _ => hs.nap _ _ ms) fun hclose => ?_
  have hcloses : Closes env := ⟨s.asked, hr ▸ hclose⟩
  exact Cut.start hcloses ((hs.nap _ _ ms).record_silent rfl)

end Performs

/-! ## Keys, checks and the window -/

section Parts

variable {env : Env} {D : Ctx → Prop} {E : Abort Err → St → Prop} {s₀ : St} {l₀ : List Event}

theorem leads_sendDown (ks : List Key) : Leads D (Sent s₀ l₀)
    (fun _ => Sent s₀ ((ks.map fun k => .key (.down k)).reverse ++ l₀)) E (sendDown ks) := by
  induction ks generalizing l₀ with
  | nil => exact .pure fun _ hs => hs
  | cons k ks ih =>
      intro r hr s hs
      rw [sendDown, wp_bind, wp_log, List.map_cons, List.reverse_cons, List.append_assoc]
      exact ih r hr _ (hs.record rfl)

theorem leads_sendUp (ks : List Key) : Leads D (Sent s₀ l₀)
    (fun _ => Sent s₀ ((ks.map fun k => .key (.up k)).reverse ++ l₀)) E (sendUp ks) := by
  induction ks generalizing l₀ with
  | nil => exact .pure fun _ hs => hs
  | cons k ks ih =>
      intro r hr s hs
      rw [sendUp, wp_bind, wp_log, List.map_cons, List.reverse_cons, List.append_assoc]
      exact ih r hr _ (hs.record rfl)

theorem wp_getRobloxHwnd {r : Ctx} {s : St} :
    wp getRobloxHwnd (fun hwnd s' => (WindowPresent r.env → hwnd ≠ 0) ∧ Asked s s') E r s := by
  rw [getRobloxHwnd, wp_bind, wp_ask]
  refine wp_ite (fun hne => (wp_pure _).2 ⟨fun _ => hne, _, rfl⟩) fun hzero => ?_
  rw [wp_ask]
  exact ⟨fun hwin => (hwin.1 s.asked).resolve_left hzero, _, rfl⟩

theorem performs_activateRoblox : Performs env [] activateRoblox := by
  intro s₀ l₀ r hr s hs
  rw [activateRoblox, wp_bind]
  apply wp_imp wp_getRobloxHwnd
  intro hwnd s' h
  obtain ⟨hpresent, hasked⟩ := h
  have hs' : Sent s₀ l₀ s' := hs.calm hasked.quiet
  apply wp_ite
  · intro hzero
    rw [wp_throwErr]
    exact Cut.start (fun hwin => hpresent (hr ▸ hwin) hzero) hs'
  · intro _
    rw [wp_bind, wp_ask]
    cases he : r.env.winActivate s'.asked with
    | some e =>
        rw [wp_raise]
        refine Cut.start (fun hwin => ?_) hs'
        rw [← hr] at hwin
        exact absurd (he.symm.trans (hwin.2 _)) (Option.some_ne_none e)
    | none => exact Performs.sleep _ _ s₀ l₀ r hr _ hs'

theorem wp_specialCheckStop_of_stopped {r : Ctx} {s : St} (h : s.running = false) :
    wp (specialCheckStop false) (fun stop s' => stop = true ∧ s'.running = false) E r s := by
  rw [specialCheckStop, wp_bind, wp_gets, if_neg (by simp [h]), wp_bind, releaseSpecialKeys]
  refine (quiet_sendUp specialKeys).wp fun _ s' hq => ?_
  rw [if_neg Bool.false_ne_true, wp_pure]
  exact ⟨rfl, hq.running.trans h⟩

theorem leads_calm {α : Type} {x : Ahk α} (hx : IsCalm x) :
    Leads D (Sent s₀ l₀) (fun _ => Sent s₀ l₀) E x := hx.keeps fun _ _ => Sent.calm

theorem leads_check : Leads D (Sent s₀ l₀)
    (fun stop s => Sent s₀ l₀ s ∧ (stop = true → s.running = false)) E
      (specialCheckStop false) := by
  intro r _ s hs
  by_cases hrun : s.running = true
  · rw [wp_specialCheckStop_of_running hrun]
    exact ⟨hs, nofun⟩
  · apply wp_imp (wp_specialCheckStop_of_stopped (Bool.eq_false_iff.2 hrun))
    intro stop s' hcheck
    obtain ⟨-, hstopped⟩ := hcheck
    exact ⟨.of_stopped hstopped, fun _ => hstopped⟩

theorem performs_check : Performs env [] (specialCheckStop false) := fun _ _ =>
  leads_check.mono (fun _ hs => hs) fun _ _ h => h.1

/-- After a check that finds no stop; after one that does, only stopped states matter. -/
theorem leads_checked {α : Type} {Q : α → St → Prop} {a : α} {x : Ahk α}
    (ha : ∀ s, s.running = false → Q a s) (hx : Leads D (Sent s₀ l₀) Q E x) :
    Leads D (Sent s₀ l₀) Q E (do if ← specialCheckStop false then pure a else x) := by
  refine leads_check.bind fun stop => .ite (fun hstop => ?_) fun _ => ?_
  · exact .pure fun s hs => ha s (hs.2 hstop)
  · exact hx.mono (fun _ hs => hs.1) fun _ _ hQ => hQ

theorem leads_zoomTick (ms : ℕ) (s₀ : St) (l₀ : List Event) :
    Leads (fun r => r.env = env) (Sent s₀ l₀) (fun t s => match t with
      | .leave _ => s.running = false
      | .again _ => Sent s₀ (.wheelDown :: l₀) s) (Cut env s₀ l₀ [.wheelDown]) (zoomTick ms) := by
  refine leads_checked (fun _ h => h) ?_
  refine (Performs.log rfl s₀ l₀).bind fun _ => ?_
  have hsleep : Performs env [] (sleep .specialFullZoomOut ms) := .sleep _ _
  exact (hsleep.leads s₀ l₀ [.wheelDown] (List.suffix_refl _)).bind fun _ => .pure fun _ hs => hs

theorem performs_specialFullZoomOut (ticks ms : ℕ) :
    Performs env (.replicate ticks .wheelDown) (specialFullZoomOut ticks ms) := by
  refine .after (performs_activateRoblox.within _) fun _ => ?_
  induction ticks with
  | zero => exact .pure _
  | succ ticks ih =>
      intro s₀ l₀
      rw [List.replicate_succ', loop]
      refine ((leads_zoomTick ms s₀ l₀).mono_end fun e s h =>
        h.mono (List.suffix_append _ _)).bind fun t => ?_
      cases t with
      | leave b => exact .pure fun _ hstop => .of_stopped hstop
      | again u => exact Performs.leads ih s₀ l₀ [.wheelDown] (List.suffix_refl _)

/-- The acts of one turn of the camera, without the zoom before it. -/
def pulse : List Event := [.key (.up .left), .key (.down .left), .turning]

theorem performs_pulseLeft : Performs env pulse pulseLeft := by
  have hdown : Performs env [.key (.down .left)] (sendDown [.left]) := fun _ _ => leads_sendDown _
  have hup : Performs env [.key (.up .left)] (sendUp [.left]) := fun _ _ => leads_sendUp _
  exact (Performs.log rfl).bind (fun _ => .after (.sleep _ _) fun _ =>
    hdown.bind (fun _ => .after (.sleep _ _) fun _ => hup.bind (fun _ => .sleep _ _) rfl) rfl) rfl

/-- What a script sends before it turns the camera. -/
def zoom : ScriptFile → List Event
  | .wagonMove => .replicate 30 .wheelDown
  | .alienWagonMove => []

theorem performs_beforeTurn (f : ScriptFile) : Performs env (zoom f) (beforeTurn f) := by
  have hstatus (text : String) : Performs env [] (setStatus text) := .calm (calm_setStatus text)
  cases f with
  | wagonMove =>
      exact .after (hstatus _) fun _ => .after (.calm quiet_hideSpecialMarker) fun _ =>
        .after (.calm quiet_toolTip) fun _ =>
          ((performs_specialFullZoomOut 30 15).within _).bind
            (fun _ => .after performs_check fun _ => hstatus _) rfl
  | alienWagonMove =>
      exact .after (hstatus _) fun _ => .after (.calm quiet_hideSpecialMarker) fun _ =>
        .after (.calm quiet_toolTip) fun _ => .after performs_check fun _ => .pure _

/-- A colour search reports its result and has no other acts. -/
theorem leads_find (f : ScriptFile) (node : Node) (s₀ : St) (l₀ : List Event) :
    Leads (fun r => r.env = env) (Sent s₀ l₀) (fun hit => Sent s₀ (.searched hit :: l₀))
      (Cut env s₀ l₀ []) (findTargetColor f node) := by
  obtain ⟨find, hlooked, he⟩ := findTargetColor_eq f node
  rw [he]
  refine (leads_screenRead node hlooked (fun _ _ => Sent.read) (fun _ _ => Sent.read)
    (Performs.sleep _ _ s₀ l₀)).bind fun hit => ?_
  intro r _ s hs
  rw [wp_bind, wp_log, wp_pure]
  exact hs.record rfl

end Parts
end WagonMove
