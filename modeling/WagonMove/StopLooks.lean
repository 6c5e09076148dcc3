import WagonMove.StopRuns

/-!
# Stops in searches and centrings

A look that a stop has reached comes to its end, and what it finds decides with the misses before it
whether a key follows: a tap of the centring if the colour is off centre, or a turn of the camera
after each fifth miss of a search.
-/

namespace WagonMove

open Prog

section Places

variable (f : ScriptFile) (node : Node) (env : Env) (missed : ℕ) (m : Moment) {step : FlowStep}

/-- The places inside a part of the flow in which a stop is noticed by the next check. -/
def Site.isHeeded : Site → Bool
  | .beginScreenRead | .rotationSettle | .step _ => false
  | _ => true

theorem dropsStop_heeded {site : Site} (hsite : site.isHeeded = true)
    (hstep : step.isChecked = true) :
    dropsStop f node env [site, .step step] missed m = false := by
  cases site with
  | beginScreenRead | rotationSettle | step _ => exact nomatch hsite
  | _ => cases step <;> first | rfl | exact nomatch hstep

end Places

section Looks

variable {f : ScriptFile} {node : Node} {env : Env} {missed : ℕ} {step : FlowStep}
  {thrown : St → Prop}

/-- How the flow is broken off, on the way to its handler of errors or past it. -/
abbrev FlowEnd (f : ScriptFile) (node : Node) (env : Env) : Abort Err → St → Prop :=
  StopEnd (dropsStop f node env) (Noticed (dropsStop f node env))

/-- What an observer of a look must keep in mind after it. -/
abbrev AfterLook (f : ScriptFile) (node : Node) (env : Env) (step : FlowStep) (missed : ℕ)
    (hit : Option (ℤ × ℤ)) : St → Prop :=
  Ahead (dropsStop f node env) (missedAfter missed hit) (keyFollows f env step missed hit)

theorem going_find (f : ScriptFile) (node : Node) (env : Env) (missed : ℕ) (step : FlowStep) :
    Leads (At env [.step step]) (Going missed) (AfterLook f node env step missed)
      (StopEnd (dropsStop f node env) thrown) (findTargetColor f node) := by
  let Seen (hit : Option (ℤ × ℤ)) : St → Prop :=
    Ahead (dropsStop f node env) missed (keyFollows f env step missed hit)
  let Found (s : St) : Prop := Going missed s ∨ Stopped (dropsStop f node env) false
    (dropsStop f node env [.beginScreenRead, .step step] missed s.moment) s
  have hgoing {α : Type} {E : Abort Err → St → Prop} {x : Ahk α}
      (hx : Does (Quiet Event.isIdle) x) :
      Leads (At env [.step step]) (Going missed) (fun _ => Going missed) E x :=
    hx.keeps fun s s' hq hs => hs.quiet (fun _ he => he) hq
  have hbegin : Leads (At env [.step step]) (Going missed) (fun _ => Found)
      (StopEnd (dropsStop f node env) thrown) beginScreenRead :=
    .bind (hgoing (.update fun _ => .of_silent rfl rfl rfl le_rfl id rfl)) fun _ =>
      .bind (hgoing quiet_hideStatusOverlay) fun _ => fun r hr s hs =>
        wp_sleep_going hr hs (fun _ h => .inl h) fun _ h => .inr h
  have hlook : Leads (At env [.step step]) Found Seen (fun _ _ => False) (do
      let rect ← clientRectOrScreen
      let hex := normalizeHex node.colorHex false
      if hex = "" then pure none
      else searchTarget f (rect.target hex node)) := by
    intro r hr s hs
    refine wp_mono (wp_and (answers_look (E := fun _ _ => False) f node)
      (looked_readBody node (looked_searchTarget f) r s)) (fun hit s' h => ?_) fun _ _ h => h.1
    obtain ⟨hanswer, hlooked⟩ := h
    have hidle (e : Event) (he : e.isRead) : e.isIdle := by
      cases e <;> first | exact he.elim | exact trivial
    obtain hgo | hstop := hs
    · exact .inl (hgo.quiet hidle hlooked.quiet)
    · have hfate : dropsStop f node env [.beginScreenRead, .step step] missed s.moment =
          keyFollows f env step missed hit s'.asked := by
        rw [hr.1] at hanswer
        simp only [dropsStop, ← hanswer]
      refine .inr ?_
      rw [hfate] at hstop
      exact hstop.quiet hidle hlooked.quiet
  have hread : Leads (At env [.step step]) (Going missed) Seen
      (StopEnd (dropsStop f node env) thrown) (screenRead node (searchTarget f)) :=
    .bind (hgoing quiet_hideSpecialMarker) fun _ => .bind hbegin fun _ =>
      .ensure hlook fun _ => hushed_keeps hushed_endScreenRead
  have hreport (hit : Option (ℤ × ℤ)) : Leads (At env [.step step]) (Seen hit)
      (fun _ => AfterLook f node env step missed hit) (StopEnd (dropsStop f node env) thrown)
      (log (.searched hit)) := fun _ _ s hs =>
    (wp_log _).2 (hs.imp (·.searched hit) (·.searched hit))
  rw [findTargetColor_frame]
  exact hread.bind fun hit => (hreport hit).bind fun _ => .pure fun _ hs => hs

/-! ## Turns of the camera -/

theorem ahead_beforeTurn (f : ScriptFile) (node : Node) (env : Env) (missed : ℕ)
    (step : FlowStep) : Leads (At env [.step step])
      (Ahead (dropsStop f node env) missed fun n => env.turnsAt n f)
      (fun _ => Ahead (dropsStop f node env) missed fun n => env.activatedAt n fun _ => true)
      (FlowEnd f node env) (beforeTurn f) := by
  have hstatus (g : ℕ → Bool) (text : String) : Keeps (At env [.step step])
      (Ahead (dropsStop f node env) missed g)
      (FlowEnd f node env) (setStatus text) :=
    hushed_keeps (hushed_setStatus text)
  cases f with
  | alienWagonMove =>
      exact .bind (hstatus _ _) fun _ => .bind (hushed_keeps hushed_hideSpecialMarker) fun _ =>
        .bind (hushed_keeps hushed_toolTip) fun _ => .bind (hushed_keeps hushed_check) fun _ =>
          .pure fun _ hs => hs
  | wagonMove =>
      have hactivate : Leads (At env [.specialFullZoomOut, .rotation, .step step])
          (Ahead (dropsStop .wagonMove node env) missed fun n =>
            env.activatedAt n fun n => env.activatedAt n fun _ => true)
          (fun _ => Ahead (dropsStop .wagonMove node env) missed fun n =>
            env.activatedAt n fun _ => true)
          (FlowEnd .wagonMove node env) activateRoblox := ahead_activate fun _ => rfl
      have htick : Keeps (At env [.rotation, .step step])
          (Ahead (dropsStop .wagonMove node env) missed fun n => env.activatedAt n fun _ => true)
          (FlowEnd .wagonMove node env) (zoomTick 15) :=
        keeps_zoomTick Ahead.hushed (fun _ hs => hs.going) fun r hr s hs =>
          wp_sleep_going hr hs (fun _ h => .inl h) fun _ h => .inr h
      have hzoom := Leads.bind (.under (At.enter _) hactivate) fun _ =>
        Keeps.loop (fun _ => htick) (fun _ => .pure true) 30 ()
      exact .bind (hstatus _ _) fun _ => .bind (hushed_keeps hushed_hideSpecialMarker) fun _ =>
        .bind (hushed_keeps hushed_toolTip) fun _ => .bind (.under (At.enter _) hzoom) fun _ =>
          .bind (hushed_keeps hushed_check) fun _ => hstatus _ _

/-- The Left pulse presses its key even if a stop arrives just before it. -/
theorem due_pulseLeft (hstep : step.isChecked = true) : Leads (At env [.step step])
    (Due (dropsStop f node env) missed false) (fun _ => Alert (dropsStop f node env) missed)
    (StopEnd (dropsStop f node env) thrown) pulseLeft := by
  have hturning : Keeps (At env [.step step]) (Due (dropsStop f node env) missed false)
      (StopEnd (dropsStop f node env) thrown) (log .turning) :=
    (hushed_log (e := .turning) trivial).keeps Due.hushed
  have hhold : Leads (At env [.step step]) (Due (dropsStop f node env) missed true)
      (fun _ => Alert (dropsStop f node env) missed) (StopEnd (dropsStop f node env) thrown)
      (sleep .rotationHold 200) :=
    (alert_sleep (fun m => dropsStop_heeded f node env missed m rfl hstep) 200).leads.mono
      (fun _ hs => hs.alert) fun _ _ hs => hs
  exact hturning.leads.bind fun _ => (due_sleep (fun _ => rfl) 60).leads.bind fun _ =>
    (due_sendDown .left []).bind fun _ => hhold.bind fun _ =>
      ((hushed_sendUp _).keeps Alert.hushed).leads.bind fun _ =>
        alert_sleep (fun m => dropsStop_heeded f node env missed m rfl hstep) 180

/-- A turn of the camera, if one comes about, and the stop that it drops. -/
theorem ahead_turn {α : Type} (f : ScriptFile) (node : Node) (env : Env) (missed : ℕ)
    {step : FlowStep} (hstep : step.isChecked = true) (a : α) : Leads (At env [.step step])
      (Ahead (dropsStop f node env) missed fun n => env.turnsAt n f)
      (fun b s => b = a ∧ Alert (dropsStop f node env) missed s)
      (FlowEnd f node env) (do
        beforeTurn f
        within .rotation activateRoblox
        pulseLeft
        pure a) := by
  have hactivate : Leads (At env [.rotation, .step step])
      (Ahead (dropsStop f node env) missed fun n => env.activatedAt n fun _ => true)
      (fun _ => Ahead (dropsStop f node env) missed fun _ => true)
      (FlowEnd f node env) activateRoblox :=
    ahead_activate fun _ => rfl
  refine (ahead_beforeTurn f node env missed step).bind fun _ =>
    .bind (.under (At.enter _) hactivate) fun _ => ?_
  have hpulse : Leads (At env [.step step]) (Ahead (dropsStop f node env) missed fun _ => true)
      (fun _ => Alert (dropsStop f node env) missed)
      (FlowEnd f node env) pulseLeft :=
    (due_pulseLeft hstep).mono (fun _ hs => hs.due fun _ => rfl) fun _ _ hs => hs
  exact hpulse.bind fun _ => .pure fun _ hs => ⟨rfl, hs⟩

/-! ## Searches -/

theorem stop_signal {drops : List Site → ℕ → Moment → Bool} {α : Type} {D : Ctx → Prop} (ok : Bool)
    (f : ScriptFile) (detail : String) : Leads D (Outcome drops ok) (fun _ _ => False)
      (StopEnd drops thrown)
      (writeSignalAndExit f (if ok then .ok else .error) detail : Ahk α) := by
  intro r _ s hs
  refine wp_mono (signalled_writeSignalAndExit f _ detail r s) (fun _ _ hf => hf) ?_
  rintro _ s' ⟨rfl, hsig⟩
  exact ⟨ok, detail, s, by cases ok <;> rfl, hs, hsig⟩

theorem going_timedOut (hstep : step.isChecked = true) : Leads (At env [.step step]) (Going missed)
    (fun _ _ => False) (StopEnd (dropsStop f node env) thrown) (searchTimedOut f) := by
  have hstatus (text : String) : Keeps (At env [.step step]) (Going missed)
      (StopEnd (dropsStop f node env) thrown) (setStatus text) :=
    (hushed_setStatus text).keeps fun _ _ hq hs => hs.quiet (fun _ he => he) hq.quiet
  have hsleep : Leads (At env [.step step]) (Going missed)
      (fun _ => Alert (dropsStop f node env) missed) (StopEnd (dropsStop f node env) thrown)
      (sleep .searchTimeout 300) :=
    (alert_sleep (fun m => dropsStop_heeded f node env missed m rfl hstep) 300).leads.mono
      (fun _ hs => hs.alert) fun _ _ hs => hs
  exact (hstatus _).leads.bind fun _ => hsleep.bind fun _ =>
    ((hushed_sendUp _).keeps Alert.hushed).leads.bind fun _ =>
      (hushed_hideSpecialMarker.keeps Alert.hushed).leads.bind fun _ =>
        (stop_signal false f _).mono (fun _ hs => ⟨missed, hs⟩) fun _ _ hf => hf

/-- The head of a search goes on only if no stop has come. -/
theorem alert_searchHead (hstep : step.isChecked = true) (start : ℕ) :
    Leads (At env [.step step]) (Alert (dropsStop f node env) missed)
      (fun stop s => if stop then Alert (dropsStop f node env) 0 s else Going missed s)
      (StopEnd (dropsStop f node env) thrown) (searchHead f start) := by
  refine (leads_checkStop Alert.hushed).bind fun stop => .ite (fun hstop => .pure fun s hs => ?_) ?_
  · rw [if_pos rfl]
    refine hs.1.imp_left fun hgo => hgo.mono ?_
    rw [hs.2, hstop]
    rfl
  · intro hstop
    have hrunning (s : St) (hs : Alert (dropsStop f node env) missed s ∧ s.running = !stop) :
        Going missed s := hs.1.going (by rw [hs.2, Bool.eq_false_of_not_eq_true hstop]; rfl)
    have hclock : Leads (At env [.step step])
        (fun s => Alert (dropsStop f node env) missed s ∧ s.running = !stop)
        (fun _ => Going missed) (StopEnd (dropsStop f node env) thrown) tickCount :=
      (Does.keeps quiet_tickCount fun s s' hq hs => Going.quiet (p := Event.isIdle)
        (fun _ he => he) hq hs).leads.mono hrunning fun _ _ hs => hs
    refine hclock.bind fun now => .ite (fun _ => ?_) fun _ => .pure fun _ hs => hs
    exact (going_timedOut hstep).mono (fun _ hs => hs) fun _ _ hf => hf.elim

/-- After `n` misses of a search, those of the part of the flow are counted with its own looks. -/
def Searching (drops : List Site → ℕ → Moment → Bool) (step : FlowStep) (n : ℕ) : St → Prop :=
  Alert drops (n + step.ownLooks)

/-- What comes after a hit. -/
def AfterHit (f : ScriptFile) (node : Node) (env : Env) (step : FlowStep) (p : ℤ × ℤ) : St → Prop :=
  Ahead (dropsStop f node env) 0 (keyFollows f env step 0 (some p))

theorem keyFollows_miss (f : ScriptFile) (env : Env) (step : FlowStep) (n : ℕ) :
    keyFollows f env step (n + step.ownLooks) none =
      fun m => (n + 1) % 5 = 0 && env.turnsAt m f := by
  funext m
  have hcount : n + step.ownLooks + 1 - step.ownLooks = n + 1 := by omega
  simp [keyFollows, hcount, checksBeforeRotate]

theorem stop_searchPass (hstep : step.isChecked = true) (start n : ℕ) :
    Leads (At env [.step step]) (Searching (dropsStop f node env) step n)
      (fun t s => match t with
        | .leave none => Alert (dropsStop f node env) 0 s
        | .leave (some p) => AfterHit f node env step p s
        | .again missCount =>
          missCount = (n + 1) % 5 ∧ Searching (dropsStop f node env) step (n + 1) s)
      (FlowEnd f node env)
      (searchPass f (findTargetColor f node) (beforeTurn f) start (n % 5)) := by
  refine (alert_searchHead hstep start).bind fun stop => .ite (fun hstop => ?_) fun hstop => ?_
  · exact .pure fun s hs => by simpa [hstop] using hs
  · refine ((going_find f node env (n + step.ownLooks) step).mono
      (fun s hs => by simpa [hstop] using hs) fun _ _ hs => hs).bind fun hit => ?_
    cases hit with
    | some p =>
        exact .bind (hushed_keeps (hushed_showSpecialMarker f _ _)) fun _ =>
          .bind (hushed_keeps (hushed_setStatus _)) fun _ => .pure fun _ hs => hs
    | none =>
        have hmissed : missedAfter (n + step.ownLooks) none = n + 1 + step.ownLooks :=
          Nat.add_right_comm n step.ownLooks 1
        rw [AfterLook, hmissed, keyFollows_miss]
        refine .bind (hushed_keeps (hushed_setStatus _)) fun _ => .ite (fun hturn => ?_) ?_
        · have hfifth : (n + 1) % 5 = 0 := by
            unfold checksBeforeRotate at hturn
            omega
          simp only [hfifth, decide_true, Bool.true_and]
          refine (ahead_turn f node env _ hstep _).mono (fun _ hs => hs) ?_
          rintro _ s ⟨rfl, hs⟩
          exact ⟨rfl, hs⟩
        · intro hturn
          have hnext : n % 5 + 1 = (n + 1) % 5 ∧ (n + 1) % 5 ≠ 0 := by
            unfold checksBeforeRotate at hturn
            omega
          simp only [hnext.2, decide_false, Bool.false_and]
          have hpause : Keeps (At env [.step step])
              (Alert (dropsStop f node env) (n + 1 + step.ownLooks))
              (FlowEnd f node env) (sleep .missPause 90) :=
            alert_sleep (fun m => dropsStop_heeded f node env _ m rfl hstep) 90
          refine (hpause.leads.mono (fun _ hs => hs.alert fun _ => rfl)
            fun _ _ hs => hs).bind fun _ => ?_
          exact .pure fun _ hs => ⟨hnext.1, hs⟩

/-- What comes after a search. -/
def Sought (f : ScriptFile) (node : Node) (env : Env) (step : FlowStep) :
    Option (ℤ × ℤ) → St → Prop
  | none => Alert (dropsStop f node env) 0
  | some p => AfterHit f node env step p

theorem stop_searchLast (hstep : step.isChecked = true) (start : ℕ) :
    Leads (At env [.step step]) (Alert (dropsStop f node env) missed)
      (Sought f node env step) (StopEnd (dropsStop f node env) thrown) (searchLast f start) := by
  refine (alert_searchHead hstep start).bind fun stop => .ite (fun hstop => ?_) fun hstop => ?_
  · refine .pure fun s hs => ?_
    have hnoticed : Alert (dropsStop f node env) 0 s := by simpa [hstop] using hs
    exact hnoticed
  · intro r _ s hs
    have hgo : Going missed s := by simpa [hstop] using hs
    exact (wp_abort _).2 hgo.isOpen

/-- A search ends with the misses of a multiple of five passes behind it, or with a hit. -/
theorem stop_search (hstep : step.isChecked = true) (passes : ℕ) :
    Leads (At env [.step step]) (Alert (dropsStop f node env) step.ownLooks)
      (Sought f node env step) (FlowEnd f node env)
      (search f passes node) := by
  let Inv (missCount : ℕ) (s : St) : Prop :=
    ∃ n, missCount = n % 5 ∧ Searching (dropsStop f node env) step n s
  have hclock : Keeps (At env [.step step]) (Alert (dropsStop f node env) step.ownLooks)
      (FlowEnd f node env) tickCount :=
    quiet_tickCount.keeps fun _ _ hq => Alert.quiet (fun _ he => he) hq
  refine hclock.leads.bind fun start => fun r hr s hs => ?_
  refine wp_loop (fun _ => Inv) ?_ ?_ passes 0 s ⟨0, rfl, by simpa [Searching] using hs⟩
  · rintro _ _ s ⟨n, rfl, hn⟩
    apply wp_imp (stop_searchPass hstep start n r hr s hn)
    intro t s' ht
    cases t with
    | leave hit => cases hit <;> exact ht
    | again missCount => exact ⟨n + 1, ht⟩
  · rintro _ s ⟨n, -, hn⟩
    exact stop_searchLast hstep start r hr s hn

/-! ## Centrings -/

theorem AfterHit.alert {p : ℤ × ℤ} {s : St} (hstep : step.isSearch = true)
    (hs : AfterHit f node env step p s) : Alert (dropsStop f node env) 0 s :=
  Ahead.alert hs fun n => by simp [keyFollows, hstep]

theorem stop_locate (hstep : step.isCenter = true) (passes : ℕ) :
    Leads (At env [.step step]) (Going 0) (Sought f node env step)
      (FlowEnd f node env) (centering f passes node).locate := by
  have hchecked : step.isChecked = true := by cases step <;> first | rfl | exact nomatch hstep
  have hown : step.ownLooks = 1 := by cases step <;> first | rfl | exact nomatch hstep
  unfold Centering.locate
  rw [centering_find, centering_search]
  refine (going_find f node env 0 step).bind fun hit => ?_
  cases hit with
  | some p => exact .pure fun _ hs => hs
  | none =>
      have hmiss (s : St) (hs : AfterLook f node env step 0 none s) :
          Alert (dropsStop f node env) step.ownLooks s := by
        rw [hown]
        exact hs.alert fun n => by simp [keyFollows, hown]
      have hstatus (text : String) : Leads (At env [.step step])
          (AfterLook f node env step 0 none) (fun _ => AfterLook f node env step 0 none)
          (FlowEnd f node env) (setStatus text) :=
        hushed_keeps (hushed_setStatus text)
      exact (hstatus _).bind fun _ => (stop_search hchecked passes).mono hmiss fun _ _ hs => hs

/-- Off centre a key is pressed, on centre the centring is over. -/
theorem stop_aim (hstep : step.isCenter = true) (c : Centering) (totals : Totals) (fx : ℤ)
    (rect : Rect) : Leads (At env [.step step])
      (Ahead (dropsStop f node env) 0 fun _ => centerTolX < |centerError fx rect|)
      (fun _ => Alert (dropsStop f node env) 0) (StopEnd (dropsStop f node env) thrown)
      (c.aim totals fx rect) := by
  have hchecked : step.isChecked = true := by cases step <;> first | rfl | exact nomatch hstep
  have hheeded {site : Site} (hsite : site.isHeeded = true) (m : Moment) :
      dropsStop f node env [site, .step step] 0 m = false :=
    dropsStop_heeded f node env 0 m hsite hchecked
  have hlog : Leads (At env [.step step])
      (Ahead (dropsStop f node env) 0 fun _ => centerTolX < |centerError fx rect|)
      (fun _ => Ahead (dropsStop f node env) 0 fun _ => centerTolX < |centerError fx rect|)
      (StopEnd (dropsStop f node env) thrown) (log (.aimed fx rect)) :=
    hushed_keeps (hushed_log (e := .aimed fx rect) trivial)
  refine hlog.bind fun _ => .ite (fun hcentered => ?_) fun hoff => ?_
  · rw [decide_eq_false (not_lt.2 hcentered)]
    exact (hushed_keeps (hushed_setStatus _)).leads.bind fun _ =>
      .pure fun _ hs => hs.alert fun _ => rfl
  · rw [decide_eq_true (not_le.1 hoff)]
    have htap : Leads (At env [.step step]) (Due (dropsStop f node env) 0 false)
        (fun _ => Alert (dropsStop f node env) 0) (StopEnd (dropsStop f node env) thrown)
        (specialTapKey (centerKey (centerError fx rect)) centerPulseMs) :=
      due_press (hheeded rfl) _ _ []
    exact (hushed_keeps (hushed_setStatus _)).leads.bind fun _ =>
      (htap.mono (fun _ hs => hs.due fun _ => rfl) fun _ _ hs => hs).bind fun _ =>
        (alert_sleep (hheeded rfl) c.pauseMs).leads.bind fun _ => .pure fun _ hs => hs

theorem stop_centerPass (hstep : step.isCenter = true) (passes : ℕ) (totals : Totals) :
    Keeps (At env [.step step]) (Alert (dropsStop f node env) 0)
      (FlowEnd f node env) (centerPass (centering f passes node) totals) := by
  have hsearch : step.isSearch = false := by cases step <;> first | rfl | exact nomatch hstep
  refine (leads_checkStop Alert.hushed).bind fun stop => .ite (fun _ => .pure fun _ hs => hs.1) ?_
  intro hstop
  have hlocate : Leads (At env [.step step])
      (fun s => Alert (dropsStop f node env) 0 s ∧ s.running = !stop) (Sought f node env step)
      (FlowEnd f node env) (centering f passes node).locate :=
    (stop_locate hstep passes).mono (fun _ hs =>
      hs.1.going (by rw [hs.2, Bool.eq_false_of_not_eq_true hstop]; rfl)) fun _ _ hs => hs
  refine hlocate.bind fun hit => ?_
  cases hit with
  | none => exact .pure fun _ hs => hs
  | some p =>
      refine .bind (hushed_keeps (hushed_showSpecialMarker _ _ _)) fun _ => ?_
      have hrect : Leads (At env [.step step]) (AfterHit f node env step p)
          (fun rect => Ahead (dropsStop f node env) 0 fun _ =>
            centerTolX < |centerError p.1 rect|)
          (FlowEnd f node env) clientRectOrScreen := by
        intro r hr s hs
        rw [wp_clientRectOrScreen_at, hr.1]
        refine hs.imp (fun hgo => ⟨hgo.isOpen, hgo.misses⟩) fun hstop => ?_
        simp only [keyFollows, hsearch, Bool.not_false, Bool.true_and] at hstop
        exact ⟨hstop.halted, hstop.sound, hstop.split⟩
      exact hrect.bind fun rect => stop_aim hstep _ _ _ rect

theorem stop_center (hstep : step.isCenter = true) (passes : ℕ) :
    Keeps (At env [.step step]) (Alert (dropsStop f node env) 0)
      (FlowEnd f node env) (centerColor (centering f passes node)) :=
  .loop (stop_centerPass hstep passes)
    (fun _ => ((hushed_setStatus _).keeps Alert.hushed).bind fun _ => .pure _) _ _

end Looks

end WagonMove
