import WagonMove.Budget
import WagonMove.Startup

/-!
# The deadline of a run

Time passes in a `Sleep` or shows at a look at the clock. If neither ever takes more than `d`
milliseconds, a search is over soon after its two minutes, and so there is a moment by which every
run is over.
-/

namespace WagonMove

open Prog

/-- No `Sleep` takes more than `d` milliseconds, and at no look at the clock have more than `d`
passed since the one before, apart from `Sleep`s. -/
def Prompt (env : Env) (d : ℕ) : Prop := ∀ n, (env.sleep n).elapsed ≤ d ∧ env.drift n ≤ d

/-- `x` takes at most `b` milliseconds. -/
abbrev Takes (env : Env) (b : ℕ) {α : Type} (x : Ahk α) : Prop :=
  Costs (fun r => r.env = env) St.now b x

section Parts

variable {env : Env} {d b : ℕ} {α β : Type}

/-! ## What takes no time -/

theorem takes_update {f : St → St} (hf : ∀ s, (f s).now = s.now) : Takes env 0 (update f) :=
  .update fun s => by
    rw [hf]
    omega

theorem takes_log (e : Event) : Takes env 0 (log e) := takes_update fun _ => rfl

theorem takes_ask (q : Env → ℕ → α) : Takes env 0 (ask q) := fun _ _ s => (wp_ask q).2 (by simp)

theorem takes_constant (q : Env → α) : Takes env 0 (constant q) := fun _ _ s =>
  (wp_constant q).2 (by simp)

theorem takes_within (site : Site) {x : Ahk α} (hx : Takes env b x) :
    Takes env b (within site x) := .under (fun _ hr => hr) hx

theorem takes_sendDown (ks : List Key) : Takes env 0 (sendDown ks) := by
  induction ks with
  | nil => exact .pure _
  | cons k ks ih => exact .after (takes_log _) fun _ => ih

theorem takes_sendUp (ks : List Key) : Takes env 0 (sendUp ks) := by
  induction ks with
  | nil => exact .pure _
  | cons k ks ih => exact .after (takes_log _) fun _ => ih

theorem takes_pixelSearch (q : Search) : Takes env 0 (pixelSearch q) :=
  .after (.gets _) fun _ => .after (takes_log _) fun _ => takes_ask _

theorem takes_showSpecialMarker (f : ScriptFile) (x y : ℤ) :
    Takes env 0 (showSpecialMarker f x y) := takes_update fun _ => rfl

theorem takes_hideSpecialMarker : Takes env 0 hideSpecialMarker := takes_update fun _ => rfl

theorem takes_toolTip : Takes env 0 toolTip := takes_update fun _ => rfl

theorem takes_getRobloxHwnd : Takes env 0 getRobloxHwnd :=
  .after (takes_ask _) fun _ => .ite (.pure _) (takes_ask _)

theorem takes_clientRectFallback : Takes env 0 clientRectFallback := by
  refine .after (takes_ask _) fun c => ?_
  cases c with
  | some r => exact .pure _
  | none =>
      refine .after (takes_ask _) fun c => ?_
      cases c <;> exact .pure _

theorem takes_getRobloxClientRect : Takes env 0 getRobloxClientRect := by
  refine .after takes_getRobloxHwnd fun _ => .ite (.pure _) <| .after (takes_ask _) fun c => ?_
  cases c with
  | none => exact takes_clientRectFallback
  | some c =>
      refine .after (takes_ask _) fun p => ?_
      cases p with
      | none => exact takes_clientRectFallback
      | some p => exact .pure _

theorem takes_clientRectOrScreen : Takes env 0 clientRectOrScreen := by
  refine .after takes_getRobloxClientRect fun c => ?_
  cases c with
  | some r => exact .pure _
  | none => exact takes_constant _

theorem takes_showStatusOverlay (text : String) : Takes env 0 (showStatusOverlay text) := by
  have hplace : Takes env 0 positionStatusOverlay :=
    .after takes_getRobloxClientRect fun _ => .after (takes_constant _) fun _ =>
      .after (takes_constant _) fun _ => .after (.gets _) fun _ =>
        .after (takes_update fun _ => rfl) fun _ => takes_log _
  exact .after (.gets _) fun _ => .ite (.pure _) <| .ite (.pure _) <|
    .after (takes_update fun _ => rfl) fun _ => hplace

theorem takes_hideStatusOverlay : Takes env 0 hideStatusOverlay :=
  .after takes_toolTip fun _ => takes_update fun _ => rfl

theorem takes_setStatus (text : String) : Takes env 0 (setStatus text) :=
  .after (takes_update fun _ => rfl) fun _ => .after takes_toolTip fun _ =>
    .after (.gets _) fun _ => .ite (takes_showStatusOverlay text) takes_hideStatusOverlay

theorem takes_check (throwOnStop : Bool) : Takes env 0 (specialCheckStop throwOnStop) :=
  .after (.gets _) fun _ => .ite (.pure _) <| .after (takes_sendUp _) fun _ =>
    .ite (.abort _) (.pure _)

theorem takes_searchBoth (x1 y1 x2 y2 : ℤ) (t : Target) :
    Takes env 0 (searchBoth x1 y1 x2 y2 t) := by
  have htry (q : Search) : Takes env 0 (trySearch q) := by
    refine .after (takes_pixelSearch q) fun c => ?_
    cases c <;> exact .pure _
  refine .after (htry _) fun c => ?_
  cases c with
  | some p => exact .pure _
  | none => exact htry _

theorem takes_tryWrite (a : Attempt) (path content : String) :
    Takes env 0 (tryWrite a path content) := by
  have hset (c : Option String) : Takes env 0 (update (St.setFile path c)) :=
    takes_update fun _ => rfl
  have happend : Takes env 0 (fileAppend a path content) :=
    .after (takes_constant _) fun _ => .after (takes_log _) fun _ => .ite
      (.after (.gets _) fun _ => .after (hset _) fun _ => .pure _) (.pure _)
  exact .after (takes_constant _) fun _ => .after (takes_log _) fun _ => .ite (.pure _) <|
    .after (.gets _) fun _ => .ite (.after (takes_log _) fun _ => .ite (.pure _) <|
      .after (hset _) fun _ => happend) happend

/-! ## What takes time -/

variable (hd : Prompt env d)
include hd

theorem takes_sleep (site : Site) (ms : ℕ) : Takes env d (sleep site ms) := by
  rintro r rfl s
  have hnap : (s.nap (r.env.sleep s.asked) (site :: r.scope) ms).now ≤ s.now + d := by
    rw [St.nap_now]
    have := (hd s.asked).1
    omega
  exact wp_sleep site ms (fun _ => hnap) fun _ => hnap

theorem takes_tickCount : Takes env d tickCount := by
  rintro r rfl s
  rw [wp_tickCount]
  have := (hd s.asked).2
  change s.now + r.env.drift s.asked ≤ s.now + d
  omega

theorem takes_activateRoblox : Takes env d activateRoblox := by
  refine .after takes_getRobloxHwnd fun _ => .ite (.abort _) <| .after (takes_ask _) fun e => ?_
  cases e with
  | some e => exact .abort _
  | none => exact takes_sleep hd _ _

theorem takes_press (ks : List Key) (site : Site) (ms : ℕ) : Takes env d (do
    let _ ← specialCheckStop false
    sendDown ks
    sleep site ms
    sendUp ks) :=
  .after (takes_check false) fun _ => .after (takes_sendDown ks) fun _ =>
    (takes_sleep hd site ms).before fun _ => takes_sendUp ks

theorem takes_fullZoomOut (ticks ms : ℕ) :
    Takes env (d + ticks * d) (specialFullZoomOut ticks ms) := by
  have htick : Takes env d (zoomTick ms) :=
    .after (takes_check false) fun _ => .ite (.pure _) <| .after (takes_log _) fun _ =>
      (takes_sleep hd _ _).before fun _ => .pure _
  exact (takes_within _ (takes_activateRoblox hd)).bind fun _ =>
    .loop (b := 0) (fun _ => htick) (fun _ => .pure _) _ _

theorem takes_writeSignalAndExit (f : ScriptFile) (status : Status) (detail : String) :
    Takes env d (writeSignalAndExit f status detail : Ahk α) := by
  have hexit (code : ℕ) : Takes env 0 (exitApp code : Ahk α) :=
    .after (takes_log _) fun _ => .after (takes_log _) fun _ => .abort _
  refine .after (takes_log _) fun _ => .after takes_hideSpecialMarker fun _ =>
    .after takes_hideStatusOverlay fun _ => ?_
  exact (takes_tickCount hd).before fun _ => .after (.gets _) fun _ =>
    .after (takes_constant _) fun _ => .after (takes_tryWrite _ _ _) fun _ =>
      .after (.ite (.pure _) (takes_tryWrite _ _ _)) fun _ => hexit _

/-! ## Searches -/

/-- How often a colour search sleeps or looks at the clock. -/
def lookSteps : ScriptFile → ℕ
  | .wagonMove => 1
  | .alienWagonMove => 3

theorem takes_findTargetColor (f : ScriptFile) (node : Node) :
    Takes env (lookSteps f * d) (findTargetColor f node) := by
  have hread {b : ℕ} {search : Target → Ahk (Option (ℤ × ℤ))}
      (hsearch : ∀ t, Takes env b (search t)) : Takes env (d + b) (screenRead node search) := by
    have hbegin : Takes env d beginScreenRead :=
      .after (takes_update fun _ => rfl) fun _ => .after takes_hideStatusOverlay fun _ =>
        takes_sleep hd _ _
    have hend : Takes env 0 endScreenRead :=
      .after (takes_update fun _ => rfl) fun _ => .after (.gets _) fun _ =>
        .ite (takes_showStatusOverlay _) (.pure _)
    exact .after takes_hideSpecialMarker fun _ => hbegin.bind fun _ =>
      Costs.ensure (b := 0) (.after takes_clientRectOrScreen fun _ => .ite (.pure _) (hsearch _))
        hend
  have hlogged {b : ℕ} {x : Ahk (Option (ℤ × ℤ))} (hx : Takes env b x) : Takes env b (do
      let hit ← x
      log (.searched hit)
      pure hit) := hx.before fun _ => .after (takes_log _) fun _ => .pure _
  cases f with
  | wagonMove =>
      refine (hlogged (hread (b := 0) fun t => ?_)).mono (by simp [lookSteps])
      refine .after (takes_searchBoth _ _ _ _ t) fun c => ?_
      cases c with
      | some p => exact .pure _
      | none => exact .pure _
  | alienWagonMove =>
      have hroi (t : Target) : Takes env d (Alien.searchRoi t) := by
        have hvalid : Takes env d Alien.roiValid :=
          .after (.gets _) fun _ => .ite (.pure _) <|
            (takes_tickCount hd).before fun _ => .after (.gets _) fun _ => .pure _
        exact hvalid.before fun _ => .ite (.after (.gets _) fun _ => takes_searchBoth _ _ _ _ t)
          (.pure _)
      have hremember (p : ℤ × ℤ) : Takes env d (Alien.remember p) :=
        .after (takes_update fun _ => rfl) fun _ => (takes_tickCount hd).before fun _ =>
          .after (takes_update fun _ => rfl) fun _ => .pure _
      refine (hlogged (hread (b := d + d) fun t => ?_)).mono (by simp [lookSteps]; omega)
      refine (hroi t).bind fun c => ?_
      cases c with
      | some p => exact hremember p
      | none =>
          refine .after (takes_searchBoth _ _ _ _ t) fun c => ?_
          cases c with
          | some p => exact hremember p
          | none => exact .pure _

/-- How often a search sleeps after a miss, before it looks again. -/
def turnSteps : ScriptFile → ℕ
  | .wagonMove => 35
  | .alienWagonMove => 4

theorem takes_beforeTurn (f : ScriptFile) :
    Takes env (turnSteps f * d - 4 * d) (beforeTurn f) := by
  cases f with
  | wagonMove =>
      refine .after (takes_setStatus _) fun _ => .after takes_hideSpecialMarker fun _ =>
        .after takes_toolTip fun _ => ?_
      exact ((takes_within _ (takes_fullZoomOut hd 30 15)).before fun _ =>
        .after (takes_check false) fun _ => takes_setStatus _).mono (by
          simp only [turnSteps]
          omega)
  | alienWagonMove =>
      exact .after (takes_setStatus _) fun _ => .after takes_hideSpecialMarker fun _ =>
        .after takes_toolTip fun _ => .after (takes_check false) fun _ => .pure _

theorem takes_pulseLeft : Takes env (3 * d) pulseLeft := by
  refine .after (takes_log _) fun _ => ?_
  exact ((takes_sleep hd _ _).bind fun _ => .after (takes_sendDown _) fun _ =>
    (takes_sleep hd _ _).bind fun _ => .after (takes_sendUp _) fun _ =>
      takes_sleep hd _ _).mono (by omega)

/-- The head of a search takes the timeout or finds that there is time left. -/
theorem wp_searchHead_prompt (f : ScriptFile) (start : ℕ) {r : Ctx} (hr : r.env = env) (s : St) :
    wp (searchHead f start)
      (fun gaveUp s' => s'.now ≤ s.now + d ∧ (gaveUp = false → s'.now ≤ start + 119999))
      (fun _ s' => s'.now ≤ s.now + 3 * d) r s := by
  have htimedOut : Takes env (d + d) (searchTimedOut f) :=
    .after (takes_setStatus _) fun _ => (takes_sleep hd _ _).bind fun _ =>
      .after (takes_sendUp _) fun _ => .after takes_hideSpecialMarker fun _ =>
        takes_writeSignalAndExit hd _ _ _
  rw [searchHead, wp_bind]
  refine wp_mono (takes_check false r hr s) (fun stop s₁ h => ?_) fun _ s₁ h => by omega
  refine wp_ite (fun _ => ?_) fun _ => ?_
  · rw [wp_pure]
    exact ⟨by omega, by simp⟩
  · subst hr
    rw [wp_bind, wp_tickCount]
    have hlook := (hd s₁.asked).2
    refine wp_ite (fun _ => ?_) fun htime => ?_
    · have hnever := (fails_loose f r.env).timedOut r rfl
        { s₁ with asked := s₁.asked + 1, now := s₁.now + r.env.drift s₁.asked } trivial
      refine wp_mono (wp_and (htimedOut r rfl _) hnever) (fun _ _ h₂ => h₂.2.elim) ?_
      intro _ s₂ h₂
      have hend : s₂.now ≤ s₁.now + r.env.drift s₁.asked + (d + d) := h₂.1
      omega
    · rw [wp_pure]
      unfold searchTimeoutMs at htime
      refine ⟨?_, fun _ => ?_⟩
      · change s₁.now + r.env.drift s₁.asked ≤ s.now + d
        omega
      · change s₁.now + r.env.drift s₁.asked ≤ start + 119999
        omega

/-- The longest that a search can take. -/
def longestSearch (f : ScriptFile) (d : ℕ) : ℕ := 119999 + (lookSteps f + turnSteps f + 4) * d

theorem takes_search (f : ScriptFile) (passes : ℕ) (node : Node) :
    Takes env (longestSearch f d) (search f passes node) := by
  rintro r rfl s
  have hlook := (hd s.asked).2
  have hturn : 4 ≤ turnSteps f := by cases f <;> decide
  have hfour := Nat.mul_le_mul_right d hturn
  have hsum : (lookSteps f + turnSteps f + 4) * d = lookSteps f * d + turnSteps f * d + 4 * d := by
    rw [Nat.add_mul, Nat.add_mul]
  rw [search, searchUntilFound, wp_bind, wp_tickCount, longestSearch, hsum]
  let start := s.now + r.env.drift s.asked
  let Within (s' : St) : Prop :=
    s'.now ≤ s.now + (119999 + (lookSteps f * d + turnSteps f * d + 4 * d))
  have hhead (s' : St) (h : s'.now ≤ start + 119999 + (lookSteps f * d + turnSteps f * d)) :
      wp (searchHead f start)
        (fun gaveUp s'' => Within s'' ∧ (gaveUp = false → s''.now ≤ start + 119999))
        (fun _ => Within) r s' := by
    refine wp_mono (wp_searchHead_prompt hd f start rfl s') (fun _ s'' h' => ⟨?_, h'.2⟩)
      fun _ s'' h' => ?_
    · have := h'.1
      omega
    · omega
  refine wp_loop (fun _ _ s' => s'.now ≤ start + 119999 + (lookSteps f * d + turnSteps f * d))
    ?_ ?_ _ _ _ ?_
  · intro left misses s' hs'
    rw [searchPass, wp_bind]
    refine wp_imp (hhead s' hs') fun gaveUp s₁ h₁ => ?_
    refine wp_ite (fun _ => (wp_pure _).2 h₁.1) fun hgo => ?_
    have htime := h₁.2 (by simpa using hgo)
    refine wp_mono (Costs.bind (takes_findTargetColor hd f node) (b := turnSteps f * d)
      (fun hit => ?_) _ rfl s₁) (fun t s₂ h₂ => ?_) fun _ s₂ h₂ => by omega
    · cases hit with
      | some p =>
          exact .after (takes_showSpecialMarker f _ _) fun _ => .after (takes_setStatus _)
            fun _ => .pure _
      | none =>
          refine .after (takes_setStatus _) fun _ => .ite ?_ ?_
          · exact ((takes_beforeTurn hd f).bind fun _ => (takes_within _
              (takes_activateRoblox hd)).bind fun _ => (takes_pulseLeft hd).before fun _ =>
                .pure _).mono (by omega)
          · exact ((takes_sleep hd _ _).before fun _ => .pure _).mono (by omega)
    · cases t with
      | leave hit =>
          change s₂.now ≤ s.now + (119999 + (lookSteps f * d + turnSteps f * d + 4 * d))
          omega
      | again misses' =>
          change s₂.now ≤ start + 119999 + (lookSteps f * d + turnSteps f * d)
          omega
  · intro misses s' hs'
    rw [searchLast, wp_bind]
    refine wp_imp (hhead s' hs') fun gaveUp s₁ h₁ => ?_
    refine wp_ite (fun _ => (wp_pure _).2 h₁.1) fun _ => ?_
    exact (wp_abort _).2 h₁.1
  · change s.now + r.env.drift s.asked ≤ _
    omega

/-! ## The centring and the flows -/

/-- The longest that a call of the centring can take: each attempt may have to search. -/
def longestCentering (f : ScriptFile) (d : ℕ) : ℕ :=
  (match f with
    | .wagonMove => 40
    | .alienWagonMove => 80) * (lookSteps f * d + longestSearch f d + 2 * d)

theorem takes_centerColor (f : ScriptFile) (passes : ℕ) (node : Node) :
    Takes env (longestCentering f d) (centerColor (centering f passes node)) := by
  have hlocate : Takes env (lookSteps f * d + longestSearch f d)
      (centering f passes node).locate := by
    unfold Centering.locate
    rw [centering_find, centering_search]
    refine (takes_findTargetColor hd f node).bind fun hit => ?_
    cases hit with
    | some p => exact .pure _
    | none => exact .after (takes_setStatus _) fun _ => takes_search hd f passes node
  have haim (c : Centering) (totals : Totals) (fx : ℤ) (r : Rect) :
      Takes env (2 * d) (c.aim totals fx r) := by
    have htap (k : Key) : Takes env d (specialTapKey k centerPulseMs) := takes_press hd [k] _ _
    refine .after (takes_log _) fun _ => .ite (.after (takes_setStatus _) fun _ => .pure _) <|
      .after (takes_setStatus _) fun _ => ?_
    exact ((htap _).bind fun _ => (takes_sleep hd _ _).before fun _ => .pure _).mono (by omega)
  have hpass (totals : Totals) : Takes env (lookSteps f * d + longestSearch f d + 2 * d)
      (centerPass (centering f passes node) totals) := by
    refine .after (takes_check false) fun _ => .ite (.pure _) (hlocate.bind fun hit => ?_)
    cases hit with
    | none => exact .pure _
    | some p =>
        exact .after (takes_showSpecialMarker _ _ _) fun _ =>
          .after takes_clientRectOrScreen fun _ => haim _ _ _ _
  have hlast (totals : Totals) : Takes env 0 (do
      setStatus ((centering f passes node).timeoutText totals)
      pure totals.exhausted) := .after (takes_setStatus _) fun _ => .pure _
  have hloop := Costs.loop hpass hlast (centering f passes node).maxAttempts {}
  cases f <;> exact hloop

theorem takes_paused {x : Ahk α} (hx : Takes env b x) (ms : ℕ) : Takes env (b + d) (do
    let _ ← x
    sleep .flowPause ms) := hx.bind fun _ => takes_sleep hd _ _

omit hd in
theorem takes_part (text : String) (step : FlowStep) {x : Ahk α} {a : ℕ} (hx : Takes env a x)
    {y : Ahk β} (hy : Takes env b y) : Takes env (a + b) (do
      setStatus text
      let _ ← within (.step step) x
      let _ ← specialCheckStop
      y) :=
  .after (takes_setStatus text) fun _ => (takes_within _ hx).bind fun _ =>
    .after (takes_check true) fun _ => hy

theorem takes_sought (f : ScriptFile) (passes : ℕ) (node : Node) (text : String) (step : FlowStep)
    {k : Option (ℤ × ℤ) → Ahk α} (hnone : Takes env b (k none))
    (hsome : ∀ p, Takes env b (k (some p))) : Takes env (longestSearch f d + b) (do
      setStatus text
      let hit ← within (.step step) (search f passes node)
      k hit) := by
  refine .after (takes_setStatus text) fun _ =>
    (takes_within _ (takes_search hd f passes node)).bind fun hit => ?_
  cases hit with
  | none => exact hnone
  | some p => exact hsome p

/-- The longest that a flow can take. -/
def longestFlow (d : ℕ) : ScriptFile → ℕ
  | .wagonMove => 76 * d + 2 * (longestSearch .wagonMove d + longestCentering .wagonMove d)
  | .alienWagonMove => 74 * d + longestSearch .alienWagonMove d + longestCentering .alienWagonMove d

theorem takes_wagon_flow (passes : ℕ) (node : Node) :
    Takes env (longestFlow d .wagonMove) (Wagon.specialMovementFlow passes node) := by
  have hzoom := takes_paused hd (takes_fullZoomOut hd 30 15) 100
  have hcenter : Takes env (longestCentering .wagonMove d)
      (Wagon.specialCenterColorWithCamera passes node) :=
    (takes_centerColor hd .wagonMove passes node).before fun _ => .pure _
  have hfirst : Takes env
      (d + 30 * d + d + (longestSearch .wagonMove d + (longestCentering .wagonMove d + 0)))
      (Wagon.approach passes node) :=
    takes_part _ _ hzoom <| takes_sought hd .wagonMove passes node _ _ (.pure _) fun _ =>
      .after (takes_check true) fun _ => takes_part _ _ hcenter (.pure _)
  have hsecond : Takes env (longestSearch .wagonMove d + (longestCentering .wagonMove d + 0))
      (Wagon.secondApproach passes node) :=
    takes_sought hd .wagonMove passes node _ _ (.pure _) fun _ =>
      .after (takes_check true) fun _ => takes_part _ _ hcenter (.pure _)
  have hpress (k : Key) (site : Site) (ms pause : ℕ) :=
    takes_paused hd (takes_press hd [k] site ms) pause
  have hwalk : Takes env (37 * d) Wagon.walk := by
    have hwait := takes_part "Special: aguardando 0.5s..." .wait (takes_sleep hd .flowPause 500)
      (b := 0) (.pure ())
    exact (takes_part _ _ (hpress .w _ 3000 120) <| takes_part _ _ (hpress .s _ 50 80) <|
      takes_part _ _ hzoom hwait).mono (by omega)
  have hjump : Takes env (6 * d) Wagon.jump := by
    refine .after (takes_setStatus _) fun _ => ?_
    exact ((takes_within _ (hpress .space _ 60 250)).bind fun _ =>
      (takes_within _ (hpress .space _ 60 50)).bind fun _ => .after (takes_check true) fun _ =>
        .after (takes_setStatus _) fun _ => (takes_within _ (hpress .w _ 350 120)).before fun _ =>
          .after (takes_sendUp _) fun _ => takes_setStatus _).mono (by omega)
  refine .after (.gets _) fun _ => .ite (.pure _) ?_
  refine ((takes_activateRoblox hd).bind fun _ => .after (takes_check true) fun _ =>
    hfirst.bind fun _ => .ite (b := 37 * d + (longestSearch .wagonMove d +
      (longestCentering .wagonMove d + 0) + 6 * d)) (hwalk.bind fun _ => hsecond.bind fun _ =>
        .ite (hjump.before fun _ => .pure _) (.pure _)) (.pure _)).mono ?_
  rw [longestFlow]
  omega

theorem takes_alien_flow (passes : ℕ) (node : Node) :
    Takes env (longestFlow d .alienWagonMove) (Alien.specialMovementFlow passes node) := by
  have hzoom := takes_paused hd (takes_fullZoomOut hd 30 15) 100
  have hpressF := takes_paused hd (takes_press hd [.f] .specialTapKey 60) 200
  have hprepare : Takes env (36 * d) Alien.prepare := by
    have hlast := takes_part "Alien Wagon: zoom out manual..." .zoomOut hzoom (b := 0) (.pure ())
    exact (takes_part _ _ hpressF <| takes_part _ _
      (takes_paused hd (takes_press hd [.space] _ 3000) 150) hlast).mono (by omega)
  have happroach : Takes env
      (longestSearch .alienWagonMove d + (longestCentering .alienWagonMove d + d + 0))
      (Alien.approach passes node) :=
    takes_sought hd .alienWagonMove passes node _ _ (.pure _) fun _ =>
      .after (takes_check true) fun _ => takes_part _ _
        (takes_paused hd (takes_centerColor hd .alienWagonMove passes node) 120) (.pure _)
  have hwalk : Takes env (36 * d) Alien.walk := by
    have hlast : Takes env (32 * d) (do
        setStatus "Alien Wagon: zoom out final..."
        within (.step .lastZoomOut) do
          let _ ← specialFullZoomOut 30 15
          sleep .flowPause 100
        releaseSpecialKeys
        setStatus "Alien Wagon: concluído — sinal enviado.") :=
      .after (takes_setStatus _) fun _ => ((takes_within _ hzoom).before fun _ =>
        .after (takes_sendUp _) fun _ => takes_setStatus _).mono (by omega)
    refine .after (takes_setStatus _) fun _ => ?_
    exact ((takes_within _ (takes_paused hd (takes_press hd [.w, .space] _ 3500) 150)).bind fun _ =>
      .after (takes_sendUp _) fun _ => .after (takes_check true) fun _ =>
        takes_part _ _ hpressF hlast).mono (by omega)
  refine .after (.gets _) fun _ => .ite (.pure _) ?_
  refine ((takes_activateRoblox hd).bind fun _ => .after (takes_check true) fun _ =>
    hprepare.bind fun _ => happroach.bind fun _ =>
      .ite (hwalk.before fun _ => .pure _) (.pure _)).mono ?_
  rw [longestFlow]
  omega

/-! ## Whole runs -/

/-- The time after which a run is over for certain. -/
def deadline (d : ℕ) : ScriptFile → ℕ
  | .wagonMove => 82 * 119999 + 3600 * d
  | .alienWagonMove => 81 * 119999 + 1369 * d

omit hd in
theorem longestFlow_add (f : ScriptFile) : longestFlow d f + 4 * d = deadline d f := by
  cases f with
  | wagonMove =>
      simp only [longestFlow, longestCentering, longestSearch, lookSteps, turnSteps, deadline]
      omega
  | alienWagonMove =>
      simp only [longestFlow, longestCentering, longestSearch, lookSteps, turnSteps, deadline]
      omega

theorem takes_entryPoint (f : ScriptFile) (passes : ℕ) (node : Node) :
    Takes env (deadline d f) (entryPoint f passes node) := by
  have hrunning (b : Bool) : Takes env 0 (setRunning b) := takes_update fun _ => rfl
  have hwrapUp {γ : Type} (status : Status) (text : String) (ms : ℕ) (detail : String) :
      Takes env (d + d) (do
        releaseSpecialKeys
        hideSpecialMarker
        setRunning false
        setStatus text
        sleep .ending ms
        (writeSignalAndExit f status detail : Ahk γ)) :=
    .after (takes_sendUp _) fun _ => .after takes_hideSpecialMarker fun _ =>
      .after (hrunning false) fun _ => .after (takes_setStatus text) fun _ =>
        (takes_sleep hd _ _).bind fun _ => takes_writeSignalAndExit hd _ _ _
  have hreport (ok : Bool) : Takes env (d + d) (reportResult f ok) := by
    cases ok <;> exact hwrapUp _ _ _ _
  have hflow : Takes env (longestFlow d f) (specialMovementFlow f passes node) := by
    cases f with
    | wagonMove => exact takes_wagon_flow hd passes node
    | alienWagonMove => exact takes_alien_flow hd passes node
  have htried : Takes env (longestFlow d f + (d + d))
      (rescue (runFlow f passes node) (reportError f)) :=
    .rescue (hflow.before fun _ => .after (takes_log _) fun _ => .pure _) fun _ =>
      hwrapUp .error _ _ _
  have htotal := longestFlow_add (d := d) f
  refine .after (takes_update fun _ => rfl) fun _ => .after takes_getRobloxHwnd fun _ => .ite ?_ ?_
  · exact (takes_writeSignalAndExit hd _ _ _).mono (by omega)
  · exact .after (hrunning true) fun _ => .after (takes_setStatus _) fun _ =>
      (htried.bind hreport).mono (by omega)

end Parts

/-- Every run is over by its deadline, whatever the game shows and however often the colour is lost
again: after two minutes for each search that a flow may start, and a bounded number of `Sleep`s. -/
theorem run_meets_deadline (f : ScriptFile) (cfg : Config) (passes : ℕ) (env : Env)
    (files : String → Option String) {d : ℕ} (hd : Prompt env d) :
    (execute f cfg passes env files).2.now ≤ deadline d f := by
  cases ht : integer (trim (cfg.tolerance.getD "0")) with
  | none =>
      rw [execute_of_none passes ht]
      exact Nat.zero_le _
  | some tolerance =>
      rw [execute_of_some passes ht]
      have hrun (path : String) := (takes_entryPoint hd f passes (cfg.node tolerance)).run_le
        (r := { env := env }) rfl (.atEntry path (cfg.node tolerance) files)
      exact (hrun _).trans (Nat.zero_add _).le

theorem run_meets_deadline_idle :
    (execute .wagonMove ⟨none, none, none⟩ 120000 .idle fun _ => none).2.now ≤
      82 * 119999 + 3600 * 1 :=
  run_meets_deadline .wagonMove _ 120000 .idle _ fun _ => ⟨le_rfl, Nat.zero_le _⟩

end WagonMove
