import WagonMove.FlowWords

/-!
# The stages of the flows

A flow that no stop reaches goes through its stages in their order: keys that are pressed, the
wheel, searches and the centring. Each of them has its language, and the words of a flow are those
of the product.
-/

namespace WagonMove

open Prog

/-- The keys go down one after the other, and come up in the same order. -/
def pressed (ks : List Key) : List Event :=
  ks.map (fun k => .key (.down k)) ++ ks.map fun k => .key (.up k)

def press (ks : List Key) : Language Event := {pressed ks}

def zoomOut : Language Event := {.replicate 30 .wheelDown}

def release : Language Event := {specialKeys.map fun k => .key (.up k)}

namespace Wagon

def approachStages : List (Language Event) := [zoomOut, seek .wagonMove, centre .wagonMove 40]

def walkStages : List (Language Event) := [press [.w], press [.s], zoomOut]

def secondApproachStages : List (Language Event) := [seek .wagonMove, centre .wagonMove 40]

def jumpStages : List (Language Event) := [press [.space], press [.space], press [.w], release]

end Wagon

namespace Alien

def prepareStages : List (Language Event) := [press [.f], press [.space], zoomOut]

def approachStages : List (Language Event) := [seek .alienWagonMove, centre .alienWagonMove 80]

def walkStages : List (Language Event) :=
  [press [.w, .space], release, press [.f], zoomOut, release]

end Alien

def stages : ScriptFile → List (Language Event)
  | .wagonMove => Wagon.approachStages ++
      (Wagon.walkStages ++ (Wagon.secondApproachStages ++ Wagon.jumpStages))
  | .alienWagonMove => Alien.prepareStages ++ (Alien.approachStages ++ Alien.walkStages)

def flowWords (f : ScriptFile) : Language Event := (stages f).prod

/-! ## Following stages -/

/-- `x` goes through the stages `Ls`; `good` tells the values that it may have at the end of them,
the others are left to runs that have been stopped. -/
def Follows {α : Type} (env : Env) (good : α → Bool) (Ls : List (Language Event)) (x : Ahk α) :
    Prop := Speaks env (fun a => ifOk Ls.prod (good a)) Ls.prod x

theorem mul_ifOk_le (K L : Language Event) (ok : Bool) : K * ifOk L ok ≤ ifOk (K * L) ok := by
  cases ok with
  | true => exact le_rfl
  | false => exact (mul_zero K).le

namespace Speaks

variable {α : Type} {env : Env} {L : α → Language Event} {M : Language Event} {x : Ahk α}

theorem mono {L' : α → Language Event} (hx : Speaks env L M x) (h : ∀ a, L a ≤ L' a) :
    Speaks env L' M x :=
  ⟨hx.nonempty, hx.emits.mono h fun _ => le_rfl⟩

theorem within (site : Site) (hx : Speaks env L M x) : Speaks env L M (within site x) :=
  ⟨hx.nonempty, hx.emits.under fun _ hr => hr⟩

theorem status (text : String) : Speaks env (fun _ => 1) 1 (setStatus text) :=
  .calm (calm_setStatus text)

/-- A check that stops the flow finds nothing to do in a run that no stop reaches. -/
theorem check : Speaks env (fun _ => 1) 1 specialCheckStop where
  nonempty := ⟨[], Language.nil_mem_one⟩
  emits := by
    intro r hr s
    by_cases hrun : s.running = true
    · exact (wp_specialCheckStop_of_running hrun).2 (tape.added_refl s)
    · rw [specialCheckStop, wp_bind, wp_gets, if_neg hrun, wp_bind, releaseSpecialKeys]
      refine (quiet_sendUp specialKeys).wp fun _ s' hq => ?_
      rw [if_pos rfl, wp_throwErr]
      exact added_of_stopped (hq.running.trans (Bool.eq_false_iff.2 hrun))

end Speaks

namespace Follows

variable {α β : Type} {env : Env} {M : Language Event} {Ls Ls' : List (Language Event)}
  {good : β → Bool} {x : Ahk α} {f : α → Ahk β}

theorem done {good : α → Bool} {a : α} (ha : good a = true) :
    Follows env good [] (pure a : Ahk α) where
  nonempty := ⟨[], Language.nil_mem_one⟩
  emits := .pure (if_pos ha).ge

theorem cons [Nonempty α] (hx : Speaks env (fun _ => M) M x)
    (hf : ∀ a, Follows env good Ls (f a)) : Follows env good (M :: Ls) (x >>= f) := by
  obtain ⟨a⟩ := ‹Nonempty α›
  rw [Follows, List.prod_cons]
  exact (hx.bind hf (hf a).nonempty).mono fun b => mul_ifOk_le M Ls.prod (good b)

theorem after [Nonempty α] (hx : Speaks env (fun _ => 1) 1 x)
    (hf : ∀ a, Follows env good Ls (f a)) : Follows env good Ls (x >>= f) := by
  obtain ⟨a⟩ := ‹Nonempty α›
  exact Speaks.after hx hf (hf a).nonempty

theorem append {x : Ahk Unit} {f : Unit → Ahk β} (hx : Follows env (fun _ => true) Ls x)
    (hf : ∀ a, Follows env good Ls' (f a)) : Follows env good (Ls ++ Ls') (x >>= f) := by
  rw [Follows, List.prod_append]
  exact (Speaks.bind hx hf (hf ()).nonempty).mono fun b => mul_ifOk_le Ls.prod Ls'.prod (good b)

theorem announced (text : String) {x : Ahk β} (hx : Follows env good Ls x) :
    Follows env good Ls (do setStatus text; x) := .after (.status text) fun _ => hx

theorem checked {x : Ahk β} (hx : Follows env good Ls x) :
    Follows env good Ls (do let _ ← specialCheckStop; x) := .after .check fun _ => hx

/-- A stage: it is announced and done, and the script must be running after it. -/
theorem part [Nonempty α] (text : String) {y : Ahk β} (hx : Speaks env (fun _ => M) M x)
    (hy : Follows env good Ls y) : Follows env good (M :: Ls) (do
      setStatus text
      let _ ← x
      let _ ← specialCheckStop
      y) :=
  .announced text (.cons hx fun _ => .checked hy)

/-- A search after which the flow goes on with what it has found. -/
theorem found {L : ℤ × ℤ → Language Event} {x : Ahk (Option (ℤ × ℤ))} {y : Ahk Bool}
    (hx : Speaks env (ifFound L) M x) (hL : ∀ p, L p ≤ M) (hy : Follows env id Ls y) :
    Follows env id (M :: Ls) (do
      match ← x with
      | none => pure false
      | some _ => y) := by
  rw [Follows, List.prod_cons]
  refine ⟨Language.exists_mem_mul hx.nonempty hy.nonempty, ?_⟩
  refine Speaks.bindValue (K := fun hit ok => hit.elim 1 fun _ => ifOk Ls.prod ok)
    (O := fun hit => hit.elim 1 fun _ => Ls.prod) hx.emits (fun hit => ?_) (fun hit ok => ?_)
    (Language.prefixes_le_mul hy.nonempty) fun hit => ?_
  · cases hit with
    | none => exact .pure le_rfl
    | some p => exact hy.emits
  · cases hit with
    | none => exact (zero_mul _).le.trans bot_le
    | some p => exact (mul_le_mul' (hL p) le_rfl).trans (mul_ifOk_le M Ls.prod ok)
  · cases hit with
    | none => exact (zero_mul _).le.trans bot_le
    | some p => exact mul_le_mul' (hL p) le_rfl

/-- The flow goes on only after a part that has succeeded. -/
theorem reached {x y : Ahk Bool} (hx : Follows env id Ls x) (hy : Follows env id Ls' y) :
    Follows env id (Ls ++ Ls') (do if ← x then y else pure false) := by
  rw [Follows, List.prod_append]
  refine ⟨Language.exists_mem_mul hx.nonempty hy.nonempty, ?_⟩
  refine Speaks.bindValue (K := fun ok ok' => if ok then ifOk Ls'.prod ok' else 1)
    (O := fun ok => if ok then Ls'.prod else 1) hx.emits (fun ok => ?_) (fun ok ok' => ?_)
    (Language.prefixes_le_mul hy.nonempty) fun ok => ?_
  · cases ok with
    | true => exact hy.emits
    | false => exact .pure le_rfl
  · cases ok with
    | true => exact mul_ifOk_le Ls.prod Ls'.prod ok'
    | false => exact (zero_mul _).le.trans bot_le
  · cases ok with
    | true => exact le_rfl
    | false => exact (zero_mul _).le.trans bot_le

theorem running {x : Ahk Bool} (hx : Follows env id Ls x) :
    Follows env id Ls (do if !(← gets St.running) then pure false else x) where
  nonempty := hx.nonempty
  emits := by
    intro r hr s
    rw [wp_bind, wp_gets]
    refine wp_ite (fun hstop => ?_) fun _ => hx.emits r hr s
    exact (wp_pure _).2 (added_of_stopped ((Bool.not_eq_true' _).mp hstop))

end Follows

/-! ## The two flows -/

section Steps

variable {env : Env} {f : ScriptFile} {passes : ℕ} {node : Node}

theorem performs_step {α : Type} {l : List Event} {x : Ahk α} (step : FlowStep) (ms : ℕ)
    (hx : Performs env l x) :
    Performs env l (within (.step step) do let _ ← x; sleep .flowPause ms) :=
  (hx.bind (fun _ => .sleep _ _) (List.nil_append l).symm).within _

theorem speaks_zoomOut (step : FlowStep) : Speaks env (fun _ => zoomOut) zoomOut
    (within (.step step) do let _ ← specialFullZoomOut 30 15; sleep .flowPause 100) :=
  .of_performs (performs_step step 100 (performs_specialFullZoomOut 30 15))

theorem performs_sendUp (ks : List Key) :
    Performs env (ks.map fun k => Event.key (.up k)).reverse (sendUp ks) :=
  fun _ _ => leads_sendUp ks

theorem performs_sendDown (ks : List Key) :
    Performs env (ks.map fun k => Event.key (.down k)).reverse (sendDown ks) :=
  fun _ _ => leads_sendDown ks

theorem performs_press (ks : List Key) (site : Site) (ms : ℕ) :
    Performs env ((ks.map fun k => Event.key (.up k)).reverse ++
      (ks.map fun k => Event.key (.down k)).reverse) (do
        let _ ← specialCheckStop false
        sendDown ks
        sleep site ms
        sendUp ks) :=
  .after performs_check fun _ => (performs_sendDown ks).bind
    (fun _ => .after (.sleep _ _) fun _ => performs_sendUp ks) rfl

theorem speaks_press (ks : List Key) (site : Site) (ms : ℕ) (step : FlowStep) (pause : ℕ) :
    Speaks env (fun _ => press ks) (press ks) (within (.step step) do
      let _ ← (do
        let _ ← specialCheckStop false
        sendDown ks
        sleep site ms
        sendUp ks : Ahk Unit)
      sleep .flowPause pause) := by
  have hpress : Performs env _ _ := performs_step step pause (performs_press ks site ms)
  simpa only [press, pressed, List.reverse_append, List.reverse_reverse] using
    Speaks.of_performs hpress

theorem speaks_release : Speaks env (fun _ => release) release releaseSpecialKeys := by
  have hup : Performs env _ releaseSpecialKeys := performs_sendUp specialKeys
  have hrelease := Speaks.of_performs hup
  rwa [List.reverse_reverse] at hrelease

theorem speaks_searchStep (step : FlowStep) :
    Speaks env (ifFound (foundAt f)) (seek f) (within (.step step) (search f passes node)) :=
  (speaks_search f passes node).within _

theorem foundAt_le_seek (p : ℤ × ℤ) : foundAt f p ≤ seek f := fun _ hw => ⟨p, hw⟩

end Steps

section Flows

variable {env : Env}

namespace Wagon

theorem follows_center (passes : ℕ) (node : Node) (step : FlowStep) :
    Follows env id [centre .wagonMove 40] (do
      let _ ← within (.step step) (specialCenterColorWithCamera passes node)
      let _ ← specialCheckStop
      pure true) := by
  have hcenter : Speaks env (fun _ => centre .wagonMove 40) (centre .wagonMove 40)
      (specialCenterColorWithCamera passes node) := by
    have hdone (result : CenterResult) : Speaks env (fun _ => 1) 1 (pure result.ok : Ahk Bool) :=
      .silent (.pure _)
    have hbind := (speaks_centerColor .wagonMove node passes).bind hdone
      ⟨[], Language.nil_mem_one⟩
    rwa [mul_one] at hbind
  exact .cons (hcenter.within _) fun _ => .checked (.done rfl)

theorem follows_approach (passes : ℕ) (node : Node) :
    Follows env id approachStages (approach passes node) :=
  .part _ (speaks_zoomOut .zoomOut) <| .announced _ <|
    .found (speaks_searchStep .search) foundAt_le_seek <| .checked <| .announced _ <|
      follows_center passes node .center

theorem follows_walk : Follows env (fun _ => true) walkStages walk := by
  have hwait : Speaks env (fun _ => 1) 1 (within (.step .wait) (sleep .flowPause 500)) :=
    .silent ((Performs.sleep _ _).within _)
  exact .part _ (speaks_press [.w] .specialHoldKey 3000 .walk 120) <|
    .part _ (speaks_press [.s] .specialHoldKey 50 .stepBack 80) <|
      .part _ (speaks_zoomOut .secondZoomOut) <| .announced _ <| .after hwait fun _ =>
        .checked (.done rfl)

theorem follows_secondApproach (passes : ℕ) (node : Node) :
    Follows env id secondApproachStages (secondApproach passes node) :=
  .announced _ <| .found (speaks_searchStep .secondSearch) foundAt_le_seek <| .checked <|
    .announced _ <| follows_center passes node .secondCenter

theorem follows_jump : Follows env (fun _ => true) jumpStages jump := by
  have hstatus (text : String) : Follows env (fun _ => true) [] (setStatus text) :=
    .status text
  exact .announced _ <| .cons (speaks_press [.space] .specialTapKey 60 .firstJump 250) fun _ =>
    .cons (speaks_press [.space] .specialTapKey 60 .secondJump 50) fun _ => .checked <|
      .announced _ <| .cons (speaks_press [.w] .specialHoldKey 350 .lastWalk 120) fun _ =>
        .cons speaks_release fun _ => hstatus _

end Wagon

namespace Alien

theorem follows_prepare : Follows env (fun _ => true) prepareStages prepare :=
  .part _ (speaks_press [.f] .specialTapKey 60 .pressF 200) <|
    .part _ (speaks_press [.space] .specialHoldKey 3000 .holdSpace 150) <|
      .part _ (speaks_zoomOut .zoomOut) (.done rfl)

theorem follows_approach (passes : ℕ) (node : Node) :
    Follows env id approachStages (approach passes node) := by
  have hcenter : Speaks env (fun _ => centre .alienWagonMove 80) (centre .alienWagonMove 80)
      (within (.step .center) do
        let _ ← specialCenterColorWithCamera passes node
        sleep .flowPause 120) := by
    have hpause : Speaks env (fun _ => 1) 1 (sleep .flowPause 120) := .silent (.sleep _ _)
    have hbind := (speaks_centerColor .alienWagonMove node passes).bind (fun _ => hpause)
      ⟨[], Language.nil_mem_one⟩
    rw [mul_one] at hbind
    exact hbind.within _
  exact .announced _ <| .found (speaks_searchStep .search) foundAt_le_seek <| .checked <|
    .part _ hcenter (.done rfl)

theorem follows_walk : Follows env (fun _ => true) walkStages walk :=
  .announced _ <| .cons (speaks_press [.w, .space] .specialHoldTwoKeys 3500 .walk 150) fun _ =>
    .cons speaks_release fun _ => .checked <|
      .part _ (speaks_press [.f] .specialTapKey 60 .lastPressF 200) <| .announced _ <|
        .cons (speaks_zoomOut .lastZoomOut) fun _ => .cons speaks_release fun _ => .status _

end Alien

theorem follows_flow (f : ScriptFile) (passes : ℕ) (node : Node) :
    Follows env id (stages f) (specialMovementFlow f passes node) := by
  have hactivate : Speaks env (fun _ => 1) 1 activateRoblox := .silent performs_activateRoblox
  cases f with
  | wagonMove =>
      exact .running <| .after hactivate fun _ => .checked <|
        .reached (Wagon.follows_approach passes node) <| .append Wagon.follows_walk fun _ =>
          .reached (Wagon.follows_secondApproach passes node) <|
            .append Wagon.follows_jump fun _ => .done rfl
  | alienWagonMove =>
      exact .running <| .after hactivate fun _ => .checked <|
        .append Alien.follows_prepare fun _ => .reached (Alien.follows_approach passes node) <|
          .append Alien.follows_walk fun _ => .done rfl

end Flows

end WagonMove
