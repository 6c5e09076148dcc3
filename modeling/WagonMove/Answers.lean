import WagonMove.CachedSearch
import WagonMove.Phases

/-!
# What a stopped script still does

A script that has been stopped in a `Sleep` runs on to its next check. Whether it presses a key on
the way, or gets to its end without a check, follows from the place of the `Sleep`, from the looks
that have missed so far, and from what the environment is going to answer. `Env.hwndAt` and its like
read these answers ahead; they give for each query the answer and the number of the next one.
-/

namespace WagonMove

open Prog

namespace Env

variable (env : Env) (n : ℕ)

def hwndAt : ℕ × ℕ :=
  if env.winExist n "ahk_exe RobloxPlayerBeta.exe" ≠ 0 then
    (env.winExist n "ahk_exe RobloxPlayerBeta.exe", n + 1)
  else (env.winExist (n + 1) "Roblox", n + 2)

def fallbackRectAt : Option Rect × ℕ :=
  match env.winGetClientPos n with
  | some r => (r.found, n + 1)
  | none => ((env.winGetPos (n + 1)).bind Rect.found, n + 2)

def clientRectAt : Option Rect × ℕ :=
  let (hwnd, n) := env.hwndAt n
  if hwnd = 0 then (none, n)
  else
    match env.getClientRect n with
    | none => env.fallbackRectAt (n + 1)
    | some (left, top, right, bottom) =>
      match env.clientToScreen (n + 1) with
      | none => env.fallbackRectAt (n + 2)
      | some (x, y) => (Rect.found ⟨x, y, right - left, bottom - top⟩, n + 2)

/-- The client rectangle, or the whole screen if there is none. -/
def rectAt : Rect × ℕ :=
  let (rect, n) := env.clientRectAt n
  (rect.getD ⟨0, 0, env.screenWidth, env.screenHeight⟩, n)

/-- A hit of the search for the RGB colour, or else of the one for the BGR colour. -/
def hitAt (x1 y1 x2 y2 : ℤ) (t : Target) : Option (ℤ × ℤ) × ℕ :=
  match (env.pixelSearch n ⟨x1, y1, x2, y2, t.colorRGB, t.tol⟩).found with
  | some p => (some p, n + 1)
  | none => ((env.pixelSearch (n + 1) ⟨x1, y1, x2, y2, t.colorBGR, t.tol⟩).found, n + 2)

/-- What follows the activation of Roblox and its pause; an activation that fails ends the flow. -/
def activatedAt (next : ℕ → Bool) : Bool :=
  let (hwnd, n) := env.hwndAt n
  hwnd ≠ 0 && env.winActivate n = none && next (n + 2)

/-- A turn of the camera comes about: Roblox is activated for it, in the wagon script once more for
the zoom before it. -/
def turnsAt : ScriptFile → Bool
  | .wagonMove => env.activatedAt n fun n => env.activatedAt n fun _ => true
  | .alienWagonMove => env.activatedAt n fun _ => true

end Env

/-- What the alien script finds around its last hit, if there was one at most 600 ms ago. -/
def Alien.nearbyAt (env : Env) (t : Target) (m : Moment) : Option (ℤ × ℤ) × ℕ :=
  if m.lastColorTick = 0 then (none, m.asked)
  else if ((m.now + env.drift m.asked : ℕ) : ℤ) - m.lastColorTick ≤ 600 then
    let (rx1, ry1, rx2, ry2) := Alien.roi t m.lastColorX m.lastColorY
    env.hitAt (m.asked + 1) rx1 ry1 rx2 ry2 t
  else (none, m.asked + 1)

/-- A hit is remembered with the time, for which the clock is read. -/
def Alien.rememberedAt : Option (ℤ × ℤ) × ℕ → Option (ℤ × ℤ) × ℕ
  | (some p, n) => (some p, n + 1)
  | (none, n) => (none, n)

def Alien.hitAt (env : Env) (t : Target) (m : Moment) : Option (ℤ × ℤ) × ℕ :=
  match Alien.nearbyAt env t m with
  | (some p, n) => Alien.rememberedAt (some p, n)
  | (none, n) => Alien.rememberedAt (env.hitAt n t.x1 t.y1 t.x2 t.y2 t)

def Env.foundAt (env : Env) (t : Target) (m : Moment) : ScriptFile → Option (ℤ × ℤ) × ℕ
  | .wagonMove => env.hitAt m.asked t.x1 t.y1 t.x2 t.y2 t
  | .alienWagonMove => Alien.hitAt env t m

/-- What a look finds that has come as far as its pause. -/
def lookAt (f : ScriptFile) (node : Node) (env : Env) (m : Moment) : Option (ℤ × ℤ) × ℕ :=
  let (rect, n) := env.rectAt m.asked
  if normalizeHex node.colorHex false = "" then (none, n)
  else env.foundAt (rect.target (normalizeHex node.colorHex false) node) { m with asked := n } f

/-! ## Stops that are dropped -/

/-- How many looks in a row have missed. -/
def misses : List Event → ℕ
  | [] => 0
  | .searched none :: t => misses t + 1
  | .searched (some _) :: _ => 0
  | _ :: t => misses t

/-- The looks of a part of the flow that are not those of a search: the centring has one of its own
before it searches. -/
def FlowStep.ownLooks (step : FlowStep) : ℕ := if step.isSearch then 0 else 1

/-- A key follows a look that has found `hit`, the answer `n` being next: the centring taps if it
sees the colour off centre, and a search turns the camera after each fifth miss. -/
def keyFollows (f : ScriptFile) (env : Env) (step : FlowStep) (missed : ℕ)
    (hit : Option (ℤ × ℤ)) (n : ℕ) : Bool :=
  match hit with
  | some (fx, _) => !step.isSearch && centerTolX < |centerError fx (env.rectAt n).1|
  | none =>
    let searched := missed + 1 - step.ownLooks
    searched ≠ 0 && searched % checksBeforeRotate = 0 && env.turnsAt n f

/-- Whether a stop is dropped that arrives in `scope` after `missed` looks without a hit. -/
def dropsStop (f : ScriptFile) (node : Node) (env : Env) (scope : List Site) (missed : ℕ)
    (m : Moment) : Bool :=
  match scope with
  -- The camera is about to be turned: nothing but an activation that fails is in the way.
  | .rotationSettle :: _ | .activateRoblox :: .rotation :: _ => true
  | .specialFullZoomOut :: .rotation :: _
  | .activateRoblox :: .specialFullZoomOut :: .rotation :: _ =>
    env.activatedAt m.asked fun _ => true
  | [.beginScreenRead, .step step] =>
    let (hit, n) := lookAt f node env m
    keyFollows f env step missed hit n
  -- The second jump follows the first one, and the end of a flow its last part, without a check.
  | scope => scope.any fun site =>
      site = .step .firstJump || site = .step .lastWalk || site = .step .lastZoomOut

/-! ## The queries give these answers -/

section Queries

variable {α : Type} {E : Abort Err → St → Prop} {r : Ctx} {s : St}

theorem wp_getRobloxHwnd_at {Q : ℕ → St → Prop} : wp getRobloxHwnd Q E r s ↔
    Q (r.env.hwndAt s.asked).1 { s with asked := (r.env.hwndAt s.asked).2 } := by
  rw [getRobloxHwnd, wp_bind, wp_ask, Env.hwndAt]
  by_cases h : r.env.winExist s.asked "ahk_exe RobloxPlayerBeta.exe" ≠ 0
  · rw [if_pos h, if_pos h, wp_pure]
  · rw [if_neg h, if_neg h, wp_ask]

theorem wp_clientRectFallback_at {Q : Option Rect → St → Prop} :
    wp clientRectFallback Q E r s ↔
      Q (r.env.fallbackRectAt s.asked).1 { s with asked := (r.env.fallbackRectAt s.asked).2 } := by
  rw [clientRectFallback, wp_bind, wp_ask, Env.fallbackRectAt]
  cases r.env.winGetClientPos s.asked with
  | some rect => exact wp_pure _
  | none =>
      dsimp only
      rw [wp_bind, wp_ask]
      cases r.env.winGetPos (s.asked + 1) <;> exact wp_pure _

theorem wp_getRobloxClientRect_at {Q : Option Rect → St → Prop} :
    wp getRobloxClientRect Q E r s ↔
      Q (r.env.clientRectAt s.asked).1 { s with asked := (r.env.clientRectAt s.asked).2 } := by
  rw [getRobloxClientRect, wp_bind, wp_getRobloxHwnd_at, Env.clientRectAt]
  obtain ⟨hwnd, n⟩ := r.env.hwndAt s.asked
  dsimp only
  by_cases h : hwnd = 0
  · rw [if_pos h, if_pos h, wp_pure]
  · rw [if_neg h, if_neg h, wp_bind, wp_ask]
    cases r.env.getClientRect n with
    | none => exact wp_clientRectFallback_at
    | some c =>
        dsimp only
        rw [wp_bind, wp_ask]
        cases r.env.clientToScreen (n + 1) with
        | none => exact wp_clientRectFallback_at
        | some p => exact wp_pure _

theorem wp_clientRectOrScreen_at {Q : Rect → St → Prop} : wp clientRectOrScreen Q E r s ↔
    Q (r.env.rectAt s.asked).1 { s with asked := (r.env.rectAt s.asked).2 } := by
  rw [clientRectOrScreen, wp_bind, wp_getRobloxClientRect_at, Env.rectAt]
  obtain ⟨rect, n⟩ := r.env.clientRectAt s.asked
  cases rect with
  | some rect => exact wp_pure _
  | none => exact wp_constant _

theorem answers_searchBoth (x1 y1 x2 y2 : ℤ) (t : Target) : wp (searchBoth x1 y1 x2 y2 t)
    (fun hit s' => (hit, s'.asked) = r.env.hitAt s.asked x1 y1 x2 y2 t) E r s := by
  rw [searchBoth, wp_bind, wp_trySearch, Env.hitAt]
  cases (r.env.pixelSearch s.asked ⟨x1, y1, x2, y2, t.colorRGB, t.tol⟩).found with
  | some p => exact (wp_pure _).2 rfl
  | none => exact (wp_trySearch _).2 rfl

theorem answers_wagon_searchTarget (t : Target) : wp (Wagon.searchTarget true t)
    (fun hit s' => (hit, s'.asked) = r.env.hitAt s.asked t.x1 t.y1 t.x2 t.y2 t) E r s := by
  rw [Wagon.searchTarget, wp_bind]
  apply wp_imp (answers_searchBoth _ _ _ _ t)
  intro hit s' h
  cases hit <;> exact (wp_pure _).2 h

theorem answers_remember (p : ℤ × ℤ) : wp (Alien.remember p)
    (fun hit s' => (hit, s'.asked) = (some p, s.asked + 1)) E r s := by
  rw [Alien.remember, wp_bind, wp_update, wp_bind, wp_tickCount, wp_bind, wp_update, wp_pure]

theorem answers_searchRoi (t : Target) : wp (Alien.searchRoi t)
    (fun hit s' => (hit, s'.asked) = Alien.nearbyAt r.env t s.moment) E r s := by
  rw [Alien.searchRoi, wp_bind, Alien.roiValid, wp_bind, wp_gets]
  by_cases hzero : s.lastColorTick = 0
  · rw [if_pos hzero, wp_pure, if_neg Bool.false_ne_true, wp_pure]
    exact (if_pos hzero).symm
  · rw [if_neg hzero, wp_bind, wp_tickCount, wp_bind, wp_gets, wp_pure]
    by_cases hfresh : ((s.now + r.env.drift s.asked : ℕ) : ℤ) - s.lastColorTick ≤ 600
    · have hnear : Alien.nearbyAt r.env t s.moment = _ :=
        (if_neg hzero).trans (if_pos hfresh)
      rw [if_pos (decide_eq_true hfresh), wp_bind, wp_gets, hnear]
      exact wp_imp (answers_searchBoth _ _ _ _ t) fun _ _ h => h
    · have hnear : Alien.nearbyAt r.env t s.moment = _ :=
        (if_neg hzero).trans (if_neg hfresh)
      rw [if_neg (by simpa using hfresh), wp_pure, hnear]
      rfl

theorem answers_alien_searchTarget (t : Target) : wp (Alien.searchTarget true t)
    (fun hit s' => (hit, s'.asked) = Alien.hitAt r.env t s.moment) E r s := by
  rw [Alien.searchTarget, wp_bind, Alien.hitAt]
  apply wp_imp (answers_searchRoi t)
  intro hit s' h
  rw [← h]
  cases hit with
  | some p => exact answers_remember p
  | none =>
      rw [wp_bind]
      apply wp_imp (answers_searchBoth _ _ _ _ t)
      intro hit s'' h
      dsimp only
      rw [← h]
      cases hit with
      | some p => exact answers_remember p
      | none => exact (wp_pure _).2 rfl

def searchTarget : ScriptFile → Target → Ahk (Option (ℤ × ℤ))
  | .wagonMove => Wagon.searchTarget true
  | .alienWagonMove => Alien.searchTarget true

theorem answers_searchTarget (f : ScriptFile) (t : Target) : wp (searchTarget f t)
    (fun hit s' => (hit, s'.asked) = r.env.foundAt t s.moment f) E r s := by
  cases f with
  | wagonMove => exact answers_wagon_searchTarget t
  | alienWagonMove => exact answers_alien_searchTarget t

theorem findTargetColor_frame (f : ScriptFile) (node : Node) : findTargetColor f node = (do
    let hit ← screenRead node (searchTarget f)
    log (.searched hit)
    pure hit) := by cases f <;> rfl

theorem looked_searchTarget (f : ScriptFile) (t : Target) : Does Looked (searchTarget f t) := by
  cases f with
  | wagonMove => exact looked_wagon_searchTarget true t
  | alienWagonMove => exact looked_alien_searchTarget true t

/-- What a look does after its pause, up to showing the overlay again. -/
theorem answers_look (f : ScriptFile) (node : Node) : wp (do
    let rect ← clientRectOrScreen
    let hex := normalizeHex node.colorHex false
    if hex = "" then pure none
    else searchTarget f (rect.target hex node))
    (fun hit s' => (hit, s'.asked) = lookAt f node r.env s.moment) E r s := by
  rw [wp_bind, wp_clientRectOrScreen_at]
  unfold lookAt
  dsimp only [St.moment]
  obtain ⟨rect, n⟩ := r.env.rectAt s.asked
  by_cases hhex : normalizeHex node.colorHex false = ""
  · rw [if_pos hhex, if_pos hhex, wp_pure]
  · rw [if_neg hhex, if_neg hhex]
    exact wp_imp (answers_searchTarget f _) fun _ _ h => h

end Queries

end WagonMove
