import Mathlib.Data.Finset.Insert
import WagonMove.Marker
import WagonMove.Prog
import WagonMove.Trace

/-!
# The world of the scripts

What AutoHotkey and Windows answer (`Env`), what the scripts keep in their globals (`St`), what an
observer sees them do (`Event`), and the built-in commands the scripts are written with. Every
query consumes one answer of the environment, so an environment is any sequence of results.
-/

namespace WagonMove

inductive Key where
  | w | a | s | d | left | right | up | down | space | rButton | f
  deriving DecidableEq

/-- The parts of the two flows, each a call with the `Sleep` that follows it. -/
inductive FlowStep where
  | pressF | holdSpace | zoomOut | search | center | walk | stepBack | secondZoomOut | wait
  | secondSearch | secondCenter | firstJump | secondJump | lastWalk | lastPressF | lastZoomOut
  deriving DecidableEq

/-- Where a `Sleep` stands: the function, the place in it, or the part of the flow calling it. -/
inductive Site where
  | activateRoblox | beginScreenRead | specialTapKey | specialHoldKey | specialHoldTwoKeys
  | specialFullZoomOut | searchTimeout | missPause | rotation | rotationSettle | rotationHold
  | rotationRest | centerPause | flowPause | ending
  | step (s : FlowStep)
  deriving DecidableEq

structure Err where
  message : String
  deriving DecidableEq

structure Rect where
  x : ℤ
  y : ℤ
  w : ℤ
  h : ℤ
  deriving DecidableEq

structure Search where
  x1 : ℤ
  y1 : ℤ
  x2 : ℤ
  y2 : ℤ
  color : ℕ
  variation : ℤ
  deriving DecidableEq

inductive PixelResult where
  | hit (x y : ℤ)
  | miss
  | threw
  deriving DecidableEq

/-- What happens during one `Sleep`: how far the clock moves, how often the marker timer is due,
whether another pseudo-thread clears `Running`, whether the script is asked to exit. -/
structure Nap where
  elapsed : ℕ
  ticks : ℕ := 0
  stop : Bool := false
  close : Bool := false

/-- Which of the operations on one signal file succeed. -/
structure FileOps where
  exist : Bool
  delete : Bool
  append : Bool
  deriving DecidableEq

inductive Attempt where
  | main
  | fallback
  deriving DecidableEq

structure Env where
  winExist : ℕ → String → ℕ
  winActivate : ℕ → Option Err
  getClientRect : ℕ → Option (ℤ × ℤ × ℤ × ℤ)
  clientToScreen : ℕ → Option (ℤ × ℤ)
  winGetClientPos : ℕ → Option Rect
  winGetPos : ℕ → Option Rect
  pixelSearch : ℕ → Search → PixelResult
  pixelGetColor : ℕ → ℤ → ℤ → Option ℕ
  /-- How far the clock has moved when `A_TickCount` is read. -/
  drift : ℕ → ℕ
  sleep : ℕ → Nap
  files : Attempt → FileOps
  screenWidth : ℤ
  screenHeight : ℤ
  scriptDir : String
  temp : String

def Env.idle : Env where
  winExist _ _ := 1
  winActivate _ := none
  getClientRect _ := some (0, 0, 800, 600)
  clientToScreen _ := some (0, 0)
  winGetClientPos _ := none
  winGetPos _ := none
  pixelSearch _ _ := .miss
  pixelGetColor _ _ _ := none
  drift _ := 0
  sleep _ := { elapsed := 1 }
  files _ := ⟨true, true, true⟩
  screenWidth := 1920
  screenHeight := 1080
  scriptDir := "C:\\scripts"
  temp := "C:\\temp"

/-- What a screen read could catch of the script's own windows. -/
structure View where
  overlayShown : Bool
  toolTipShown : Bool
  suppressed : Bool
  markerAlive : Bool
  timerOn : Bool
  deriving DecidableEq

inductive Status where
  | ok
  | error
  deriving DecidableEq

/-- The node object: the colour text as read from the configuration, and the tolerance. -/
structure Node where
  colorHex : String
  tolerance : ℤ
  deriving DecidableEq

/-- Where a script stands when it wakes up: the answer of the environment that is next, the clock,
and what the alien script remembers of its last hit. -/
structure Moment where
  asked : ℕ
  now : ℕ
  lastColorX : ℤ
  lastColorY : ℤ
  lastColorTick : ℕ
  deriving DecidableEq

inductive Event where
  | key (k : Stroke Key)
  | wheelDown
  | slept (scope : List Site) (ms : ℕ)
  /-- Another pseudo-thread has cleared `Running` during a `Sleep`. -/
  | stopped (scope : List Site) (m : Moment)
  | overlayShown (text : List UInt16) (x y : ℤ)
  | pixelSearch (q : Search) (v : View)
  | pixelGetColor (x y : ℤ) (v : View)
  /-- `SpecialFindTargetColor` returns. -/
  | searched (hit : Option (ℤ × ℤ))
  /-- The search is about to turn the camera: Roblox has been activated for it. -/
  | turning
  /-- The centring compares a position with the middle of a client rectangle. -/
  | aimed (fx : ℤ) (rect : Rect)
  /-- The entry point is reached with this node and this `_SignalFile`. -/
  | entered (node : Node) (signalFile : String)
  | flowReturned (ok : Bool)
  /-- `WriteSignalAndExit` is called. -/
  | signal (status : Status) (detail : String)
  | fileExist (a : Attempt)
  | fileDelete (a : Attempt) (ok : Bool)
  | fileAppend (a : Attempt) (ok : Bool)
  | exitApp (code : ℕ)
  | gdipShutdown
  deriving DecidableEq

/-- The globals of a script with the state they control; the trace lists events newest first. -/
structure St where
  running : Bool := false
  signalFile : String := ""
  statusLastText : String := ""
  statusOverlaySuppressed : Bool := false
  overlayText : List UInt16 := []
  overlayShown : Bool := false
  toolTipShown : Bool := false
  marker : Marker := {}
  lastColorX : ℤ := 0
  lastColorY : ℤ := 0
  lastColorTick : ℕ := 0
  now : ℕ := 0
  asked : ℕ := 0
  files : String → Option String := fun _ => none
  trace : List Event := []

structure Ctx where
  env : Env
  scope : List Site := []

abbrev Ahk (α : Type) := Prog Ctx St Err α

open Prog

def St.record (e : Event) (s : St) : St := { s with trace := e :: s.trace }

def log (e : Event) : Ahk Unit := update (St.record e)

/-- Take the next answer of the environment. -/
def ask {α : Type} (q : Env → ℕ → α) : Ahk α :=
  ⟨fun r s => (.ok (q r.env s.asked), { s with asked := s.asked + 1 })⟩

def constant {α : Type} (q : Env → α) : Ahk α := ⟨fun r s => (.ok (q r.env), s)⟩

def Ctx.enter (site : Site) (r : Ctx) : Ctx := { r with scope := site :: r.scope }

def within {α : Type} (site : Site) (x : Ahk α) : Ahk α := under (Ctx.enter site) x

def throwErr {α : Type} (message : String) : Ahk α := raise ⟨message⟩

/-- `_WagonOnExit`, the only `OnExit` handler. -/
def wagonOnExit : Ahk Unit := log .gdipShutdown

def exitApp {α : Type} (code : ℕ) : Ahk α := do
  log (.exitApp code)
  wagonOnExit
  abort (.exited code)

/-- `A_TickCount`. -/
def tickCount : Ahk ℕ := do
  let d ← ask Env.drift
  update fun s => { s with now := s.now + d }
  gets St.now

def St.moment (s : St) : Moment :=
  { asked := s.asked
    now := s.now
    lastColorX := s.lastColorX
    lastColorY := s.lastColorY
    lastColorTick := s.lastColorTick }

/-- The state after a nap, apart from an exit request. -/
def St.nap (n : Nap) (scope : List Site) (ms : ℕ) (s : St) : St :=
  let woken := { s with asked := s.asked + 1, now := s.now + n.elapsed }
  { woken with
    marker := Marker.tick^[n.ticks] s.marker
    running := s.running && !n.stop
    trace :=
      if s.running && n.stop then .stopped scope woken.moment :: .slept scope ms :: s.trace
      else .slept scope ms :: s.trace }

/-- `Sleep`: timers, other pseudo-threads and exit requests get their turn here. -/
def sleep (site : Site) (ms : ℕ) : Ahk Unit := ⟨fun r s =>
  let n := r.env.sleep s.asked
  let s' := s.nap n (site :: r.scope) ms
  if n.close then ((wagonOnExit >>= fun _ => abort .closed : Ahk Unit).run r s') else (.ok (), s')⟩

/-- `SendEvent` of key-down events, in order. -/
def sendDown : List Key → Ahk Unit
  | [] => pure ()
  | k :: ks => do
    log (.key (.down k))
    sendDown ks

/-- `SendEvent` of key-up events, in order. -/
def sendUp : List Key → Ahk Unit
  | [] => pure ()
  | k :: ks => do
    log (.key (.up k))
    sendUp ks

def St.view (s : St) : View :=
  { overlayShown := s.overlayShown
    toolTipShown := s.toolTipShown
    suppressed := s.statusOverlaySuppressed
    markerAlive := !s.marker.windows.isEmpty || s.marker.gui.isSome
    timerOn := s.marker.timer }

/-- `PixelSearch`; an error comes back as `threw`, for the `try` around every call to drop. -/
def pixelSearch (q : Search) : Ahk PixelResult := do
  let v ← gets St.view
  log (.pixelSearch q v)
  ask fun env n => env.pixelSearch n q

def pixelGetColor (x y : ℤ) : Ahk (Option ℕ) := do
  let v ← gets St.view
  log (.pixelGetColor x y v)
  ask fun env n => env.pixelGetColor n x y

def showSpecialMarker (f : ScriptFile) (x y : ℤ) : Ahk Unit :=
  update fun s => { s with marker := s.marker.showSpecialMarker f x y }

def hideSpecialMarker : Ahk Unit :=
  update fun s => { s with marker := s.marker.hideSpecialMarker }

/-- `ToolTip()` without a text takes the tooltip away. -/
def toolTip : Ahk Unit := update fun s => { s with toolTipShown := false }

end WagonMove
