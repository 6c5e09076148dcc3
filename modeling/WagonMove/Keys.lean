import WagonMove.Screen

/-!
# Keys and the stop flag

`SpecialCheckStop` and the helpers that send keys and wheel events, the same in both scripts.
-/

namespace WagonMove

open Prog

/-- The keys that `ReleaseSpecialKeys` lifts, in its order. -/
def specialKeys : List Key := [.w, .a, .s, .d, .left, .right, .up, .down, .space, .rButton]

def releaseSpecialKeys : Ahk Unit := sendUp specialKeys

def specialCheckStop (throwOnStop : Bool := true) : Ahk Bool := do
  if ← gets St.running then pure false
  else
    releaseSpecialKeys
    if throwOnStop then throwErr "Stopped by user." else pure true

def specialTapKey (key : Key) (ms : ℕ := 60) : Ahk Unit := do
  let _ ← specialCheckStop false
  sendDown [key]
  sleep .specialTapKey ms
  sendUp [key]

def specialHoldKey (key : Key) (ms : ℕ) : Ahk Unit := do
  let _ ← specialCheckStop false
  sendDown [key]
  sleep .specialHoldKey ms
  sendUp [key]

def specialHoldTwoKeys (key1 key2 : Key) (ms : ℕ) : Ahk Unit := do
  let _ ← specialCheckStop false
  sendDown [key1, key2]
  sleep .specialHoldTwoKeys ms
  sendUp [key1, key2]

/-- One turn of the wheel, unless the flow has been stopped. -/
def zoomTick (delayMs : ℕ) : Ahk (Turn Bool Unit) := do
  if ← specialCheckStop false then pure (.leave false)
  else
    log .wheelDown
    sleep .specialFullZoomOut delayMs
    pure (.again ())

def specialFullZoomOut (ticks : ℕ := 30) (delayMs : ℕ := 15) : Ahk Bool := do
  within .specialFullZoomOut activateRoblox
  loop (fun _ => zoomTick delayMs) (fun _ => pure true) ticks ()

end WagonMove
