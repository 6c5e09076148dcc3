import WagonMove.Text
import WagonMove.World

/-!
# Status overlay, windows and colour search

The functions of the two scripts that draw on the screen or read it. They are the same text in
both files except for `SpecialFindTargetColor`, which remembers the last hit in the alien script.
-/

namespace WagonMove

open Prog

/-! ## Windows -/

def getRobloxHwnd : Ahk ℕ := do
  let hwnd ← ask fun env n => env.winExist n "ahk_exe RobloxPlayerBeta.exe"
  if hwnd ≠ 0 then pure hwnd
  else ask fun env n => env.winExist n "Roblox"

def activateRoblox : Ahk Unit := do
  let hwnd ← getRobloxHwnd
  if hwnd = 0 then throwErr "Roblox window not found."
  else
    match ← ask Env.winActivate with
    | some e => raise e
    | none => sleep .activateRoblox 250

/-- `w > 0 && h > 0` decides whether the rectangle counts as found. -/
def Rect.found (r : Rect) : Option Rect := if 0 < r.w ∧ 0 < r.h then some r else none

/-- The nested `catch` blocks of `GetRobloxClientRect`. -/
def clientRectFallback : Ahk (Option Rect) := do
  match ← ask Env.winGetClientPos with
  | some r => pure r.found
  | none =>
    match ← ask Env.winGetPos with
    | some r => pure r.found
    | none => pure none

def getRobloxClientRect : Ahk (Option Rect) := do
  let hwnd ← getRobloxHwnd
  if hwnd = 0 then pure none
  else
    match ← ask Env.getClientRect with
    | none => clientRectFallback
    | some (left, top, right, bottom) =>
      match ← ask Env.clientToScreen with
      | none => clientRectFallback
      | some (x, y) => pure (Rect.found ⟨x, y, right - left, bottom - top⟩)

def clientRectOrScreen : Ahk Rect := do
  match ← getRobloxClientRect with
  | some r => pure r
  | none => constant fun env => ⟨0, 0, env.screenWidth, env.screenHeight⟩

/-! ## Status overlay -/

/-- Where the status overlay goes, given the client rectangle if there is one. -/
def overlayPlace (rect : Option Rect) (screenWidth screenHeight : ℤ) : ℤ × ℤ :=
  let w : ℤ := 444
  let h : ℤ := 26
  match rect with
  | none => (8, 8)
  | some r =>
    let y := r.y - h - 6
    let y := if y < 0 then r.y + r.h + 6 else y
    let y := if screenHeight < y + h then max 0 (r.y - h - 6) else y
    let x := if screenWidth < r.x + w then max 0 (screenWidth - w - 4) else r.x
    (x, y)

def positionStatusOverlay : Ahk Unit := do
  let rect ← getRobloxClientRect
  let width ← constant Env.screenWidth
  let height ← constant Env.screenHeight
  let (x, y) := overlayPlace rect width height
  let text ← gets St.overlayText
  update fun s => { s with overlayShown := true }
  log (.overlayShown text x y)

/-- What fits on the overlay: texts over 120 units are cut to 117, if need be inside a pair. -/
def overlayLine (text : String) : List UInt16 :=
  let units := utf16Units text
  if 120 < units.length then units.take 117 ++ utf16Units "..." else units

def showStatusOverlay (text : String) : Ahk Unit := do
  let s ← gets id
  if !s.running || s.statusOverlaySuppressed then pure ()
  else
    let text := if text = "" then s.statusLastText else text
    if text = "" then pure ()
    else do
      update fun s => { s with overlayText := overlayLine text }
      positionStatusOverlay

def hideStatusOverlay : Ahk Unit := do
  toolTip
  update fun s => { s with overlayShown := false }

def setStatus (text : String) : Ahk Unit := do
  update fun s => { s with statusLastText := text }
  toolTip
  if ← gets St.running then showStatusOverlay text
  else hideStatusOverlay

def createStatusOverlayGui : Ahk Unit :=
  update fun s => { s with overlayText := [], overlayShown := false }

def beginScreenRead : Ahk Unit := do
  update fun s => { s with statusOverlaySuppressed := true }
  hideStatusOverlay
  sleep .beginScreenRead 20

def endScreenRead : Ahk Unit := do
  update fun s => { s with statusOverlaySuppressed := false }
  let s ← gets id
  if s.running && s.statusLastText ≠ "" then showStatusOverlay s.statusLastText
  else pure ()

/-! ## Colour search -/

def hexColor (hex : String) : ℕ := digitsValue 16 hex.toList

/-- The area, the two colours and the tolerance that a colour search works with. Client
coordinates are integers, which `Round` leaves alone. -/
structure Target where
  x1 : ℤ
  y1 : ℤ
  x2 : ℤ
  y2 : ℤ
  colorRGB : ℕ
  colorBGR : ℕ
  tol : ℤ

def Rect.target (r : Rect) (hex : String) (node : Node) : Target :=
  { x1 := r.x
    y1 := r.y
    x2 := r.x + r.w - 1
    y2 := r.y + r.h - 1
    colorRGB := hexColor hex
    colorBGR := rgbToBgr (hexColor hex)
    tol := node.tolerance }

/-- `try PixelSearch(...)`: a hit, or `none` on a miss or an error. -/
def trySearch (q : Search) : Ahk (Option (ℤ × ℤ)) := do
  match ← pixelSearch q with
  | .hit x y => pure (some (x, y))
  | .miss | .threw => pure none

/-- The two searches of a rectangle, RGB before BGR. -/
def searchBoth (x1 y1 x2 y2 : ℤ) (t : Target) : Ahk (Option (ℤ × ℤ)) := do
  match ← trySearch ⟨x1, y1, x2, y2, t.colorRGB, t.tol⟩ with
  | some p => pure (some p)
  | none => trySearch ⟨x1, y1, x2, y2, t.colorBGR, t.tol⟩

/-- Both strides of the slow fallback come closer to the far edge. -/
theorem stride_lt {a b : ℤ} (h : a ≤ b) : (b + 1 - (a + 4)).toNat < (b + 1 - a).toNat := by omega

def scanRow (t : Target) (yy xx : ℤ) : Ahk (Option (ℤ × ℤ)) :=
  let step := 4
  if xx ≤ t.x2 then do
    match ← pixelGetColor xx yy with
    | none => scanRow t yy (xx + step)
    | some c =>
      if specialColorNear c t.colorRGB t.tol then pure (some (xx, yy))
      else scanRow t yy (xx + step)
  else pure none
termination_by (t.x2 + 1 - xx).toNat
decreasing_by all_goals exact stride_lt ‹_›

def slowScan (t : Target) (yy : ℤ) : Ahk (Option (ℤ × ℤ)) :=
  let step := 4
  if yy ≤ t.y2 then do
    match ← scanRow t yy t.x1 with
    | some p => pure (some p)
    | none => slowScan t (yy + step)
  else pure none
termination_by (t.y2 + 1 - yy).toNat
decreasing_by exact stride_lt ‹_›

/-- The frame of every colour search: hide what is drawn, search, show it again. -/
def screenRead (node : Node) (search : Target → Ahk (Option (ℤ × ℤ))) :
    Ahk (Option (ℤ × ℤ)) := do
  hideSpecialMarker
  beginScreenRead
  ensure
    (do
      let r ← clientRectOrScreen
      let hex := normalizeHex node.colorHex false
      if hex = "" then pure none
      else search (r.target hex node))
    endScreenRead

namespace Wagon

def searchTarget (fastOnly : Bool) (t : Target) : Ahk (Option (ℤ × ℤ)) := do
  match ← searchBoth t.x1 t.y1 t.x2 t.y2 t with
  | some p => pure (some p)
  | none => if fastOnly then pure none else slowScan t t.y1

def specialFindTargetColor (node : Node) (fastOnly : Bool := true) : Ahk (Option (ℤ × ℤ)) := do
  let hit ← screenRead node (searchTarget fastOnly)
  log (.searched hit)
  pure hit

end Wagon

namespace Alien

/-- `_lastColorX := fx, _lastColorY := fy, _lastColorTick := A_TickCount`. -/
def remember (p : ℤ × ℤ) : Ahk (Option (ℤ × ℤ)) := do
  update fun s => { s with lastColorX := p.1, lastColorY := p.2 }
  let t ← tickCount
  update fun s => { s with lastColorTick := t }
  pure (some p)

def roiMargin : ℤ := 60

/-- Whether the cached position is recent enough; the clock is read only if there is one. -/
def roiValid : Ahk Bool := do
  if (← gets St.lastColorTick) = 0 then pure false
  else
    let now ← tickCount
    let tick ← gets St.lastColorTick
    pure ((now : ℤ) - tick ≤ 600)

/-- The region around the cached position, clipped side by side to the current rectangle. -/
def roi (t : Target) (lastX lastY : ℤ) : ℤ × ℤ × ℤ × ℤ :=
  (max t.x1 (lastX - roiMargin), max t.y1 (lastY - roiMargin),
    min t.x2 (lastX + roiMargin), min t.y2 (lastY + roiMargin))

def searchRoi (t : Target) : Ahk (Option (ℤ × ℤ)) := do
  if ← roiValid then
    let s ← gets id
    let (rx1, ry1, rx2, ry2) := roi t s.lastColorX s.lastColorY
    searchBoth rx1 ry1 rx2 ry2 t
  else pure none

def searchTarget (fastOnly : Bool) (t : Target) : Ahk (Option (ℤ × ℤ)) := do
  match ← searchRoi t with
  | some p => remember p
  | none =>
    match ← searchBoth t.x1 t.y1 t.x2 t.y2 t with
    | some p => remember p
    | none =>
      if fastOnly then pure none
      else
        match ← slowScan t t.y1 with
        | some p => remember p
        | none => pure none

def specialFindTargetColor (node : Node) (fastOnly : Bool := true) : Ahk (Option (ℤ × ℤ)) := do
  let hit ← screenRead node (searchTarget fastOnly)
  log (.searched hit)
  pure hit

def specialCheckColorVisible (node : Node) : Ahk (Option (ℤ × ℤ)) :=
  screenRead node fun t => searchBoth t.x1 t.y1 t.x2 t.y2 t

end Alien
end WagonMove
