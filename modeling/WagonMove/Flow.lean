import WagonMove.Signal

/-!
# Search, centring and the two flows

The search and the centring loop exist twice, in copies that differ in texts, pauses and what the
search does before it turns the camera; here each is one definition applied to the values of its
script. The search has no bound on its passes in the source, so it takes the number of passes it
is granted; the head of the loop runs once more when they are used up.
-/

namespace WagonMove

open Prog

/-! ## Search -/

def searchTimeoutMs : ℤ := 120000

def checksBeforeRotate : ℕ := 5

def searchTimedOut (f : ScriptFile) : Ahk Bool := do
  setStatus "Wagon: timeout 2 min — cor nao encontrada."
  sleep .searchTimeout 300
  releaseSpecialKeys
  hideSpecialMarker
  -- `Running := false` is a local variable here: the search does not declare it global.
  writeSignalAndExit f .error "timeout_search_color_not_found"

/-- The head of the search loop: `true` asks the search to give up because of a stop. -/
def searchHead (f : ScriptFile) (searchStart : ℕ) : Ahk Bool := do
  if ← specialCheckStop false then pure true
  else
    let now ← tickCount
    if searchTimeoutMs ≤ (now : ℤ) - searchStart then searchTimedOut f
    else pure false

def pulseLeft : Ahk Unit := do
  log .turning
  sleep .rotationSettle 60
  sendDown [.left]
  sleep .rotationHold 200
  sendUp [.left]
  sleep .rotationRest 180

def searchPass (f : ScriptFile) (find : Ahk (Option (ℤ × ℤ))) (beforeTurn : Ahk Unit)
    (searchStart missCount : ℕ) : Ahk (Turn (Option (ℤ × ℤ)) ℕ) := do
  if ← searchHead f searchStart then pure (.leave none)
  else
    match ← find with
    | some (x, y) =>
      showSpecialMarker f x y
      setStatus ("Wagon: cor encontrada em " ++ toString x ++ "," ++ toString y ++ ".")
      pure (.leave (some (x, y)))
    | none =>
      let missCount := missCount + 1
      setStatus ("Wagon: cor nao visivel. Miss " ++ toString missCount ++ "/" ++
        toString checksBeforeRotate ++ ".")
      if checksBeforeRotate ≤ missCount then
        beforeTurn
        within .rotation activateRoblox
        pulseLeft
        pure (.again 0)
      else
        sleep .missPause 90
        pure (.again missCount)

/-- The last, unfinished pass: only the head runs. -/
def searchLast (f : ScriptFile) (searchStart : ℕ) : Ahk (Option (ℤ × ℤ)) := do
  if ← searchHead f searchStart then pure none
  else abort .starved

def searchUntilFound (f : ScriptFile) (find : Ahk (Option (ℤ × ℤ))) (beforeTurn : Ahk Unit)
    (passes : ℕ) : Ahk (Option (ℤ × ℤ)) := do
  let searchStart ← tickCount
  loop (searchPass f find beforeTurn searchStart) (fun _ => searchLast f searchStart) passes 0

/-! ## Centring -/

inductive Dir where
  | right | left | none
  deriving DecidableEq

structure CenterResult where
  ok : Bool
  dir : Dir := .none
  ms : ℕ := 0
  deriving DecidableEq

def centerTolX : ℚ := 15

def centerPulseMs : ℕ := 50

structure Totals where
  right : ℕ := 0
  left : ℕ := 0
  deriving DecidableEq

def Totals.add (t : Totals) (key : Key) : Totals :=
  if key = .right then { t with right := t.right + centerPulseMs }
  else { t with left := t.left + centerPulseMs }

def Totals.centered (t : Totals) : CenterResult :=
  if 0 < t.right ∨ 0 < t.left then
    { ok := true, dir := if t.left ≤ t.right then .right else .left, ms := max t.right t.left }
  else { ok := true, dir := .none, ms := 0 }

def Totals.exhausted (t : Totals) : CenterResult :=
  { ok := false
    dir := if t.left ≤ t.right ∧ 0 < t.right then .right
      else if t.right < t.left then .left else .none
    ms := max t.right t.left }

/-- `errX`: how far right of the middle of the client rectangle the colour is. -/
def centerError (fx : ℤ) (r : Rect) : ℚ := fx - (r.x + (r.w : ℚ) / 2)

def centerKey (errX : ℚ) : Key := if 0 < errX then .right else .left

def Key.text : Key → String
  | .w => "w" | .a => "a" | .s => "s" | .d => "d" | .left => "Left" | .right => "Right"
  | .up => "Up" | .down => "Down" | .space => "Space" | .rButton => "RButton" | .f => "f"

def Dir.text : Dir → String
  | .right => "Right" | .left => "Left" | .none => "none"

/-- What differs between the two copies of `SpecialCenterColorWithCamera`. -/
structure Centering where
  file : ScriptFile
  find : Ahk (Option (ℤ × ℤ))
  search : Ahk (Option (ℤ × ℤ))
  maxAttempts : ℕ
  pauseMs : ℕ
  lostText : String
  doneText : ℚ → Totals → String
  tapText : ℚ → Key → String
  timeoutText : Totals → String

/-- The position the centring works on: seen at once, or found again by a search. -/
def Centering.locate (c : Centering) : Ahk (Option (ℤ × ℤ)) := do
  match ← c.find with
  | some p => pure (some p)
  | none =>
    setStatus c.lostText
    c.search

/-- Compare a position with the middle of a client rectangle; off centre, tap towards it. -/
def Centering.aim (c : Centering) (totals : Totals) (fx : ℤ) (r : Rect) :
    Ahk (Turn CenterResult Totals) := do
  log (.aimed fx r)
  let errX := centerError fx r
  if |errX| ≤ centerTolX then
    setStatus (c.doneText errX totals)
    pure (.leave totals.centered)
  else
    let key := centerKey errX
    setStatus (c.tapText errX key)
    specialTapKey key centerPulseMs
    sleep .centerPause c.pauseMs
    pure (.again (totals.add key))

def centerPass (c : Centering) (totals : Totals) : Ahk (Turn CenterResult Totals) := do
  if ← specialCheckStop false then pure (.leave { ok := false })
  else
    match ← c.locate with
    | none => pure (.leave { ok := false })
    | some (fx, fy) =>
      showSpecialMarker c.file fx fy
      let r ← clientRectOrScreen
      c.aim totals fx r

def centerColor (c : Centering) : Ahk CenterResult :=
  loop (centerPass c)
    (fun totals => do
      setStatus (c.timeoutText totals)
      pure totals.exhausted)
    c.maxAttempts {}

/-! ## wagon_move.ahk -/

namespace Wagon

def beforeTurn : Ahk Unit := do
  setStatus ("Wagon: " ++ toString checksBeforeRotate ++
    " misses — zoom out + girando esquerda...")
  hideSpecialMarker
  toolTip
  let _ ← within .rotation (specialFullZoomOut 30 15)
  let _ ← specialCheckStop false
  setStatus "Wagon: girando esquerda..."

def specialSearchUntilFound (passes : ℕ) (node : Node) : Ahk (Option (ℤ × ℤ)) :=
  searchUntilFound .wagonMove (specialFindTargetColor node true) beforeTurn passes

def centering (passes : ℕ) (node : Node) : Centering where
  file := .wagonMove
  find := specialFindTargetColor node true
  search := specialSearchUntilFound passes node
  maxAttempts := 40
  pauseMs := 90
  lostText := "Wagon: perdeu cor durante centralização — rebuscando..."
  doneText errX _ := "Wagon: centralizado. errX=" ++ toString (round errX)
  tapText errX key := "Wagon: centralizando errX=" ++ toString (round errX) ++ ", tap " ++
    key.text ++ " 50ms."
  timeoutText _ := "Wagon: timeout centralização — prosseguindo mesmo assim."

/-- This copy returns only whether the camera was centred. -/
def specialCenterColorWithCamera (passes : ℕ) (node : Node) : Ahk Bool := do
  let result ← centerColor (centering passes node)
  pure result.ok

/-- Steps 1 to 3 of the flow: zoom out, find the colour, centre it. -/
def approach (passes : ℕ) (node : Node) : Ahk Bool := do
  setStatus "Special: zoom out total..."
  within (.step .zoomOut) do
    let _ ← specialFullZoomOut 30 15
    sleep .flowPause 100
  let _ ← specialCheckStop
  setStatus "Special: procurando cor até encontrar..."
  match ← within (.step .search) (specialSearchUntilFound passes node) with
  | none => pure false
  | some _ =>
    let _ ← specialCheckStop
    setStatus "Special: centralizando câmera..."
    let _ ← within (.step .center) (specialCenterColorWithCamera passes node)
    let _ ← specialCheckStop
    pure true

/-- Steps 4 to 7: walk, step back, zoom out, wait. -/
def walk : Ahk Unit := do
  setStatus "Special: andando para frente (W × 3s)..."
  within (.step .walk) do
    specialHoldKey .w 3000
    sleep .flowPause 120
  let _ ← specialCheckStop
  setStatus "Special: recuando (S × 50ms)..."
  within (.step .stepBack) do
    specialHoldKey .s 50
    sleep .flowPause 80
  let _ ← specialCheckStop
  setStatus "Special: zoom out antes de re-centralizar..."
  within (.step .secondZoomOut) do
    let _ ← specialFullZoomOut 30 15
    sleep .flowPause 100
  let _ ← specialCheckStop
  setStatus "Special: aguardando 0.5s..."
  within (.step .wait) (sleep .flowPause 500)
  let _ ← specialCheckStop
  pure ()

/-- Steps 8 and 9: find the colour again and centre it. -/
def secondApproach (passes : ℕ) (node : Node) : Ahk Bool := do
  setStatus "Special: re-buscando cor após caminhada..."
  match ← within (.step .secondSearch) (specialSearchUntilFound passes node) with
  | none => pure false
  | some _ =>
    let _ ← specialCheckStop
    setStatus "Special: re-centralizando antes do pulo..."
    let _ ← within (.step .secondCenter) (specialCenterColorWithCamera passes node)
    let _ ← specialCheckStop
    pure true

/-- Steps 10 and 11: the double jump and the last walk. -/
def jump : Ahk Unit := do
  setStatus "Special: double jump..."
  within (.step .firstJump) do
    specialTapKey .space 60
    sleep .flowPause 250
  within (.step .secondJump) do
    specialTapKey .space 60
    sleep .flowPause 50
  let _ ← specialCheckStop
  setStatus "Special: andando para frente (W × 350ms)..."
  within (.step .lastWalk) do
    specialHoldKey .w 350
    sleep .flowPause 120
  releaseSpecialKeys
  setStatus "Special: concluído com sucesso!"

def specialMovementFlow (passes : ℕ) (node : Node) : Ahk Bool := do
  if !(← gets St.running) then pure false
  else
    activateRoblox
    let _ ← specialCheckStop
    if ← approach passes node then
      walk
      if ← secondApproach passes node then
        jump
        pure true
      else pure false
    else pure false

end Wagon

/-! ## alien_wagon_move.ahk -/

namespace Alien

def beforeTurn : Ahk Unit := do
  setStatus ("Wagon: " ++ toString checksBeforeRotate ++
    " misses — girando esquerda (sem zoom)...")
  hideSpecialMarker
  toolTip
  let _ ← specialCheckStop false

def specialSearchUntilFoundNoZoom (passes : ℕ) (node : Node) : Ahk (Option (ℤ × ℤ)) :=
  searchUntilFound .alienWagonMove (specialFindTargetColor node true) beforeTurn passes

def centering (passes : ℕ) (node : Node) : Centering where
  file := .alienWagonMove
  find := specialFindTargetColor node true
  search := specialSearchUntilFoundNoZoom passes node
  maxAttempts := 80
  pauseMs := 60
  lostText := "Wagon: perdeu cor durante centralização — rebuscando (sem zoom)..."
  doneText errX totals := "Wagon: centralizado X. errX=" ++ toString (round errX) ++ " dir=" ++
    totals.centered.dir.text
  tapText errX key := "Wagon: centralizando X errX=" ++ toString (round errX) ++ ", tap " ++
    key.text ++ "."
  timeoutText totals := "Wagon: timeout centralização X — dir=" ++ totals.exhausted.dir.text ++
    " — prosseguindo."

def specialCenterColorWithCamera (passes : ℕ) (node : Node) : Ahk CenterResult :=
  centerColor (centering passes node)

/-- Steps 1 to 3 of the flow: press F, hold Space, zoom out. -/
def prepare : Ahk Unit := do
  setStatus "Alien Wagon: pressionando F..."
  within (.step .pressF) do
    specialTapKey .f 60
    sleep .flowPause 200
  let _ ← specialCheckStop
  setStatus "Alien Wagon: segurando Space × 3s..."
  within (.step .holdSpace) do
    specialHoldKey .space 3000
    sleep .flowPause 150
  let _ ← specialCheckStop
  setStatus "Alien Wagon: zoom out manual..."
  within (.step .zoomOut) do
    let _ ← specialFullZoomOut 30 15
    sleep .flowPause 100
  let _ ← specialCheckStop
  pure ()

/-- Steps 4 and 5: find the colour and centre it. -/
def approach (passes : ℕ) (node : Node) : Ahk Bool := do
  setStatus "Alien Wagon: procurando cor até encontrar (sem zoom)..."
  match ← within (.step .search) (specialSearchUntilFoundNoZoom passes node) with
  | none => pure false
  | some _ =>
    let _ ← specialCheckStop
    setStatus "Alien Wagon: centralizando câmera X..."
    within (.step .center) do
      let _ ← specialCenterColorWithCamera passes node
      sleep .flowPause 120
    let _ ← specialCheckStop
    pure true

/-- Steps 6 to 8: walk with W and Space, press F again, zoom out. -/
def walk : Ahk Unit := do
  setStatus "Alien Wagon: segurando W+Space × 3.5s..."
  within (.step .walk) do
    specialHoldTwoKeys .w .space 3500
    sleep .flowPause 150
  releaseSpecialKeys
  let _ ← specialCheckStop
  setStatus "Alien Wagon: pressionando F (final)..."
  within (.step .lastPressF) do
    specialTapKey .f 60
    sleep .flowPause 200
  let _ ← specialCheckStop
  setStatus "Alien Wagon: zoom out final..."
  within (.step .lastZoomOut) do
    let _ ← specialFullZoomOut 30 15
    sleep .flowPause 100
  releaseSpecialKeys
  setStatus "Alien Wagon: concluído — sinal enviado."

def specialMovementFlow (passes : ℕ) (node : Node) : Ahk Bool := do
  if !(← gets St.running) then pure false
  else
    activateRoblox
    let _ ← specialCheckStop
    prepare
    if ← approach passes node then
      walk
      pure true
    else pure false

end Alien

/-! ## The scripts -/

/-- The `[Config]` section as `IniRead` sees it; `none` for an absent key. -/
structure Config where
  colorHex : Option String
  tolerance : Option String
  signalFile : Option String

/-- The top of the auto-execute thread: no handler is installed yet. -/
def loadConfig (f : ScriptFile) (cfg : Config) : Ahk Node := do
  let colorHex := trim (cfg.colorHex.getD "0xCDE3FE")
  match integer (trim (cfg.tolerance.getD "0")) with
  | none => throwErr "Expected a Number but got a String."
  | some tolerance =>
    let signalFile := trim (cfg.signalFile.getD "")
    let scriptDir ← constant Env.scriptDir
    let signalFile := if signalFile = "" then scriptDir ++ doneFile f else signalFile
    update fun s => { s with signalFile := signalFile }
    pure ⟨colorHex, tolerance⟩

def title : ScriptFile → String
  | .wagonMove => "Wagon Move"
  | .alienWagonMove => "Alien Wagon Move"

def specialMovementFlow (f : ScriptFile) (passes : ℕ) (node : Node) : Ahk Bool :=
  match f with
  | .wagonMove => Wagon.specialMovementFlow passes node
  | .alienWagonMove => Alien.specialMovementFlow passes node

def setRunning (b : Bool) : Ahk Unit := update fun s => { s with running := b }

def runFlow (f : ScriptFile) (passes : ℕ) (node : Node) : Ahk Bool := do
  let ok ← specialMovementFlow f passes node
  log (.flowReturned ok)
  pure ok

/-- The `catch` block of the entry point. -/
def reportError (f : ScriptFile) (e : Err) : Ahk Bool := do
  releaseSpecialKeys
  hideSpecialMarker
  setRunning false
  setStatus (title f ++ ": ERRO — " ++ e.message)
  sleep .ending 800
  writeSignalAndExit f .error e.message

/-- What follows the `try` of the entry point. -/
def reportResult (f : ScriptFile) (ok : Bool) : Ahk Unit := do
  releaseSpecialKeys
  hideSpecialMarker
  setRunning false
  if ok then
    setStatus (title f ++ ": concluído!")
    sleep .ending 500
    writeSignalAndExit f .ok "movement_complete"
  else
    setStatus (title f ++ ": falhou (stopped ou cor não encontrada).")
    sleep .ending 800
    writeSignalAndExit f .error "movement_failed"

def entryPoint (f : ScriptFile) (passes : ℕ) (node : Node) : Ahk Unit := do
  createStatusOverlayGui
  if (← getRobloxHwnd) = 0 then
    writeSignalAndExit f .error "Roblox nao encontrado. Abra o Roblox primeiro."
  else
    setRunning true
    setStatus (title f ++ ": iniciando...")
    let ok ← rescue (runFlow f passes node) (reportError f)
    reportResult f ok

def script (f : ScriptFile) (cfg : Config) (passes : ℕ) : Ahk Unit := do
  let node ← loadConfig f cfg
  log (.entered node (← gets St.signalFile))
  entryPoint f passes node

def execute (f : ScriptFile) (cfg : Config) (passes : ℕ) (env : Env)
    (files : String → Option String) :
    Except (Abort Err) Unit × St :=
  (script f cfg passes).run { env := env } { files := files }

end WagonMove
