import WagonMove.Parts

/-!
# The two flows, phase by phase

A flow looks for the colour, walks towards it and ends with a last walk or a last zoom. `FlowRules`
states what the parts of the flows do to a property that depends on the phase, and `FlowRules.flow`
puts the parts together along the text of both flows.
-/

namespace WagonMove

open Prog

/-- How far a flow has come: before a hit, after one, between the two jumps, at its end. -/
inductive Phase where
  | idle | found | jumping | closing

/-- The phases that a check can end. -/
def Phase.isOpen : Phase → Prop
  | .idle | .found => True
  | .jumping | .closing => False

def Phase.ofHit (hit : Option (ℤ × ℤ)) : Phase := if hit.isSome then .found else .idle

def Phase.ofFlow (ok : Bool) : Phase := if ok then .closing else .idle

/-- The parts of a flow that a check of the stop flag follows. -/
def FlowStep.isChecked : FlowStep → Bool
  | .firstJump | .lastWalk | .lastZoomOut => false
  | _ => true

def FlowStep.isSearch : FlowStep → Bool
  | .search | .secondSearch => true
  | _ => false

def FlowStep.isCenter : FlowStep → Bool
  | .center | .secondCenter => true
  | _ => false

/-- What the parts of the two flows do to a property `P` of the phase; `D` tells the contexts
between two parts from those inside of one. -/
structure FlowRules (f : ScriptFile) (passes : ℕ) (node : Node) (D : Option FlowStep → Ctx → Prop)
    (P : Phase → St → Prop) (E : Abort Err → St → Prop) : Prop where
  calm : ∀ ph s s', Calm s s' → P ph s → P ph s'
  enter : ∀ step r, D none r → D (some step) (r.enter (.step step))
  activate : Keeps (D none) (P .idle) E activateRoblox
  check : ∀ ph, ph.isOpen →
    Leads (D none) (P ph) (fun _ s => P ph s ∧ s.running = true) E specialCheckStop
  pause : ∀ step ph ms, step.isChecked = true → ph.isOpen →
    Keeps (D (some step)) (P ph) E (sleep .flowPause ms)
  zoomOut : ∀ step, step.isChecked = true →
    Keeps (D (some step)) (P .idle) E (specialFullZoomOut 30 15)
  search : ∀ step, step.isSearch = true →
    Leads (D (some step)) (P .idle) (fun hit => P (.ofHit hit)) E (search f passes node)
  center : ∀ step, step.isCenter = true →
    Keeps (D (some step)) (P .found) E (centerColor (centering f passes node))
  tap : ∀ step key ms, step.isChecked = true → key ≠ .w →
    Leads (D (some step)) (fun s => P .idle s ∧ s.running = true) (fun _ => P .idle) E
      (specialTapKey key ms)
  hold : ∀ step key ms, step.isChecked = true → key ≠ .w →
    Leads (D (some step)) (fun s => P .idle s ∧ s.running = true) (fun _ => P .idle) E
      (specialHoldKey key ms)
  walk : ∀ step ms, step.isChecked = true →
    Leads (D (some step)) (fun s => P .found s ∧ s.running = true) (fun _ => P .idle) E
      (specialHoldKey .w ms)
  walkJumping : ∀ step ms, step.isChecked = true →
    Leads (D (some step)) (fun s => P .found s ∧ s.running = true) (fun _ => P .idle) E
      (specialHoldTwoKeys .w .space ms)
  firstJump : Leads (D none) (fun s => P .found s ∧ s.running = true) (fun _ => P .jumping) E
    (within (.step .firstJump) do
      specialTapKey .space 60
      sleep .flowPause 250)
  secondJump : Leads (D none) (P .jumping) (fun _ => P .found) E
    (within (.step .secondJump) do
      specialTapKey .space 60
      sleep .flowPause 50)
  lastWalk : Leads (D none) (fun s => P .found s ∧ s.running = true) (fun _ => P .closing) E
    (within (.step .lastWalk) do
      specialHoldKey .w 350
      sleep .flowPause 120)
  lastZoomOut : Leads (D none) (fun s => P .idle s ∧ s.running = true) (fun _ => P .closing) E
    (within (.step .lastZoomOut) do
      let _ ← specialFullZoomOut 30 15
      sleep .flowPause 100)
  releaseIdle : Keeps (D none) (P .idle) E releaseSpecialKeys
  releaseClosing : Keeps (D none) (P .closing) E releaseSpecialKeys

namespace FlowRules

variable {f : ScriptFile} {passes : ℕ} {node : Node} {D : Option FlowStep → Ctx → Prop}
  {P : Phase → St → Prop} {E : Abort Err → St → Prop} {α β : Type}

theorem status (h : FlowRules f passes node D P E) (ph : Phase) (text : String) :
    Leads (D none) (P ph) (fun _ => P ph) E (setStatus text) :=
  (calm_setStatus text).keeps (h.calm ph)

/-- The flow goes on in `ph`, and the last check has found the script running. -/
def Going (P : Phase → St → Prop) (ph : Phase) (s : St) : Prop := P ph s ∧ s.running = true

theorem announced (h : FlowRules f passes node D P E) {ph : Phase} (text : String) {x : Ahk α}
    {Q : α → St → Prop} (hx : Leads (D none) (Going P ph) Q E x) :
    Leads (D none) (Going P ph) Q E (do setStatus text; x) := by
  have hstatus : Leads (D none) (Going P ph) (fun _ => Going P ph) E (setStatus text) :=
    (calm_setStatus text).keeps fun s s' hq hs => ⟨h.calm ph s s' hq hs.1, hq.running.trans hs.2⟩
  exact hstatus.bind fun _ => hx

theorem checked (h : FlowRules f passes node D P E) (ph : Phase) (hph : ph.isOpen) {x : Ahk α}
    {Q : α → St → Prop} (hx : Leads (D none) (Going P ph) Q E x) :
    Leads (D none) (P ph) Q E (do let _ ← specialCheckStop; x) := (h.check ph hph).bind fun _ => hx

/-- A part of the flow: it is announced and done, and the script must be running after it. -/
theorem part (h : FlowRules f passes node D P E) {ph : Phase} (ph' : Phase) (hph : ph'.isOpen)
    (text : String) {x : Ahk α} {y : Ahk β} {Q : β → St → Prop}
    (hx : Leads (D none) (Going P ph) (fun _ => P ph') E x)
    (hy : Leads (D none) (Going P ph') Q E y) :
    Leads (D none) (Going P ph) Q E (do
      setStatus text
      let _ ← x
      let _ ← specialCheckStop
      y) :=
  h.announced text (hx.bind fun _ => h.checked ph' hph hy)

theorem going {C : Ctx → Prop} {ph : Phase} {x : Ahk α} {Q : α → St → Prop}
    (hx : Leads C (P ph) Q E x) : Leads C (Going P ph) Q E x :=
  hx.mono (fun _ hs => hs.1) fun _ _ hq => hq

/-- What is done inside of a part. -/
theorem inside (h : FlowRules f passes node D P E) (step : FlowStep) {ph : Phase} {x : Ahk α}
    {Q : α → St → Prop} (hx : Leads (D (some step)) (Going P ph) Q E x) :
    Leads (D none) (Going P ph) Q E (within (.step step) x) := .under (h.enter step) hx

/-- What is done inside of a part that ends with a pause. -/
theorem paused (h : FlowRules f passes node D P E) {step : FlowStep}
    (hstep : step.isChecked = true) {ph : Phase} (ph' : Phase) (hph : ph'.isOpen) {x : Ahk α}
    {ms : ℕ} (hx : Leads (D (some step)) (Going P ph) (fun _ => P ph') E x) :
    Leads (D none) (Going P ph) (fun _ => P ph') E
      (within (.step step) do let _ ← x; sleep .flowPause ms) :=
  h.inside step (hx.bind fun _ => h.pause step ph' ms hstep hph)

theorem zoomedOut (h : FlowRules f passes node D P E) {step : FlowStep}
    (hstep : step.isChecked = true) :
    Leads (D none) (Going P .idle) (fun _ => P .idle) E (within (.step step) do
      let _ ← specialFullZoomOut 30 15
      sleep .flowPause 100) := h.paused hstep .idle trivial (going (h.zoomOut step hstep))

theorem searched (h : FlowRules f passes node D P E) {step : FlowStep}
    (hstep : step.isSearch = true) : Leads (D none) (Going P .idle) (fun hit => P (.ofHit hit)) E
      (within (.step step) (WagonMove.search f passes node)) :=
  h.inside step (going (h.search step hstep))

def Reached (P : Phase → St → Prop) (ok : Bool) (s : St) : Prop :=
  if ok then Going P .found s else P .idle s

section Wagon

variable (h : FlowRules .wagonMove passes node D P E)
include h

theorem wagonCenter {step : FlowStep} (hstep : step.isCenter = true) :
    Leads (D none) (Going P .found) (Reached P) E (do
      let _ ← within (.step step) (Wagon.specialCenterColorWithCamera passes node)
      let _ ← specialCheckStop
      pure true) := by
  have hcenter : Leads (D (some step)) (P .found) (fun _ => P .found) E
      (Wagon.specialCenterColorWithCamera passes node) :=
    .bind (h.center step hstep) fun _ => .pure fun _ hs => hs
  exact .bind (h.inside step (going hcenter)) fun _ =>
    h.checked .found trivial (.pure fun _ hs => hs)

theorem wagonApproach :
    Leads (D none) (Going P .idle) (Reached P) E (Wagon.approach passes node) := by
  refine h.part .idle trivial _ (h.zoomedOut rfl) ?_
  refine h.announced _ (.bind (h.searched rfl) fun hit => ?_)
  cases hit with
  | none => exact .pure fun _ hs => hs
  | some p => exact h.checked .found trivial (h.announced _ (h.wagonCenter rfl))

theorem wagonWalk : Leads (D none) (Going P .found) (fun _ => Going P .idle) E Wagon.walk := by
  have hwait : Leads (D none) (Going P .idle) (fun _ => P .idle) E
      (within (.step .wait) (sleep .flowPause 500)) :=
    h.inside .wait (going (h.pause .wait .idle 500 rfl trivial))
  have hwalk := h.walk .walk 3000 rfl
  have hback := h.hold .stepBack .s 50 rfl (by decide)
  refine h.part .idle trivial _ (h.paused rfl .idle trivial hwalk) ?_
  refine h.part .idle trivial _ (h.paused rfl .idle trivial hback) ?_
  refine h.part .idle trivial _ (h.zoomedOut rfl) ?_
  refine h.part .idle trivial _ hwait ?_
  exact .pure fun _ hs => hs

theorem wagonSecondApproach :
    Leads (D none) (Going P .idle) (Reached P) E (Wagon.secondApproach passes node) := by
  refine h.announced _ (.bind (h.searched rfl) fun hit => ?_)
  cases hit with
  | none => exact .pure fun _ hs => hs
  | some p => exact h.checked .found trivial (h.announced _ (h.wagonCenter rfl))

theorem wagonJump : Leads (D none) (Going P .found) (fun _ => P .closing) E Wagon.jump := by
  refine h.announced _ (.bind h.firstJump fun _ => .bind h.secondJump fun _ => ?_)
  refine h.checked .found trivial (h.announced _ (.bind h.lastWalk fun _ => ?_))
  exact .bind h.releaseClosing fun _ => h.status .closing _

theorem wagonFlow : Leads (D none) (P .idle) (fun ok => P (.ofFlow ok)) E
    (Wagon.specialMovementFlow passes node) := by
  refine .bind (Keeps.gets _) fun running => .ite (fun _ => .pure fun _ hs => hs) fun _ => ?_
  refine .bind h.activate fun _ => h.checked .idle trivial ?_
  refine .bind h.wagonApproach fun ok => ?_
  cases ok with
  | false => exact .pure fun _ hs => hs
  | true =>
      refine .bind h.wagonWalk fun _ => .bind h.wagonSecondApproach fun ok => ?_
      cases ok with
      | false => exact .pure fun _ hs => hs
      | true => exact .bind h.wagonJump fun _ => .pure fun _ hs => hs

end Wagon

section Alien

variable (h : FlowRules .alienWagonMove passes node D P E)
include h

theorem alienPrepare : Leads (D none) (Going P .idle) (fun _ => Going P .idle) E Alien.prepare := by
  have hpress := h.tap .pressF .f 60 rfl (by decide)
  have hspace := h.hold .holdSpace .space 3000 rfl (by decide)
  refine h.part .idle trivial _ (h.paused rfl .idle trivial hpress) ?_
  refine h.part .idle trivial _ (h.paused rfl .idle trivial hspace) ?_
  refine h.part .idle trivial _ (h.zoomedOut rfl) ?_
  exact .pure fun _ hs => hs

theorem alienApproach :
    Leads (D none) (Going P .idle) (Reached P) E (Alien.approach passes node) := by
  have hcenter : Leads (D (some .center)) (P .found) (fun _ => P .found) E
      (Alien.specialCenterColorWithCamera passes node) := h.center .center rfl
  refine h.announced _ (.bind (h.searched rfl) fun hit => ?_)
  cases hit with
  | none => exact .pure fun _ hs => hs
  | some p =>
      refine h.checked .found trivial (h.part .found trivial _ ?_ (.pure fun _ hs => hs))
      exact h.paused rfl .found trivial (going hcenter)

theorem alienWalk : Leads (D none) (Going P .found) (fun _ => P .closing) E Alien.walk := by
  have hwalk : Leads (D none) (Going P .found) (fun _ => P .idle) E (within (.step .walk) do
      specialHoldTwoKeys .w .space 3500
      sleep .flowPause 150) := h.paused rfl .idle trivial (h.walkJumping .walk 3500 rfl)
  have hpress := h.tap .lastPressF .f 60 rfl (by decide)
  refine h.announced _ (.bind hwalk fun _ => .bind h.releaseIdle fun _ => ?_)
  refine h.checked .idle trivial (h.part .idle trivial _ (h.paused rfl .idle trivial hpress) ?_)
  refine h.announced _ (.bind h.lastZoomOut fun _ => ?_)
  exact .bind h.releaseClosing fun _ => h.status .closing _

theorem alienFlow : Leads (D none) (P .idle) (fun ok => P (.ofFlow ok)) E
    (Alien.specialMovementFlow passes node) := by
  refine .bind (Keeps.gets _) fun running => .ite (fun _ => .pure fun _ hs => hs) fun _ => ?_
  refine .bind h.activate fun _ => h.checked .idle trivial ?_
  refine .bind h.alienPrepare fun _ => .bind h.alienApproach fun ok => ?_
  cases ok with
  | false => exact .pure fun _ hs => hs
  | true => exact .bind h.alienWalk fun _ => .pure fun _ hs => hs

end Alien

theorem flow (h : FlowRules f passes node D P E) :
    Leads (D none) (P .idle) (fun ok => P (.ofFlow ok)) E (specialMovementFlow f passes node) := by
  cases f with
  | wagonMove => exact h.wagonFlow
  | alienWagonMove => exact h.alienFlow

end FlowRules

end WagonMove
