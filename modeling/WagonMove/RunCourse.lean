import WagonMove.Alike
import WagonMove.Script

/-!
# The course of a run

Where the result is to be written, what is there already and which of the file operations are
refused has no bearing on what a script does: two runs that differ in nothing else take the same
course, which is their trace without the file operations.
-/

namespace WagonMove

open Prog

def Event.ofCourse : Event → Bool
  | .entered _ _ | .fileExist _ | .fileDelete _ _ | .fileAppend _ _ => false
  | _ => true

def course (t : List Event) : List Event := t.filter Event.ofCourse

/-- The same answers, apart from those about files. -/
def SameWorld (r r' : Ctx) : Prop := ∃ ops scriptDir temp,
  r' = { r with env := { r.env with files := ops, scriptDir := scriptDir, temp := temp } }

def SameCourse (s s' : St) : Prop := ∃ disk path trace,
  s' = { s with files := disk, signalFile := path, trace := trace } ∧ course trace = course s.trace

instance : IsEquiv St SameCourse where
  refl s := ⟨s.files, s.signalFile, s.trace, rfl, rfl⟩
  symm := by
    rintro s _ ⟨disk, path, trace, rfl, h⟩
    exact ⟨s.files, s.signalFile, s.trace, rfl, h.symm⟩
  trans := by
    rintro s _ _ ⟨disk, path, trace, rfl, h⟩ ⟨disk', path', trace', rfl, h'⟩
    exact ⟨disk', path', trace', rfl, h'.trans h⟩

/-- `x` takes the same course wherever a result may lie. -/
abbrev Oblivious {α : Type} (x : Ahk α) : Prop := Alike SameWorld SameCourse x x

theorem course_cons {e : Event} {t t' : List Event} (h : course t' = course t) :
    course (e :: t') = course (e :: t) := by
  simp only [course, List.filter_cons] at h ⊢
  rw [h]

section Primitives

variable {α : Type}

theorem oblivious_update {f : St → St}
    (hf : ∀ s disk path trace, f { s with files := disk, signalFile := path, trace := trace } =
      { f s with files := disk, signalFile := path, trace := trace }) : Oblivious (update f) := by
  have ht (s : St) : (f s).trace = s.trace := by
    have hsame := congrArg St.trace (hf s s.files s.signalFile s.trace)
    exact hsame
  refine .update ?_
  rintro s _ ⟨disk, path, trace, rfl, h⟩
  exact ⟨disk, path, trace, hf s disk path trace, by rw [ht, h]⟩

theorem oblivious_gets {f : St → α} (hf : ∀ s disk path trace,
    f { s with files := disk, signalFile := path, trace := trace } = f s) :
    Oblivious (gets f) := by
  refine .gets ?_
  rintro s _ ⟨disk, path, trace, rfl, -⟩
  exact (hf s disk path trace).symm

theorem oblivious_log (e : Event) : Oblivious (log e) := by
  refine .update ?_
  rintro s _ ⟨disk, path, trace, rfl, h⟩
  exact ⟨disk, path, e :: trace, rfl, course_cons h⟩

theorem oblivious_ask {q : Env → ℕ → α} (hq : ∀ env ops scriptDir temp n,
    q { env with files := ops, scriptDir := scriptDir, temp := temp } n = q env n) :
    Oblivious (ask q) := by
  rintro r _ s _ ⟨ops, scriptDir, temp, rfl⟩ ⟨disk, path, trace, rfl, h⟩
  refine ⟨.ok (q r.env s.asked), _, _, rfl, ?_, disk, path, trace, rfl, h⟩
  rw [← hq r.env ops scriptDir temp]
  rfl

theorem oblivious_constant {q : Env → α} (hq : ∀ env ops scriptDir temp,
    q { env with files := ops, scriptDir := scriptDir, temp := temp } = q env) :
    Oblivious (constant q) := by
  rintro r _ s s' ⟨ops, scriptDir, temp, rfl⟩ hs
  refine ⟨.ok (q r.env), s, s', rfl, ?_, hs⟩
  rw [← hq r.env ops scriptDir temp]
  rfl

theorem oblivious_within (site : Site) {x : Ahk α} (hx : Oblivious x) :
    Oblivious (within site x) := by
  refine .under ?_ hx
  rintro r _ ⟨ops, scriptDir, temp, rfl⟩
  exact ⟨ops, scriptDir, temp, rfl⟩

theorem oblivious_sleep (site : Site) (ms : ℕ) : Oblivious (sleep site ms) := by
  rintro r _ s _ ⟨ops, scriptDir, temp, rfl⟩ ⟨disk, path, trace, rfl, h⟩
  have hnap : SameCourse (s.nap (r.env.sleep s.asked) (site :: r.scope) ms)
      (({ s with files := disk, signalFile := path, trace := trace } : St).nap
        (r.env.sleep s.asked) (site :: r.scope) ms) := by
    refine ⟨disk, path, _, rfl, ?_⟩
    simp only [St.nap]
    split
    · exact course_cons (course_cons h)
    · exact course_cons h
  cases hclose : (r.env.sleep s.asked).close with
  | false =>
      exact ⟨.ok (), _, _, by simp only [sleep, hclose]; rfl, by simp only [sleep, hclose]; rfl,
        hnap⟩
  | true =>
      obtain ⟨disk', path', trace', heq, h'⟩ := hnap
      refine ⟨.error .closed, _, _, by simp only [sleep, hclose]; rfl,
        by simp only [sleep, hclose]; rfl, disk', path', .gdipShutdown :: trace', ?_,
        course_cons h'⟩
      rw [heq]
      rfl

theorem oblivious_exitApp (code : ℕ) : Oblivious (exitApp code : Ahk α) :=
  (oblivious_log _).bind fun _ => (oblivious_log _).bind fun _ => .abort _

theorem oblivious_tickCount : Oblivious tickCount :=
  .bind (oblivious_ask fun _ _ _ _ _ => rfl) fun _ =>
    .bind (oblivious_update fun _ _ _ _ => rfl) fun _ => oblivious_gets fun _ _ _ _ => rfl

end Primitives

theorem oblivious_sendDown (ks : List Key) : Oblivious (sendDown ks) := by
  induction ks with
  | nil => exact .pure _
  | cons k ks ih => exact .bind (oblivious_log _) fun _ => ih

theorem oblivious_sendUp (ks : List Key) : Oblivious (sendUp ks) := by
  induction ks with
  | nil => exact .pure _
  | cons k ks ih => exact .bind (oblivious_log _) fun _ => ih

theorem oblivious_pixelSearch (q : Search) : Oblivious (pixelSearch q) :=
  .bind (oblivious_gets fun _ _ _ _ => rfl) fun _ => .bind (oblivious_log _) fun _ =>
    oblivious_ask fun _ _ _ _ _ => rfl

theorem oblivious_pixelGetColor (x y : ℤ) : Oblivious (pixelGetColor x y) :=
  .bind (oblivious_gets fun _ _ _ _ => rfl) fun _ => .bind (oblivious_log _) fun _ =>
    oblivious_ask fun _ _ _ _ _ => rfl

theorem oblivious_showSpecialMarker (f : ScriptFile) (x y : ℤ) :
    Oblivious (showSpecialMarker f x y) := oblivious_update fun _ _ _ _ => rfl

theorem oblivious_hideSpecialMarker : Oblivious hideSpecialMarker :=
  oblivious_update fun _ _ _ _ => rfl

theorem oblivious_toolTip : Oblivious toolTip := oblivious_update fun _ _ _ _ => rfl

/-! ## Windows and the status overlay -/

theorem oblivious_getRobloxHwnd : Oblivious getRobloxHwnd :=
  .bind (oblivious_ask fun _ _ _ _ _ => rfl) fun _ =>
    .ite (.pure _) (oblivious_ask fun _ _ _ _ _ => rfl)

theorem oblivious_activateRoblox : Oblivious activateRoblox := by
  refine .bind oblivious_getRobloxHwnd fun _ => .ite (.abort _) <|
    .bind (oblivious_ask fun _ _ _ _ _ => rfl) fun e => ?_
  cases e with
  | some e => exact .abort _
  | none => exact oblivious_sleep _ _

theorem oblivious_clientRectFallback : Oblivious clientRectFallback := by
  refine .bind (oblivious_ask fun _ _ _ _ _ => rfl) fun c => ?_
  cases c with
  | some r => exact .pure _
  | none =>
      refine .bind (oblivious_ask fun _ _ _ _ _ => rfl) fun c => ?_
      cases c <;> exact .pure _

theorem oblivious_getRobloxClientRect : Oblivious getRobloxClientRect := by
  refine .bind oblivious_getRobloxHwnd fun _ => .ite (.pure _) <|
    .bind (oblivious_ask fun _ _ _ _ _ => rfl) fun c => ?_
  cases c with
  | none => exact oblivious_clientRectFallback
  | some c =>
      refine .bind (oblivious_ask fun _ _ _ _ _ => rfl) fun p => ?_
      cases p with
      | none => exact oblivious_clientRectFallback
      | some p => exact .pure _

theorem oblivious_clientRectOrScreen : Oblivious clientRectOrScreen := by
  refine .bind oblivious_getRobloxClientRect fun c => ?_
  cases c with
  | some r => exact .pure _
  | none => exact oblivious_constant fun _ _ _ _ => rfl

theorem oblivious_positionStatusOverlay : Oblivious positionStatusOverlay :=
  .bind oblivious_getRobloxClientRect fun _ =>
    .bind (oblivious_constant fun _ _ _ _ => rfl) fun _ =>
      .bind (oblivious_constant fun _ _ _ _ => rfl) fun _ =>
        .bind (oblivious_gets fun _ _ _ _ => rfl) fun _ =>
          .bind (oblivious_update fun _ _ _ _ => rfl) fun _ => oblivious_log _

theorem oblivious_showStatusOverlay (text : String) : Oblivious (showStatusOverlay text) := by
  refine .gets_bind ?_
  rintro s _ ⟨disk, path, trace, rfl, -⟩
  exact .ite (.pure _) <| .ite (.pure _) <| .bind (oblivious_update fun _ _ _ _ => rfl) fun _ =>
    oblivious_positionStatusOverlay

theorem oblivious_hideStatusOverlay : Oblivious hideStatusOverlay :=
  .bind oblivious_toolTip fun _ => oblivious_update fun _ _ _ _ => rfl

theorem oblivious_setStatus (text : String) : Oblivious (setStatus text) :=
  .bind (oblivious_update fun _ _ _ _ => rfl) fun _ => .bind oblivious_toolTip fun _ =>
    .bind (oblivious_gets fun _ _ _ _ => rfl) fun _ =>
      .ite (oblivious_showStatusOverlay text) oblivious_hideStatusOverlay

theorem oblivious_createStatusOverlayGui : Oblivious createStatusOverlayGui :=
  oblivious_update fun _ _ _ _ => rfl

theorem oblivious_beginScreenRead : Oblivious beginScreenRead :=
  .bind (oblivious_update fun _ _ _ _ => rfl) fun _ => .bind oblivious_hideStatusOverlay fun _ =>
    oblivious_sleep _ _

theorem oblivious_endScreenRead : Oblivious endScreenRead := by
  refine .bind (oblivious_update fun _ _ _ _ => rfl) fun _ => .gets_bind ?_
  rintro s _ ⟨disk, path, trace, rfl, -⟩
  exact .ite (oblivious_showStatusOverlay _) (.pure _)

/-! ## Colour searches -/

theorem oblivious_trySearch (q : Search) : Oblivious (trySearch q) := by
  refine .bind (oblivious_pixelSearch q) fun c => ?_
  cases c <;> exact .pure _

theorem oblivious_searchBoth (x1 y1 x2 y2 : ℤ) (t : Target) :
    Oblivious (searchBoth x1 y1 x2 y2 t) := by
  refine .bind (oblivious_trySearch _) fun c => ?_
  cases c with
  | some p => exact .pure _
  | none => exact oblivious_trySearch _

theorem oblivious_scanRow (t : Target) (yy xx : ℤ) : Oblivious (scanRow t yy xx) := by
  induction xx using scanRow.induct t with
  | case1 xx step hle ih =>
      rw [scanRow, if_pos hle]
      refine .bind (oblivious_pixelGetColor xx yy) fun c => ?_
      cases c with
      | none => exact ih
      | some c => exact .ite (.pure _) ih
  | case2 xx hle =>
      rw [scanRow, if_neg hle]
      exact .pure _

theorem oblivious_slowScan (t : Target) (yy : ℤ) : Oblivious (slowScan t yy) := by
  induction yy using slowScan.induct t with
  | case1 yy step hle ih =>
      rw [slowScan, if_pos hle]
      refine .bind (oblivious_scanRow t yy t.x1) fun c => ?_
      cases c with
      | some p => exact .pure _
      | none => exact ih
  | case2 yy hle =>
      rw [slowScan, if_neg hle]
      exact .pure _

theorem oblivious_remember (p : ℤ × ℤ) : Oblivious (Alien.remember p) :=
  .bind (oblivious_update fun _ _ _ _ => rfl) fun _ => .bind oblivious_tickCount fun _ =>
    .bind (oblivious_update fun _ _ _ _ => rfl) fun _ => .pure _

theorem oblivious_searchRoi (t : Target) : Oblivious (Alien.searchRoi t) := by
  have hvalid : Oblivious Alien.roiValid :=
    .bind (oblivious_gets fun _ _ _ _ => rfl) fun _ => .ite (.pure _) <|
      .bind oblivious_tickCount fun _ => .bind (oblivious_gets fun _ _ _ _ => rfl) fun _ => .pure _
  refine .bind hvalid fun _ => .ite (.gets_bind ?_) (.pure _)
  rintro s _ ⟨disk, path, trace, rfl, -⟩
  exact oblivious_searchBoth _ _ _ _ t

theorem oblivious_wagon_searchTarget (fastOnly : Bool) (t : Target) :
    Oblivious (Wagon.searchTarget fastOnly t) := by
  refine .bind (oblivious_searchBoth _ _ _ _ t) fun c => ?_
  cases c with
  | some p => exact .pure _
  | none => exact .ite (.pure _) (oblivious_slowScan t _)

theorem oblivious_alien_searchTarget (fastOnly : Bool) (t : Target) :
    Oblivious (Alien.searchTarget fastOnly t) := by
  refine .bind (oblivious_searchRoi t) fun c => ?_
  cases c with
  | some p => exact oblivious_remember p
  | none =>
      refine .bind (oblivious_searchBoth _ _ _ _ t) fun c => ?_
      cases c with
      | some p => exact oblivious_remember p
      | none =>
          refine .ite (.pure _) (.bind (oblivious_slowScan t _) fun c => ?_)
          cases c with
          | some p => exact oblivious_remember p
          | none => exact .pure _

theorem oblivious_screenRead (node : Node) {search : Target → Ahk (Option (ℤ × ℤ))}
    (hsearch : ∀ t, Oblivious (search t)) : Oblivious (screenRead node search) :=
  .bind oblivious_hideSpecialMarker fun _ => .bind oblivious_beginScreenRead fun _ =>
    .ensure (.bind oblivious_clientRectOrScreen fun _ => .ite (.pure _) (hsearch _))
      oblivious_endScreenRead

theorem oblivious_findTargetColor (f : ScriptFile) (node : Node) :
    Oblivious (findTargetColor f node) := by
  have hlogged {x : Ahk (Option (ℤ × ℤ))} (hx : Oblivious x) : Oblivious (do
      let hit ← x
      log (.searched hit)
      pure hit) := .bind hx fun _ => .bind (oblivious_log _) fun _ => .pure _
  cases f with
  | wagonMove => exact hlogged (oblivious_screenRead node (oblivious_wagon_searchTarget true))
  | alienWagonMove => exact hlogged (oblivious_screenRead node (oblivious_alien_searchTarget true))

/-! ## Keys and the signal -/

theorem oblivious_check (throwOnStop : Bool) : Oblivious (specialCheckStop throwOnStop) :=
  .bind (oblivious_gets fun _ _ _ _ => rfl) fun _ => .ite (.pure _) <|
    .bind (oblivious_sendUp _) fun _ => .ite (.abort _) (.pure _)

theorem oblivious_press (ks : List Key) (site : Site) (ms : ℕ) : Oblivious (do
    let _ ← specialCheckStop false
    sendDown ks
    sleep site ms
    sendUp ks) :=
  .bind (oblivious_check false) fun _ => .bind (oblivious_sendDown ks) fun _ =>
    .bind (oblivious_sleep site ms) fun _ => oblivious_sendUp ks

theorem oblivious_zoomTick (ms : ℕ) : Oblivious (zoomTick ms) :=
  .bind (oblivious_check false) fun _ => .ite (.pure _) <| .bind (oblivious_log _) fun _ =>
    .bind (oblivious_sleep _ _) fun _ => .pure _

theorem oblivious_fullZoomOut (ticks ms : ℕ) : Oblivious (specialFullZoomOut ticks ms) :=
  .bind (oblivious_within _ oblivious_activateRoblox) fun _ =>
    .loop (fun _ => oblivious_zoomTick ms) (fun _ => .pure _) _ _

/-- An attempt is not seen in the course, whatever it does. -/
theorem sameCourse_tryWrite (a : Attempt) (path content : String) :
    Does SameCourse (tryWrite a path content) := by
  have hlog {e : Event} (he : e.ofCourse = false) : Does SameCourse (log e) := .update fun s =>
    ⟨s.files, s.signalFile, e :: s.trace, rfl, by simp [course, he]⟩
  have hset (c : Option String) : Does SameCourse (update (St.setFile path c) : Ahk Unit) :=
    .update fun s => ⟨_, s.signalFile, s.trace, rfl, rfl⟩
  have hops (q : Env → FileOps) : Does SameCourse (constant q) := does_constant q
  have happend : Does SameCourse (fileAppend a path content) :=
    .bind (hops _) fun _ => .bind (hlog rfl) fun _ => .ite
      (.bind (.gets _) fun _ => .bind (hset _) fun _ => .pure _) (.pure _)
  exact .bind (hops _) fun _ => .bind (hlog rfl) fun _ => .ite (.pure _) <| .bind (.gets _) fun _ =>
    .ite (.bind (hlog rfl) fun _ => .ite (.pure _) <| .bind (hset _) fun _ => happend) happend

theorem oblivious_writeSignalAndExit {α : Type} (f : ScriptFile) (status : Status)
    (detail : String) : Oblivious (writeSignalAndExit f status detail : Ahk α) := by
  refine .bind (oblivious_log _) fun _ => .bind oblivious_hideSpecialMarker fun _ =>
    .bind oblivious_hideStatusOverlay fun _ => .bind oblivious_tickCount fun tick => ?_
  have hmain (path : String) := sameCourse_tryWrite .main path (signalContent status detail tick)
  have hfallback (written : Bool) (path : String) : Does SameCourse (if written then pure written
      else tryWrite .fallback path (signalContent status detail tick)) :=
    .ite (.pure _) (sameCourse_tryWrite _ _ _)
  exact .skip (.gets _) (.gets _) fun _ _ => .skip (does_constant _) (does_constant _) fun _ _ =>
    .skip (hmain _) (hmain _) fun _ _ => .skip (hfallback _ _) (hfallback _ _) fun _ _ =>
      oblivious_exitApp _

/-! ## The flows -/

theorem oblivious_searchHead (f : ScriptFile) (start : ℕ) : Oblivious (searchHead f start) := by
  have htimedOut : Oblivious (searchTimedOut f) :=
    .bind (oblivious_setStatus _) fun _ => .bind (oblivious_sleep _ _) fun _ =>
      .bind (oblivious_sendUp _) fun _ => .bind oblivious_hideSpecialMarker fun _ =>
        oblivious_writeSignalAndExit _ _ _
  exact .bind (oblivious_check false) fun _ => .ite (.pure _) <|
    .bind oblivious_tickCount fun _ => .ite htimedOut (.pure _)

theorem oblivious_pulseLeft : Oblivious pulseLeft :=
  .bind (oblivious_log _) fun _ => .bind (oblivious_sleep _ _) fun _ =>
    .bind (oblivious_sendDown _) fun _ => .bind (oblivious_sleep _ _) fun _ =>
      .bind (oblivious_sendUp _) fun _ => oblivious_sleep _ _

theorem oblivious_beforeTurn (f : ScriptFile) : Oblivious (beforeTurn f) := by
  cases f with
  | wagonMove =>
      exact .bind (oblivious_setStatus _) fun _ => .bind oblivious_hideSpecialMarker fun _ =>
        .bind oblivious_toolTip fun _ => .bind (oblivious_within _ (oblivious_fullZoomOut 30 15))
          fun _ => .bind (oblivious_check false) fun _ => oblivious_setStatus _
  | alienWagonMove =>
      exact .bind (oblivious_setStatus _) fun _ => .bind oblivious_hideSpecialMarker fun _ =>
        .bind oblivious_toolTip fun _ => .bind (oblivious_check false) fun _ => .pure _

theorem oblivious_search (f : ScriptFile) (passes : ℕ) (node : Node) :
    Oblivious (search f passes node) := by
  have hpass (start missCount : ℕ) :
      Oblivious (searchPass f (findTargetColor f node) (beforeTurn f) start missCount) := by
    refine .bind (oblivious_searchHead f start) fun _ => .ite (.pure _) <|
      .bind (oblivious_findTargetColor f node) fun hit => ?_
    cases hit with
    | some p =>
        exact .bind (oblivious_showSpecialMarker f _ _) fun _ => .bind (oblivious_setStatus _)
          fun _ => .pure _
    | none =>
        exact .bind (oblivious_setStatus _) fun _ => .ite
          (.bind (oblivious_beforeTurn f) fun _ => .bind
            (oblivious_within _ oblivious_activateRoblox) fun _ =>
              .bind oblivious_pulseLeft fun _ => .pure _)
          (.bind (oblivious_sleep _ _) fun _ => .pure _)
  have hlast (start : ℕ) : Oblivious (searchLast f start) :=
    .bind (oblivious_searchHead f start) fun _ => .ite (.pure _) (.abort _)
  exact .bind oblivious_tickCount fun start => .loop (hpass start) (fun _ => hlast start) _ _

theorem oblivious_centerColor (f : ScriptFile) (passes : ℕ) (node : Node) :
    Oblivious (centerColor (centering f passes node)) := by
  have hlocate : Oblivious (centering f passes node).locate := by
    unfold Centering.locate
    rw [centering_find, centering_search]
    refine .bind (oblivious_findTargetColor f node) fun hit => ?_
    cases hit with
    | some p => exact .pure _
    | none => exact .bind (oblivious_setStatus _) fun _ => oblivious_search f passes node
  have haim (c : Centering) (totals : Totals) (fx : ℤ) (r : Rect) : Oblivious (c.aim totals fx r) :=
    .bind (oblivious_log _) fun _ => .ite (.bind (oblivious_setStatus _) fun _ => .pure _) <|
      .bind (oblivious_setStatus _) fun _ => .bind (oblivious_press [_] _ _) fun _ =>
        .bind (oblivious_sleep _ _) fun _ => .pure _
  have hpass (totals : Totals) : Oblivious (centerPass (centering f passes node) totals) := by
    refine .bind (oblivious_check false) fun _ => .ite (.pure _) (.bind hlocate fun hit => ?_)
    cases hit with
    | none => exact .pure _
    | some p =>
        exact .bind (oblivious_showSpecialMarker _ _ _) fun _ =>
          .bind oblivious_clientRectOrScreen fun _ => haim _ _ _ _
  exact .loop hpass (fun _ => .bind (oblivious_setStatus _) fun _ => .pure _) _ _

/-- A part of a flow: it is announced, done and checked. -/
theorem oblivious_part {α β : Type} (text : String) (step : FlowStep) {x : Ahk α} (hx : Oblivious x)
    {y : Ahk β} (hy : Oblivious y) : Oblivious (do
      setStatus text
      let _ ← within (.step step) x
      let _ ← specialCheckStop
      y) :=
  .bind (oblivious_setStatus text) fun _ => .bind (oblivious_within _ hx) fun _ =>
    .bind (oblivious_check true) fun _ => hy

theorem oblivious_paused {α : Type} {x : Ahk α} (hx : Oblivious x) (ms : ℕ) : Oblivious (do
    let _ ← x
    sleep .flowPause ms) := .bind hx fun _ => oblivious_sleep _ _

theorem oblivious_sought (f : ScriptFile) (passes : ℕ) (node : Node) (text : String)
    (step : FlowStep) {k : Option (ℤ × ℤ) → Ahk Bool} (hnone : Oblivious (k none))
    (hsome : ∀ p, Oblivious (k (some p))) : Oblivious (do
      setStatus text
      let hit ← within (.step step) (search f passes node)
      k hit) := by
  refine .bind (oblivious_setStatus text) fun _ =>
    .bind (oblivious_within _ (oblivious_search f passes node)) fun hit => ?_
  cases hit with
  | none => exact hnone
  | some p => exact hsome p

theorem oblivious_wagon_flow (passes : ℕ) (node : Node) :
    Oblivious (Wagon.specialMovementFlow passes node) := by
  have hzoom (step : FlowStep) (text : String) {β : Type} {y : Ahk β} (hy : Oblivious y) :=
    oblivious_part text step (oblivious_paused (oblivious_fullZoomOut 30 15) 100) hy
  have hcenter : Oblivious (Wagon.specialCenterColorWithCamera passes node) :=
    .bind (oblivious_centerColor .wagonMove passes node) fun _ => .pure _
  have hsecond : Oblivious (Wagon.secondApproach passes node) :=
    oblivious_sought .wagonMove passes node _ _ (.pure _) fun _ =>
      .bind (oblivious_check true) fun _ => oblivious_part _ _ hcenter (.pure _)
  have hfirst : Oblivious (Wagon.approach passes node) :=
    hzoom _ _ <| oblivious_sought .wagonMove passes node _ _ (.pure _) fun _ =>
      .bind (oblivious_check true) fun _ => oblivious_part _ _ hcenter (.pure _)
  have hwalk : Oblivious Wagon.walk :=
    oblivious_part _ _ (oblivious_paused (oblivious_press [.w] _ 3000) 120) <|
      oblivious_part _ _ (oblivious_paused (oblivious_press [.s] _ 50) 80) <|
        hzoom _ _ <| oblivious_part _ _ (oblivious_sleep _ 500) (.pure _)
  have hjump : Oblivious Wagon.jump :=
    .bind (oblivious_setStatus _) fun _ =>
      .bind (oblivious_within _ (oblivious_paused (oblivious_press [.space] _ 60) 250)) fun _ =>
        .bind (oblivious_within _ (oblivious_paused (oblivious_press [.space] _ 60) 50)) fun _ =>
          .bind (oblivious_check true) fun _ => .bind (oblivious_setStatus _) fun _ =>
            .bind (oblivious_within _ (oblivious_paused (oblivious_press [.w] _ 350) 120))
              fun _ => .bind (oblivious_sendUp _) fun _ => oblivious_setStatus _
  refine .bind (oblivious_gets fun _ _ _ _ => rfl) fun _ => .ite (.pure _) <|
    .bind oblivious_activateRoblox fun _ => .bind (oblivious_check true) fun _ =>
      .bind hfirst fun _ => .ite ?_ (.pure _)
  exact .bind hwalk fun _ => .bind hsecond fun _ => .ite (.bind hjump fun _ => .pure _) (.pure _)

theorem oblivious_alien_flow (passes : ℕ) (node : Node) :
    Oblivious (Alien.specialMovementFlow passes node) := by
  have hzoom (step : FlowStep) (text : String) {β : Type} {y : Ahk β} (hy : Oblivious y) :=
    oblivious_part text step (oblivious_paused (oblivious_fullZoomOut 30 15) 100) hy
  have hpressF (step : FlowStep) (text : String) {β : Type} {y : Ahk β} (hy : Oblivious y) :=
    oblivious_part text step (oblivious_paused (oblivious_press [.f] .specialTapKey 60) 200) hy
  have hprepare : Oblivious Alien.prepare :=
    hpressF _ _ <| oblivious_part _ _ (oblivious_paused (oblivious_press [.space] _ 3000) 150) <|
      hzoom _ _ (.pure _)
  have happroach : Oblivious (Alien.approach passes node) :=
    oblivious_sought .alienWagonMove passes node _ _ (.pure _) fun _ =>
      .bind (oblivious_check true) fun _ => oblivious_part _ _
        (oblivious_paused (oblivious_centerColor .alienWagonMove passes node) 120) (.pure _)
  have hwalk : Oblivious Alien.walk :=
    .bind (oblivious_setStatus _) fun _ =>
      .bind (oblivious_within _ (oblivious_paused (oblivious_press [.w, .space] _ 3500) 150))
        fun _ => .bind (oblivious_sendUp _) fun _ => .bind (oblivious_check true) fun _ =>
          hpressF _ _ <| .bind (oblivious_setStatus _) fun _ => .bind
            (oblivious_within _ (oblivious_paused (oblivious_fullZoomOut 30 15) 100)) fun _ =>
              .bind (oblivious_sendUp _) fun _ => oblivious_setStatus _
  exact .bind (oblivious_gets fun _ _ _ _ => rfl) fun _ => .ite (.pure _) <|
    .bind oblivious_activateRoblox fun _ => .bind (oblivious_check true) fun _ =>
      .bind hprepare fun _ => .bind happroach fun _ =>
        .ite (.bind hwalk fun _ => .pure _) (.pure _)

/-! ## Whole runs -/

theorem oblivious_entryPoint (f : ScriptFile) (passes : ℕ) (node : Node) :
    Oblivious (entryPoint f passes node) := by
  have hrunning (b : Bool) : Oblivious (setRunning b) := oblivious_update fun _ _ _ _ => rfl
  have hwrapUp (status : Status) (text : String) (ms : ℕ) (detail : String) {α : Type} :
      Oblivious (do
        releaseSpecialKeys
        hideSpecialMarker
        setRunning false
        setStatus text
        sleep .ending ms
        (writeSignalAndExit f status detail : Ahk α)) :=
    .bind (oblivious_sendUp _) fun _ => .bind oblivious_hideSpecialMarker fun _ =>
      .bind (hrunning false) fun _ => .bind (oblivious_setStatus text) fun _ =>
        .bind (oblivious_sleep _ ms) fun _ => oblivious_writeSignalAndExit f status detail
  have hreport (ok : Bool) : Oblivious (reportResult f ok) := by
    cases ok <;> exact hwrapUp _ _ _ _
  have hflow : Oblivious (specialMovementFlow f passes node) := by
    cases f with
    | wagonMove => exact oblivious_wagon_flow passes node
    | alienWagonMove => exact oblivious_alien_flow passes node
  have htried : Oblivious (rescue (runFlow f passes node) (reportError f)) :=
    .rescue (.bind hflow fun _ => .bind (oblivious_log _) fun _ => .pure _) fun _ =>
      hwrapUp .error _ _ _
  exact .bind oblivious_createStatusOverlayGui fun _ => .bind oblivious_getRobloxHwnd fun _ =>
    .ite (oblivious_writeSignalAndExit _ _ _) <| .bind (hrunning true) fun _ =>
      .bind (oblivious_setStatus _) fun _ => .bind htried hreport

theorem sameCourse_run (f : ScriptFile) (cfg : Config) (passes : ℕ) (env : Env)
    (disk : String → Option String) (signalFile : Option String) (ops : Attempt → FileOps)
    (scriptDir temp : String) (disk' : String → Option String) :
    ∃ out s s', execute f cfg passes env disk = (out, s) ∧
      execute f { cfg with signalFile := signalFile } passes
        { env with files := ops, scriptDir := scriptDir, temp := temp } disk' = (out, s') ∧
      SameCourse s s' := by
  cases ht : integer (trim (cfg.tolerance.getD "0")) with
  | none =>
      have ht' : integer (trim
          (({ cfg with signalFile := signalFile } : Config).tolerance.getD "0")) = none := ht
      exact ⟨_, _, _, execute_of_none passes ht, execute_of_none passes ht', disk', "", [], rfl,
        rfl⟩
  | some tolerance =>
      have ht' : integer (trim
          (({ cfg with signalFile := signalFile } : Config).tolerance.getD "0")) = some tolerance :=
        ht
      rw [execute_of_some passes ht, execute_of_some passes ht']
      have hworld : SameWorld { env := env }
          { env := { env with files := ops, scriptDir := scriptDir, temp := temp } } :=
        ⟨ops, scriptDir, temp, rfl⟩
      have hentry (path path' : String) (node : Node) :
          SameCourse (.atEntry path node disk) (.atEntry path' node disk') :=
        ⟨disk', path', [.entered node path'], rfl, rfl⟩
      exact oblivious_entryPoint f passes (cfg.node tolerance) _ _ _ _ hworld (hentry _ _ _)

/-- The reporting has no influence on the course: another signal file, another directory, another
disk and other refusals leave all keys, searches, texts and the way the run ends as they are. -/
theorem run_ignores_reporting (f : ScriptFile) (cfg : Config) (passes : ℕ) (env : Env)
    (disk : String → Option String) (signalFile : Option String) (ops : Attempt → FileOps)
    (scriptDir temp : String) (disk' : String → Option String) :
    ∃ out s s', execute f cfg passes env disk = (out, s) ∧
      execute f { cfg with signalFile := signalFile } passes
        { env with files := ops, scriptDir := scriptDir, temp := temp } disk' = (out, s') ∧
      course s'.trace = course s.trace ∧ s'.now = s.now := by
  obtain ⟨out, s, _, hrun, hrun', disk₁, path, trace, rfl, hcourse⟩ :=
    sameCourse_run f cfg passes env disk signalFile ops scriptDir temp disk'
  exact ⟨out, s, _, hrun, hrun', hcourse, rfl⟩

end WagonMove
