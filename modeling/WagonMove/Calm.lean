import WagonMove.Flow

/-!
# Rules of the built-ins, and calm code

`wp` rules of the primitives, and `Calm`: what the code between two interesting events may do. A
calm stretch leaves the flag, the files and the keys alone and only lets the clock run on.
-/

namespace WagonMove

open Prog

namespace St

variable (e : Event) (n : Nap) (sc : List Site) (ms : ℕ) (s : St)

@[simp] theorem record_running : (s.record e).running = s.running := rfl
@[simp] theorem record_signalFile : (s.record e).signalFile = s.signalFile := rfl
@[simp] theorem record_files : (s.record e).files = s.files := rfl
@[simp] theorem record_now : (s.record e).now = s.now := rfl
@[simp] theorem record_trace : (s.record e).trace = e :: s.trace := rfl
@[simp] theorem nap_running : (s.nap n sc ms).running = (s.running && !n.stop) := rfl
@[simp] theorem nap_signalFile : (s.nap n sc ms).signalFile = s.signalFile := rfl
@[simp] theorem nap_files : (s.nap n sc ms).files = s.files := rfl
@[simp] theorem nap_now : (s.nap n sc ms).now = s.now + n.elapsed := rfl
theorem nap_trace : (s.nap n sc ms).trace =
    if s.running && n.stop then .stopped sc (s.nap n sc ms).moment :: .slept sc ms :: s.trace
    else .slept sc ms :: s.trace := rfl

theorem nap_trace_append : ∃ l, (s.nap n sc ms).trace = l ++ s.trace ∧
    ∀ e ∈ l, e = .slept sc ms ∨ ∃ m, e = .stopped sc m := by
  rw [nap_trace]
  split
  · exact ⟨[.stopped sc _, .slept sc ms], rfl, by simp⟩
  · exact ⟨[.slept sc ms], rfl, by simp⟩

end St

section Rules

variable {α : Type} {Q : α → St → Prop} {E : Abort Err → St → Prop} {r : Ctx} {s : St}

@[simp] theorem wp_log (e : Event) {Q : Unit → St → Prop} :
    wp (log e) Q E r s ↔ Q () (s.record e) := by rw [log, wp_update]

@[simp] theorem wp_ask (q : Env → ℕ → α) :
    wp (ask q) Q E r s ↔ Q (q r.env s.asked) { s with asked := s.asked + 1 } := by
  rw [ask, wp.eq_def]

@[simp] theorem wp_constant (q : Env → α) : wp (constant q) Q E r s ↔ Q (q r.env) s := by
  rw [constant, wp.eq_def]

@[simp] theorem wp_within (site : Site) (x : Ahk α) :
    wp (within site x) Q E r s ↔ wp x Q E (r.enter site) s := by rw [within, wp_under]

@[simp] theorem wp_throwErr (message : String) :
    wp (throwErr message : Ahk α) Q E r s ↔ E (.thrown ⟨message⟩) s := by rw [throwErr, wp_raise]

/-- A nap either lets the script go on or closes it, with the exit handler as its last event. -/
theorem wp_sleep (site : Site) (ms : ℕ) {Q : Unit → St → Prop}
    (hgo : (r.env.sleep s.asked).close = false →
      Q () (s.nap (r.env.sleep s.asked) (site :: r.scope) ms))
    (hclose : (r.env.sleep s.asked).close = true →
      E .closed ((s.nap (r.env.sleep s.asked) (site :: r.scope) ms).record .gdipShutdown)) :
    wp (sleep site ms) Q E r s := by
  rw [wp.eq_def, sleep]
  cases hc : (r.env.sleep s.asked).close with
  | false =>
      simp only [hc, Bool.false_eq_true, if_false]
      exact hgo hc
  | true =>
      simp only [hc, if_true]
      exact hclose hc

@[simp] theorem wp_tickCount {Q : ℕ → St → Prop} : wp tickCount Q E r s ↔
    Q (s.now + r.env.drift s.asked)
      { s with asked := s.asked + 1, now := s.now + r.env.drift s.asked } := by
  simp only [tickCount, wp_bind, wp_ask, wp_update, wp_gets]

@[simp] theorem wp_exitApp (code : ℕ) : wp (exitApp code : Ahk α) Q E r s ↔
    E (.exited code) ((s.record (.exitApp code)).record .gdipShutdown) := by
  rw [exitApp, wp_bind, wp_log, wp_bind, wagonOnExit, wp_log, wp_abort]

end Rules

/-! ## Kinds of quiet code -/

/-- Queries of the environment: only the next answer to be taken changes. -/
def Asked (s s' : St) : Prop := ∃ n, s' = { s with asked := n }

instance : IsPreorder St Asked where
  refl s := ⟨s.asked, rfl⟩
  trans := by
    rintro a b c ⟨m, rfl⟩ ⟨n, rfl⟩
    exact ⟨n, rfl⟩

/-- Steps that log events of `p` only, keep the marker well formed, and leave the flag and the
files alone. -/
structure Quiet (p : Event → Prop) (s s' : St) : Prop where
  running : s'.running = s.running
  signalFile : s'.signalFile = s.signalFile
  files : s'.files = s.files
  now : s.now ≤ s'.now
  marker : s.marker.Inv → s'.marker.Inv
  trace : ∃ l, s'.trace = l ++ s.trace ∧ ∀ e ∈ l, p e

namespace Quiet

variable {p q : Event → Prop}

theorem of_silent {s s' : St} (running : s'.running = s.running)
    (signalFile : s'.signalFile = s.signalFile) (files : s'.files = s.files) (now : s.now ≤ s'.now)
    (marker : s.marker.Inv → s'.marker.Inv) (trace : s'.trace = s.trace) : Quiet p s s' :=
  ⟨running, signalFile, files, now, marker, [], by simpa using trace, by simp⟩

instance : IsPreorder St (Quiet p) where
  refl s := of_silent rfl rfl rfl le_rfl id rfl
  trans := by
    intro a b c hab hbc
    obtain ⟨l, hl, hlp⟩ := hab.trace
    obtain ⟨m, hm, hmp⟩ := hbc.trace
    refine ⟨hbc.running.trans hab.running, hbc.signalFile.trans hab.signalFile,
      hbc.files.trans hab.files, hab.now.trans hbc.now, fun h => hbc.marker (hab.marker h),
      m ++ l, by simp [hm, hl], ?_⟩
    intro e he
    rcases List.mem_append.1 he with h | h
    · exact hmp e h
    · exact hlp e h

theorem mono {a b : St} (h : Quiet p a b) (hpq : ∀ e, p e → q e) : Quiet q a b := by
  obtain ⟨l, hl, hlp⟩ := h.trace
  exact ⟨h.running, h.signalFile, h.files, h.now, h.marker, l, hl, fun e he => hpq e (hlp e he)⟩

theorem record {s : St} {e : Event} (he : p e) : Quiet p s (s.record e) :=
  ⟨rfl, rfl, rfl, le_rfl, id, [e], rfl, by simpa using he⟩

end Quiet

theorem Asked.quiet {p : Event → Prop} {s s' : St} (h : Asked s s') : Quiet p s s' := by
  obtain ⟨n, rfl⟩ := h
  exact .of_silent rfl rfl rfl le_rfl id rfl

/-- Events of no consequence for keys, files, screen reads and the course of a run. -/
def Event.isCalm : Event → Prop
  | .overlayShown _ _ _ => True
  | _ => False

abbrev Calm (s s' : St) : Prop := Quiet Event.isCalm s s'

abbrev IsCalm {α : Type} (x : Ahk α) : Prop := Does Calm x

/-- A read of the screen that sees `v`. -/
def Event.sees (v : View) : Event → Prop
  | .pixelSearch _ v' | .pixelGetColor _ _ v' => v' = v
  | _ => False

/-- Steps of a colour search: what is on the screen stays as it is and is what the reads see. -/
structure Looked (s s' : St) : Prop where
  running : s'.running = s.running
  signalFile : s'.signalFile = s.signalFile
  files : s'.files = s.files
  now : s.now ≤ s'.now
  marker : s'.marker = s.marker
  view : s'.view = s.view
  lastText : s'.statusLastText = s.statusLastText
  trace : ∃ l, s'.trace = l ++ s.trace ∧ ∀ e ∈ l, e.sees s.view

namespace Looked

theorem of_silent {s s' : St} (running : s'.running = s.running)
    (signalFile : s'.signalFile = s.signalFile) (files : s'.files = s.files) (now : s.now ≤ s'.now)
    (marker : s'.marker = s.marker) (view : s'.view = s.view)
    (lastText : s'.statusLastText = s.statusLastText) (trace : s'.trace = s.trace) : Looked s s' :=
  ⟨running, signalFile, files, now, marker, view, lastText, [], by simpa using trace, by simp⟩

instance : IsPreorder St Looked where
  refl s := of_silent rfl rfl rfl le_rfl rfl rfl rfl rfl
  trans := by
    intro a b c hab hbc
    obtain ⟨l, hl, hls⟩ := hab.trace
    obtain ⟨m, hm, hms⟩ := hbc.trace
    refine ⟨hbc.running.trans hab.running, hbc.signalFile.trans hab.signalFile,
      hbc.files.trans hab.files, hab.now.trans hbc.now, hbc.marker.trans hab.marker,
      hbc.view.trans hab.view, hbc.lastText.trans hab.lastText, m ++ l, by simp [hm, hl], ?_⟩
    intro e he
    rcases List.mem_append.1 he with h | h
    · exact hab.view ▸ hms e h
    · exact hls e h

end Looked

theorem Asked.looked {s s' : St} (h : Asked s s') : Looked s s' := by
  obtain ⟨n, rfl⟩ := h
  exact .of_silent rfl rfl rfl le_rfl rfl rfl rfl rfl

/-- The events of a screen read, from hiding the overlay to showing it again. -/
def Event.isRead : Event → Prop
  | .pixelSearch _ _ | .pixelGetColor _ _ _ => True
  | e => e.isCalm

/-- The events of a whole colour search: a screen read and its result. -/
def Event.isLook : Event → Prop
  | .pixelSearch _ _ | .pixelGetColor _ _ _ | .searched _ => True
  | e => e.isCalm

theorem Event.isCalm.isRead (e : Event) (h : e.isCalm) : e.isRead := by
  cases e <;> trivial

theorem Event.isRead.isLook (e : Event) (h : e.isRead) : e.isLook := by
  cases e <;> trivial

theorem Event.isCalm.isLook (e : Event) (h : e.isCalm) : e.isLook := h.isRead.isLook

theorem Looked.quiet {s s' : St} (h : Looked s s') : Quiet Event.isRead s s' := by
  obtain ⟨l, hl, hls⟩ := h.trace
  refine ⟨h.running, h.signalFile, h.files, h.now, fun hi => h.marker ▸ hi, l, hl, ?_⟩
  intro e he
  have := hls e he
  cases e <;> trivial

/-! ## Calm functions of the scripts -/

theorem asked_ask {α : Type} (q : Env → ℕ → α) : Does Asked (ask q) :=
  fun _ _ => (wp_ask q).2 ⟨_, rfl⟩

theorem does_constant {α : Type} {R : St → St → Prop} [IsPreorder St R] (q : Env → α) :
    Does R (constant q) := fun _ s => (wp_constant q).2 (refl_of R s)

theorem calm_log {e : Event} (he : e.isCalm) : IsCalm (log e) := .update fun _ => .record he

theorem quiet_hideSpecialMarker {p : Event → Prop} : Does (Quiet p) hideSpecialMarker :=
  .update fun _ => .of_silent rfl rfl rfl le_rfl (fun h => h.hideSpecialMarker) rfl

theorem calm_showSpecialMarker (f : ScriptFile) (x y : ℤ) : IsCalm (showSpecialMarker f x y) :=
  .update fun _ => .of_silent rfl rfl rfl le_rfl (fun h => h.step f (.show x y)) rfl

theorem quiet_toolTip {p : Event → Prop} : Does (Quiet p) toolTip :=
  .update fun _ => .of_silent rfl rfl rfl le_rfl id rfl

theorem quiet_tickCount {p : Event → Prop} : Does (Quiet p) tickCount :=
  .bind ((asked_ask _).mono fun _ _ => Asked.quiet) fun _ =>
    .bind (.update fun _ => .of_silent rfl rfl rfl (Nat.le_add_right _ _) id rfl) fun _ => .gets _

theorem asked_getRobloxHwnd : Does Asked getRobloxHwnd :=
  .bind (asked_ask _) fun _ => .ite (.pure _) (asked_ask _)

theorem asked_clientRectFallback : Does Asked clientRectFallback := by
  refine .bind (asked_ask _) fun c => ?_
  cases c with
  | some r => exact .pure _
  | none =>
      refine .bind (asked_ask _) fun c => ?_
      cases c <;> exact .pure _

theorem asked_getRobloxClientRect : Does Asked getRobloxClientRect := by
  refine .bind asked_getRobloxHwnd fun _ => .ite (.pure _) (.bind (asked_ask _) fun c => ?_)
  cases c with
  | none => exact asked_clientRectFallback
  | some c =>
      refine .bind (asked_ask _) fun p => ?_
      cases p with
      | none => exact asked_clientRectFallback
      | some p => exact .pure _

theorem asked_clientRectOrScreen : Does Asked clientRectOrScreen := by
  refine .bind asked_getRobloxClientRect fun c => ?_
  cases c with
  | some r => exact .pure _
  | none => exact does_constant _

theorem calm_positionStatusOverlay : IsCalm positionStatusOverlay :=
  .bind (asked_getRobloxClientRect.mono fun _ _ => Asked.quiet) fun _ =>
    .bind (does_constant _) fun _ => .bind (does_constant _) fun _ => .bind (.gets _) fun _ =>
      .bind (.update fun _ => .of_silent rfl rfl rfl le_rfl id rfl) fun _ => calm_log trivial

theorem calm_showStatusOverlay (text : String) : IsCalm (showStatusOverlay text) :=
  .bind (.gets _) fun _ => .ite (.pure _) <| .ite (.pure _) <|
    .bind (.update fun _ => .of_silent rfl rfl rfl le_rfl id rfl) fun _ =>
      calm_positionStatusOverlay

theorem quiet_hideStatusOverlay {p : Event → Prop} : Does (Quiet p) hideStatusOverlay :=
  .bind quiet_toolTip fun _ => .update fun _ => .of_silent rfl rfl rfl le_rfl id rfl

theorem calm_setStatus (text : String) : IsCalm (setStatus text) :=
  .bind (.update fun _ => .of_silent rfl rfl rfl le_rfl id rfl) fun _ =>
    .bind quiet_toolTip fun _ => .bind (.gets _) fun _ =>
      .ite (calm_showStatusOverlay text) quiet_hideStatusOverlay

theorem calm_createStatusOverlayGui : IsCalm createStatusOverlayGui :=
  .update fun _ => .of_silent rfl rfl rfl le_rfl id rfl

theorem calm_endScreenRead : IsCalm endScreenRead :=
  .bind (.update fun _ => .of_silent rfl rfl rfl le_rfl id rfl) fun _ =>
    .bind (.gets _) fun _ => .ite (calm_showStatusOverlay _) (.pure _)

/-! ## Colour searches -/

theorem looked_read {α : Type} (e : View → Event) (he : ∀ v, (e v).sees v) (q : Env → ℕ → α) :
    Does Looked (do let v ← gets St.view; log (e v); ask q) := by
  intro r s
  simp only [wp_bind, wp_gets, wp_log, wp_ask]
  exact ⟨rfl, rfl, rfl, le_rfl, rfl, rfl, rfl, [e s.view], rfl, by simpa using he s.view⟩

theorem looked_pixelSearch (q : Search) : Does Looked (pixelSearch q) :=
  looked_read (Event.pixelSearch q) (fun _ => rfl) _

theorem looked_pixelGetColor (x y : ℤ) : Does Looked (pixelGetColor x y) :=
  looked_read (Event.pixelGetColor x y) (fun _ => rfl) _

theorem looked_trySearch (q : Search) : Does Looked (trySearch q) := by
  refine .bind (looked_pixelSearch q) fun c => ?_
  cases c <;> exact .pure _

theorem looked_searchBoth (x1 y1 x2 y2 : ℤ) (t : Target) :
    Does Looked (searchBoth x1 y1 x2 y2 t) := by
  refine .bind (looked_trySearch _) fun c => ?_
  cases c with
  | some p => exact .pure _
  | none => exact looked_trySearch _

theorem looked_scanRow (t : Target) (yy xx : ℤ) : Does Looked (scanRow t yy xx) := by
  induction xx using scanRow.induct t with
  | case1 xx step hle ih =>
      rw [scanRow, if_pos hle]
      refine .bind (looked_pixelGetColor xx yy) fun c => ?_
      cases c with
      | none => exact ih
      | some c => exact .ite (.pure _) ih
  | case2 xx hle =>
      rw [scanRow, if_neg hle]
      exact .pure _

theorem looked_slowScan (t : Target) (yy : ℤ) : Does Looked (slowScan t yy) := by
  induction yy using slowScan.induct t with
  | case1 yy step hle ih =>
      rw [slowScan, if_pos hle]
      refine .bind (looked_scanRow t yy t.x1) fun c => ?_
      cases c with
      | some p => exact .pure _
      | none => exact ih
  | case2 yy hle =>
      rw [slowScan, if_neg hle]
      exact .pure _

theorem looked_tickCount : Does Looked tickCount :=
  .bind ((asked_ask _).mono fun _ _ => Asked.looked) fun _ =>
    .bind (.update fun _ => .of_silent rfl rfl rfl (Nat.le_add_right _ _) rfl rfl rfl rfl) fun _ =>
      .gets _

theorem looked_remember (p : ℤ × ℤ) : Does Looked (Alien.remember p) :=
  .bind (.update fun _ => .of_silent rfl rfl rfl le_rfl rfl rfl rfl rfl) fun _ =>
    .bind looked_tickCount fun _ =>
      .bind (.update fun _ => .of_silent rfl rfl rfl le_rfl rfl rfl rfl rfl) fun _ => .pure _

theorem looked_searchRoi (t : Target) : Does Looked (Alien.searchRoi t) := by
  have hvalid : Does Looked Alien.roiValid :=
    .bind (.gets _) fun _ => .ite (.pure _) <| .bind looked_tickCount fun _ =>
      .bind (.gets _) fun _ => .pure _
  exact .bind hvalid fun _ => .ite (.bind (.gets _) fun _ => looked_searchBoth _ _ _ _ t) (.pure _)

theorem looked_wagon_searchTarget (fastOnly : Bool) (t : Target) :
    Does Looked (Wagon.searchTarget fastOnly t) := by
  refine .bind (looked_searchBoth _ _ _ _ t) fun c => ?_
  cases c with
  | some p => exact .pure _
  | none => exact .ite (.pure _) (looked_slowScan t _)

theorem looked_alien_searchTarget (fastOnly : Bool) (t : Target) :
    Does Looked (Alien.searchTarget fastOnly t) := by
  refine .bind (looked_searchRoi t) fun c => ?_
  cases c with
  | some p => exact looked_remember p
  | none =>
      refine .bind (looked_searchBoth _ _ _ _ t) fun c => ?_
      cases c with
      | some p => exact looked_remember p
      | none =>
          refine .ite (.pure _) (.bind (looked_slowScan t _) fun c => ?_)
          cases c with
          | some p => exact looked_remember p
          | none => exact .pure _

theorem looked_readBody (node : Node) {search : Target → Ahk (Option (ℤ × ℤ))}
    (hsearch : ∀ t, Does Looked (search t)) : Does Looked (do
      let r ← clientRectOrScreen
      let hex := normalizeHex node.colorHex false
      if hex = "" then pure none
      else search (r.target hex node)) :=
  .bind (asked_clientRectOrScreen.mono fun _ _ => Asked.looked) fun _ => .ite (.pure _) (hsearch _)

/-! ## Lifting keys -/

theorem quiet_sendUp (ks : List Key) :
    Does (Quiet fun e => ∃ k ∈ ks, e = .key (.up k)) (sendUp ks) := by
  induction ks with
  | nil => exact .pure _
  | cons k ks ih =>
      refine .bind (.update fun s => .record ⟨k, by simp, rfl⟩) fun _ => ih.mono fun _ _ h =>
        h.mono ?_
      rintro e ⟨j, hj, rfl⟩
      exact ⟨j, by simp [hj], rfl⟩

theorem wp_specialCheckStop_of_running {b : Bool} {Q : Bool → St → Prop} {E : Abort Err → St → Prop}
    {r : Ctx} {s : St} (hr : s.running = true) :
    wp (specialCheckStop b) Q E r s ↔ Q false s := by
  rw [specialCheckStop, wp_bind, wp_gets, if_pos hr, wp_pure]

/-! ## Writing the signal -/

def Event.isFileOp : Event → Prop
  | .fileExist _ | .fileDelete _ _ | .fileAppend _ _ => True
  | _ => False

structure Wrote (s s' : St) : Prop where
  running : s'.running = s.running
  marker : s'.marker = s.marker
  now : s'.now = s.now
  trace : ∃ l, s'.trace = l ++ s.trace ∧ ∀ e ∈ l, e.isFileOp

namespace Wrote

instance : IsPreorder St Wrote where
  refl s := ⟨rfl, rfl, rfl, [], rfl, by simp⟩
  trans := by
    intro a b c hab hbc
    obtain ⟨l, hl, hlf⟩ := hab.trace
    obtain ⟨m, hm, hmf⟩ := hbc.trace
    refine ⟨hbc.running.trans hab.running, hbc.marker.trans hab.marker, hbc.now.trans hab.now,
      m ++ l, by simp [hm, hl], ?_⟩
    intro e he
    rcases List.mem_append.1 he with h | h
    · exact hmf e h
    · exact hlf e h

theorem record {s : St} {e : Event} (he : e.isFileOp) : Wrote s (s.record e) :=
  ⟨rfl, rfl, rfl, [e], rfl, by simpa using he⟩

theorem setFile (path : String) (content : Option String) (s : St) :
    Wrote s (s.setFile path content) := ⟨rfl, rfl, rfl, [], rfl, by simp⟩

end Wrote

theorem wrote_fileAppend (a : Attempt) (path content : String) :
    Does Wrote (fileAppend a path content) :=
  .bind (does_constant _) fun _ => .bind (.update fun _ => .record trivial) fun _ =>
    .ite (.bind (.gets _) fun _ => .bind (.update fun _ => .setFile _ _ _) fun _ => .pure _)
      (.pure _)

theorem wrote_tryWrite (a : Attempt) (path content : String) :
    Does Wrote (tryWrite a path content) :=
  .bind (does_constant _) fun _ => .bind (.update fun _ => .record trivial) fun _ =>
    .ite (.pure _) <| .bind (.gets _) fun _ => .ite
      (.bind (.update fun _ => .record trivial) fun _ => .ite (.pure _) <|
        .bind (.update fun _ => .setFile _ _ _) fun _ => wrote_fileAppend a path content)
      (wrote_fileAppend a path content)

end WagonMove
