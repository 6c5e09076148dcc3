import WagonMove.Script

/-!
# Screen reads

`HideSpecialMarker` and `BeginScreenRead` take everything of the script's own off the screen, the
animation timer cannot bring it back during the `Sleep` that follows, and `EndScreenRead` undoes
the suppression on every way out of the `try` block.
-/

namespace WagonMove

open Prog

/-- Overlay, tooltip and marker are gone, the timer is off and the overlay is suppressed. -/
def View.own : View :=
  { overlayShown := false, toolTipShown := false, suppressed := true, markerAlive := false
    timerOn := false }

/-- A read of the screen catches nothing of the script's own. -/
def Event.isClean : Event → Prop
  | .pixelSearch _ v | .pixelGetColor _ _ v => v = .own
  | _ => True

structure Clean (s : St) : Prop where
  marker : s.marker.Inv
  reads : ∀ e ∈ s.trace, e.isClean

abbrev KeepsClean {α : Type} (x : Ahk α) : Prop :=
  Keeps (fun _ => True) Clean (fun _ => Clean) x

namespace Clean

theorem quiet {p : Event → Prop} (hp : ∀ e, p e → e.isClean) {s s' : St} (hq : Quiet p s s')
    (h : Clean s) : Clean s' := by
  obtain ⟨l, hl, hlp⟩ := hq.trace
  refine ⟨hq.marker h.marker, fun e he => ?_⟩
  rw [hl] at he
  rcases List.mem_append.1 he with hm | hm
  · exact hp e (hlp e hm)
  · exact h.reads e hm

theorem plain (s s' : St) (hq : Quiet Event.isPlain s s') (h : Clean s) : Clean s' :=
  h.quiet (fun e he => by cases e <;> trivial) hq

theorem calm (s s' : St) (hq : Calm s s') (h : Clean s) : Clean s' :=
  h.plain s s' (hq.mono Event.isCalm.isPlain)

theorem record {s : St} {e : Event} (h : Clean s) (he : e.isClean) : Clean (s.record e) :=
  h.quiet (fun _ => id) (.record he)

theorem nap {s : St} (h : Clean s) (n : Nap) (sc : List Site) (ms : ℕ) : Clean (s.nap n sc ms) := by
  obtain ⟨l, hl, hle⟩ := s.nap_trace_append n sc ms
  refine ⟨h.marker.iterate_tick n.ticks, fun e he => ?_⟩
  rw [hl] at he
  rcases List.mem_append.1 he with hm | hm
  · obtain rfl | ⟨m, rfl⟩ := hle e hm <;> trivial
  · exact h.reads e hm

theorem sleep (site : Site) (ms : ℕ) : KeepsClean (sleep site ms) := fun _ _ _ h =>
  wp_sleep site ms (fun _ => h.nap _ _ ms) (fun _ => (h.nap _ _ ms).record trivial)

theorem wrote {s s' : St} (hw : Wrote s s') (h : Clean s) : Clean s' := by
  obtain ⟨l, hl, hlf⟩ := hw.trace
  refine ⟨hw.marker ▸ h.marker, fun e he => ?_⟩
  rw [hl] at he
  rcases List.mem_append.1 he with hm | hm
  · have := hlf e hm
    cases e <;> trivial
  · exact h.reads e hm

end Clean

/-! ## One colour search -/

/-- Nothing of the script's own is on the screen, and a timer has nothing to draw. -/
def St.Hidden (s : St) : Prop := s.view = .own

theorem hidden_nap {s : St} (h : s.Hidden) (n : Nap) (sc : List Site) (ms : ℕ) :
    (s.nap n sc ms).Hidden := by
  have htimer : s.marker.timer = false := congrArg View.timerOn h
  have hstay (k : ℕ) : Marker.tick^[k] s.marker = s.marker := by
    induction k with
    | zero => rfl
    | succ k ih => rw [Function.iterate_succ_apply', ih, Marker.tick_of_off htimer]
  rw [St.Hidden, ← h]
  simp only [St.view, St.nap, hstay]

theorem hidden_of_hide {s : St} (h : s.marker.Inv) :
    St.Hidden { s with
      marker := s.marker.hideSpecialMarker, statusOverlaySuppressed := true
      overlayShown := false, toolTipShown := false } := by
  have hw := h.windows_eq
  cases hg : s.marker.gui <;> simp [St.Hidden, St.view, View.own, Marker.hideSpecialMarker, hg, hw]

/-- A colour search reads a clean screen, whatever happens during its pause. -/
theorem clean_screenRead (node : Node) {search : Target → Ahk (Option (ℤ × ℤ))}
    (hsearch : ∀ t, Does Looked (search t)) : KeepsClean (screenRead node search) := by
  intro r _ s hs
  rw [screenRead, beginScreenRead, hideStatusOverlay, hideSpecialMarker, toolTip]
  simp only [wp_bind, wp_update]
  have hhide := hidden_of_hide hs.marker
  have hclean : Clean { s with
      marker := s.marker.hideSpecialMarker, statusOverlaySuppressed := true
      overlayShown := false, toolTipShown := false } :=
    ⟨hs.marker.hideSpecialMarker, hs.reads⟩
  refine wp_sleep _ _ (fun _ => ?_) (fun _ => (hclean.nap _ _ _).record trivial)
  rw [wp_ensure]
  refine (looked_readBody node hsearch).wp fun hit s' hl => ?_
  have hclean' : Clean s' := by
    have hview := hidden_nap hhide (r.env.sleep s.asked) (.beginScreenRead :: r.scope) 20
    have hnap := hclean.nap (r.env.sleep s.asked) (.beginScreenRead :: r.scope) 20
    obtain ⟨l, hl', hsees⟩ := hl.trace
    refine ⟨hl.marker ▸ hnap.marker, fun e he => ?_⟩
    rw [hl'] at he
    rcases List.mem_append.1 he with hm | hm
    · have := hsees e hm
      cases e <;> first | trivial | exact Eq.trans this hview
    · exact hnap.reads e hm
  exact calm_endScreenRead.wp fun _ s'' hq => hclean'.calm _ _ hq

inductive ReadCall where
  | wagonFind (fastOnly : Bool)
  | alienFind (fastOnly : Bool)
  | alienCheck

def ReadCall.call (node : Node) : ReadCall → Ahk (Option (ℤ × ℤ))
  | .wagonFind fastOnly => Wagon.specialFindTargetColor node fastOnly
  | .alienFind fastOnly => Alien.specialFindTargetColor node fastOnly
  | .alienCheck => Alien.specialCheckColorVisible node

theorem clean_call (c : ReadCall) (node : Node) : KeepsClean (c.call node) := by
  have hlog (hit : Option (ℤ × ℤ)) : KeepsClean (log (.searched hit)) :=
    .update fun _ hs => hs.record trivial
  cases c with
  | wagonFind fastOnly =>
      exact .bind (clean_screenRead node (looked_wagon_searchTarget fastOnly)) fun _ =>
        .bind (hlog _) fun _ => .pure _
  | alienFind fastOnly =>
      exact .bind (clean_screenRead node (looked_alien_searchTarget fastOnly)) fun _ =>
        .bind (hlog _) fun _ => .pure _
  | alienCheck =>
      rw [ReadCall.call, Alien.specialCheckColorVisible]
      exact clean_screenRead node fun t => looked_searchBoth _ _ _ _ t

theorem clean_find (f : ScriptFile) (node : Node) : KeepsClean (findTargetColor f node) := by
  cases f with
  | wagonMove => exact clean_call (.wagonFind true) node
  | alienWagonMove => exact clean_call (.alienFind true) node

theorem clean_signal {α : Type} (f : ScriptFile) (status : Status) (detail : String) :
    Leads (fun _ => True) Clean (fun _ _ => False) (fun _ => Clean)
      (writeSignalAndExit f status detail : Ahk α) := by
  refine leads_writeSignalAndExit Clean f status detail (fun _ hs => ?_) (fun _ _ => ?_)
    (fun _ _ => Clean.wrote) (fun _ hs => ?_)
  · exact Clean.record hs trivial
  · exact fun hq hs => hs.quiet (fun _ h => h.elim) hq
  · exact .record (.record hs trivial) trivial

theorem clean_keptScript (f : ScriptFile) (passes : ℕ) (node : Node) : KeptScript f passes node
    (fun _ => True) Clean (fun _ => Clean) (fun _ => Clean) (fun _ => Clean) := by
  have hloose : Loose f (fun _ => True) Clean (fun _ => Clean) :=
    { enter := fun _ _ h => h
      thrown := fun _ _ hs => hs
      plain := Clean.plain
      sleep := fun site ms => Clean.sleep site ms
      find := clean_find f
      signalError := clean_signal f .error }
  refine hloose.keptScript ((hloose.kept node).search (fun _ hs => hs) passes)
    (fun _ _ hs => hs) ?_ ?_ ?_ ?_ (clean_signal f)
  · exact fun _ _ hs => hs.record trivial
  · exact fun _ _ hs => hs.record trivial
  · exact fun _ _ hs => ⟨hs.marker, hs.reads⟩
  · exact fun _ _ hs => ⟨hs.marker, hs.reads⟩

/-! ## Showing the overlay again -/

/-- The suppression is over, and a running script shows its last status text. -/
def Restored (s : St) : Prop :=
  s.statusOverlaySuppressed = false ∧
    (s.running = true → s.statusLastText ≠ "" →
      s.overlayShown = true ∧ s.overlayText = overlayLine s.statusLastText)

theorem restored_endScreenRead : Does (fun _ => Restored) endScreenRead := by
  intro r s
  rw [endScreenRead]
  simp only [wp_bind, wp_update, wp_gets, id_eq]
  by_cases h : s.running = true ∧ s.statusLastText ≠ ""
  · rw [if_pos (by simpa using h), showStatusOverlay]
    simp only [wp_bind, wp_gets, id_eq, h.1, Bool.not_true, Bool.or_self, if_neg h.2]
    simp only [Bool.false_eq_true, if_false, wp_bind, wp_update, positionStatusOverlay]
    refine asked_getRobloxClientRect.wp ?_
    rintro rect _ ⟨n, rfl⟩
    simp only [wp_constant, wp_gets, wp_log]
    exact ⟨rfl, fun _ _ => ⟨rfl, rfl⟩⟩
  · rw [if_neg (by simpa using h), wp_pure]
    exact ⟨rfl, fun hr ht => absurd ⟨hr, ht⟩ h⟩

/-- Every way out of the frame of a colour search restores the overlay: a result, whichever it is,
and an error raised by anything inside. -/
theorem restored_screenRead (node : Node) (search : Target → Ahk (Option (ℤ × ℤ))) (r : Ctx)
    (s : St) : wp (screenRead node search) (fun _ => Restored)
      (fun e s' => ∀ err, e = .thrown err → Restored s') r s := by
  rw [screenRead, beginScreenRead, hideStatusOverlay, hideSpecialMarker, toolTip]
  simp only [wp_bind, wp_update]
  refine wp_sleep _ _ (fun _ => ?_) fun _ err he => ?_
  · rw [wp_ensure]
    refine wp_mono wp_trivial (fun hit s' _ => restored_endScreenRead.wp fun _ _ h => h) ?_
    intro e s' _
    cases e with
    | thrown e => exact restored_endScreenRead.wp fun _ _ h _ _ => h
    | exited code | closed | starved =>
        intro err he
        cases he
  · cases he

theorem Restored.record {s : St} (h : Restored s) (e : Event) : Restored (s.record e) := h

theorem restored_call (c : ReadCall) (node : Node) (r : Ctx) (s : St) :
    wp (c.call node) (fun _ => Restored)
      (fun e s' => ∀ err, e = .thrown err → Restored s') r s := by
  have hlog {x : Ahk (Option (ℤ × ℤ))} (hx : wp x (fun _ => Restored)
      (fun e s' => ∀ err, e = .thrown err → Restored s') r s) :
      wp (do let hit ← x; log (.searched hit); pure hit) (fun _ => Restored)
        (fun e s' => ∀ err, e = .thrown err → Restored s') r s := by
    rw [wp_bind]
    refine wp_mono hx (fun hit s' h => ?_) (fun _ _ h => h)
    rw [wp_bind, wp_log, wp_pure]
    exact h.record _
  cases c with
  | wagonFind fastOnly | alienFind fastOnly => exact hlog (restored_screenRead node _ r s)
  | alienCheck =>
      rw [ReadCall.call, Alien.specialCheckColorVisible]
      exact restored_screenRead node _ r s

/-- In every run each screen read is clean. The same holds of every single call that reads the
screen, and each way out of it leaves the overlay restored; so does an error in the middle. -/
theorem screen_reads_are_clean (f : ScriptFile) (cfg : Config) (passes : ℕ) (env : Env)
    (files : String → Option String) :
    (∀ e ∈ (execute f cfg passes env files).2.trace, e.isClean) ∧
    (∀ c node, KeepsClean (ReadCall.call node c)) ∧
    (∀ c node r s, wp (ReadCall.call node c) (fun _ => Restored)
      (fun e s' => ∀ err, e = .thrown err → Restored s') r s) ∧
    (∀ node search r s, wp (screenRead node search) (fun _ => Restored)
      (fun e s' => ∀ err, e = .thrown err → Restored s') r s) := by
  refine ⟨?_, fun c node => clean_call c node, restored_call, restored_screenRead⟩
  have hinit : Clean { files := files } := ⟨Marker.inv_init, by simp⟩
  obtain ⟨e, s', he, hclean⟩ := KeptScript.execute (clean_keptScript f passes) cfg env files
    trivial hinit fun _ _ => hinit
  rw [he]
  exact hclean.reads

end WagonMove
