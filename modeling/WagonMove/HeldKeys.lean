import Mathlib.Data.Finset.Basic
import WagonMove.Script

/-!
# Held keys

The keys that are down at each moment of a run, read off its trace. Between two parts of a script
nothing is held; inside a part one helper holds one key, or W and Space, during one `Sleep`. So an
exit request finds a key down exactly if it arrives during one of these `Sleep`s.
-/

namespace WagonMove

open Prog

def Event.stroke : Event → Option (Stroke Key)
  | .key k => some k
  | _ => none

abbrev heldKeys (t : List Event) : Finset Key := Trace.held Event.stroke t

/-- A search has succeeded, and W has not come up since. -/
def Armed : List Event → Prop :=
  Trace.Since (fun e => ∃ p, e = .searched (some p)) (· = .key (.up .w))

/-- No key, a single key, or W with Space. -/
def Allowed (keys : Finset Key) : Prop := keys = ∅ ∨ (∃ k, keys = {k}) ∨ keys = {.w, .space}

structure Disciplined (t : List Event) : Prop where
  allowed : ∀ later earlier, t = later ++ earlier → Allowed (heldKeys earlier)
  fresh : ∀ later k earlier, t = later ++ .key (.down k) :: earlier → k ∉ heldKeys earlier
  armed : ∀ later earlier, t = later ++ .key (.down .w) :: earlier → Armed earlier

namespace Disciplined

theorem nil : Disciplined [] where
  allowed later earlier h := by
    obtain ⟨-, rfl⟩ := List.append_eq_nil_iff.1 h.symm
    exact .inl rfl
  fresh later k earlier h := by simp at h
  armed later earlier h := by simp at h

/-- A key that is up goes down; W needs an armed trace. -/
theorem cons {t : List Event} {e : Event} (h : Disciplined t) (ha : Allowed (heldKeys (e :: t)))
    (hf : ∀ k, e = .key (.down k) → k ∉ heldKeys t) (hw : e = .key (.down .w) → Armed t) :
    Disciplined (e :: t) where
  allowed later earlier ht := by
    cases later with
    | nil =>
        have : e :: t = earlier := ht
        exact this ▸ ha
    | cons a later => exact h.allowed later earlier (List.cons.inj ht).2
  fresh later k earlier ht := by
    cases later with
    | nil =>
        obtain ⟨he, rfl⟩ := List.cons.inj ht
        exact hf k he
    | cons a later => exact h.fresh later k earlier (List.cons.inj ht).2
  armed later earlier ht := by
    cases later with
    | nil =>
        obtain ⟨he, rfl⟩ := List.cons.inj ht
        exact hw he
    | cons a later => exact h.armed later earlier (List.cons.inj ht).2

theorem now {t : List Event} (h : Disciplined t) : Allowed (heldKeys t) := h.allowed [] t rfl

theorem other {t : List Event} {e : Event} (h : Disciplined t) (he : e.stroke = none) :
    Disciplined (e :: t) := by
  refine h.cons ?_ ?_ ?_
  · rw [heldKeys, Trace.held_other t he]
    exact h.now
  · rintro k rfl
    exact nomatch he
  · rintro rfl
    exact nomatch he

theorem append {l t : List Event} (h : Disciplined t) (hl : ∀ e ∈ l, e.stroke = none) :
    Disciplined (l ++ t) := by
  induction l with
  | nil => exact h
  | cons e l ih => exact (ih fun a ha => hl a (by simp [ha])).other (hl e (by simp))

theorem up {t : List Event} {k : Key} (h : Disciplined t)
    (ha : Allowed ((heldKeys t).erase k)) : Disciplined (.key (.up k) :: t) := by
  refine h.cons ?_ ?_ ?_
  · rwa [heldKeys, Trace.held_up t rfl]
  · simp
  · simp

end Disciplined

theorem Armed.append {l t : List Event} (h : Armed t) (hl : ∀ e ∈ l, e ≠ .key (.up .w)) :
    Armed (l ++ t) := Trace.Since.append h hl

theorem allowed_empty : Allowed ∅ := .inl rfl

theorem allowed_single (k : Key) : Allowed {k} := .inr (.inl ⟨k, rfl⟩)

theorem heldKeys_down (k : Key) (t : List Event) :
    heldKeys (.key (.down k) :: t) = insert k (heldKeys t) := rfl

theorem heldKeys_up (k : Key) (t : List Event) :
    heldKeys (.key (.up k) :: t) = (heldKeys t).erase k := rfl

/-! ## The invariant of a run -/

/-- Exactly `keys` are down. With `b`, W may be pressed as long as the script is running. -/
structure Holding (keys : Finset Key) (b : Bool) (s : St) : Prop where
  disciplined : Disciplined s.trace
  held : heldKeys s.trace = keys
  armed : b = true → s.running = true → Armed s.trace

def lastSleep (t : List Event) : Option Site :=
  t.findSome? fun
    | .slept (site :: _) _ => some site
    | _ => none

structure KeysAtEnd (e : Abort Err) (s : St) : Prop where
  disciplined : Disciplined s.trace
  released : e ≠ .closed → heldKeys s.trace = ∅
  closed : e = .closed → (heldKeys s.trace = ∅ ↔
    ∃ site, lastSleep s.trace = some site ∧ site.holdsKey = false)

namespace Holding

variable {keys : Finset Key} {b b' : Bool} {s : St}

theorem of_append (h : Holding keys b s) {s' : St} {l : List Event} (hl : s'.trace = l ++ s.trace)
    (hs : ∀ e ∈ l, e.stroke = none) (hrun : s'.running = true → s.running = true) :
    Holding keys b s' where
  disciplined := hl ▸ h.disciplined.append hs
  held := by rw [hl, heldKeys, Trace.held_append hs, ← heldKeys, h.held]
  armed hb hr := by
    rw [hl]
    refine (h.armed hb (hrun hr)).append ?_
    rintro e he rfl
    exact nomatch hs _ he

theorem record (h : Holding keys b s) {e : Event} (he : e.stroke = none) :
    Holding keys b (s.record e) := h.of_append (l := [e]) rfl (by simpa using he) id

theorem quiet {p : Event → Prop} (hp : ∀ e, p e → e.stroke = none) {s' : St} (hq : Quiet p s s')
    (h : Holding keys b s) : Holding keys b s' := by
  obtain ⟨l, hl, hlp⟩ := hq.trace
  exact h.of_append hl (fun e he => hp e (hlp e he)) (fun hr => hq.running ▸ hr)

theorem look (s s' : St) (hq : Quiet Event.isLook s s') (h : Holding keys b s) :
    Holding keys b s' := h.quiet (fun e he => by cases e <;> trivial) hq

theorem calm (s s' : St) (hq : Calm s s') (h : Holding keys b s) : Holding keys b s' :=
  h.look s s' (hq.mono Event.isCalm.isLook)

theorem wrote {s' : St} (hw : Wrote s s') (h : Holding keys b s) : Holding keys b s' := by
  obtain ⟨l, hl, hlf⟩ := hw.trace
  refine h.of_append hl (fun e he => ?_) (fun hr => hw.running ▸ hr)
  have := hlf e he
  cases e <;> trivial

theorem nap (h : Holding keys b s) (n : Nap) (sc : List Site) (ms : ℕ) :
    Holding keys b (s.nap n sc ms) := by
  obtain ⟨l, hl, hle⟩ := s.nap_trace_append n sc ms
  refine h.of_append hl (fun e he => ?_) (fun hr => ?_)
  · obtain rfl | ⟨m, rfl⟩ := hle e he <;> rfl
  · rw [St.nap_running, Bool.and_eq_true] at hr
    exact hr.1

theorem down (h : Holding keys b s) {k : Key} (hk : k ∉ keys) (ha : Allowed (insert k keys))
    (hw : k = .w → Armed s.trace) : Holding (insert k keys) b (s.record (.key (.down k))) where
  disciplined := by
    refine h.disciplined.cons ?_ ?_ ?_
    · rwa [heldKeys_down, h.held]
    · rintro j ⟨⟩
      rwa [h.held]
    · rintro ⟨⟩
      exact hw rfl
  held := by rw [St.record_trace, heldKeys_down, h.held]
  armed hb hr := (h.armed hb hr).append (l := [_]) (by simp)

/-- A key comes up; with W the right to press it again is lost. -/
theorem up (h : Holding keys b s) (k : Key) (ha : Allowed (keys.erase k))
    (hb : b' = true → b = true ∧ k ≠ .w) :
    Holding (keys.erase k) b' (s.record (.key (.up k))) where
  disciplined := h.disciplined.up (by rwa [h.held])
  held := by rw [St.record_trace, heldKeys_up, h.held]
  armed ht hr := (h.armed (hb ht).1 hr).append (l := [_]) (by simpa using (hb ht).2)

theorem ended (h : Holding ∅ b s) {e : Abort Err} (he : e ≠ .closed) : KeysAtEnd e s :=
  ⟨h.disciplined, fun _ => h.held, fun hc => absurd hc he⟩

theorem lastSleep_closed (s : St) (n : Nap) (site : Site) (sc : List Site) (ms : ℕ) :
    lastSleep ((s.nap n (site :: sc) ms).record .gdipShutdown).trace = some site := by
  rw [St.record_trace, St.nap_trace]
  split <;> rfl

theorem sleep {site : Site} (ms : ℕ) (hsite : keys = ∅ ↔ site.holdsKey = false) {D : Ctx → Prop} :
    Keeps D (Holding keys b) KeysAtEnd (sleep site ms) := by
  intro r _ s h
  refine wp_sleep site ms (fun _ => h.nap _ _ ms) (fun _ => ?_)
  have hend := (h.nap (r.env.sleep s.asked) (site :: r.scope) ms).record
    (e := .gdipShutdown) rfl
  refine ⟨hend.disciplined, fun hc => absurd rfl hc, fun _ => ?_⟩
  rw [hend.held, lastSleep_closed, hsite]
  simp

end Holding

/-- Nothing is held. -/
abbrev Steady (b : Bool) (s : St) : Prop := Holding ∅ b s

/-- Lifting keys that are up already; a running script may lose the right to press W by it. -/
theorem Holding.lift {b b' : Bool} {s s' : St} {ks : List Key}
    (hq : Quiet (fun e => ∃ k ∈ ks, e = .key (.up k)) s s') (h : Steady b s)
    (hb : b' = true → s.running = true → b = true ∧ .w ∉ ks) : Steady b' s' := by
  obtain ⟨l, hl, hlk⟩ := hq.trace
  have hups : Disciplined (l ++ s.trace) ∧ heldKeys (l ++ s.trace) = ∅ := by
    clear hl
    induction l with
    | nil => exact ⟨h.disciplined, h.held⟩
    | cons e l ih =>
        obtain ⟨hd, hheld⟩ := ih fun a ha => hlk a (by simp [ha])
        obtain ⟨k, -, rfl⟩ := hlk e (by simp)
        have herase : (heldKeys (l ++ s.trace)).erase k = ∅ := by rw [hheld, Finset.erase_empty]
        exact ⟨hd.up (herase ▸ allowed_empty), herase⟩
  refine ⟨hl ▸ hups.1, hl ▸ hups.2, fun ht hr => ?_⟩
  obtain ⟨hbt, hw⟩ := hb ht (hq.running ▸ hr)
  rw [hl]
  refine (h.armed hbt (hq.running ▸ hr)).append ?_
  rintro e he rfl
  obtain ⟨k, hk, ⟨⟩⟩ := hlk _ he
  exact hw hk

/-! ## The helpers that send keys -/

theorem steady_check {b : Bool} (throwOnStop : Bool) {D : Ctx → Prop} :
    Leads D (Steady b) (fun stop s => Steady b s ∧ (throwOnStop = true ∨ stop = false →
      s.running = true)) KeysAtEnd (specialCheckStop throwOnStop) := by
  intro r _ s hs
  rw [specialCheckStop, wp_bind, wp_gets]
  refine wp_ite (fun hr => (wp_pure _).2 ⟨hs, fun _ => hr⟩) (fun hr => ?_)
  rw [wp_bind, releaseSpecialKeys]
  refine (quiet_sendUp specialKeys).wp fun _ s' hq => ?_
  have hs' : Steady b s' := hs.lift hq fun _ hrun => absurd hrun hr
  refine wp_ite (fun _ => (wp_throwErr _).2 (hs'.ended (by simp))) fun ht => ?_
  refine (wp_pure _).2 ⟨hs', ?_⟩
  rintro (h | h)
  · exact absurd h ht
  · cases h

theorem press_one (b b' : Bool) {site : Site} (hsite : site.holdsKey = true) (key : Key) (ms : ℕ)
    (hb : b' = true → b = true ∧ key ≠ .w) :
    Leads (fun _ => True) (fun s => Steady b s ∧ (key = .w → Armed s.trace))
      (fun _ => Steady b') KeysAtEnd (do
      sendDown [key]
      WagonMove.sleep site ms
      sendUp [key]) := by
  intro r _ s ⟨hs, hw⟩
  simp only [sendDown, sendUp, wp_bind, wp_log, wp_pure]
  have hdown : Holding {key} b (s.record (.key (.down key))) :=
    hs.down (Finset.notMem_empty key) (allowed_single key) hw
  have hsleep : Keeps (fun _ => True) (Holding {key} b) KeysAtEnd (sleep site ms) :=
    Holding.sleep ms (by simp [hsite])
  refine wp_mono (hsleep r trivial _ hdown) (fun _ s' h => ?_) (fun _ _ h => h)
  have hup : Holding (Finset.erase {key} key) b' (s'.record (.key (.up key))) :=
    h.up key (by simpa using allowed_empty) hb
  rwa [Finset.erase_singleton] at hup

theorem press_two (site : Site) (hsite : site.holdsKey = true) (ms : ℕ) :
    Leads (fun _ => True) (fun s => Steady true s ∧ Armed s.trace)
      (fun _ => Steady false) KeysAtEnd (do
      sendDown [.w, .space]
      WagonMove.sleep site ms
      sendUp [.w, .space]) := by
  rintro r - s ⟨hs, hw⟩
  simp only [sendDown, sendUp, wp_bind, wp_log, wp_pure]
  have hw' : Holding {.w} true (s.record (.key (.down .w))) :=
    hs.down (Finset.notMem_empty _) (allowed_single _) fun _ => hw
  have hspace := hw'.down (k := .space) (by decide) (.inr (.inr (by decide))) (by simp)
  have hsleep : Keeps (fun _ => True) (Holding {.space, .w} true) KeysAtEnd (sleep site ms) :=
    Holding.sleep ms (by simp [hsite])
  refine wp_mono (hsleep r trivial _ hspace) (fun _ s' h => ?_) (fun _ _ h => h)
  have hup : Holding (Finset.erase {.space, .w} .w) false (s'.record (.key (.up .w))) :=
    h.up .w (.inr (.inl ⟨.space, by decide⟩)) (by simp)
  have hup' : Holding ((Finset.erase {.space, .w} .w).erase .space) false
      ((s'.record (.key (.up .w))).record (.key (.up .space))) :=
    hup.up .space (.inl (by decide)) (by simp)
  rwa [show (Finset.erase {.space, .w} Key.w).erase .space = ∅ by decide] at hup'

theorem steady_press {b : Bool} {site : Site} (hsite : site.holdsKey = true) {key : Key} (ms : ℕ)
    (hkey : key ≠ .w) : Keeps (fun _ => True) (Steady b) KeysAtEnd (do
      let _ ← specialCheckStop false
      sendDown [key]
      sleep site ms
      sendUp [key]) := by
  refine Leads.bind (steady_check false) fun _ => ?_
  exact (press_one b b hsite key ms fun hb => ⟨hb, hkey⟩).mono
    (fun _ hs => ⟨hs.1, fun hw => absurd hw hkey⟩) (fun _ _ => id)

theorem steady_hold_w (ms : ℕ) :
    Leads (fun _ => True) (fun s => Steady true s ∧ s.running = true) (fun _ => Steady false)
      KeysAtEnd (specialHoldKey .w ms) := by
  rintro r - s ⟨hs, hr⟩
  rw [specialHoldKey, wp_bind, wp_specialCheckStop_of_running hr]
  exact press_one true false rfl .w ms nofun r trivial s ⟨hs, fun _ => hs.armed rfl hr⟩

theorem steady_hold_w_space (ms : ℕ) :
    Leads (fun _ => True) (fun s => Steady true s ∧ s.running = true) (fun _ => Steady false)
      KeysAtEnd (specialHoldTwoKeys .w .space ms) := by
  rintro r - s ⟨hs, hr⟩
  rw [specialHoldTwoKeys, wp_bind, wp_specialCheckStop_of_running hr]
  exact press_two _ rfl ms r trivial s ⟨hs, hs.armed rfl hr⟩

theorem steady_release {b : Bool} :
    Leads (fun _ => True) (Steady b) (fun _ => Steady false) KeysAtEnd releaseSpecialKeys :=
  fun _ _ _ hs => (quiet_sendUp specialKeys).wp fun _ _ hq => hs.lift hq nofun

theorem steady_sleep {b : Bool} {site : Site} (ms : ℕ) (hsite : site.holdsKey = false) :
    Keeps (fun _ => True) (Steady b) KeysAtEnd (sleep site ms) := Holding.sleep ms (by simp [hsite])

theorem steady_signal {α : Type} {b : Bool} (f : ScriptFile) (status : Status) (detail : String) :
    Leads (fun _ => True) (Steady b) (fun _ _ => False) KeysAtEnd
      (writeSignalAndExit f status detail : Ahk α) := by
  refine leads_writeSignalAndExit (Steady b) f status detail (fun _ hs => ?_) (fun _ _ => ?_)
    (fun _ _ => Holding.wrote) (fun _ hs => ?_)
  · exact Holding.record hs rfl
  · exact fun hq hs => hs.quiet (fun _ h => h.elim) hq
  · exact Holding.ended (.record (.record hs rfl) rfl) nofun

theorem steady_kept (f : ScriptFile) (node : Node) (b : Bool) :
    Kept f node (fun _ => True) (Steady b) KeysAtEnd where
  enter _ _ h := h
  thrown _ _ hs := hs.ended nofun
  calm := Holding.calm
  sleep _ ms hsite := steady_sleep ms hsite
  check throwOnStop := (steady_check throwOnStop).mono (fun _ => id) (fun _ _ h => h.1)
  find := keeps_findTargetColor f node Holding.look (steady_sleep 20 rfl)
  zoomTick ms := by
    refine Leads.bind (steady_check false) fun stop => ?_
    refine Leads.ite (fun _ => .pure fun _ h => h.1) fun _ => ?_
    refine Leads.mono ?_ (fun _ h => h.1) (fun _ _ h => h)
    exact Keeps.bind (.update fun _ hs => hs.record rfl) fun _ =>
      .bind (steady_sleep _ rfl) fun _ => .pure _
  pulse := by
    have hpress : Keeps (fun _ => True) (Steady b) KeysAtEnd (do
        sendDown [.left]
        sleep .rotationHold 200
        sendUp [.left]) :=
      (press_one b b rfl .left 200 fun hb => ⟨hb, nofun⟩).mono (fun _ hs => ⟨hs, nofun⟩)
        fun _ _ => id
    have hrest : Keeps (fun _ => True) (Steady b) KeysAtEnd (sleep .rotationRest 180) :=
      steady_sleep 180 rfl
    refine .bind (.update fun _ hs => hs.record rfl) fun _ => .bind (steady_sleep _ rfl) fun _ => ?_
    simpa only [Keeps, wp_bind] using hpress.bind fun _ => hrest
  aim c totals fx r := by
    refine keeps_aim c totals Holding.calm (.update fun _ hs => hs.record rfl)
      (steady_press rfl _ ?_) (steady_sleep _ rfl)
    unfold centerKey
    split <;> decide
  timedOut := by
    refine Leads.bind ((calm_setStatus _).keeps Holding.calm) fun _ =>
      .bind (steady_sleep 300 rfl) fun _ => .bind steady_release fun _ => ?_
    exact Leads.bind (quiet_hideSpecialMarker.keeps Holding.calm) fun _ =>
      (steady_signal f _ _).mono (fun _ => id) (fun _ _ h => h.elim)

end WagonMove
