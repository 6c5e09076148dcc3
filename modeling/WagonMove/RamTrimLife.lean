import Mathlib.Algebra.Order.BigOperators.Group.List
import Mathlib.Data.Finset.Card
import WagonMove.RamTrimCycle

/-!
# The life of the trimmer

What holds whenever the trimmer waits for its timer: the timer runs with the interval that was read
last, no handle is open, and the result is the one that the last complete cycle has reported.
-/

namespace WagonMove.RamTrim

open Prog

/-! ## Reading the trace -/

/-- The minutes of the last text that `Integer` has taken. -/
def minutesOf (env : Env) : List Event → Option ℤ
  | .configured text :: t => (env.integer text).or (minutesOf env t)
  | _ :: t => minutesOf env t
  | [] => none

/-- What the script has last found out about its own session. -/
def ownSession : List Event → Option (Option ℕ)
  | .ownSession session :: _ => some session
  | _ :: t => ownSession t
  | [] => none

def resultOf : List Event → Option ℚ
  | .wrote savedMB :: _ => some savedMB
  | _ :: t => resultOf t
  | [] => none

def Event.handleStroke : Event → Option (Stroke ℕ)
  | .opened _ hProcess => if hProcess = 0 then none else some (.down hProcess)
  | .closed hProcess => some (.up hProcess)
  | _ => none

/-- The handles that are open after the events of a trace. -/
def openHandles : List Event → Finset ℕ := Trace.held Event.handleStroke

/-- Each cycle keeps the interval last read from all cycles before it. -/
def Spaced (env : Env) : List Event → Prop := Trace.Always fun e before => ∀ time : ℕ,
  e = .fired time → ∃ minutes, minutesOf env before = some minutes ∧
    ∀ time' : ℕ, .fired time' ∈ before → time' + intervalMs minutes ≤ time

/-- The handle has just been opened for a process whose session is the one of the script, where one
that has not been found counts as 0. -/
def OpenedOwn (hProcess : ℕ) (before : List Event) : Prop := ∃ pid session own wss earlier,
  before = .measured hProcess wss :: .opened pid hProcess :: .session pid session :: earlier ∧
    ownSession earlier = some own ∧ session.getD 0 = own.getD 0

/-- Only working sets of processes of the script's own session are emptied. -/
def TrimsOwn : List Event → Prop := Trace.Always fun e before => ∀ hProcess,
  e = .emptied hProcess → OpenedOwn hProcess before

/-- What the working sets emptied since the script has looked up its session have shrunk by. -/
def shrinkage : List Event → ℤ
  | .measured _ wssAfter :: .emptied _ :: .measured _ wssBefore :: t =>
      max 0 (wssBefore.getD 0 - wssAfter.getD 0) + shrinkage t
  | .ownSession _ :: _ => 0
  | _ :: t => shrinkage t
  | [] => 0

/-- No measurement since then has failed, and the sizes fit 63 bits. -/
def AllMeasured : List Event → Prop
  | .measured _ wss :: t => (∃ n ∈ wss, 0 ≤ n ∧ n < 2 ^ 63) ∧ AllMeasured t
  | .ownSession _ :: _ => True
  | _ :: t => AllMeasured t
  | [] => True

/-- A result is that of the visits made since the script has looked up its session. -/
def ReportsVisits : List Event → Prop := Trace.Always fun e before => ∀ mb, e = .wrote mb →
  ∃ own vs earlier, mb = savedMB vs ∧
    before = (vs.flatMap Visit.events).reverse ++ .ownSession own :: earlier

/-- Events of a cycle that has set its timer. -/
def Event.isTrim : Event → Prop
  | .configured _ | .timerSet _ _ | .fired _ => False
  | _ => True

theorem Visit.isTrim (v : Visit) : ∀ e ∈ v.events, e.isTrim := by
  cases v <;> simp [Visit.events, Event.isTrim]

/-! ## The timer -/

section Timer

variable {env : Env} {s s' : St}

theorem minutesOf_append {l t : List Event} (hl : ∀ e ∈ l, e.isTrim) :
    minutesOf env (l ++ t) = minutesOf env t := by
  induction l with
  | nil => rfl
  | cons e l ih =>
      have he := hl e List.mem_cons_self
      rw [List.cons_append, ← ih fun a ha => hl a (List.mem_cons_of_mem e ha)]
      cases e <;> first | rfl | exact he.elim

/-- The timer counts down, since a time after the last cycle began, the interval last read. -/
structure Ticking (env : Env) (s : St) : Prop where
  timer : ∃ minutes since, minutesOf env s.trace = some minutes ∧
    s.timer = some ⟨intervalMs minutes, since⟩ ∧ since ≤ s.now ∧
    ∀ time, .fired time ∈ s.trace → time ≤ since
  spaced : Spaced env s.trace

theorem Ticking.fire (h : Ticking env s) {timer : Timer} {time : ℕ} (htimer : s.timer = some timer)
    (hnow : s.now ≤ time) (hdue : timer.since + timer.period ≤ time) :
    Ticking env (s.fire time) := by
  obtain ⟨minutes, since, hminutes, hset, hsince, hfired⟩ := h.timer
  obtain rfl : timer = ⟨intervalMs minutes, since⟩ := Option.some.inj (htimer.symm.trans hset)
  have hpast (time' : ℕ) (h' : .fired time' ∈ s.trace) : time' ≤ since := hfired time' h'
  refine ⟨⟨minutes, time, hminutes, by rw [St.fire, hset]; rfl, le_rfl, fun time' h' => ?_⟩, ?_⟩
  · obtain h' | h' := List.mem_cons.1 h'
    · exact (Event.fired.inj h').le
    · exact (hpast time' h').trans (hsince.trans hnow)
  · refine Trace.always_cons.2
      ⟨fun time' heq => ⟨minutes, hminutes, fun time'' h'' => ?_⟩, h.spaced⟩
    obtain rfl := Event.fired.inj heq
    have := hpast time'' h''
    have hdue : (since : ℤ) + intervalMs minutes ≤ time := hdue
    omega

theorem Ticking.unread (h : Ticking env s) (h' : Unscheduled env s s') : Ticking env s' := by
  obtain ⟨minutes, since, hminutes, hset, hsince, hfired⟩ := h.timer
  obtain ⟨text, n, htext, rfl⟩ := h'
  refine ⟨⟨minutes, since, ?_, hset, hsince, fun time' hmem => hfired time' (by simpa using hmem)⟩,
    Trace.always_cons.2 ⟨by simp, h.spaced⟩⟩
  rw [minutesOf, htext, Option.none_or, hminutes]

theorem Ticking.scheduled (hspaced : Spaced env s.trace)
    (hfired : ∀ time, .fired time ∈ s.trace → time ≤ s.now) (h : Scheduled env s s') :
    Ticking env s' := by
  obtain ⟨text, minutes, time, n, htext, htime, rfl⟩ := h
  refine ⟨⟨minutes, time, ?_, rfl, le_rfl, fun time' hmem => ?_⟩, ?_⟩
  · simp [minutesOf, htext]
  · exact (hfired time' (by simpa using hmem)).trans htime
  · exact Trace.always_cons.2 ⟨by simp, Trace.always_cons.2 ⟨by simp, hspaced⟩⟩

theorem Trimmed.trace {own : Option ℕ} {vs : List Visit} {reported : Bool}
    (h : Trimmed own vs reported s s') :
    ∃ l, s'.trace = l ++ s.trace ∧ ∀ e ∈ l, e.isTrim := by
  obtain ⟨n, rfl⟩ := h
  refine ⟨(if reported then [.wrote (savedMB vs)] else []) ++
    ((vs.flatMap Visit.events).reverse ++ [.ownSession own]), ?_, ?_⟩
  · simp only [List.append_assoc, List.singleton_append]
  · intro e he
    obtain he | he | he := by simpa only [List.mem_append, List.mem_reverse] using he
    · cases reported
      · exact absurd he List.not_mem_nil
      · exact List.mem_singleton.1 he ▸ trivial
    · obtain ⟨v, -, hv⟩ := List.mem_flatMap.1 he
      exact v.isTrim e hv
    · exact List.mem_singleton.1 he ▸ trivial

theorem Ticking.trimmed (h : Ticking env s) {own : Option ℕ} {vs : List Visit} {reported : Bool}
    (h' : Trimmed own vs reported s s') : Ticking env s' := by
  obtain ⟨minutes, since, hminutes, hset, hsince, hfired⟩ := h.timer
  obtain ⟨l, hl, htrim⟩ := h'.trace
  have hnone (time : ℕ) : .fired time ∉ l := fun hmem => htrim _ hmem
  obtain ⟨n, hs'⟩ := h'
  refine ⟨⟨minutes, since, ?_, ?_, ?_, fun time hmem => ?_⟩, ?_⟩
  · rw [hl, minutesOf_append htrim, hminutes]
  · rw [hs', hset]
  · rw [hs']
    exact hsince
  · rw [hl] at hmem
    exact hfired time ((List.mem_append.1 hmem).resolve_left (hnone time))
  · rw [Spaced, hl]
    refine Trace.Always.append h.spaced fun e he before time heq => ?_
    exact absurd (heq ▸ he) (hnone time)

theorem Ticking.cycled (h : Ticking env s) (h' : Cycled env s s') : Ticking env s' := by
  cases h' with
  | unread hunread => exact h.unread hunread
  | trimmed _ hscheduled _ htrimmed =>
      obtain ⟨minutes, since, -, -, hsince, hfired⟩ := h.timer
      have hpast (time : ℕ) (hmem : .fired time ∈ s.trace) : time ≤ s.now :=
        (hfired time hmem).trans hsince
      exact (Ticking.scheduled h.spaced hpast hscheduled).trimmed htrimmed

end Timer

theorem cycled_run (env : Env) (s : St) : Cycled env s (autoRamTrim.run env s).2 := by
  obtain ⟨hvalue, hend⟩ := wp_iff_run.1 (wp_autoRamTrim env s)
  rcases hrun : autoRamTrim.run env s with ⟨e | u, s'⟩
  · exact (hend e s' hrun).2
  · exact hvalue u s' hrun

theorem Life.ticking {env : Env} {s : St} (h : Life env s) : Ticking env s := by
  induction h with
  | boot hboot =>
      have hscheduled := (wp_iff_run.1 (wp_scheduleTimer env {})).1 _ _ hboot
      have hnone : Spaced env ({} : St).trace := Trace.always_nil
      exact .scheduled hnone (by simp) hscheduled
  | cycle _ htimer hnow hdue ih => exact (ih.fire htimer hnow hdue).cycled (cycled_run env _)

/-! ## The handles -/

section Handles

variable {t : List Event} {e : Event} {hs hs' : Finset ℕ} {h pid : ℕ} {own : Option ℕ}

/-- The handles `hs`, at most one, are open, and there has never been more than one. -/
structure Holding (hs : Finset ℕ) (t : List Event) : Prop where
  handles : openHandles t = hs
  single : ∀ t', t' <:+ t → (openHandles t').card ≤ 1
  own : TrimsOwn t

theorem Holding.nil : Holding ∅ [] where
  handles := rfl
  single t' ht' := by
    obtain rfl := List.suffix_nil.1 ht'
    exact Nat.zero_le 1
  own := Trace.always_nil

theorem Holding.cons (ht : Holding hs t) (hopen : openHandles (e :: t) = hs')
    (hcard : hs'.card ≤ 1) (hown : ∀ h, e = .emptied h → OpenedOwn h t) :
    Holding hs' (e :: t) where
  handles := hopen
  single t' ht' := by
    obtain rfl | ht' := List.suffix_cons_iff.1 ht'
    · rwa [hopen]
    · exact ht.single t' ht'
  own := Trace.always_cons.2 ⟨hown, ht.own⟩

theorem Holding.card_le (ht : Holding hs t) : hs.card ≤ 1 :=
  ht.handles ▸ ht.single t (List.suffix_refl t)

theorem Holding.other (ht : Holding hs t) (he : e.handleStroke = none)
    (hown : ∀ h, e = .emptied h → OpenedOwn h t) : Holding hs (e :: t) :=
  ht.cons ((Trace.held_other t he).trans ht.handles) ht.card_le hown

theorem Holding.opened (ht : Holding ∅ t) (pid : ℕ) (hne : h ≠ 0) :
    Holding {h} (.opened pid h :: t) := by
  have hstroke : (Event.opened pid h).handleStroke = some (.down h) := if_neg hne
  refine ht.cons ?_ (Finset.card_singleton h).le (by simp)
  have hclosed : Trace.held Event.handleStroke t = ∅ := ht.handles
  rw [openHandles, Trace.held_down t hstroke, hclosed]
  rfl

theorem Holding.closed (ht : Holding {h} t) : Holding ∅ (.closed h :: t) := by
  refine ht.cons ?_ (Nat.zero_le 1) (by simp)
  have hopen : Trace.held Event.handleStroke t = {h} := ht.handles
  have hstroke : (Event.closed h).handleStroke = some (.up h) := rfl
  rw [openHandles, Trace.held_up t hstroke, hopen, Finset.erase_singleton]

/-- A visit closes what it opens. -/
theorem Holding.visit (ht : Holding ∅ t) (hmine : ownSession t = some own) {v : Visit}
    (hv : v.Valid (own.getD 0)) : Holding ∅ (v.events.reverse ++ t) := by
  have hsession (pid : ℕ) (session : Option ℕ) : Holding ∅ (.session pid session :: t) :=
    ht.other rfl (by simp)
  cases v with
  | foreign pid session => exact hsession pid session
  | refused pid session => exact (hsession pid session).other rfl (by simp)
  | trimmed pid session h wssBefore wssAfter =>
      have hopened := (hsession pid session).opened pid hv.2
      have hbefore := hopened.other (e := .measured h wssBefore) rfl (by simp)
      have hemptied : Holding {h} (.emptied h :: .measured h wssBefore :: .opened pid h ::
          .session pid session :: t) := by
        refine hbefore.other rfl fun h' heq => ?_
        obtain rfl := Event.emptied.inj heq
        exact ⟨pid, session, own, wssBefore, t, rfl, hmine, hv.1⟩
      exact (hemptied.other (e := .measured h wssAfter) rfl (by simp)).closed

theorem ownSession_visit (v : Visit) : ownSession (v.events.reverse ++ t) = ownSession t := by
  cases v <;> rfl

theorem Holding.visits (ht : Holding ∅ t) (hmine : ownSession t = some own)
    (vs : List Visit) (hvs : ∀ v ∈ vs, v.Valid (own.getD 0)) :
    Holding ∅ ((vs.flatMap Visit.events).reverse ++ t) := by
  induction vs generalizing t with
  | nil => exact ht
  | cons v vs ih =>
      have hvisit := ht.visit hmine (hvs v List.mem_cons_self)
      have hsession : ownSession (v.events.reverse ++ t) = some own :=
        (ownSession_visit v).trans hmine
      rw [List.flatMap_cons, List.reverse_append, List.append_assoc]
      exact ih hvisit hsession fun v' hv' => hvs v' (List.mem_cons_of_mem v hv')

theorem Holding.cycled {env : Env} {s s' : St} (hs : Holding ∅ s.trace) (h : Cycled env s s') :
    Holding ∅ s'.trace := by
  cases h with
  | unread hunread =>
      obtain ⟨text, n, -, rfl⟩ := hunread
      exact hs.other rfl (by simp)
  | @trimmed _ own vs reported hscheduled hvalid htrimmed =>
      obtain ⟨text, minutes, time, m, -, -, rfl⟩ := hscheduled
      obtain ⟨n, rfl⟩ := htrimmed
      have hset : Holding ∅ (.timerSet (intervalMs minutes) time :: .configured text :: s.trace) :=
        (hs.other rfl (by simp)).other rfl (by simp)
      have hvisits := (hset.other (e := .ownSession own) rfl (by simp)).visits rfl vs hvalid
      cases reported with
      | false => exact hvisits
      | true => exact hvisits.other (e := .wrote (savedMB vs)) rfl (by simp)

end Handles

/-- The result on file is the last one that has been written, and each has been written truly. -/
structure Truthful (s : St) : Prop where
  result : s.result = resultOf s.trace
  reports : ReportsVisits s.trace

section Results

variable {env : Env} {s s' : St}

theorem resultOf_append {l t : List Event} (hl : ∀ e ∈ l, ∀ mb, e ≠ .wrote mb) :
    resultOf (l ++ t) = resultOf t := by
  induction l with
  | nil => rfl
  | cons e l ih =>
      have he := hl e List.mem_cons_self
      rw [List.cons_append, ← ih fun a ha => hl a (List.mem_cons_of_mem e ha)]
      cases e <;> first | rfl | exact absurd rfl (he _)

theorem Truthful.append (h : Truthful s) {l : List Event} (hl : ∀ e ∈ l, ∀ mb, e ≠ .wrote mb)
    (htrace : s'.trace = l ++ s.trace) (hresult : s'.result = s.result) : Truthful s' where
  result := by rw [hresult, htrace, resultOf_append hl, h.result]
  reports := by
    rw [htrace]
    exact Trace.Always.append h.reports fun e he before mb heq => absurd heq (hl e he mb)

theorem Visit.ne_wrote (v : Visit) (mb : ℚ) : ∀ e ∈ v.events, e ≠ .wrote mb := by
  cases v <;> simp [Visit.events]

theorem Truthful.trimmed (h : Truthful s) {own : Option ℕ} {vs : List Visit} {reported : Bool}
    (h' : Trimmed own vs reported s s') : Truthful s' := by
  obtain ⟨n, rfl⟩ := h'
  let visited : St := { s with
    trace := (vs.flatMap Visit.events).reverse ++ .ownSession own :: s.trace }
  have hsession : Truthful (s.record (.ownSession own)) :=
    h.append (l := [.ownSession own]) (by simp) rfl rfl
  have hvisited : Truthful visited := by
    refine hsession.append (fun e he mb => ?_) rfl rfl
    obtain ⟨v, -, hv⟩ := List.mem_flatMap.1 (List.mem_reverse.1 he)
    exact v.ne_wrote mb e hv
  cases reported with
  | false => exact ⟨hvisited.result, hvisited.reports⟩
  | true =>
      refine ⟨rfl, Trace.always_cons.2 ⟨fun mb heq => ?_, hvisited.reports⟩⟩
      obtain rfl := Event.wrote.inj heq
      exact ⟨own, vs, s.trace, rfl, rfl⟩

theorem Truthful.cycled (h : Truthful s) (h' : Cycled env s s') : Truthful s' := by
  cases h' with
  | unread hunread =>
      obtain ⟨text, n, -, rfl⟩ := hunread
      exact h.append (l := [.configured text]) (by simp) rfl rfl
  | trimmed _ hscheduled _ htrimmed =>
      obtain ⟨text, minutes, time, m, -, -, rfl⟩ := hscheduled
      refine Truthful.trimmed ?_ htrimmed
      exact h.append (l := [.timerSet (intervalMs minutes) time, .configured text]) (by simp)
        rfl rfl

end Results

theorem Life.truthful {env : Env} {s : St} (h : Life env s) : Truthful s := by
  induction h with
  | boot hboot =>
      obtain ⟨text, minutes, time, n, -, -, rfl⟩ :=
        (wp_iff_run.1 (wp_scheduleTimer env {})).1 _ _ hboot
      have hnone : Truthful {} := ⟨rfl, Trace.always_nil⟩
      exact hnone.append (l := [.timerSet (intervalMs minutes) time, .configured text]) (by simp)
        rfl rfl
  | @cycle s _ timer time htimer hnow hdue ih =>
      have hfire : Truthful (s.fire time) := ih.append (l := [.fired time]) (by simp) rfl rfl
      exact hfire.cycled (cycled_run env _)

/-! ## Every state between two cycles -/

namespace Visit

/-- The bytes that the working set has shrunk by, if it has. -/
def gain : Visit → ℤ
  | trimmed _ _ _ wssBefore wssAfter => max 0 (wssBefore.getD 0 - wssAfter.getD 0)
  | _ => 0

/-- The working set was measured twice, and both sizes fit 63 bits. -/
def Sane : Visit → Prop
  | trimmed _ _ _ wssBefore wssAfter =>
      (∃ n ∈ wssBefore, 0 ≤ n ∧ n < 2 ^ 63) ∧ ∃ n ∈ wssAfter, 0 ≤ n ∧ n < 2 ^ 63
  | _ => True

theorem gain_nonneg (v : Visit) : 0 ≤ v.gain := by
  cases v with
  | foreign pid session | refused pid session => exact le_rfl
  | trimmed pid session hProcess wssBefore wssAfter => exact le_max_left _ _

theorem saved_eq_gain {v : Visit} (hv : v.Sane) : v.saved = v.gain := by
  cases v with
  | foreign pid session | refused pid session => rfl
  | trimmed pid session hProcess wssBefore wssAfter =>
      obtain ⟨⟨before, rfl, hbefore⟩, after, rfl, hafter⟩ := hv
      rw [saved, gain, Option.getD_some, Option.getD_some,
        wrap64_of_bounded (by omega) (by omega)]

theorem shrinkage_events (v : Visit) (t : List Event) :
    shrinkage (v.events.reverse ++ t) = v.gain + shrinkage t := by
  cases v with
  | foreign pid session | refused pid session => exact (zero_add _).symm
  | trimmed pid session hProcess wssBefore wssAfter => rfl

theorem allMeasured_events (v : Visit) (t : List Event) :
    AllMeasured (v.events.reverse ++ t) ↔ v.Sane ∧ AllMeasured t := by
  cases v with
  | foreign pid session | refused pid session => exact ⟨fun h => ⟨trivial, h⟩, And.right⟩
  | trimmed pid session hProcess wssBefore wssAfter =>
      rw [Sane, and_comm (a := ∃ n ∈ wssBefore, _), and_assoc]
      rfl

/-- The visits of a cycle, read off the trace. -/
theorem of_visits (own : Option ℕ) (vs : List Visit) (earlier : List Event) :
    shrinkage ((vs.flatMap events).reverse ++ .ownSession own :: earlier) = (vs.map gain).sum ∧
      (AllMeasured ((vs.flatMap events).reverse ++ .ownSession own :: earlier) ↔
        ∀ v ∈ vs, v.Sane) := by
  induction vs using List.reverseRecOn with
  | nil => exact ⟨rfl, iff_of_true trivial (by simp)⟩
  | append_singleton vs v ih =>
      have hlast : ((vs ++ [v]).flatMap events).reverse ++ .ownSession own :: earlier =
          v.events.reverse ++ ((vs.flatMap events).reverse ++ .ownSession own :: earlier) := by
        simp
      rw [hlast, shrinkage_events, allMeasured_events, ih.1, ih.2]
      refine ⟨by simp [add_comm], ?_⟩
      simp only [List.forall_mem_append, List.forall_mem_singleton, and_comm]

end Visit

theorem savedMB_eq {vs : List Visit} (hvs : ∀ v ∈ vs, v.Sane)
    (hsum : (vs.map Visit.gain).sum < 2 ^ 53) :
    savedMB vs = ((vs.map Visit.gain).sum : ℚ) / 1048576 := by
  have hsaved : vs.map Visit.saved = vs.map Visit.gain :=
    List.map_congr_left fun v hv => Visit.saved_eq_gain (hvs v hv)
  have hnonneg : 0 ≤ (vs.map Visit.gain).sum := List.sum_nonneg fun n hn => by
    obtain ⟨v, -, rfl⟩ := List.mem_map.1 hn
    exact v.gain_nonneg
  rw [savedMB, hsaved, wrap64_of_bounded (by omega) (by omega)]

/-- Two windows, one of them of another session, and no configuration. -/
def Env.shared : Env where
  drift _ := 0
  intervalMinutes _ := none
  outOfRange _ := 0
  currentProcessId := 1
  processIdToSessionId _ pid := some (if pid = 3 then 2 else 1)
  winGetList _ := [10, 11]
  winGetPID _ hwnd := some (if hwnd = 10 then 2 else 3)
  openProcess _ _ := 7
  getProcessMemoryInfo n _ := some (if n % 2 = 0 then 1048576 else 5242880)
  iniWrite _ := none

def St.booted : St :=
  { asked := 3
    timer := some ⟨360000, 0⟩
    trace := [.timerSet 360000 0, .configured "6"] }

def St.cycled : St := (autoRamTrim.run Env.shared (St.booted.fire 360000)).2

theorem life_booted : Life Env.shared .booted := by
  have hint : integer "6" = some 6 := by decide
  refine .boot ?_
  simp only [scheduleTimer, Bind.bind, ask, log, update, constant, Env.integer, Option.getD,
    Env.shared, hint]
  rfl

theorem life_cycled : Life Env.shared .cycled :=
  life_booted.cycle rfl (Nat.zero_le 360000) le_rfl

/-- The timer runs with the interval of the last configuration that could be read, cut off to 2 and
15 minutes, and no cycle has begun before the interval then set was over since the last one. -/
theorem timer_keeps_interval {env : Env} {s : St} (h : Life env s) :
    (∃ minutes since, minutesOf env s.trace = some minutes ∧
      s.timer = some ⟨intervalMs minutes, since⟩ ∧
      (120000 ≤ intervalMs minutes ∧ intervalMs minutes ≤ 900000) ∧
      (-2 ^ 63 ≤ minutes * 60000 → minutes * 60000 < 2 ^ 63 →
        intervalMs minutes = max 2 (min 15 minutes) * 60000) ∧
      since ≤ s.now ∧ ∀ time, .fired time ∈ s.trace → time ≤ since) ∧
    ∀ later (time : ℕ) earlier, s.trace = later ++ .fired time :: earlier →
      ∃ minutes, minutesOf env earlier = some minutes ∧ 120000 ≤ intervalMs minutes ∧
        ∀ time' : ℕ, .fired time' ∈ earlier → time' + intervalMs minutes ≤ time := by
  obtain ⟨⟨minutes, since, hminutes, htimer, hsince, hfired⟩, hspaced⟩ := h.ticking
  refine ⟨⟨minutes, since, hminutes, htimer, ⟨le_intervalMs minutes, intervalMs_le minutes⟩,
    intervalMs_eq, hsince, hfired⟩, fun later time earlier htrace => ?_⟩
  obtain ⟨minutes', hread, hgap⟩ := hspaced later (.fired time) earlier htrace time rfl
  exact ⟨minutes', hread, le_intervalMs minutes', hgap⟩

theorem timer_keeps_interval_cycled : ∃ minutes since,
    minutesOf Env.shared St.cycled.trace = some minutes ∧
      St.cycled.timer = some ⟨intervalMs minutes, since⟩ := by
  obtain ⟨⟨minutes, since, hminutes, htimer, -⟩, -⟩ := timer_keeps_interval life_cycled
  exact ⟨minutes, since, hminutes, htimer⟩

/-- The result on file is the one written last, and each that has been written is the sum of what
the working sets have shrunk by in its cycle, if they could all be measured and a double holds the
sum. -/
theorem reports_savings {env : Env} {s : St} (h : Life env s) :
    s.result = resultOf s.trace ∧
    ∀ later mb before, s.trace = later ++ .wrote mb :: before → AllMeasured before →
      shrinkage before < 2 ^ 53 → mb = (shrinkage before : ℚ) / 1048576 := by
  refine ⟨h.truthful.result, fun later mb before htrace hmeasured hsum => ?_⟩
  obtain ⟨own, vs, earlier, rfl, rfl⟩ :=
    h.truthful.reports later (.wrote mb) before htrace mb rfl
  obtain ⟨hshrinkage, hsane⟩ := Visit.of_visits own vs earlier
  rw [hshrinkage] at hsum ⊢
  exact savedMB_eq (hsane.1 hmeasured) hsum

theorem reports_savings_cycled : St.cycled.result = some 4 ∧ ∃ before,
    St.cycled.trace = .wrote 4 :: before ∧ AllMeasured before ∧ shrinkage before = 4194304 := by
  let before : List Event := [.session 3 (some 2), .closed 7, .measured 7 (some 1048576),
    .emptied 7, .measured 7 (some 5242880), .opened 2 7, .session 2 (some 1),
    .ownSession (some 1), .timerSet 360000 360000, .configured "6", .fired 360000,
    .timerSet 360000 0, .configured "6"]
  have htrace : St.cycled.trace = [] ++ .wrote 4 :: before := by decide +kernel
  have hmeasured : AllMeasured before :=
    ⟨⟨1048576, rfl, by decide⟩, ⟨5242880, rfl, by decide⟩, trivial⟩
  obtain ⟨hresult, hsum⟩ := reports_savings life_cycled
  have hfour : (4 : ℚ) = (shrinkage before : ℚ) / 1048576 :=
    hsum [] 4 before htrace hmeasured (by decide)
  have hbytes : (shrinkage before : ℚ) = 4194304 := by linarith
  exact ⟨by rw [hresult, htrace]; rfl, before, htrace, hmeasured, by exact_mod_cast hbytes⟩

end WagonMove.RamTrim
