import Mathlib.Algebra.BigOperators.Group.List.Basic
import WagonMove.RamTrim

/-!
# One cycle of the trimmer

A cycle visits the windows one after the other. What it does to the script's state is told by the
list of these visits, and so is the number of bytes that it reports.
-/

namespace WagonMove.RamTrim

open Prog

section Rules

variable {α : Type} {Q : α → St → Prop} {E : Abort Err → St → Prop} {env : Env} {s : St}

theorem wp_log (e : Event) {Q : Unit → St → Prop} :
    wp (log e) Q E env s ↔ Q () (s.record e) := by rw [log, wp_update]

theorem wp_ask (q : Env → ℕ → α) :
    wp (ask q) Q E env s ↔ Q (q env s.asked) { s with asked := s.asked + 1 } := by
  rw [ask, wp.eq_def]

theorem wp_constant (q : Env → α) : wp (constant q) Q E env s ↔ Q (q env) s := by
  rw [constant, wp.eq_def]

end Rules

/-! ## The timer is set -/

theorem le_intervalMs (minutes : ℤ) : 120000 ≤ intervalMs minutes := by
  unfold intervalMs
  dsimp only
  split <;> split <;> omega

theorem intervalMs_le (minutes : ℤ) : intervalMs minutes ≤ 900000 := by
  unfold intervalMs
  dsimp only
  split <;> split <;> omega

theorem wrap64_of_bounded {n : ℤ} (hlow : -2 ^ 63 ≤ n) (hhigh : n < 2 ^ 63) : wrap64 n = n := by
  unfold wrap64
  rw [Int.bmod_def]
  omega

/-- Where the product does not overflow, the interval is cut off to 2 and 15 minutes. -/
theorem intervalMs_eq {minutes : ℤ} (hlow : -2 ^ 63 ≤ minutes * 60000)
    (hhigh : minutes * 60000 < 2 ^ 63) :
    intervalMs minutes = max 2 (min 15 minutes) * 60000 := by
  unfold intervalMs
  dsimp only
  rw [wrap64_of_bounded hlow hhigh]
  split <;> split <;> omega

/-- The first product that does not fit turns negative, and the interval is the shortest one. -/
example : intervalMs 153722867280912 = 900000 ∧ intervalMs 153722867280913 = 120000 := by decide

/-- The script has read `text`, taken it for `minutes`, and set its timer anew. -/
def Scheduled (env : Env) (s s' : St) : Prop := ∃ text minutes time n,
  env.integer text = some minutes ∧ s.now ≤ time ∧ s' =
    { s with
      now := time
      asked := n
      timer := some ⟨intervalMs minutes, time⟩
      trace := .timerSet (intervalMs minutes) time :: .configured text :: s.trace }

/-- The script has read a text that `Integer` does not take. -/
def Unscheduled (env : Env) (s s' : St) : Prop := ∃ text n,
  env.integer text = none ∧ s' = { s with asked := n, trace := .configured text :: s.trace }

theorem wp_scheduleTimer (env : Env) (s : St) : wp scheduleTimer (fun _ => Scheduled env s)
    (fun e s' => (∃ err, e = .thrown err) ∧ Unscheduled env s s') env s := by
  rw [scheduleTimer, wp_bind, wp_ask, wp_bind, wp_log, wp_bind, wp_constant]
  generalize (env.intervalMinutes s.asked).getD "6" = text
  cases hint : env.integer text with
  | none => exact (wp_raise _).2 ⟨⟨_, rfl⟩, text, _, hint, rfl⟩
  | some minutes =>
      have hne : intervalMs minutes ≠ 0 := fun h => by
        have := le_intervalMs minutes
        omega
      simp only [setTimer, wp_bind, wp_ask, wp_update, wp_gets, if_pos, if_neg hne, wp_log]
      exact ⟨text, minutes, _, _, hint, by simp only [St.record]; omega, rfl⟩

/-! ## The windows are visited -/

/-- What happens to one window, with what is found out about its process. -/
inductive Visit where
  /-- Its process belongs to another session. -/
  | foreign (pid : ℕ) (session : Option ℕ)
  /-- Its process cannot be opened. -/
  | refused (pid : ℕ) (session : Option ℕ)
  | trimmed (pid : ℕ) (session : Option ℕ) (hProcess : ℕ) (wssBefore wssAfter : Option ℤ)

namespace Visit

/-- The events of a visit, in their order. -/
def events : Visit → List Event
  | foreign pid session => [.session pid session]
  | refused pid session => [.session pid session, .opened pid 0]
  | trimmed pid session hProcess wssBefore wssAfter =>
      [.session pid session, .opened pid hProcess, .measured hProcess wssBefore,
        .emptied hProcess, .measured hProcess wssAfter, .closed hProcess]

/-- A script of session `mySession` makes the visit; a session that is not found counts as 0. -/
def Valid (mySession : ℕ) : Visit → Prop
  | foreign _ session => session.getD 0 ≠ mySession
  | refused _ session => session.getD 0 = mySession
  | trimmed _ session hProcess _ _ => session.getD 0 = mySession ∧ hProcess ≠ 0

/-- The bytes that a visit adds to the total. -/
def saved : Visit → ℤ
  | trimmed _ _ _ wssBefore wssAfter => max 0 (wrap64 (wssBefore.getD 0 - wssAfter.getD 0))
  | _ => 0

end Visit

/-- The script has made the visits `vs`. -/
def Visited (vs : List Visit) (s s' : St) : Prop := ∃ n, s' =
  { s with
    asked := n
    trace := (vs.flatMap Visit.events).reverse ++ s.trace }

section Visits

variable {env : Env} {mySession : ℕ} {vs vs' : List Visit} {s s' s'' : St}

theorem Visited.refl (s : St) : Visited [] s s := ⟨s.asked, rfl⟩

theorem Visited.trans (h : Visited vs s s') (h' : Visited vs' s' s'') :
    Visited (vs ++ vs') s s'' := by
  obtain ⟨m, rfl⟩ := h
  obtain ⟨n, rfl⟩ := h'
  refine ⟨n, ?_⟩
  simp only [List.flatMap_append, List.reverse_append, List.append_assoc]

/-- A total that takes in the visits `vs`, each addition wrapped. -/
def addVisits (total : ℤ) (vs : List Visit) : ℤ :=
  vs.foldl (fun total v => if 0 < v.saved then wrap64 (total + v.saved) else total) total

theorem wp_trimWindow (mySession hwnd : ℕ) (total : ℤ) (s : St) :
    wp (trimWindow mySession hwnd total)
      (fun total' s' => ∃ v : Visit, v.Valid mySession ∧ total' = addVisits total [v] ∧
        Visited [v] s s')
      (fun e s' => (∃ err, e = .thrown err) ∧ Visited [] s s') env s := by
  rw [trimWindow, wp_bind, winGetPID, wp_bind, wp_ask]
  cases env.winGetPID s.asked hwnd with
  | none => exact (wp_raise _).2 ⟨⟨_, rfl⟩, _, rfl⟩
  | some pid =>
      rw [wp_pure, wp_bind, sessionOf, wp_bind, wp_ask, wp_bind, wp_log, wp_pure]
      dsimp only
      generalize env.processIdToSessionId (s.asked + 1) pid = session
      refine wp_ite (fun hforeign => (wp_pure _).2 ?_) fun hmine => ?_
      · exact ⟨.foreign pid session, hforeign, rfl, _, rfl⟩
      · rw [not_not] at hmine
        rw [wp_bind, openProcess, wp_bind, wp_ask, wp_bind, wp_log, wp_pure]
        refine wp_ite (fun hzero => (wp_pure _).2 ?_) fun hopen => ?_
        · exact ⟨.refused pid session, hmine, rfl, _, by rw [hzero]; rfl⟩
        · simp only [workingSetSize, emptyWorkingSet, closeHandle, wp_bind, wp_ask, wp_log,
            wp_pure]
          generalize (env.getProcessMemoryInfo _ _).map BitVec.toInt = wssBefore
          generalize (env.getProcessMemoryInfo _ _).map BitVec.toInt = wssAfter
          let visit := Visit.trimmed pid session (env.openProcess (s.asked + 1 + 1) pid)
            wssBefore wssAfter
          refine wp_ite (fun hsaved => (wp_pure _).2 ?_) fun hsaved => (wp_pure _).2 ?_
          · have hmax : visit.saved = wrap64 (wssBefore.getD 0 - wssAfter.getD 0) :=
              max_eq_right hsaved.le
            refine ⟨visit, ⟨hmine, hopen⟩, ?_, _, rfl⟩
            rw [addVisits, List.foldl_cons, hmax, if_pos hsaved]
            rfl
          · have hmax : visit.saved = 0 := max_eq_left (not_lt.1 hsaved)
            refine ⟨visit, ⟨hmine, hopen⟩, ?_, _, rfl⟩
            rw [addVisits, List.foldl_cons, hmax, if_neg (lt_irrefl 0)]
            rfl

theorem addVisits_append (total : ℤ) (vs vs' : List Visit) :
    addVisits total (vs ++ vs') = addVisits (addVisits total vs) vs' := List.foldl_append

theorem wp_trimWindows (mySession : ℕ) (hwnds : List ℕ) (total : ℤ) (s : St) :
    wp (trimWindows mySession hwnds total)
      (fun total' s' => ∃ vs : List Visit, vs.length = hwnds.length ∧
        (∀ v ∈ vs, v.Valid mySession) ∧ total' = addVisits total vs ∧ Visited vs s s')
      (fun e s' => (∃ err, e = .thrown err) ∧ ∃ vs : List Visit, vs.length < hwnds.length ∧
        (∀ v ∈ vs, v.Valid mySession) ∧ Visited vs s s') env s := by
  induction hwnds generalizing total s with
  | nil => exact (wp_pure _).2 ⟨[], rfl, by simp, rfl, .refl s⟩
  | cons hwnd hwnds ih =>
      rw [trimWindows, wp_bind]
      refine wp_mono (wp_trimWindow mySession hwnd total s) (fun total' s' h => ?_) fun e s' h => ?_
      · obtain ⟨v, hv, rfl, hvisit⟩ := h
        have hvalid {vs : List Visit} (hvs : ∀ v' ∈ vs, v'.Valid mySession) :
            ∀ v' ∈ v :: vs, v'.Valid mySession := by
          intro v' hv'
          obtain rfl | hv' := List.mem_cons.1 hv'
          · exact hv
          · exact hvs v' hv'
        refine wp_mono (ih (addVisits total [v]) s') (fun total'' s'' h' => ?_) fun e s'' h' => ?_
        · obtain ⟨vs, hlength, hvs, rfl, hvisited⟩ := h'
          exact ⟨v :: vs, by simp [hlength], hvalid hvs, (addVisits_append total [v] vs).symm,
            hvisit.trans hvisited⟩
        · obtain ⟨he, vs, hlength, hvs, hvisited⟩ := h'
          exact ⟨he, v :: vs, by simpa using hlength, hvalid hvs, hvisit.trans hvisited⟩
      · exact ⟨h.1, [], by simp, by simp, h.2⟩

end Visits

/-! ## The total -/

theorem wrap64_add (m n : ℤ) : wrap64 (wrap64 m + n) = wrap64 (m + n) := Int.bmod_add_bmod

theorem Visit.saved_nonneg (v : Visit) : 0 ≤ v.saved := by
  cases v with
  | foreign pid session | refused pid session => exact le_rfl
  | trimmed pid session hProcess wssBefore wssAfter => exact le_max_left _ _

/-- The wrapped additions come to the wrapped sum. -/
theorem addVisits_eq (vs : List Visit) {total : ℤ} (ht : wrap64 total = total) :
    addVisits total vs = wrap64 (total + (vs.map Visit.saved).sum) := by
  induction vs generalizing total with
  | nil => rw [List.map_nil, List.sum_nil, add_zero, ht, addVisits, List.foldl_nil]
  | cons v vs ih =>
      rw [addVisits, List.foldl_cons, List.map_cons, List.sum_cons, ← add_assoc]
      split
      · exact (ih Int.bmod_bmod).trans (wrap64_add _ _)
      · have hzero : v.saved = 0 := le_antisymm (not_lt.1 ‹_›) v.saved_nonneg
        rw [hzero, add_zero]
        exact ih ht

/-- What `SavedMB` says after the visits `vs`. -/
def savedMB (vs : List Visit) : ℚ := (wrap64 (vs.map Visit.saved).sum : ℚ) / 1048576

/-! ## The cycle -/

/-- A cycle has made the visits `vs`, and it has written its result if `reported` says so. -/
def Trimmed (own : Option ℕ) (vs : List Visit) (reported : Bool) (s s' : St) : Prop := ∃ n, s' =
  { s with
    asked := n
    result := if reported then some (savedMB vs) else s.result
    trace := (if reported then [.wrote (savedMB vs)] else []) ++
      ((vs.flatMap Visit.events).reverse ++ .ownSession own :: s.trace) }

/-- A cycle that has read its configuration has visited all windows, and has reported the result if
there were any, unless one of them was gone or the result could not be written. -/
inductive Cycled (env : Env) (s s' : St) : Prop
  | unread (h : Unscheduled env s s')
  | trimmed {s₁ : St} {own : Option ℕ} {vs : List Visit} (reported : Bool)
      (hscheduled : Scheduled env s s₁) (hvalid : ∀ v ∈ vs, v.Valid (own.getD 0))
      (htrimmed : Trimmed own vs reported s₁ s')

theorem wp_iniWrite (savedMB : ℚ) (env : Env) (s : St) : wp (iniWrite savedMB)
    (fun _ s' => ∃ n, s' =
      { s with asked := n, result := some savedMB, trace := .wrote savedMB :: s.trace })
    (fun e s' => (∃ err, e = .thrown err) ∧ ∃ n, s' = { s with asked := n }) env s := by
  rw [iniWrite, wp_bind, wp_ask]
  cases env.iniWrite s.asked with
  | none => exact (wp_bind _ _).2 ((wp_log _).2 ((wp_update _).2 ⟨_, rfl⟩))
  | some err => exact (wp_raise _).2 ⟨⟨_, rfl⟩, _, rfl⟩

theorem wp_autoRamTrim (env : Env) (s : St) : wp autoRamTrim (fun _ => Cycled env s)
    (fun e s' => (∃ err, e = .thrown err) ∧ Cycled env s s') env s := by
  rw [autoRamTrim, wp_bind]
  refine wp_mono (wp_scheduleTimer env s) (fun _ s₁ hscheduled => ?_)
    fun e s' h => ⟨h.1, .unread h.2⟩
  rw [wp_bind, wp_constant, wp_bind, sessionOf, wp_bind, wp_ask, wp_bind, wp_log, wp_pure,
    wp_bind, wp_ask]
  generalize env.processIdToSessionId s₁.asked env.currentProcessId = own
  refine wp_ite (fun hnone => (wp_pure _).2 ?_) fun hsome => ?_
  · have hnovisits : ∀ v ∈ [], Visit.Valid (own.getD 0) v := by simp
    exact .trimmed false hscheduled hnovisits ⟨_, rfl⟩
  · rw [wp_bind]
    refine wp_mono (wp_trimWindows (own.getD 0) _ 0 _) (fun total s₂ h => ?_) fun e s₂ h => ?_
    · obtain ⟨vs, -, hvs, rfl, n, rfl⟩ := h
      have htotal : addVisits 0 vs = wrap64 (vs.map Visit.saved).sum := by
        rw [addVisits_eq vs rfl, zero_add]
      rw [htotal]
      refine wp_mono (wp_iniWrite _ env _) (fun _ s' h => ?_) fun e s' h => ?_
      · obtain ⟨m, rfl⟩ := h
        exact .trimmed true hscheduled hvs ⟨m, rfl⟩
      · obtain ⟨he, m, rfl⟩ := h
        exact ⟨he, .trimmed false hscheduled hvs ⟨m, rfl⟩⟩
    · obtain ⟨he, vs, -, hvs, n, rfl⟩ := h
      exact ⟨he, .trimmed false hscheduled hvs ⟨n, rfl⟩⟩

end WagonMove.RamTrim
