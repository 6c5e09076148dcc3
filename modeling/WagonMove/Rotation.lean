import WagonMove.Acts
import WagonMove.Endings

/-!
# The rotation schedule of a search

A search misses, and each fifth time it turns the camera. Its acts after a number of misses are
fixed by that number alone, and so is the counter of the loop; what the environment decides is only
when the search ends, and how.
-/

namespace WagonMove

open Prog

/-! ## The schedule -/

/-- The acts of a search after `m` misses: each fifth one is followed by a turn. -/
def schedule (f : ScriptFile) : ℕ → List Event
  | 0 => []
  | m + 1 => (if (m + 1) % 5 = 0 then pulse ++ zoom f else []) ++ .searched none :: schedule f m

theorem count_schedule (f : ScriptFile) (m : ℕ) (e : Event) : (schedule f m).count e =
    m / 5 * (pulse ++ zoom f).count e + if e = .searched none then m else 0 := by
  induction m with
  | zero => simp [schedule]
  | succ m ih =>
      have hmiss : (Event.searched none :: schedule f m).count e =
          (schedule f m).count e + if e = .searched none then 1 else 0 := by
        simp only [List.count_cons, beq_iff_eq, @eq_comm _ e]
      rw [schedule, List.count_append, hmiss, ih]
      by_cases hturn : (m + 1) % 5 = 0
      · have hdiv : (m + 1) / 5 = m / 5 + 1 := by omega
        rw [if_pos hturn, hdiv, Nat.add_mul, Nat.one_mul]
        split <;> omega
      · have hdiv : (m + 1) / 5 = m / 5 := by omega
        rw [if_neg hturn, hdiv, List.count_nil]
        split <;> omega

theorem count_misses (f : ScriptFile) (m : ℕ) : (schedule f m).count (.searched none) = m := by
  rw [count_schedule, if_pos rfl]
  cases f <;> simp [pulse, zoom]

theorem count_pulses (f : ScriptFile) (m : ℕ) :
    (schedule f m).count (.key (.down .left)) = m / 5 := by
  rw [count_schedule, if_neg nofun]
  cases f <;> simp [pulse, zoom]

theorem count_wheelDowns (f : ScriptFile) (m : ℕ) :
    (schedule f m).count .wheelDown = m / 5 * (zoom f).length := by
  rw [count_schedule, if_neg nofun]
  cases f <;> simp [pulse, zoom]

/-- What a pass that misses with the counter at `missCount` adds. -/
def missed (f : ScriptFile) (missCount : ℕ) : List Event :=
  (if checksBeforeRotate ≤ missCount + 1 then pulse ++ zoom f else []) ++ [.searched none]

def nextMissCount (missCount : ℕ) : ℕ :=
  if checksBeforeRotate ≤ missCount + 1 then 0 else missCount + 1

theorem schedule_succ (f : ScriptFile) (m : ℕ) :
    schedule f (m + 1) = missed f (m % 5) ++ schedule f m := by
  have hturn : checksBeforeRotate ≤ m % 5 + 1 ↔ (m + 1) % 5 = 0 := by
    unfold checksBeforeRotate
    omega
  simp only [schedule, missed, hturn, List.append_assoc, List.singleton_append]

theorem nextMissCount_mod (m : ℕ) : nextMissCount (m % 5) = (m + 1) % 5 := by
  unfold nextMissCount checksBeforeRotate
  split <;> omega

/-! ## One pass -/

/-- The clock, read at a head of the loop, shows that two minutes are over. -/
def Late (start : ℕ) (r : Ctx) (s : St) : Prop := start + 120000 ≤ s.now + r.env.drift s.asked

/-- What a search that times out sends: it lifts the keys and signals. -/
def timeoutActs : List Event :=
  .signal .error "timeout_search_color_not_found" ::
    (specialKeys.map fun k => Event.key (.up k)).reverse

section Pass

variable {f : ScriptFile} {env : Env} {r : Ctx} {s₀ s : St} {l₀ : List Event}

/-- The end of a search by its timeout, unless that is broken off. -/
def TimedOut (env : Env) (s₀ : St) (l₀ : List Event) (e : Abort Err) (s : St) : Prop :=
  Cut env s₀ l₀ [] e s ∨ (e = .exited 1 ∧ Sent s₀ (timeoutActs ++ l₀) s)

theorem leads_searchTimedOut (f : ScriptFile) (s₀ : St) (l₀ : List Event) :
    Leads (fun r => r.env = env) (Sent s₀ l₀) (fun _ _ => False) (TimedOut env s₀ l₀)
      (searchTimedOut f) := by
  have hsleep : Leads (fun r => r.env = env) (Sent s₀ l₀) (fun _ => Sent s₀ l₀)
      (TimedOut env s₀ l₀) (sleep .searchTimeout 300) :=
    (Performs.sleep _ _ s₀ l₀).mono_end fun _ _ => .inl
  refine (leads_calm (calm_setStatus _)).bind fun _ => hsleep.bind fun _ =>
    (leads_sendUp specialKeys).bind fun _ => (leads_calm quiet_hideSpecialMarker).bind fun _ => ?_
  refine leads_writeSignalAndExit (Sent s₀ (timeoutActs ++ l₀)) f .error _ ?_ ?_ ?_ ?_
  · exact fun s hs => hs.record rfl
  · exact fun s s' hq hs => hs.quiet (fun _ he => he.elim) hq
  · exact fun s s' hw hs => hs.wrote hw
  · exact fun s hs => .inr ⟨rfl, (hs.record_silent rfl).record_silent rfl⟩

/-- The head goes on to a colour search, finds a stop, or takes the timeout because it is late. -/
theorem wp_searchHead (f : ScriptFile) (start : ℕ) (hr : r.env = env) (hs : Sent s₀ l₀ s) :
    wp (searchHead f start)
      (fun stop s' => Sent s₀ l₀ s' ∧ (stop = true → s'.running = false) ∧
        (s'.running = true → ¬Late start r s))
      (fun e s' => Late start r s ∧ TimedOut env s₀ l₀ e s') r s := by
  rw [searchHead, wp_bind]
  by_cases hrun : s.running = true
  · rw [wp_specialCheckStop_of_running hrun, if_neg Bool.false_ne_true, wp_bind, wp_tickCount]
    have hlate : searchTimeoutMs ≤ ((s.now + r.env.drift s.asked : ℕ) : ℤ) - start ↔
        Late start r s := by
      unfold searchTimeoutMs Late
      omega
    apply wp_ite
    · intro h
      have hs' : Sent s₀ l₀
          { s with asked := s.asked + 1, now := s.now + r.env.drift s.asked } := hs
      exact wp_mono (leads_searchTimedOut f s₀ l₀ r hr _ hs') (fun _ _ hf => hf.elim)
        fun _ _ he => ⟨hlate.1 h, he⟩
    · intro h
      exact (wp_pure _).2 ⟨hs, fun hstop => absurd hstop Bool.false_ne_true,
        fun _ hl => h (hlate.2 hl)⟩
  · apply wp_imp (wp_specialCheckStop_of_stopped (Bool.eq_false_iff.2 hrun))
    intro stop s' hcheck
    obtain ⟨rfl, hstopped⟩ := hcheck
    rw [if_pos rfl, wp_pure]
    exact ⟨.of_stopped hstopped, fun _ => hstopped,
      fun h => absurd (hstopped.symm.trans h) Bool.false_ne_true⟩

/-- What a pass of a search leads to. -/
def Passed (f : ScriptFile) (missCount : ℕ) (s₀ : St) (l₀ : List Event) :
    Turn (Option (ℤ × ℤ)) ℕ → St → Prop
  | .leave none, s => s.running = false
  | .leave (some p), s => Sent s₀ (.searched (some p) :: l₀) s
  | .again missCount', s => missCount' = nextMissCount missCount ∧
      Sent s₀ (missed f missCount ++ l₀) s

/-- How a pass ends that leads to nothing. -/
def PassEnd (f : ScriptFile) (start missCount : ℕ) (r : Ctx) (s s₀ : St) (l₀ : List Event)
    (e : Abort Err) (s' : St) : Prop :=
  Cut r.env s₀ l₀ (missed f missCount) e s' ∨ (Late start r s ∧ TimedOut r.env s₀ l₀ e s')

/-- One pass: a hit ends the search, a miss is counted, and the fifth one turns the camera. -/
theorem wp_searchPass (f : ScriptFile) (node : Node) (start missCount : ℕ) (hs : Sent s₀ l₀ s) :
    wp (searchPass f (findTargetColor f node) (beforeTurn f) start missCount)
      (Passed f missCount s₀ l₀) (PassEnd f start missCount r s s₀ l₀) r s := by
  have hfind : Leads (fun r' => r'.env = r.env) (Sent s₀ l₀)
      (fun hit => Sent s₀ (.searched hit :: l₀)) (Cut r.env s₀ l₀ (missed f missCount))
      (findTargetColor f node) :=
    (leads_find f node s₀ l₀).mono_end fun _ _ h => h.mono List.nil_suffix
  rw [searchPass, wp_bind]
  refine wp_mono (wp_searchHead f start rfl hs) (fun stop s' h => ?_) fun e s' h => .inr h
  refine wp_ite (fun hstop => (wp_pure _).2 (h.2.1 hstop)) fun _ => ?_
  refine wp_mono (Leads.bind hfind (fun hit => ?_) r rfl s' h.1) (fun _ _ hQ => hQ) fun _ _ => .inl
  cases hit with
  | some p =>
      exact (leads_calm (calm_showSpecialMarker f _ _)).bind fun _ =>
        (leads_calm (calm_setStatus _)).bind fun _ => .pure fun _ hs => hs
  | none =>
      refine (leads_calm (calm_setStatus _)).bind fun _ => .ite (fun hturn => ?_) fun hturn => ?_
      · have hmissed : missed f missCount = pulse ++ (zoom f ++ [.searched none]) := by
          rw [missed, if_pos hturn, List.append_assoc]
        have hzoom : zoom f ++ [.searched none] <:+ missed f missCount := ⟨pulse, hmissed.symm⟩
        have hpulse : pulse ++ (zoom f ++ [.searched none]) <:+ missed f missCount :=
          ⟨[], hmissed.symm⟩
        refine ((performs_beforeTurn f).leads s₀ l₀ [.searched none] hzoom).bind fun _ => ?_
        refine ((performs_activateRoblox.within _).leads s₀ l₀ _ hzoom).bind fun _ => ?_
        refine (performs_pulseLeft.leads s₀ l₀ _ hpulse).bind fun _ => .pure fun s hs => ?_
        exact ⟨(if_pos hturn).symm, hmissed ▸ hs⟩
      · have hmissed : missed f missCount = [.searched none] := by
          rw [missed, if_neg hturn, List.nil_append]
        have hpause : Performs r.env [] (sleep .missPause 90) := .sleep _ _
        rw [hmissed]
        refine (hpause.leads s₀ l₀ [.searched none] (List.suffix_refl _)).bind fun _ =>
          .pure fun s hs => ?_
        exact ⟨(if_neg hturn).symm, hmissed ▸ hs⟩

end Pass

/-! ## Whole searches -/

/-- The time at which a search takes itself to have begun. -/
def startTick (r : Ctx) (s₀ : St) : ℕ := s₀.now + r.env.drift s₀.asked

/-- The heads that a search called in `s₀` reaches after `n` passes. -/
def SearchHead (f : ScriptFile) (node : Node) (r : Ctx) (s₀ : St) : ℕ → ℕ → St → Prop :=
  Head (searchPass f (findTargetColor f node) (beforeTurn f) (startTick r s₀)) r 0
    (tickCount.run r s₀).2

/-- A search of either script, under its own name. -/
def searchOf : ScriptFile → ℕ → Node → Ahk (Option (ℤ × ℤ))
  | .wagonMove => Wagon.specialSearchUntilFound
  | .alienWagonMove => Alien.specialSearchUntilFoundNoZoom

theorem searchOf_eq (f : ScriptFile) (passes : ℕ) (node : Node) :
    searchOf f passes node = search f passes node := by cases f <;> rfl

section Searches

variable {f : ScriptFile} {node : Node} {r : Ctx} {s₀ : St}

/-- The counter and the acts at a head of the loop depend on the number of passes only. -/
theorem SearchHead.invariant {n missCount : ℕ} {s : St}
    (h : SearchHead f node r s₀ n missCount s) :
    missCount = n % 5 ∧ Sent s₀ (schedule f n) s := by
  refine Head.invariant (fun n missCount s => missCount = n % 5 ∧ Sent s₀ (schedule f n) s)
    ⟨rfl, ?_⟩ ?_ h
  · exact (Sent.refl s₀).of_acts [] (fun hr => hr) rfl
  · intro n missCount s hinv
    obtain ⟨rfl, hsent⟩ := hinv
    refine wp_mono (wp_searchPass f node (startTick r s₀) (n % 5) hsent) (fun t s' ht => ?_)
      fun _ _ _ => trivial
    cases t with
    | leave hit => trivial
    | again missCount' =>
        obtain ⟨rfl, hmissed⟩ := ht
        rw [schedule_succ]
        exact ⟨nextMissCount_mod n, hmissed⟩

/-- How a search ends that does not return. -/
def SearchBreak (f : ScriptFile) (node : Node) (passes : ℕ) (r : Ctx) (s₀ : St) (e : Abort Err)
    (s : St) : Prop :=
  (∃ m, Cut r.env s₀ [] (schedule f m) e s) ∨
  (e = .exited 1 ∧ ∃ m missCount s', SearchHead f node r s₀ m missCount s' ∧
    Late (startTick r s₀) r s' ∧ Sent s₀ (timeoutActs ++ schedule f m) s) ∨
  (e = .starved ∧ Sent s₀ (schedule f passes) s)

theorem SearchHead.timedOut {n missCount passes : ℕ} {s s' : St} {e : Abort Err}
    (h : SearchHead f node r s₀ n missCount s) (hlate : Late (startTick r s₀) r s)
    (he : TimedOut r.env s₀ (schedule f n) e s') : SearchBreak f node passes r s₀ e s' := by
  obtain hcut | ⟨rfl, hsent⟩ := he
  · exact .inl ⟨n, Cut.later (schedule f n) (by rwa [List.append_nil])⟩
  · exact .inr (.inl ⟨rfl, n, missCount, s, h, hlate, hsent⟩)

theorem wp_search (f : ScriptFile) (node : Node) (passes : ℕ) (r : Ctx) (s₀ : St) :
    wp (search f passes node) (fun hit s => match hit with
      | none => s.running = false
      | some p => ∃ m, Sent s₀ (.searched (some p) :: schedule f m) s)
      (SearchBreak f node passes r s₀) r s₀ := by
  rw [search, searchUntilFound, wp_bind, wp_tickCount]
  refine wp_loop_heads (fun n missCount s _ hhead => ?_) fun missCount s hhead => ?_
  · have hhead : SearchHead f node r s₀ n missCount s := hhead
    obtain ⟨rfl, hsent⟩ := hhead.invariant
    refine wp_mono (wp_searchPass f node (startTick r s₀) (n % 5) hsent) (fun t s' ht => ?_)
      fun e s' he => ?_
    · cases t with
      | leave hit =>
          cases hit with
          | none => exact ht
          | some p => exact ⟨n, ht⟩
      | again missCount' => trivial
    · obtain hcut | ⟨hlate, htimeout⟩ := he
      · refine .inl ⟨n + 1, ?_⟩
        rw [schedule_succ]
        exact Cut.later (schedule f n) (by rwa [List.append_nil])
      · exact hhead.timedOut hlate htimeout
  · have hhead : SearchHead f node r s₀ passes missCount s := hhead
    obtain ⟨-, hsent⟩ := hhead.invariant
    rw [searchLast, wp_bind]
    refine wp_mono (wp_searchHead f (startTick r s₀) rfl hsent) (fun stop s' h => ?_)
      fun e s' he => ?_
    · refine wp_ite (fun hstop => (wp_pure _).2 (h.2.1 hstop)) fun _ => (wp_abort _).2 ?_
      exact .inr (.inr ⟨rfl, h.1⟩)
    · exact hhead.timedOut he.1 he.2

end Searches

/-- What can have happened when a search is over that no stop has reached: it returns its first hit,
it takes the timeout at a late head, or it is broken off from outside, by an exit request or because
there is no window. -/
def SearchOver (f : ScriptFile) (node : Node) (passes : ℕ) (r : Ctx) (s₀ : St) (acts : List Event) :
    Except (Abort Err) (Option (ℤ × ℤ)) → Prop
  | .ok none => False
  | .ok (some p) => ∃ m, acts = .searched (some p) :: schedule f m
  | .error (.exited code) => code = 1 ∧ ∃ m missCount s, SearchHead f node r s₀ m missCount s ∧
      Late (startTick r s₀) r s ∧ acts = timeoutActs ++ schedule f m
  | .error (.thrown _) => ¬WindowPresent r.env ∧ ∃ m, acts <:+ schedule f m
  | .error .closed => Closes r.env ∧ ∃ m, acts <:+ schedule f m
  | .error .starved => acts = schedule f passes

theorem SearchBreak.over {f : ScriptFile} {node : Node} {passes : ℕ} {r : Ctx} {s₀ s : St}
    {e : Abort Err} (h : SearchBreak f node passes r s₀ e s) (hrun : s.running = true) :
    ∃ l, s.acts = l ++ s₀.acts ∧ SearchOver f node passes r s₀ l (.error e) := by
  obtain ⟨m, hcut⟩ | ⟨rfl, m, missCount, s', hhead, hlate, hsent⟩ | ⟨rfl, hsent⟩ := h
  · obtain ⟨hbroken, l, hl, hsent⟩ := hcut hrun
    rw [List.append_nil] at hsent
    refine ⟨l, (hsent hrun).2, ?_⟩
    cases e with
    | thrown err => exact ⟨hbroken, m, hl⟩
    | closed => exact ⟨hbroken, m, hl⟩
    | exited code | starved => exact hbroken.elim
  · exact ⟨_, (hsent hrun).2, rfl, m, missCount, s', hhead, hlate, rfl⟩
  · exact ⟨_, (hsent hrun).2, rfl⟩

/-- At every head of a search the counter is the number of misses modulo five, and the acts so far
are those of the schedule: one turn directly after each fifth miss, with 30 wheel events before it
in one script and none in the other. The call ends with its first hit, after which it sends
nothing, or with the timeout at a head that is late; with a moving clock it does end. -/
theorem search_keeps_schedule (f : ScriptFile) (node : Node) (passes : ℕ) (r : Ctx) (s₀ : St) :
    (∀ n missCount s, SearchHead f node r s₀ n missCount s → s.running = true →
      s.acts = schedule f n ++ s₀.acts ∧
      missCount = (schedule f n).count (.searched none) % 5 ∧ missCount ≤ 4) ∧
    (∀ m, (schedule f m).count (.searched none) = m ∧
      (schedule f m).count (.key (.down .left)) = m / 5 ∧
      (schedule f m).count .wheelDown = match f with
        | .wagonMove => 30 * (m / 5)
        | .alienWagonMove => 0) ∧
    (((searchOf f passes node).run r s₀).2.running = true →
      ∃ l, ((searchOf f passes node).run r s₀).2.acts = l ++ s₀.acts ∧
        SearchOver f node passes r s₀ l ((searchOf f passes node).run r s₀).1) ∧
    (Advancing r.env → 120000 ≤ passes →
      ((searchOf f passes node).run r s₀).1 ≠ .error .starved) := by
  rw [searchOf_eq]
  refine ⟨fun n missCount s h hrun => ?_, fun m => ?_, fun hrun => ?_, fun hclock hpasses => ?_⟩
  · obtain ⟨rfl, hsent⟩ := h.invariant
    rw [count_misses]
    exact ⟨(hsent hrun).2, rfl, by omega⟩
  · refine ⟨count_misses f m, count_pulses f m, ?_⟩
    rw [count_wheelDowns]
    cases f with
    | wagonMove => exact Nat.mul_comm _ _
    | alienWagonMove => rfl
  · obtain ⟨hvalue, hend⟩ := wp_iff_run.1 (wp_search f node passes r s₀)
    rcases hx : (search f passes node).run r s₀ with ⟨e | hit, s⟩
    · rw [hx] at hrun
      exact (hend e s hx).over hrun
    · rw [hx] at hrun
      have hhit := hvalue hit s hx
      cases hit with
      | none => exact absurd (hhit.symm.trans hrun) nofun
      | some p =>
          obtain ⟨m, hsent⟩ := hhit
          exact ⟨_, (hsent hrun).2, m, rfl⟩
  · intro hstarved
    obtain ⟨-, hend⟩ := wp_iff_run.1 (search_never_starves f hpasses node r hclock s₀ trivial)
    rcases hx : (search f passes node).run r s₀ with ⟨e | hit, s⟩
    · rw [hx] at hstarved
      exact hend e s hx (Except.error.inj hstarved)
    · rw [hx] at hstarved
      cases hstarved

/-- The colour appears only after a while. -/
def lateColor : Ctx :=
  { env := { Env.idle with pixelSearch := fun n _ => if n < 120 then .miss else .hit 400 300 } }

abbrev lateSearch : Except (Abort Err) (Option (ℤ × ℤ)) × St :=
  (Wagon.specialSearchUntilFound 10 ⟨"0xCDE3FE", 0⟩).run lateColor { running := true }

/-- Six looks miss and the camera is turned once before the hit that ends the search. -/
theorem late_search_turns_once :
    lateSearch.1 = .ok (some (400, 300)) ∧
    lateSearch.2.acts = .searched (some (400, 300)) :: schedule .wagonMove 6 ∧
    (schedule .wagonMove 6).count (.key (.down .left)) = 1 ∧
    (schedule .wagonMove 6).count .wheelDown = 30 := by
  obtain ⟨-, hcounts, hover, -⟩ := search_keeps_schedule .wagonMove ⟨"0xCDE3FE", 0⟩ 10 lateColor
    { running := true }
  have hhit : lateSearch.1 = .ok (some (400, 300)) := by decide +kernel
  have hmisses : lateSearch.2.acts.count (.searched none) = 6 := by decide +kernel
  obtain ⟨l, hacts, hl⟩ := hover (by decide +kernel)
  change lateSearch.2.acts = l ++ [] at hacts
  change SearchOver _ _ _ _ _ l lateSearch.1 at hl
  rw [hhit] at hl
  obtain ⟨m, rfl⟩ := hl
  rw [List.append_nil] at hacts
  obtain rfl : m = 6 := by
    rw [hacts, List.count_cons_of_ne (by simp), (hcounts m).1] at hmisses
    exact hmisses
  exact ⟨hhit, hacts, (hcounts 6).2.1, (hcounts 6).2.2⟩

end WagonMove
