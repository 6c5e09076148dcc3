import WagonMove.RunLanguage

/-!
# How often the keys of a flow are pressed

Searches and the centring press the arrow keys left and right only, and a search turns the wheel
before each turn of the camera or not at all. What they add is therefore nothing to a measure that
weighs neither, and such a measure has one value on all words of a flow.
-/

namespace WagonMove

open Prog

/-- How often a flow presses a key, apart from the two that turn the camera. -/
def presses : ScriptFile → Key → ℕ
  | .wagonMove, .w => 2
  | .wagonMove, .s => 1
  | .wagonMove, .space => 2
  | .alienWagonMove, .w => 1
  | .alienWagonMove, .space => 2
  | .alienWagonMove, .f => 2
  | _, _ => 0

/-- The acts of the stages; those of a search and of the centring are left out. -/
def fixedActs : ScriptFile → List (List Event)
  | .wagonMove =>
      [.replicate 30 .wheelDown, [], [], pressed [.w], pressed [.s], .replicate 30 .wheelDown,
        [], [], pressed [.space], pressed [.space], pressed [.w],
        specialKeys.map fun k => .key (.up k)]
  | .alienWagonMove =>
      [pressed [.f], pressed [.space], .replicate 30 .wheelDown, [], [], pressed [.w, .space],
        specialKeys.map fun k => .key (.up k), pressed [.f], .replicate 30 .wheelDown,
        specialKeys.map fun k => .key (.up k)]

/-! ## Measures that searches and centring leave alone -/

structure Neutral (f : ScriptFile) (measure : List Event → ℤ) : Prop where
  append : ∀ u v, measure (u ++ v) = measure u + measure v
  searched : ∀ hit, measure [.searched hit] = 0
  aimed : ∀ fx rect, measure [.aimed fx rect] = 0
  tap : ∀ k, k = .right ∨ k = .left → measure [.key (.down k), .key (.up k)] = 0
  turn : measure (pulse ++ zoom f).reverse = 0

namespace Neutral

variable {f : ScriptFile} {measure : List Event → ℤ}

theorem nil (h : Neutral f measure) : measure [] = 0 := by
  have happend := h.append [] []
  rw [List.append_nil] at happend
  omega

theorem flatten (h : Neutral f measure) (parts : List (List Event)) :
    measure parts.flatten = (parts.map measure).sum := by
  induction parts with
  | nil => exact h.nil
  | cons u parts ih => rw [List.flatten_cons, h.append, ih, List.map_cons, List.sum_cons]

theorem schedule (h : Neutral f measure) (m : ℕ) : measure (schedule f m).reverse = 0 := by
  induction m with
  | zero => exact h.nil
  | succ m ih =>
      have hturn : measure (if (m + 1) % 5 = 0 then pulse ++ zoom f else []).reverse = 0 := by
        split
        · exact h.turn
        · exact h.nil
      rw [WagonMove.schedule, List.reverse_append, List.reverse_cons, h.append, h.append, ih,
        h.searched, hturn]
      rfl

theorem foundAt (h : Neutral f measure) (p : ℤ × ℤ) : ∀ w ∈ foundAt f p, measure w = 0 := by
  rintro w ⟨m, rfl⟩
  rw [h.append, h.schedule, h.searched]
  rfl

theorem located (h : Neutral f measure) (p : ℤ × ℤ) : ∀ w ∈ located f p, measure w = 0 := by
  intro w hw
  obtain hw | ⟨m, hw⟩ := hw
  · rw [← List.reverse_reverse w, hw]
    exact h.searched _
  · rw [← List.reverse_reverse w, hw, List.reverse_cons, List.reverse_append, h.append, h.append,
      h.schedule, add_zero, h.searched, add_zero]
    exact h.searched none

theorem settling (h : Neutral f measure) : ∀ w ∈ settling f, measure w = 0 := by
  rintro w ⟨fx, fy, rect, look, hlook, -, rfl⟩
  rw [h.append, h.located _ look hlook, h.aimed]
  rfl

theorem tapping (h : Neutral f measure) : ∀ w ∈ tapping f, measure w = 0 := by
  rintro w ⟨fx, fy, rect, look, k, hlook, hk, rfl⟩
  have haimed := h.append [.aimed fx rect] [.key (.down k), .key (.up k)]
  rw [List.singleton_append, h.aimed, h.tap k hk.key_eq] at haimed
  rw [h.append, h.located _ look hlook, haimed]
  rfl

theorem centre (h : Neutral f measure) (attempts : ℕ) :
    ∀ w ∈ centre f attempts, measure w = 0 := by
  refine Language.forall_mem_rounds h.append h.settling h.tapping ?_ attempts
  rintro w rfl
  exact h.nil

/-- All words of a flow measure the same. -/
theorem flowWords (h : Neutral f measure) :
    ∀ w ∈ flowWords f, measure w = measure (fixedActs f).flatten := by
  have hseek : ∀ w ∈ seek f, measure w = measure [] := by
    rintro w ⟨p, hw⟩
    exact (h.foundAt p w hw).trans h.nil.symm
  have hcentre (attempts : ℕ) : ∀ w ∈ WagonMove.centre f attempts, measure w = measure [] :=
    fun w hw => (h.centre attempts w hw).trans h.nil.symm
  have hsingle (v : List Event) : ∀ w ∈ ({v} : Language Event), measure w = measure v := by
    rintro w rfl
    rfl
  rw [h.flatten]
  refine Language.forall_mem_prod h.append h.nil ?_
  cases f with
  | wagonMove =>
      exact .cons (hsingle _) <| .cons hseek <| .cons (hcentre 40) <| .cons (hsingle _) <|
        .cons (hsingle _) <| .cons (hsingle _) <| .cons hseek <| .cons (hcentre 40) <|
          .cons (hsingle _) <| .cons (hsingle _) <| .cons (hsingle _) <| .cons (hsingle _) .nil
  | alienWagonMove =>
      exact .cons (hsingle _) <| .cons (hsingle _) <| .cons (hsingle _) <| .cons hseek <|
        .cons (hcentre 80) <| .cons (hsingle _) <| .cons (hsingle _) <| .cons (hsingle _) <|
          .cons (hsingle _) <| .cons (hsingle _) .nil

end Neutral

theorem neutral_count (f : ScriptFile) {k : Key} (hright : k ≠ .right) (hleft : k ≠ .left) :
    Neutral f fun w => (w.count (.key (.down k)) : ℤ) where
  append u v := by rw [List.count_append, Nat.cast_add]
  searched hit := by simp
  aimed fx rect := by simp
  tap j hj := by
    obtain rfl | rfl := hj
    · simp [hright.symm]
    · simp [hleft.symm]
  turn := by cases f <;> simp [pulse, zoom, hleft.symm]

/-- Wheel events, without those that belong to a turn of the camera. -/
def spareWheel (f : ScriptFile) (w : List Event) : ℤ :=
  w.count .wheelDown - (zoom f).length * w.count .turning

theorem neutral_spareWheel (f : ScriptFile) : Neutral f (spareWheel f) where
  append u v := by
    simp only [spareWheel, List.count_append, Nat.cast_add]
    ring
  searched hit := by simp [spareWheel]
  aimed fx rect := by simp [spareWheel]
  tap k _ := by simp [spareWheel]
  turn := by cases f <;> simp [spareWheel, pulse, zoom]

/-! ## Whole runs -/

section Runs

variable {f : ScriptFile} {env : Env} {w : List Event}

/-- Words in which no key goes down. -/
def pressless : Language Event := {w | ∀ k, .key (.down k) ∉ w}

theorem pressless_mul {K L : Language Event} (hK : K ≤ pressless) (hL : L ≤ pressless) :
    K * L ≤ pressless := by
  intro w hw k hk
  obtain ⟨u, hu, v, hv, rfl⟩ := Language.mem_mul.1 hw
  exact (List.mem_append.1 hk).elim (hK hu k) (hL hv k)

theorem release_le_pressless : release ≤ pressless := by
  rintro w rfl k hk
  simp at hk

theorem signalled_le_pressless (status : Status) (detail : String) :
    signalled status detail ≤ pressless := by
  rintro w rfl k hk
  simp at hk

theorem timeout_le_pressless : ({timeoutActs.reverse} : Language Event) ≤ pressless := by
  rintro w rfl k hk
  simp [timeoutActs] at hk

/-- However a run ends, it has begun its flow, and after that it presses no key. -/
theorem runWords_le (f : ScriptFile) (env : Env) (e : Abort Err) :
    runWords f env e ≤ (flowWords f).prefixes * pressless := by
  have hfollows : Follows env id (stages f) (specialMovementFlow f 0 ⟨"", 0⟩) := follows_flow f 0 _
  have hflow : ∃ w, w ∈ flowWords f := hfollows.nonempty
  have hbegun (L : Language Event) (hL : L ≤ pressless) :
      (flowWords f).prefixes * L ≤ (flowWords f).prefixes * pressless := mul_le_mul' le_rfl hL
  have hwhole (L : Language Event) (hL : L ≤ pressless) :
      flowWords f * L ≤ (flowWords f).prefixes * pressless :=
    mul_le_mul' (Language.le_prefixes _) hL
  have hnone : pressless ≤ (flowWords f).prefixes * pressless := fun w hw =>
    Language.append_mem_mul (Language.nil_mem_prefixes hflow) hw
  have hnil : (1 : Language Event) ≤ pressless := by
    rintro w rfl k hk
    simp at hk
  have hone : (flowWords f).prefixes ≤ (flowWords f).prefixes * pressless := by
    simpa only [mul_one] using hbegun 1 hnil
  have hfailed (L : Language Event) (hL : L ≤ pressless) :
      failed f env * L ≤ (flowWords f).prefixes * pressless := by
    have hle : failed f env ≤ (flowWords f).prefixes * release := fun w hw => hw.2
    refine (mul_le_mul' hle le_rfl).trans ?_
    rw [mul_assoc]
    exact hbegun _ (pressless_mul release_le_pressless hL)
  cases e with
  | thrown err => exact hnil.trans hnone
  | starved => exact hone
  | closed =>
      have hfailed_one := hfailed 1 hnil
      rw [mul_one] at hfailed_one
      exact sup_le (sup_le hone (hwhole release release_le_pressless)) hfailed_one
  | exited code =>
      cases code with
      | zero =>
          have hending := pressless_mul release_le_pressless
            (signalled_le_pressless .ok "movement_complete")
          rw [runWords, mul_assoc]
          exact hwhole _ hending
      | succ code =>
          have hmissing : withoutWindow env (signalled .error robloxMissing) ≤
              (flowWords f).prefixes * pressless := fun w hw =>
            hnone (signalled_le_pressless _ _ hw.2)
          have herror : anyError ≤ pressless := by
            rintro w ⟨message, hw⟩
            exact signalled_le_pressless _ _ hw
          exact sup_le (sup_le hmissing (hbegun _ timeout_le_pressless)) (hfailed _ herror)

theorem count_presses (f : ScriptFile) (k : Key) (hright : k ≠ .right) (hleft : k ≠ .left) :
    ∀ w ∈ flowWords f, w.count (.key (.down k)) = presses f k := by
  intro w hw
  have hfixed := (neutral_count f hright hleft).flowWords w hw
  have hpresses : (fixedActs f).flatten.count (.key (.down k)) = presses f k := by
    cases f <;> cases k <;> decide
  exact (Nat.cast_inj.1 hfixed).trans hpresses

theorem count_wheel (f : ScriptFile) : ∀ w ∈ flowWords f,
    w.count .wheelDown = 60 + (zoom f).length * w.count .turning := by
  intro w hw
  have hfixed := (neutral_spareWheel f).flowWords w hw
  have hspare : spareWheel f (fixedActs f).flatten = 60 := by cases f <;> decide
  have hwheel : (w.count .wheelDown : ℤ) - (zoom f).length * w.count .turning = 60 :=
    hfixed.trans hspare
  rw [Nat.add_comm]
  exact_mod_cast eq_add_of_sub_eq' hwheel

theorem count_le_presses {e : Abort Err} (hw : w ∈ runWords f env e) (k : Key)
    (hright : k ≠ .right) (hleft : k ≠ .left) : w.count (.key (.down k)) ≤ presses f k := by
  obtain ⟨u, ⟨v, hv, hprefix⟩, u', hu', rfl⟩ := Language.mem_mul.1 (runWords_le f env e hw)
  have hnone : u'.count (.key (.down k)) = 0 := List.count_eq_zero.2 (hu' k)
  calc
    (u ++ u').count (.key (.down k)) = u.count (.key (.down k)) := by
      rw [List.count_append, hnone, Nat.add_zero]
    _ ≤ v.count (.key (.down k)) := hprefix.sublist.count_le _
    _ = presses f k := count_presses f k hright hleft v hv

/-- A run that exits with 0 adds its release and its signal to a word of the flow. -/
theorem count_of_success (hw : w ∈ runWords f env (.exited 0)) : ∃ v ∈ flowWords f,
    ∀ e, (∀ k, e ≠ .key (.up k)) → (∀ status detail, e ≠ .signal status detail) →
      w.count e = v.count e := by
  obtain ⟨u, hu, _, rfl, rfl⟩ := Language.mem_mul.1 hw
  obtain ⟨v, hv, _, rfl, rfl⟩ := Language.mem_mul.1 hu
  refine ⟨v, hv, fun e hup hsignal => ?_⟩
  have hrelease : (specialKeys.map fun k => Event.key (.up k)).count e = 0 := by
    refine List.count_eq_zero.2 fun hmem => ?_
    obtain ⟨k, -, rfl⟩ := List.mem_map.1 hmem
    exact hup k rfl
  have hreport : [Event.signal .ok "movement_complete"].count e = 0 := by
    refine List.count_eq_zero.2 fun hmem => ?_
    exact hsignal _ _ (List.mem_singleton.1 hmem)
  rw [List.count_append, List.count_append, hrelease, hreport]
  rfl

end Runs

/-- No key but the two that turn the camera is pressed more often than its flow presses it, in any
run that nothing stops. A run that exits with 0 has pressed each of them just as often, and it has
turned the wheel 60 times and, in one script, 30 times more for each turn of the camera. -/
theorem run_presses (f : ScriptFile) (cfg : Config) (passes : ℕ) (env : Env)
    (files : String → Option String) : ∃ e s, execute f cfg passes env files = (.error e, s) ∧
      ((∃ scope m, .stopped scope m ∈ s.trace) ∨
        (∀ k, k ≠ .right → k ≠ .left → s.acts.count (.key (.down k)) ≤ presses f k) ∧
        (e = .exited 0 →
          (∀ k, k ≠ .right → k ≠ .left → s.acts.count (.key (.down k)) = presses f k) ∧
          s.acts.count .wheelDown = 60 + (zoom f).length * s.acts.count .turning)) := by
  obtain ⟨e, s, he, hs⟩ := spoken_run f cfg passes env files
  refine ⟨e, s, he, hs.stopped_or.imp_right fun hw => ?_⟩
  simp only [← List.count_reverse (l := s.acts)]
  refine ⟨count_le_presses hw, ?_⟩
  rintro rfl
  obtain ⟨v, hv, hcount⟩ := count_of_success hw
  refine ⟨fun k hright hleft => ?_, ?_⟩
  · rw [hcount _ (by simp) (by simp)]
    exact count_presses f k hright hleft v hv
  · rw [hcount _ (by simp) (by simp), hcount _ (by simp) (by simp)]
    exact count_wheel f v hv

end WagonMove
