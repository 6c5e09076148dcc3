import Mathlib.Tactic.Linarith
import WagonMove.Rotation

/-!
# The taps of the centring

Each pass of the centring sees the colour, compares it with the middle of the client rectangle and
taps once towards it, unless it is close enough. What a call sends is therefore a list of such
passes, in which the nested searches only turn the camera; the verdict and the accounts that are
returned can be read off it.
-/

namespace WagonMove

open Prog

/-! ## Reading the acts -/

/-- The key that brings the camera closer to a colour seen at `fx`, if it is off centre. -/
def Towards (k : Key) (fx : ℤ) (rect : Rect) : Prop :=
  (k = .right ∧ centerTolX < centerError fx rect) ∨
    (k = .left ∧ centerError fx rect < -centerTolX)

/-- A key goes down to turn the camera in a search, or towards the colour as it was last seen. -/
def Justified (k : Key) (before : List Event) : Prop :=
  (k = .left ∧ ∃ t, before = .turning :: t) ∨
    ∃ fx fy rect t, before = .aimed fx rect :: .searched (some (fx, fy)) :: t ∧ Towards k fx rect

/-- Every key that goes down is justified by what happened directly before. -/
def Aligned : List Event → Prop :=
  Trace.Always fun e before => ∀ k, e = .key (.down k) → Justified k before

/-- A tap of the centring: a key goes down directly after a comparison. -/
def Event.isTap (k : Key) (e : Event) : List Event → Bool
  | .aimed _ _ :: _ => e = .key (.down k)
  | _ => false

def taps (k : Key) : List Event → ℕ := Trace.tally (Event.isTap k)

/-- The last act compares the position found last with the middle, and it is close enough. -/
def Centered (l : List Event) : Prop :=
  ∃ fx fy rect t, l = .aimed fx rect :: .searched (some (fx, fy)) :: t ∧
    |centerError fx rect| ≤ centerTolX

/-- The direction with more taps; a tie goes to the right. -/
def dominant (right left : ℕ) : Dir :=
  if right = 0 ∧ left = 0 then .none else if left ≤ right then .right else .left

/-! ## One pass -/

/-- How a pass comes to see the colour: at once, or after a search for it. -/
def Seen (f : ScriptFile) (p : ℤ × ℤ) (look : List Event) : Prop :=
  look = [.searched (some p)] ∨
    ∃ m, look = .searched (some p) :: (schedule f m ++ [.searched none])

def Event.isPress : Event → Prop
  | .key (.down _) => True
  | _ => False

/-- Acts that add neither a tap nor a key that is not justified. -/
structure Harmless (b : List Event) : Prop where
  aligned : ∀ l, Aligned l → Aligned (b ++ l)
  taps : ∀ k l, taps k (b ++ l) = taps k l

namespace Harmless

variable {b c : List Event}

theorem append (hb : Harmless b) (hc : Harmless c) : Harmless (b ++ c) where
  aligned l hl := by
    rw [List.append_assoc]
    exact hb.aligned _ (hc.aligned l hl)
  taps k l := by rw [List.append_assoc, hb.taps, hc.taps]

theorem of_forall (h : ∀ e ∈ b, ¬e.isPress) : Harmless b where
  aligned l hl := by
    refine Trace.Always.append hl fun e he before k hk => ?_
    subst hk
    exact absurd trivial (h _ he)
  taps k l := by
    refine Trace.tally_append l fun e he before => ?_
    have hno := h e he
    unfold Event.isTap
    split
    · rw [decide_eq_false_iff_not]
      rintro rfl
      exact hno trivial
    · rfl

theorem single {e : Event} (he : ¬e.isPress) : Harmless [e] := .of_forall (by simpa using he)

theorem pulse : Harmless pulse where
  aligned l hl := by
    have hturning : Aligned (.turning :: l) := (single (e := .turning) id).aligned l hl
    refine (single (e := .key (.up .left)) id).aligned _ (Trace.always_cons.2 ⟨?_, hturning⟩)
    intro k hk
    obtain rfl : Key.left = k := Stroke.down.inj (Event.key.inj hk)
    exact .inl ⟨rfl, l, rfl⟩
  taps k l := by
    have hdown : WagonMove.taps k (.key (.down .left) :: .turning :: l) =
        WagonMove.taps k (.turning :: l) := Nat.zero_add _
    have hup := (single (e := .key (.up .left)) id).taps k (.key (.down .left) :: .turning :: l)
    exact (hup.trans hdown).trans ((single (e := .turning) id).taps k l)

theorem zoom (f : ScriptFile) : Harmless (zoom f) := by
  refine .of_forall fun e he => ?_
  cases f with
  | wagonMove =>
      rw [List.eq_of_mem_replicate he]
      exact id
  | alienWagonMove => cases he

theorem schedule (f : ScriptFile) (m : ℕ) : Harmless (schedule f m) := by
  induction m with
  | zero => exact .of_forall (by simp [WagonMove.schedule])
  | succ m ih =>
      have hmiss : Harmless (.searched none :: WagonMove.schedule f m) :=
        (single (e := .searched none) id).append ih
      rw [WagonMove.schedule]
      refine .append ?_ hmiss
      split
      · exact pulse.append (zoom f)
      · exact .of_forall (by simp)

theorem seen {f : ScriptFile} {p : ℤ × ℤ} {look : List Event} (h : Seen f p look) :
    Harmless look := by
  have hhit : Harmless [.searched (some p)] := single id
  obtain rfl | ⟨m, rfl⟩ := h
  · exact hhit
  · exact hhit.append ((schedule f m).append (single id))

theorem timeoutActs : Harmless timeoutActs := by
  refine .of_forall fun e he => ?_
  simp only [WagonMove.timeoutActs, List.mem_cons, List.mem_reverse, List.mem_map] at he
  obtain rfl | ⟨k, -, rfl⟩ := he <;> exact id

end Harmless

/-- The acts of a pass that taps `k` after `look`. -/
def tapActs (k : Key) (fx : ℤ) (rect : Rect) (look : List Event) : List Event :=
  .key (.up k) :: .key (.down k) :: .aimed fx rect :: look

section Tap

variable {f : ScriptFile} {k : Key} {fx fy : ℤ} {rect : Rect} {look l : List Event}

theorem Seen.head (h : Seen f (fx, fy) look) : ∃ t, look = .searched (some (fx, fy)) :: t := by
  obtain rfl | ⟨m, rfl⟩ := h
  · exact ⟨_, rfl⟩
  · exact ⟨_, rfl⟩

theorem harmless_aimed (rect : Rect) (h : Seen f (fx, fy) look) :
    Harmless (.aimed fx rect :: look) :=
  (Harmless.single (e := .aimed fx rect) id).append (.seen h)

theorem aligned_tapActs (h : Seen f (fx, fy) look) (hk : Towards k fx rect) (hl : Aligned l) :
    Aligned (tapActs k fx rect look ++ l) := by
  have haimed : Aligned (.aimed fx rect :: look ++ l) := (harmless_aimed rect h).aligned l hl
  refine (Harmless.single (e := .key (.up k)) id).aligned _ (Trace.always_cons.2 ⟨?_, haimed⟩)
  intro j hj
  obtain rfl : k = j := Stroke.down.inj (Event.key.inj hj)
  obtain ⟨t, rfl⟩ := h.head
  exact .inr ⟨fx, fy, rect, t ++ l, rfl, hk⟩

theorem taps_tapActs (j : Key) (h : Seen f (fx, fy) look) :
    taps j (tapActs k fx rect look ++ l) = (if k = j then 1 else 0) + taps j l := by
  have hup := (Harmless.single (e := .key (.up k)) id).taps j
    (.key (.down k) :: .aimed fx rect :: (look ++ l))
  have hdown : taps j (.key (.down k) :: .aimed fx rect :: (look ++ l)) =
      (if k = j then 1 else 0) + taps j (.aimed fx rect :: (look ++ l)) := by
    simp [taps, Trace.tally, Event.isTap]
  have haimed := (harmless_aimed rect h).taps j l
  calc
    _ = taps j (.key (.down k) :: .aimed fx rect :: (look ++ l)) := hup
    _ = (if k = j then 1 else 0) + taps j (.aimed fx rect :: (look ++ l)) := hdown
    _ = _ := congrArg _ haimed

theorem Towards.key_eq (h : Towards k fx rect) : k = .right ∨ k = .left := h.imp And.left And.left

theorem count_tapActs (h : Seen f (fx, fy) look) (hk : Towards k fx rect) :
    taps .right (tapActs k fx rect look ++ l) + taps .left (tapActs k fx rect look ++ l) =
      taps .right l + taps .left l + 1 := by
  rw [taps_tapActs _ h, taps_tapActs _ h]
  obtain rfl | rfl := hk.key_eq
  · simp
    omega
  · simp
    omega

end Tap

/-- Acts that keep every key justified and add one tap at most. -/
def AddsOne (b : List Event) : Prop := ∀ l, Aligned l → Aligned (b ++ l) ∧
  taps .right (b ++ l) + taps .left (b ++ l) ≤ taps .right l + taps .left l + 1

theorem Harmless.addsOne {b : List Event} (h : Harmless b) : AddsOne b := by
  intro l hl
  rw [h.taps, h.taps]
  exact ⟨h.aligned l hl, Nat.le_succ _⟩

theorem addsOne_tapActs {f : ScriptFile} {k : Key} {fx fy : ℤ} {rect : Rect} {look : List Event}
    (h : Seen f (fx, fy) look) (hk : Towards k fx rect) : AddsOne (tapActs k fx rect look) :=
  fun _ hl => ⟨aligned_tapActs h hk hl, (count_tapActs h hk).le⟩

/-! ## The passes of a call -/

theorem towards_centerKey {fx : ℤ} {rect : Rect} (h : ¬|centerError fx rect| ≤ centerTolX) :
    Towards (centerKey (centerError fx rect)) fx rect := by
  have hoff : centerTolX < |centerError fx rect| := not_le.1 h
  have htol : (0 : ℚ) < centerTolX := by norm_num [centerTolX]
  unfold centerKey
  split
  · rename_i hpos
    rw [abs_of_pos hpos] at hoff
    exact .inl ⟨rfl, hoff⟩
  · rename_i hneg
    rw [abs_of_nonpos (not_lt.1 hneg)] at hoff
    exact .inr ⟨rfl, by linarith⟩

section Pass

variable {f : ScriptFile} {node : Node} {passes : ℕ} {env : Env} {s₀ : St} {l₀ : List Event}

/-- Why a call with searches in it has been broken off: by an exit request, for want of a window, by
the timeout of a search, or because the passes granted to a search are used up. -/
def BrokenOff (f : ScriptFile) (passes : ℕ) (env : Env) (acts : List Event) : Abort Err → Prop
  | .closed => Closes env
  | .thrown _ => ¬WindowPresent env
  | .exited code => code = 1 ∧ timeoutActs <+: acts
  | .starved => schedule f passes <+: acts

theorem Broken.brokenOff {e : Abort Err} (h : Broken env e) (acts : List Event) :
    BrokenOff f passes env acts e := by
  cases e with
  | thrown err => exact h
  | closed => exact h
  | exited code | starved => exact h.elim

/-- A call is broken off, or ended by the timeout of a search, in the middle of a pass. -/
def Interrupted (f : ScriptFile) (passes : ℕ) (env : Env) (s₀ : St) (l₀ : List Event)
    (e : Abort Err) (s : St) : Prop :=
  ∃ b, AddsOne b ∧ (s.running = true → ∃ l, l <:+ b ∧ BrokenOff f passes env (l ++ l₀) e ∧
    Sent s₀ (l ++ l₀) s)

theorem Interrupted.of_cut {b : List Event} (hb : AddsOne b) {e : Abort Err} {s : St}
    (h : Cut env s₀ l₀ b e s) : Interrupted f passes env s₀ l₀ e s := by
  refine ⟨b, hb, fun hr => ?_⟩
  obtain ⟨hbroken, l, hl, hsent⟩ := h hr
  exact ⟨l, hl, hbroken.brokenOff _, hsent⟩

theorem Interrupted.of_sent {b : List Event} (hb : AddsOne b) {e : Abort Err} {s : St}
    (he : BrokenOff f passes env (b ++ l₀) e) (h : Sent s₀ (b ++ l₀) s) :
    Interrupted f passes env s₀ l₀ e s := ⟨b, hb, fun _ => ⟨b, List.suffix_refl b, he, h⟩⟩

/-- A nested search, called after a colour search that found nothing. -/
theorem leads_search (f : ScriptFile) (node : Node) (passes : ℕ) :
    Leads (fun r => r.env = env) (Sent s₀ (.searched none :: l₀))
      (fun hit s => match hit with
        | none => s.running = false
        | some p => ∃ look, Seen f p look ∧ Sent s₀ (look ++ l₀) s)
      (Interrupted f passes env s₀ l₀) (search f passes node) := by
  rintro r rfl s hs
  have hlost : Harmless [.searched none] := .single id
  have hsearching (m : ℕ) : Harmless (schedule f m ++ [.searched none]) :=
    (Harmless.schedule f m).append hlost
  refine wp_mono (wp_search f node passes r s) (fun hit s' h => ?_) fun e s' h => ?_
  · cases hit with
    | none => exact h
    | some p =>
        obtain ⟨m, hsent⟩ := h
        refine ⟨_, .inr ⟨m, rfl⟩, ?_⟩
        simpa using hs.trans hsent
  · obtain ⟨m, hcut⟩ | ⟨rfl, m, -, -, -, -, hsent⟩ | ⟨rfl, hsent⟩ := h
    · refine ⟨_, (hsearching m).addsOne, fun hr => ?_⟩
      obtain ⟨hbroken, l, ⟨k, hk⟩, hl⟩ := hcut hr
      refine ⟨l ++ [.searched none], ⟨k, by rw [← hk, List.append_assoc]⟩,
        hbroken.brokenOff _, ?_⟩
      simpa using hs.trans hl
    · refine .of_sent (Harmless.timeoutActs.append (hsearching m)).addsOne ⟨rfl, ?_⟩ ?_
      · rw [List.append_assoc]
        exact List.prefix_append _ _
      · simpa using hs.trans hsent
    · refine .of_sent (hsearching passes).addsOne ?_ ?_
      · change schedule f passes <+: _
        rw [List.append_assoc]
        exact List.prefix_append _ _
      · simpa using hs.trans hsent

theorem leads_locate (f : ScriptFile) (node : Node) (passes : ℕ) (s₀ : St) (l₀ : List Event) :
    Leads (fun r => r.env = env) (Sent s₀ l₀)
      (fun hit s => match hit with
        | none => s.running = false
        | some p => ∃ look, Seen f p look ∧ Sent s₀ (look ++ l₀) s)
      (Interrupted f passes env s₀ l₀) (centering f passes node).locate := by
  have hnil : AddsOne [] := (Harmless.of_forall (by simp)).addsOne
  unfold Centering.locate
  rw [centering_find, centering_search]
  refine ((leads_find f node s₀ l₀).mono_end fun e s h => .of_cut hnil h).bind fun hit => ?_
  cases hit with
  | some p => exact .pure fun s hs => ⟨[.searched (some p)], .inl rfl, hs⟩
  | none => exact (leads_calm (calm_setStatus _)).bind fun _ => leads_search f node passes

theorem performs_specialTapKey (k : Key) (ms : ℕ) :
    Performs env [.key (.up k), .key (.down k)] (specialTapKey k ms) := by
  have hdown : Performs env [.key (.down k)] (sendDown [k]) := fun _ _ => leads_sendDown _
  have hup : Performs env [.key (.up k)] (sendUp [k]) := fun _ _ => leads_sendUp _
  exact .after performs_check fun _ => hdown.bind (fun _ => .after (.sleep _ _) fun _ => hup) rfl

/-- What a pass of the centring leads to: the verdict, or one tap towards the colour. -/
def Aimed (f : ScriptFile) (totals : Totals) (s₀ : St) (l₀ : List Event) :
    Turn CenterResult Totals → St → Prop
  | .leave result, s => s.running = true → result = totals.centered ∧ ∃ fx fy rect look,
      Seen f (fx, fy) look ∧ |centerError fx rect| ≤ centerTolX ∧
        Sent s₀ (.aimed fx rect :: look ++ l₀) s
  | .again totals', s => ∃ k fx fy rect look, Seen f (fx, fy) look ∧ Towards k fx rect ∧
      totals' = totals.add k ∧ Sent s₀ (tapActs k fx rect look ++ l₀) s

theorem leads_aim (passes : ℕ) (c : Centering) (totals : Totals) {fx fy : ℤ} (rect : Rect)
    {look : List Event} (h : Seen f (fx, fy) look) :
    Leads (fun r => r.env = env) (Sent s₀ (look ++ l₀)) (Aimed f totals s₀ l₀)
      (Interrupted f passes env s₀ l₀) (c.aim totals fx rect) := by
  have hlog : Leads (fun r => r.env = env) (Sent s₀ (look ++ l₀))
      (fun _ => Sent s₀ (.aimed fx rect :: look ++ l₀)) (Interrupted f passes env s₀ l₀)
      (log (.aimed fx rect)) := fun _ _ _ hs => (wp_log _).2 (hs.record rfl)
  refine hlog.bind fun _ => .ite (fun hclose => ?_) fun hoff => ?_
  · exact (leads_calm (calm_setStatus _)).bind fun _ =>
      .pure fun s hs _ => ⟨rfl, fx, fy, rect, look, h, hclose, hs⟩
  · have hk := towards_centerKey hoff
    have hend (e : Abort Err) (s : St) (h' : Cut env s₀ l₀
        (tapActs (centerKey (centerError fx rect)) fx rect look) e s) :
        Interrupted f passes env s₀ l₀ e s :=
      .of_cut (addsOne_tapActs h hk) h'
    have htap : Performs env _ (specialTapKey (centerKey (centerError fx rect)) centerPulseMs) :=
      performs_specialTapKey _ _
    have hsleep : Performs env [] (sleep .centerPause c.pauseMs) := .sleep _ _
    refine (leads_calm (calm_setStatus _)).bind fun _ => ?_
    refine ((htap.leads s₀ l₀ (.aimed fx rect :: look) (List.suffix_refl _)).mono_end hend).bind
      fun _ => ?_
    refine ((hsleep.leads s₀ l₀ (tapActs _ fx rect look) (List.suffix_refl _)).mono_end hend).bind
      fun _ => ?_
    exact .pure fun s hs => ⟨_, fx, fy, rect, look, h, hk, rfl, hs⟩

theorem leads_centerPass (f : ScriptFile) (node : Node) (passes : ℕ) (totals : Totals) (s₀ : St)
    (l₀ : List Event) : Leads (fun r => r.env = env) (Sent s₀ l₀) (Aimed f totals s₀ l₀)
      (Interrupted f passes env s₀ l₀) (centerPass (centering f passes node) totals) := by
  refine leads_checked (fun s hstop hrun => absurd (hstop.symm.trans hrun) nofun) ?_
  refine (leads_locate f node passes s₀ l₀).bind fun hit => ?_
  cases hit with
  | none => exact .pure fun s hstop hrun => absurd (hstop.symm.trans hrun) nofun
  | some p =>
      refine .ghost fun look r hr s hs => ?_
      obtain ⟨hseen, hsent⟩ := hs
      refine Leads.bind (leads_calm (D := fun r => r.env = env) (calm_showSpecialMarker _ _ _))
        (fun _ => ?_) r hr s hsent
      exact (leads_calm (asked_clientRectOrScreen.mono fun _ _ => Asked.quiet)).bind fun rect =>
        leads_aim passes (centering f passes node) totals rect hseen

end Pass

/-! ## Whole calls -/

/-- The accounts of the centring after some passes that did not find the colour in the middle. -/
structure Tapped (totals : Totals) (l : List Event) : Prop where
  aligned : Aligned l
  right : totals.right = centerPulseMs * taps .right l
  left : totals.left = centerPulseMs * taps .left l
  uncentered : ¬Centered l

theorem Tapped.add {f : ScriptFile} {totals : Totals} {l : List Event} (h : Tapped totals l)
    {k : Key} {fx fy : ℤ} {rect : Rect} {look : List Event} (hseen : Seen f (fx, fy) look)
    (hk : Towards k fx rect) : Tapped (totals.add k) (tapActs k fx rect look ++ l) where
  aligned := aligned_tapActs hseen hk h.aligned
  right := by
    rw [taps_tapActs _ hseen, Nat.mul_add, ← h.right]
    obtain rfl | rfl := hk.key_eq
    · simp [Totals.add, Nat.add_comm]
    · simp [Totals.add]
  left := by
    rw [taps_tapActs _ hseen, Nat.mul_add, ← h.left]
    obtain rfl | rfl := hk.key_eq
    · simp [Totals.add]
    · simp [Totals.add, Nat.add_comm]
  uncentered := by
    intro hcentered
    obtain ⟨fx', fy', rect', t, heq, -⟩ := hcentered
    cases heq

theorem Tapped.centered {totals : Totals} {l : List Event} (h : Tapped totals l) :
    totals.centered = ⟨true, dominant (taps .right l) (taps .left l),
      centerPulseMs * max (taps .right l) (taps .left l)⟩ := by
  rw [Totals.centered, h.right, h.left, dominant, centerPulseMs]
  by_cases hnone : taps .right l = 0 ∧ taps .left l = 0
  · simp [hnone]
  · rw [if_pos (by omega), if_neg hnone, Nat.mul_max_mul_left]
    simp

theorem Tapped.exhausted {totals : Totals} {l : List Event} (h : Tapped totals l) :
    totals.exhausted = ⟨false, dominant (taps .right l) (taps .left l),
      centerPulseMs * max (taps .right l) (taps .left l)⟩ := by
  rw [Totals.exhausted, h.right, h.left, dominant, centerPulseMs, Nat.mul_max_mul_left]
  by_cases hnone : taps .right l = 0 ∧ taps .left l = 0
  · simp [hnone]
  · rw [if_neg hnone]
    by_cases hle : taps .left l ≤ taps .right l
    · rw [if_pos (by omega), if_pos hle]
    · rw [if_neg (by omega), if_pos (by omega), if_neg hle]

end WagonMove
