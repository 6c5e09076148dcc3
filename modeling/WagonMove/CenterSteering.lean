import WagonMove.CachedSearch
import WagonMove.CenterTaps
import WagonMove.Steering

/-!
# Where the centring gets to

How far a tap moves the picture is up to the game. As long as a tap moves it towards the middle by
at least `δ` and by at most 30 pixels, twice the tolerance of the centring, no tap has to be taken
back, and the colour is centred from any position that is not too far off.
-/

namespace WagonMove

open Prog Steering

def Event.error? : Event → Option ℚ
  | .aimed fx rect => some (centerError fx rect)
  | _ => none

/-- The errors that the centring has seen, the newest first. -/
def errors (l : List Event) : List ℚ := l.filterMap Event.error?

theorem errors_eq_nil {l : List Event} (h : ∀ e ∈ l, e.error? = none) : errors l = [] :=
  List.filterMap_eq_nil_iff.2 h

theorem errors_append (l l' : List Event) : errors (l ++ l') = errors l ++ errors l' :=
  List.filterMap_append

theorem errors_schedule (f : ScriptFile) (m : ℕ) : errors (schedule f m) = [] := by
  have hzoom : errors (zoom f) = [] := by
    cases f with
    | wagonMove => exact errors_eq_nil fun e he => by rw [List.eq_of_mem_replicate he]; rfl
    | alienWagonMove => rfl
  induction m with
  | zero => rfl
  | succ m ih =>
      have hmiss : errors (.searched none :: schedule f m) = [] := ih
      rw [schedule, errors_append, hmiss, List.append_nil]
      split
      · rw [errors_append, hzoom]
        rfl
      · rfl

theorem errors_seen {f : ScriptFile} {p : ℤ × ℤ} {look : List Event} (h : Seen f p look) :
    errors look = [] := by
  obtain rfl | ⟨m, rfl⟩ := h
  · rfl
  · have hsearch : errors (schedule f m ++ [.searched none]) = [] := by
      rw [errors_append, errors_schedule]
      rfl
    exact hsearch

theorem errors_aimed {f : ScriptFile} {fx fy : ℤ} {rect : Rect} {look : List Event}
    (h : Seen f (fx, fy) look) (l : List Event) :
    errors (.aimed fx rect :: look ++ l) = centerError fx rect :: errors l := by
  rw [List.cons_append]
  have hlook : errors (look ++ l) = errors l := by
    rw [errors_append, errors_seen h, List.nil_append]
  exact congrArg _ hlook

theorem errors_tapActs {f : ScriptFile} {k : Key} {fx fy : ℤ} {rect : Rect} {look : List Event}
    (h : Seen f (fx, fy) look) (l : List Event) :
    errors (tapActs k fx rect look ++ l) = centerError fx rect :: errors l := errors_aimed h l

/-! ## The taps and the errors -/

/-- Each error so far was outside the tolerance and has been answered by a tap. -/
structure Steered (l : List Event) : Prop where
  off : ∀ e ∈ errors l, centerTolX < |e|
  right : taps .right l = (errors l).countP (0 < ·)
  left : taps .left l = (errors l).countP (· < 0)

theorem steered_nil : Steered [] := ⟨by simp [errors], rfl, rfl⟩

theorem Steered.tap {l : List Event} (hl : Steered l) {f : ScriptFile} {k : Key} {fx fy : ℤ}
    {rect : Rect} {look : List Event} (h : Seen f (fx, fy) look) (hk : Towards k fx rect) :
    Steered (tapActs k fx rect look ++ l) := by
  have htol : (0 : ℚ) < centerTolX := by norm_num [centerTolX]
  have herrors : errors (tapActs k fx rect look ++ l) = centerError fx rect :: errors l :=
    errors_tapActs h l
  obtain ⟨rfl, hright⟩ | ⟨rfl, hleft⟩ := hk
  · have hpos : 0 < centerError fx rect := htol.trans hright
    refine ⟨?_, ?_, ?_⟩
    · rw [herrors, List.forall_mem_cons, abs_of_pos hpos]
      exact ⟨hright, hl.off⟩
    · rw [taps_tapActs _ h, herrors, List.countP_cons_of_pos (by simpa using hpos), hl.right,
        if_pos rfl, Nat.add_comm]
    · rw [taps_tapActs _ h, herrors, List.countP_cons_of_neg (by simpa using hpos.le), hl.left,
        if_neg (by simp), Nat.zero_add]
  · have hneg : centerError fx rect < 0 := hleft.trans (neg_neg_of_pos htol)
    refine ⟨?_, ?_, ?_⟩
    · rw [herrors, List.forall_mem_cons, abs_of_neg hneg]
      exact ⟨lt_neg.1 hleft, hl.off⟩
    · rw [taps_tapActs _ h, herrors, List.countP_cons_of_neg (by simpa using hneg.le), hl.right,
        if_neg (by simp), Nat.zero_add]
    · rw [taps_tapActs _ h, herrors, List.countP_cons_of_pos (by simpa using hneg), hl.left,
        if_pos rfl, Nat.add_comm]

/-- How a call of the centring has ended that returned its verdict. -/
def SteeredOver (maxAttempts : ℕ) (l : List Event) (ok : Bool) : Prop :=
  if ok then ∃ e l', errors l = e :: errors l' ∧ Steered l' ∧ ∀ k, taps k l = taps k l'
  else Steered l ∧ (errors l).length = maxAttempts

theorem wp_centerColor_steered (f : ScriptFile) (node : Node) (passes : ℕ) (r : Ctx) (s₀ : St) :
    wp (centerColor (centering f passes node))
      (fun result s => s.running = true → ∃ l, s.acts = l ++ s₀.acts ∧
        SteeredOver (centering f passes node).maxAttempts l result.ok)
      (fun _ _ => True) r s₀ := by
  rw [centerColor]
  refine wp_loop (fun left _ s => ∃ l, Steered l ∧ Sent s₀ l s ∧
    (errors l).length + left = (centering f passes node).maxAttempts) ?_ ?_ _ _ _ ?_
  · rintro left totals s ⟨l, hsteered, hsent, hcount⟩
    refine wp_mono (leads_centerPass f node passes totals s₀ l r rfl s hsent) (fun t s' ht => ?_)
      fun _ _ _ => trivial
    cases t with
    | leave result =>
        intro hrun
        obtain ⟨rfl, fx, fy, rect, look, hseen, -, hl⟩ := ht hrun
        have hok : totals.centered.ok = true := by
          unfold Totals.centered
          split <;> rfl
        refine ⟨_, (hl hrun).2, ?_⟩
        rw [SteeredOver, if_pos hok]
        exact ⟨_, l, errors_aimed hseen l, hsteered, fun k => (harmless_aimed rect hseen).taps k l⟩
    | again totals' =>
        obtain ⟨k, fx, fy, rect, look, hseen, hk, rfl, hl⟩ := ht
        refine ⟨_, hsteered.tap hseen hk, hl, ?_⟩
        rw [errors_tapActs hseen, List.length_cons]
        omega
  · rintro totals s ⟨l, hsteered, hsent, hcount⟩
    rw [wp_bind]
    refine (calm_setStatus _).wp fun _ s' hq => (wp_pure _).2 fun hrun => ?_
    exact ⟨l, (hsent.calm hq hrun).2, hsteered, hcount⟩
  · exact ⟨[], steered_nil, .refl s₀, Nat.zero_add _⟩

/-! ## Whole calls -/

/-- All the taps went one way, and each of them but the last has brought the colour closer. -/
theorem Steered.one_way {l : List Event} {δ : ℚ} (hl : Steered l)
    (hchain : (errors l).IsChain (Corrects δ 30)) :
    (taps .right l = 0 ∨ taps .left l = 0) ∧
      taps .right l + taps .left l = (errors l).length ∧
      ∀ e₀, (errors l).getLast? = some e₀ → 15 + ((errors l).length - 1) * δ < |e₀| := by
  rw [hl.right, hl.left]
  have hoff := hl.off
  cases herrors : errors l with
  | nil => simp
  | cons e es =>
      rw [herrors] at hchain hoff
      obtain ⟨hside, hbound⟩ := one_sided (by norm_num [centerTolX]) (by norm_num [centerTolX])
        hchain hoff
      refine ⟨?_, ?_, ?_⟩
      · rw [List.countP_eq_zero, List.countP_eq_zero]
        obtain hright | hleft := hside
        · exact .inr fun x hx => by simpa using (hright x hx).le
        · exact .inl fun x hx => by simpa using (hleft x hx).le
      · obtain hright | hleft := hside
        · rw [List.countP_eq_length.2 fun x hx => by simpa using hright x hx,
            List.countP_eq_zero.2 fun x hx => by simpa using (hright x hx).le, Nat.add_zero]
        · rw [List.countP_eq_zero.2 fun x hx => by simpa using (hleft x hx).le,
            List.countP_eq_length.2 fun x hx => by simpa using hleft x hx, Nat.zero_add]
      · intro e₀ he₀
        rw [List.getLast?_eq_some_getLast (List.cons_ne_nil e es)] at he₀
        rw [← Option.some.inj he₀, List.length_cons]
        push_cast
        rw [add_sub_cancel_right]
        exact hbound

/-- If every tap brings the colour closer by `δ` at least, and by 30 pixels at most, then the taps
all go one way, their number is bounded by how far off the colour was at first, and a colour that
was not too far off is centred. -/
def Converges (maxAttempts : ℕ) (l : List Event) (ok : Bool) : Prop :=
  ∃ e₀, (errors l).getLast? = some e₀ ∧ ∀ δ, (errors l).IsChain (Corrects δ 30) →
    (taps .right l = 0 ∨ taps .left l = 0) ∧
    (∀ n : ℕ, taps .right l + taps .left l = n + 1 → 15 + n * δ < |e₀|) ∧
    (|e₀| ≤ 15 + (maxAttempts - 1) * δ → ok = true)

theorem SteeredOver.converges {maxAttempts : ℕ} {l : List Event} {ok : Bool}
    (h : SteeredOver maxAttempts l ok) (hpos : 0 < maxAttempts) : Converges maxAttempts l ok := by
  cases ok with
  | true =>
      rw [SteeredOver, if_pos rfl] at h
      obtain ⟨e, l', herrors, hl', htaps⟩ := h
      refine ⟨_, List.getLast?_eq_some_getLast (by simp [herrors]), fun δ hchain => ?_⟩
      rw [herrors] at hchain
      obtain ⟨hside, hcount, hbound⟩ := hl'.one_way hchain.of_cons
      rw [htaps, htaps]
      refine ⟨hside, fun n hn => ?_, fun _ => rfl⟩
      have hlen : (errors l').length = n + 1 := hcount.symm.trans hn
      have hlast : (errors l').getLast? = (errors l).getLast? := by
        rw [herrors, List.getLast?_cons_of_ne_nil (List.ne_nil_of_length_eq_add_one hlen)]
      have hfirst := hbound _ (hlast.trans (List.getLast?_eq_some_getLast (by simp [herrors])))
      rw [hlen] at hfirst
      push_cast at hfirst
      rwa [add_sub_cancel_right] at hfirst
  | false =>
      rw [SteeredOver, if_neg (by simp)] at h
      obtain ⟨hl, hlen⟩ := h
      have hne : errors l ≠ [] := List.ne_nil_of_length_pos (by omega)
      refine ⟨_, List.getLast?_eq_some_getLast hne, fun δ hchain => ?_⟩
      obtain ⟨hside, hcount, hbound⟩ := hl.one_way hchain
      have hfirst := hbound _ (List.getLast?_eq_some_getLast hne)
      refine ⟨hside, fun n hn => ?_, fun hnear => ?_⟩
      · rw [hcount.symm.trans hn] at hfirst
        push_cast at hfirst
        rwa [add_sub_cancel_right] at hfirst
      · rw [hlen] at hfirst
        exact absurd hfirst hnear.not_gt

/-- A call of `SpecialCenterColorWithCamera` that no stop reaches never has to take a tap back, as
long as the taps are short enough, and succeeds in time if they are not too short. -/
theorem centering_converges (passes : ℕ) (node : Node) (r : Ctx) (s₀ : St) :
    (∀ ok s, (Wagon.specialCenterColorWithCamera passes node).run r s₀ = (.ok ok, s) →
      s.running = true → ∃ l, s.acts = l ++ s₀.acts ∧ Converges 40 l ok) ∧
    (∀ result s, (Alien.specialCenterColorWithCamera passes node).run r s₀ = (.ok result, s) →
      s.running = true → ∃ l, s.acts = l ++ s₀.acts ∧ Converges 80 l result.ok) := by
  constructor
  · have hwagon : wp (Wagon.specialCenterColorWithCamera passes node)
        (fun ok s => s.running = true → ∃ l, s.acts = l ++ s₀.acts ∧ SteeredOver 40 l ok)
        (fun _ _ => True) r s₀ := by
      rw [Wagon.specialCenterColorWithCamera, wp_bind]
      exact wp_imp (wp_centerColor_steered .wagonMove node passes r s₀) fun _ _ h => (wp_pure _).2 h
    intro ok s hrun hrunning
    obtain ⟨l, hl, hover⟩ := (wp_iff_run.1 hwagon).1 ok s hrun hrunning
    exact ⟨l, hl, hover.converges (by decide)⟩
  · intro result s hrun hrunning
    have halien := wp_centerColor_steered .alienWagonMove node passes r s₀
    obtain ⟨l, hl, hover⟩ := (wp_iff_run.1 halien).1 result s hrun hrunning
    exact ⟨l, hl, hover.converges (Nat.succ_pos 79)⟩

/-- A colour that moves to the left while the scripts look for it. -/
def driftingColor : Ctx :=
  { env := { Env.idle with pixelSearch := fun n _ => .hit (440 - n) 300 } }

abbrev driftingRun : Except (Abort Err) Bool × St :=
  (Wagon.specialCenterColorWithCamera 10 sampleNode).run driftingColor { running := true }

theorem drifting_color_is_centered :
    errors driftingRun.2.acts = [7, 23, 36] ∧ taps .right driftingRun.2.acts = 2 ∧
      taps .left driftingRun.2.acts = 0 := by
  have herrors : errors driftingRun.2.acts = [7, 23, 36] := by decide +kernel
  have hright : taps .right driftingRun.2.acts = 2 := by decide +kernel
  have hresponds : (errors driftingRun.2.acts).IsChain (Corrects 13 30) := by
    rw [herrors, List.isChain_cons_cons, List.isChain_cons_cons]
    exact ⟨⟨16, by norm_num⟩, ⟨13, by norm_num⟩, List.isChain_singleton _⟩
  obtain ⟨l, hl, e₀, -, hconv⟩ := (centering_converges 10 sampleNode driftingColor
    { running := true }).1 true driftingRun.2 (Prod.ext (by decide +kernel) rfl) (by decide +kernel)
  obtain rfl : driftingRun.2.acts = l := hl.trans (List.append_nil l)
  refine ⟨herrors, hright, (hconv 13 hresponds).1.resolve_left ?_⟩
  rw [hright]
  exact two_ne_zero

end WagonMove
