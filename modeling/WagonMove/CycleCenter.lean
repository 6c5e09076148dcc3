import WagonMove.CenterSteering

/-!
# The quick centring

`alien_wagon_move.ahk` keeps a second centring, which its flow does not call any more. It gives up
as soon as a check does not see the colour, where the other one searches for it, and after the last
correction it reports success without another look.
-/

namespace WagonMove

open Prog Steering

namespace Alien

/-- A check whose result is kept in the trace. -/
def checkColor (node : Node) : Ahk (Option (ℤ × ℤ)) := do
  let hit ← specialCheckColorVisible node
  log (.searched hit)
  pure hit

def cycleLost : Ahk Unit :=
  setStatus "Alien Wagon: cor não visível na tela — encerrando ciclo."

def cycleAim (fx : ℤ) (r : Rect) : Ahk (Turn Bool Unit) := do
  log (.aimed fx r)
  let errX := centerError fx r
  if |errX| ≤ centerTolX then
    setStatus ("Alien Wagon: centralizado X (rápido). errX=" ++ toString (round errX))
    pure (.leave true)
  else
    let keyX := centerKey errX
    setStatus ("Alien Wagon: centralizando (rápido) X errX=" ++ toString (round errX) ++
      ", tap " ++ keyX.text ++ ".")
    specialTapKey keyX centerPulseMs
    sleep .centerPause 60
    pure (.again ())

def cyclePass (node : Node) : Ahk (Turn Bool Unit) := do
  if ← specialCheckStop false then pure (.leave false)
  else
    match ← checkColor node with
    | none =>
      cycleLost
      pure (.leave false)
    | some (fx, fy) =>
      showSpecialMarker .alienWagonMove fx fy
      let r ← clientRectOrScreen
      cycleAim fx r

def specialCycleCenter (node : Node) (maxCorrections : ℕ := 5) : Ahk Bool := do
  match ← checkColor node with
  | none =>
    cycleLost
    pure false
  | some _ =>
    loop (fun _ => cyclePass node)
      (fun _ => do
        setStatus "Alien Wagon: limite de correções X atingido — prosseguindo."
        pure true)
      maxCorrections ()

end Alien

/-! ## The acts of a call -/

/-- The acts up to the end of the `n`-th correction, each of which answers a check. -/
inductive Corrections : ℕ → List Event → Prop
  | first (p : ℤ × ℤ) : Corrections 0 [.searched (some p)]
  | tap {n : ℕ} {l : List Event} {k : Key} {fx : ℤ} {rect : Rect} (fy : ℤ) :
      Corrections n l → Towards k fx rect →
        Corrections (n + 1) (tapActs k fx rect [.searched (some (fx, fy))] ++ l)

/-- How a call ends that returns its verdict. -/
inductive CycleEnd (maxCorrections : ℕ) : List Event → Bool → Prop
  | unseen : CycleEnd maxCorrections [.searched none] false
  | lost {n : ℕ} {l : List Event} :
      n < maxCorrections → Corrections n l → CycleEnd maxCorrections (.searched none :: l) false
  | centered {n : ℕ} {l : List Event} {fx : ℤ} {rect : Rect} (fy : ℤ) :
      n < maxCorrections → Corrections n l → |centerError fx rect| ≤ centerTolX →
        CycleEnd maxCorrections (.aimed fx rect :: .searched (some (fx, fy)) :: l) true
  | exhausted {l : List Event} : Corrections maxCorrections l → CycleEnd maxCorrections l true

/-- A call of `maxCorrections` corrections at most is on its way, or has been broken off. -/
def Correcting (maxCorrections : ℕ) (s₀ s : St) : Prop :=
  s.running = true → ∃ n l l', n ≤ maxCorrections ∧ Corrections n l' ∧ l <:+ l' ∧
    s.acts = l ++ s₀.acts

section Passes

variable {node : Node} {env : Env} {s₀ : St} {n maxCorrections : ℕ} {l : List Event}

theorem Correcting.of_cut {b : List Event} (hn : n ≤ maxCorrections) (hb : Corrections n (b ++ l))
    {e : Abort Err} {s : St} (h : Cut env s₀ l b e s) : Correcting maxCorrections s₀ s := by
  intro hrun
  obtain ⟨-, l', ⟨k, hk⟩, hsent⟩ := h hrun
  exact ⟨n, l' ++ l, b ++ l, hn, hb, ⟨k, by rw [← List.append_assoc, hk]⟩, (hsent hrun).2⟩

theorem leads_checkColor (node : Node) (s₀ : St) (l₀ : List Event) :
    Leads (fun r => r.env = env) (Sent s₀ l₀) (fun hit => Sent s₀ (.searched hit :: l₀))
      (Cut env s₀ l₀ []) (Alien.checkColor node) := by
  refine (leads_screenRead node (fun t => looked_searchBoth _ _ _ _ t) (fun _ _ => Sent.read)
    (fun _ _ => Sent.read) (Performs.sleep _ _ s₀ l₀)).bind fun hit => ?_
  intro r _ s hs
  rw [wp_bind, wp_log, wp_pure]
  exact hs.record rfl

/-- What a pass leads to after `n` corrections: the end of the call, or one correction more. -/
def CycleTurn (maxCorrections n : ℕ) (s₀ : St) : Turn Bool Unit → St → Prop
  | .leave ok, s => s.running = true → ∃ l, CycleEnd maxCorrections l ok ∧ Sent s₀ l s
  | .again _, s => ∃ l, Corrections (n + 1) l ∧ Sent s₀ l s

theorem leads_cycleAim (hn : n < maxCorrections) (hl : Corrections n l) (fx fy : ℤ) (rect : Rect) :
    Leads (fun r => r.env = env) (Sent s₀ (.searched (some (fx, fy)) :: l))
      (CycleTurn maxCorrections n s₀) (fun _ => Correcting maxCorrections s₀)
      (Alien.cycleAim fx rect) := by
  have hlog : Leads (fun r => r.env = env) (Sent s₀ (.searched (some (fx, fy)) :: l))
      (fun _ => Sent s₀ (.aimed fx rect :: .searched (some (fx, fy)) :: l))
      (fun _ => Correcting maxCorrections s₀) (log (.aimed fx rect)) :=
    fun _ _ _ hs => (wp_log _).2 (hs.record rfl)
  refine hlog.bind fun _ => .ite (fun hclose => ?_) fun hoff => ?_
  · exact (leads_calm (calm_setStatus _)).bind fun _ =>
      .pure fun s hs _ => ⟨_, .centered fy hn hl hclose, hs⟩
  · have hk := towards_centerKey hoff
    have hl' := hl.tap fy hk
    have htap : Performs env _ (specialTapKey (centerKey (centerError fx rect)) centerPulseMs) :=
      performs_specialTapKey _ _
    have hsleep : Performs env [] (sleep .centerPause 60) := .sleep _ _
    refine (leads_calm (calm_setStatus _)).bind fun _ => ?_
    refine ((htap.leads s₀ l [.aimed fx rect, .searched (some (fx, fy))]
      (List.suffix_refl _)).mono_end fun _ _ => .of_cut hn hl').bind fun _ => ?_
    refine ((hsleep.leads s₀ l (tapActs _ fx rect [.searched (some (fx, fy))])
      (List.suffix_refl _)).mono_end fun _ _ => .of_cut hn hl').bind fun _ => ?_
    exact .pure fun s hs => ⟨_, hl', hs⟩

theorem leads_cyclePass (node : Node) (hn : n < maxCorrections) (hl : Corrections n l) :
    Leads (fun r => r.env = env) (Sent s₀ l) (CycleTurn maxCorrections n s₀)
      (fun _ => Correcting maxCorrections s₀) (Alien.cyclePass node) := by
  refine leads_checked (fun s hstop hrun => absurd (hstop.symm.trans hrun) (by simp)) ?_
  have hcut (e : Abort Err) (s : St) (h : Cut env s₀ l [] e s) : Correcting maxCorrections s₀ s :=
    .of_cut (b := []) hn.le hl h
  refine ((leads_checkColor node s₀ l).mono_end hcut).bind fun hit => ?_
  cases hit with
  | none =>
      exact (leads_calm (calm_setStatus _)).bind fun _ =>
        .pure fun s hs _ => ⟨_, .lost hn hl, hs⟩
  | some p =>
      refine (leads_calm (calm_showSpecialMarker _ _ _)).bind fun _ => ?_
      exact (leads_calm (asked_clientRectOrScreen.mono fun _ _ => Asked.quiet)).bind fun rect =>
        leads_cycleAim hn hl p.1 p.2 rect

theorem wp_specialCycleCenter (node : Node) (maxCorrections : ℕ) (r : Ctx) (s₀ : St) :
    wp (Alien.specialCycleCenter node maxCorrections)
      (fun ok s => s.running = true → ∃ l, CycleEnd maxCorrections l ok ∧ s.acts = l ++ s₀.acts)
      (fun _ => Correcting maxCorrections s₀) r s₀ := by
  rw [Alien.specialCycleCenter, wp_bind]
  refine wp_mono (leads_checkColor node s₀ [] r rfl s₀ (.refl s₀)) (fun hit s hs => ?_)
    fun e s hcut => ?_
  · cases hit with
    | none =>
        rw [Alien.cycleLost, wp_bind]
        refine (calm_setStatus _).wp fun _ s' hq => (wp_pure _).2 fun hrun => ?_
        exact ⟨_, .unseen, (hs.calm hq hrun).2⟩
    | some p =>
        refine wp_loop (fun left _ s => ∃ n l, Corrections n l ∧ Sent s₀ l s ∧
          n + left = maxCorrections) ?_ ?_ _ _ _ ⟨0, _, .first p, hs, Nat.zero_add _⟩
        · rintro left - s ⟨n, l, hl, hsent, hcount⟩
          apply wp_imp (leads_cyclePass node (by omega) hl r rfl s hsent)
          intro t s' ht
          cases t with
          | leave ok =>
              intro hrun
              obtain ⟨l', hend, hsent'⟩ := ht hrun
              exact ⟨l', hend, (hsent' hrun).2⟩
          | again _ =>
              obtain ⟨l', hl', hsent'⟩ := ht
              exact ⟨n + 1, l', hl', hsent', by omega⟩
        · rintro - s ⟨n, l, hl, hsent, hcount⟩
          obtain rfl : n = maxCorrections := hcount
          rw [wp_bind]
          refine (calm_setStatus _).wp fun _ s' hq => (wp_pure _).2 fun hrun => ?_
          exact ⟨l, .exhausted hl, (hsent.calm hq hrun).2⟩
  · intro hrun
    obtain ⟨-, l, hl, hsent⟩ := hcut hrun
    obtain rfl := List.suffix_nil.1 hl
    exact ⟨0, [], _, Nat.zero_le _, .first (0, 0), List.nil_suffix, (hsent hrun).2⟩

end Passes

/-! ## Reading the acts -/

def Event.ofCycle : Event → Prop
  | .searched _ | .aimed _ _ => True
  | .key (.down k) | .key (.up k) => k = .right ∨ k = .left
  | _ => False

def Event.searched? : Event → Option (Option (ℤ × ℤ))
  | .searched hit => some hit
  | _ => none

/-- What the last check has seen. -/
def lastSeen (l : List Event) : Option (ℤ × ℤ) := (l.findSome? Event.searched?).join

section Acts

variable {maxCorrections n : ℕ} {l : List Event}

theorem Corrections.aligned (h : Corrections n l) : Aligned l := by
  induction h with
  | first p => exact (Harmless.single (e := .searched (some p)) id).aligned [] Trace.always_nil
  | tap fy _ hk ih => exact aligned_tapActs (f := .alienWagonMove) (.inl rfl) hk ih

theorem Corrections.count (h : Corrections n l) : taps .right l + taps .left l = n := by
  induction h with
  | first p => rfl
  | tap fy _ hk ih => rw [count_tapActs (f := .alienWagonMove) (.inl rfl) hk, ih]

theorem Corrections.count_after {b : List Event} (h : Corrections n l) (hb : Harmless b) :
    taps .right (b ++ l) + taps .left (b ++ l) = n := by
  rw [hb.taps, hb.taps, h.count]

theorem Corrections.steered (h : Corrections n l) : Steered l ∧ (errors l).length = n := by
  induction h with
  | first p => exact ⟨⟨by simp [errors, Event.error?], rfl, rfl⟩, rfl⟩
  | tap fy _ hk ih =>
      obtain ⟨hsteered, hlen⟩ := ih
      refine ⟨hsteered.tap (f := .alienWagonMove) (.inl rfl) hk, ?_⟩
      rw [errors_tapActs (f := .alienWagonMove) (.inl rfl), List.length_cons, hlen]

theorem Corrections.ofCycle (h : Corrections n l) : ∀ e ∈ l, e.ofCycle := by
  induction h with
  | first p => simp [Event.ofCycle]
  | tap fy _ hk ih =>
      rw [tapActs, List.cons_append, List.cons_append, List.cons_append, List.singleton_append,
        List.forall_mem_cons, List.forall_mem_cons, List.forall_mem_cons, List.forall_mem_cons]
      exact ⟨hk.key_eq, hk.key_eq, trivial, trivial, ih⟩

theorem Corrections.seen (h : Corrections n l) : (lastSeen l).isSome = true := by
  cases h <;> rfl

/-- What a call of the quick centring has done when it is over, if no stop has reached it. -/
structure CycleOver (maxCorrections : ℕ) (l : List Event) (out : Except (Abort Err) Bool) :
    Prop where
  aligned : Aligned l
  bounded : taps .right l + taps .left l ≤ maxCorrections
  ofCycle : ∀ e ∈ l, e.ofCycle
  verdict : ∀ ok, out = .ok ok → ok = (lastSeen l).isSome
  success : out = .ok true → Centered l ∨ taps .right l + taps .left l = maxCorrections ∧
    ∀ δ e₀, (errors l).IsChain (Corrects δ 30) → (errors l).getLast? = some e₀ →
      15 + (maxCorrections - 1) * δ < |e₀|

theorem Corrections.cycleOver {l' : List Event} (h : Corrections n l') (hl : l <:+ l')
    (hn : n ≤ maxCorrections) (e : Abort Err) : CycleOver maxCorrections l (.error e) where
  aligned := h.aligned.suffix hl
  bounded := by
    have hright : taps .right l ≤ taps .right l' := Trace.tally_le_of_suffix hl
    have hleft : taps .left l ≤ taps .left l' := Trace.tally_le_of_suffix hl
    have := h.count
    omega
  ofCycle e he := h.ofCycle e (hl.subset he)
  verdict ok h' := by cases h'
  success h' := by cases h'

theorem CycleEnd.cycleOver {ok : Bool} (h : CycleEnd maxCorrections l ok) :
    CycleOver maxCorrections l (.ok ok) := by
  cases h with
  | unseen =>
      have hsilent : Harmless [.searched none] := .single id
      refine ⟨hsilent.aligned [] Trace.always_nil, Nat.zero_le _, by simp [Event.ofCycle], ?_, ?_⟩
      · rintro ok ⟨⟩
        rfl
      · rintro ⟨⟩
  | lost hn hl =>
      have hsilent : Harmless [.searched none] := .single id
      refine ⟨hsilent.aligned _ hl.aligned, (hl.count_after hsilent).trans_le hn.le, ?_, ?_, ?_⟩
      · exact List.forall_mem_cons.2 ⟨trivial, hl.ofCycle⟩
      · rintro ok ⟨⟩
        rfl
      · rintro ⟨⟩
  | @centered _ _ fx rect fy hn hl hclose =>
      have hsilent : Harmless [.aimed fx rect, .searched (some (fx, fy))] :=
        harmless_aimed (f := .alienWagonMove) rect (.inl rfl)
      refine ⟨hsilent.aligned _ hl.aligned, (hl.count_after hsilent).trans_le hn.le, ?_, ?_, ?_⟩
      · exact List.forall_mem_cons.2 ⟨trivial, List.forall_mem_cons.2 ⟨trivial, hl.ofCycle⟩⟩
      · rintro ok ⟨⟩
        rfl
      · exact fun _ => .inl ⟨fx, fy, rect, _, rfl, hclose⟩
  | exhausted hl =>
      refine ⟨hl.aligned, hl.count.le, hl.ofCycle, ?_, fun _ => .inr ⟨hl.count, ?_⟩⟩
      · rintro ok ⟨⟩
        exact hl.seen.symm
      · intro δ e₀ hchain he₀
        obtain ⟨hsteered, hlen⟩ := hl.steered
        rw [← hlen]
        exact (hsteered.one_way hchain).2.2 e₀ he₀

end Acts

/-- Unless a stop reaches it, a call of `SpecialCycleCenter` sends at most `maxCorrections` taps,
each towards the colour that its check has just seen, and never turns the camera otherwise or
zooms. It returns whether the last check has seen the colour; then the colour is in the middle, or
all corrections are used up, which happens only to a colour that was far off or badly moved. -/
theorem cycle_center_corrects (node : Node) (maxCorrections : ℕ) (r : Ctx) (s₀ : St)
    (out : Except (Abort Err) Bool) (s : St)
    (hrun : (Alien.specialCycleCenter node maxCorrections).run r s₀ = (out, s))
    (hrunning : s.running = true) :
    ∃ l, s.acts = l ++ s₀.acts ∧ CycleOver maxCorrections l out := by
  obtain ⟨hvalue, hend⟩ := wp_iff_run.1 (wp_specialCycleCenter node maxCorrections r s₀)
  cases out with
  | ok ok =>
      obtain ⟨l, hover, hl⟩ := hvalue ok s hrun hrunning
      exact ⟨l, hl, hover.cycleOver⟩
  | error e =>
      obtain ⟨n, l, l', hn, hl', hsuffix, hl⟩ := hend e s hrun hrunning
      exact ⟨l, hl, hl'.cycleOver hsuffix hn e⟩

abbrev shortCycle : Except (Abort Err) Bool × St :=
  (Alien.specialCycleCenter sampleNode 2).run driftingColor { running := true }

/-- Two corrections leave the drifting colour off centre, but the call reports success. -/
theorem short_cycle_succeeds : shortCycle.1 = .ok true ∧ ¬Centered shortCycle.2.acts ∧
    taps .right shortCycle.2.acts + taps .left shortCycle.2.acts = 2 := by
  have hok : shortCycle.1 = .ok true := by decide +kernel
  have hlast : shortCycle.2.acts.head? = some (.key (.up .right)) := by decide +kernel
  have hoff : ¬Centered shortCycle.2.acts := by
    rintro ⟨fx, fy, rect, t, h, -⟩
    rw [h] at hlast
    cases hlast
  obtain ⟨l, hl, hover⟩ := cycle_center_corrects sampleNode 2 driftingColor { running := true } _
    shortCycle.2 (Prod.ext hok rfl) (by decide +kernel)
  obtain rfl : shortCycle.2.acts = l := hl.trans (List.append_nil l)
  exact ⟨hok, hoff, ((hover.success rfl).resolve_left hoff).1⟩

end WagonMove
