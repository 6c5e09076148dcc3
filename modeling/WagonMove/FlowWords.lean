import WagonMove.CenterTaps
import WagonMove.Emits

/-!
# The words of the flows

What a flow sends when no stop reaches it, as a language over the acts: each part of the flow speaks
the words of its own language, and a part that is broken off has begun one of them. The nested
searches and the centring contribute words of any number of passes.
-/

namespace WagonMove

open Prog

/-! ## Speaking -/

/-- The acts so far, the oldest first, as long as the script has not been stopped. -/
def tape : Tape St Event := ⟨fun s => s.running = true, fun s => s.acts.reverse⟩

/-- What has been sent of a word of `L` when a part ends early: a search may end it by its timeout,
and errors are raised only for want of the window. -/
def begun (env : Env) (L : Language Event) : Abort Err → Language Event
  | .closed | .starved => L.prefixes
  | .thrown _ => {w | ¬WindowPresent env ∧ w ∈ L.prefixes}
  | .exited code => {w | code = 1 ∧ w ∈ L.prefixes * {timeoutActs.reverse}}

/-- `x` sends words of `M`, in particular one of `L a` if it returns `a`. -/
structure Speaks {α : Type} (env : Env) (L : α → Language Event) (M : Language Event) (x : Ahk α) :
    Prop where
  nonempty : ∃ w, w ∈ M
  emits : Emits (fun r => r.env = env) tape L (begun env M) x

def ifOk (L : Language Event) (ok : Bool) : Language Event := if ok then L else 0

section Begun

variable {env : Env} {K L : Language Event}

theorem begun_mono (h : K.prefixes ≤ L.prefixes) (e : Abort Err) :
    begun env K e ≤ begun env L e := by
  cases e with
  | closed | starved => exact h
  | thrown err => exact fun w hw => ⟨hw.1, h hw.2⟩
  | exited code => exact fun w hw => ⟨hw.1, mul_le_mul' h le_rfl hw.2⟩

theorem begun_le_mul (hL : ∃ w, w ∈ L) (e : Abort Err) : begun env K e ≤ begun env (K * L) e :=
  begun_mono (Language.prefixes_le_mul hL) e

theorem mul_begun_le (K L : Language Event) (e : Abort Err) :
    K * begun env L e ≤ begun env (K * L) e := by
  have hprefixes := Language.mul_prefixes_le K L
  cases e with
  | closed | starved => exact hprefixes
  | thrown err =>
      intro w hw
      obtain ⟨u, hu, v, hv, rfl⟩ := Language.mem_mul.1 hw
      exact ⟨hv.1, hprefixes (Language.append_mem_mul hu hv.2)⟩
  | exited code =>
      intro w hw
      obtain ⟨u, hu, v, ⟨hcode, hv⟩, rfl⟩ := Language.mem_mul.1 hw
      refine ⟨hcode, mul_le_mul' hprefixes le_rfl ?_⟩
      rw [mul_assoc]
      exact Language.append_mem_mul hu hv

end Begun

section Added

variable {s s' : St} {l : List Event}

theorem added_iff {L : Language Event} : tape.Added L s s' ↔ (s'.running = true →
    s.running = true ∧ ∃ l, l.reverse ∈ L ∧ s'.acts = l ++ s.acts) := by
  have hword (w : List Event) :
      s'.acts.reverse = s.acts.reverse ++ w ↔ s'.acts = w.reverse ++ s.acts := by
    rw [← List.reverse_inj, List.reverse_append, List.reverse_reverse, List.reverse_reverse]
  constructor
  · intro h hrun
    obtain ⟨hs, w, hw, heq⟩ := h hrun
    exact ⟨hs, w.reverse, by rwa [List.reverse_reverse], (hword w).1 heq⟩
  · intro h hrun
    obtain ⟨hs, l, hl, heq⟩ := h hrun
    exact ⟨hs, l.reverse, hl, (hword _).2 (by rwa [List.reverse_reverse])⟩

theorem Sent.added {L : Language Event} (h : Sent s l s') (hl : l.reverse ∈ L) :
    tape.Added L s s' := added_iff.2 fun hrun => ⟨(h hrun).1, l, hl, (h hrun).2⟩

theorem added_of_stopped {L : Language Event} (h : s'.running = false) : tape.Added L s s' :=
  Tape.Added.of_dead fun hrun : s'.running = true => absurd (h.symm.trans hrun) Bool.false_ne_true

/-- What was cut short is the beginning of a word. -/
theorem Cut.added {env : Env} {L : Language Event} {e : Abort Err} (h : Cut env s [] l e s')
    (hl : l.reverse ∈ L) : tape.Added (begun env L e) s s' := by
  refine added_iff.2 fun hrun => ?_
  obtain ⟨hbroken, l', hsuffix, hsent⟩ := h hrun
  rw [List.append_nil] at hsent
  have hprefix : l'.reverse ∈ L.prefixes := ⟨l.reverse, hl, List.reverse_prefix.2 hsuffix⟩
  refine ⟨(hsent hrun).1, l', ?_, (hsent hrun).2⟩
  cases e with
  | closed => exact hprefix
  | thrown err => exact ⟨hbroken, hprefix⟩
  | exited code | starved => exact hbroken.elim

end Added

namespace Speaks

variable {α β : Type} {env : Env} {M N : Language Event} {x : Ahk α}

theorem of_performs {l : List Event} (hx : Performs env l x) :
    Speaks env (fun _ => {l.reverse}) {l.reverse} x where
  nonempty := ⟨l.reverse, rfl⟩
  emits r hr s := by
    refine wp_mono (hx s [] r hr s (.refl s)) (fun _ s' h => ?_) fun e s' h => h.added rfl
    rw [List.append_nil] at h
    exact h.added rfl

theorem silent (hx : Performs env [] x) : Speaks env (fun _ => 1) 1 x := of_performs hx

theorem calm (hx : IsCalm x) : Speaks env (fun _ => 1) 1 x := silent (.calm hx)

/-- What follows may depend on the value: all that `x` begins and all that `f` ends is in `W`. -/
theorem bindValue {f : α → Ahk β} {L : α → Language Event} {K : α → β → Language Event}
    {O : α → Language Event} {L' : β → Language Event} {W : Language Event}
    (hx : Emits (fun r => r.env = env) tape L (begun env M) x)
    (hf : ∀ a, Emits (fun r => r.env = env) tape (K a) (begun env (O a)) (f a))
    (hL : ∀ a b, L a * K a b ≤ L' b) (hM : M.prefixes ≤ W.prefixes) (hO : ∀ a, L a * O a ≤ W) :
    Emits (fun r => r.env = env) tape L' (begun env W) (x >>= f) :=
  hx.bind hf hL (begun_mono hM) fun a e =>
    (mul_begun_le (L a) (O a) e).trans (begun_mono (Language.prefixes_mono (hO a)) e)

theorem bind {f : α → Ahk β} {L : β → Language Event} (hx : Speaks env (fun _ => M) M x)
    (hf : ∀ a, Speaks env L N (f a)) (hN : ∃ w, w ∈ N) :
    Speaks env (fun b => M * L b) (M * N) (x >>= f) where
  nonempty := Language.exists_mem_mul hx.nonempty hN
  emits := hx.emits.bind (fun a => (hf a).emits) (fun _ _ => le_rfl) (begun_le_mul hN)
    fun _ => mul_begun_le M N

/-- Something without acts comes first. -/
theorem after {f : α → Ahk β} {L : β → Language Event} (hx : Speaks env (fun _ => 1) 1 x)
    (hf : ∀ a, Speaks env L N (f a)) (hN : ∃ w, w ∈ N) : Speaks env L N (x >>= f) := by
  simpa only [one_mul] using hx.bind hf hN

/-- A fixed value is returned at the end. -/
theorem value (hx : Speaks env (fun _ => M) M x) (b : β) :
    Speaks env (fun b' => {w | w ∈ M ∧ b' = b}) M (x >>= fun _ => pure b) where
  nonempty := hx.nonempty
  emits := by
    refine Emits.bind (K := fun _ b' => {w | w = [] ∧ b' = b}) (O := fun _ _ => 0) hx.emits
      (fun _ => .pure fun w hw => ⟨hw, rfl⟩) (fun _ b' => ?_) (fun _ => le_rfl) fun _ e => ?_
    · intro w hw
      obtain ⟨u, hu, _, ⟨rfl, rfl⟩, rfl⟩ := Language.mem_mul.1 hw
      exact ⟨(List.append_nil u).symm ▸ hu, rfl⟩
    · exact (mul_zero M).le.trans bot_le

end Speaks

/-! ## Searches -/

/-- A search that finds the colour at `p` after any number of misses. -/
def foundAt (f : ScriptFile) (p : ℤ × ℤ) : Language Event :=
  {w | ∃ m, w = (schedule f m).reverse ++ [.searched (some p)]}

def seek (f : ScriptFile) : Language Event := {w | ∃ p, w ∈ foundAt f p}

/-- Nothing is said about a search that returns empty-handed: only a stop makes it do that. -/
def ifFound (L : ℤ × ℤ → Language Event) (hit : Option (ℤ × ℤ)) : Language Event := hit.elim 0 L

theorem mem_seek (f : ScriptFile) (m : ℕ) (p : ℤ × ℤ) :
    (schedule f m).reverse ++ [.searched (some p)] ∈ seek f := ⟨p, m, rfl⟩

section Search

variable {env : Env} {f : ScriptFile}

theorem schedule_mem_prefixes (f : ScriptFile) (m : ℕ) :
    (schedule f m).reverse ∈ (seek f).prefixes :=
  ⟨_, mem_seek f m (0, 0), List.prefix_append _ _⟩

theorem speaks_search (f : ScriptFile) (passes : ℕ) (node : Node) :
    Speaks env (ifFound (foundAt f)) (seek f) (search f passes node) where
  nonempty := ⟨_, mem_seek f 0 (0, 0)⟩
  emits := by
    rintro r rfl s
    refine wp_mono (wp_search f node passes r s) (fun hit s' h => ?_) fun e s' h => ?_
    · cases hit with
      | none => exact added_of_stopped h
      | some p =>
          obtain ⟨m, hsent⟩ := h
          exact hsent.added ⟨m, by rw [List.reverse_cons]⟩
    · obtain ⟨m, hcut⟩ | ⟨rfl, m, -, -, -, -, hsent⟩ | ⟨rfl, hsent⟩ := h
      · have hscheduled : tape.Added (begun r.env {(schedule f m).reverse} e) s s' := hcut.added rfl
        refine hscheduled.mono (begun_mono ?_ e)
        rintro w ⟨_, rfl, hw⟩
        obtain ⟨v, hv, hprefix⟩ := schedule_mem_prefixes f m
        exact ⟨v, hv, hw.trans hprefix⟩
      · refine hsent.added ⟨rfl, ?_⟩
        rw [List.reverse_append]
        exact Language.append_mem_mul (schedule_mem_prefixes f m) rfl
      · exact hsent.added (schedule_mem_prefixes f passes)

end Search

/-! ## The centring -/

/-- The colour is seen at `p`, at once or after a search for it. -/
def located (f : ScriptFile) (p : ℤ × ℤ) : Language Event := {w | Seen f p w.reverse}

def locating (f : ScriptFile) : Language Event := {w | ∃ p, w ∈ located f p}

/-- A pass that finds the colour in the middle. -/
def settling (f : ScriptFile) : Language Event :=
  {w | ∃ fx fy rect look, look ∈ located f (fx, fy) ∧ |centerError fx rect| ≤ centerTolX ∧
    w = look ++ [.aimed fx rect]}

/-- A pass that taps once towards the colour. -/
def tapping (f : ScriptFile) : Language Event :=
  {w | ∃ fx fy rect look k, look ∈ located f (fx, fy) ∧ Towards k fx rect ∧
    w = look ++ [.aimed fx rect, .key (.down k), .key (.up k)]}

def centre (f : ScriptFile) (attempts : ℕ) : Language Event :=
  Language.rounds (settling f) (tapping f) 1 attempts

section Center

variable {env : Env} {f : ScriptFile} {node : Node} {passes : ℕ}

theorem mem_located_searched (f : ScriptFile) (p : ℤ × ℤ) : [.searched (some p)] ∈ located f p :=
  .inl rfl

theorem searched_mul_foundAt_le (f : ScriptFile) (p : ℤ × ℤ) :
    {[.searched none]} * foundAt f p ≤ located f p := by
  intro w hw
  obtain ⟨_, rfl, _, ⟨m, rfl⟩, rfl⟩ := Language.mem_mul.1 hw
  exact .inr ⟨m, by simp⟩

theorem speaks_find (f : ScriptFile) (node : Node) :
    Emits (fun r => r.env = env) tape (fun hit => {[.searched hit]}) (begun env 1)
      (findTargetColor f node) := by
  intro r hr s
  refine wp_mono (leads_find f node s [] r hr s (.refl s)) (fun hit s' h => h.added rfl)
    fun e s' h => h.added rfl

theorem speaks_locate (f : ScriptFile) (node : Node) (passes : ℕ) :
    Speaks env (ifFound (located f)) (locating f) (centering f passes node).locate := by
  have hnonempty : ∃ w, w ∈ locating f := ⟨_, (0, 0), mem_located_searched f (0, 0)⟩
  have hlost : {[.searched none]} * seek f ≤ locating f := by
    intro w hw
    obtain ⟨u, hu, v, ⟨p, hv⟩, rfl⟩ := Language.mem_mul.1 hw
    exact ⟨p, searched_mul_foundAt_le f p (Language.append_mem_mul hu hv)⟩
  let K (hit hit' : Option (ℤ × ℤ)) : Language Event :=
    hit.elim (ifFound (foundAt f) hit') fun p => {w | w = [] ∧ hit' = some p}
  let O (hit : Option (ℤ × ℤ)) : Language Event := hit.elim (seek f) fun _ => 1
  refine ⟨hnonempty, ?_⟩
  unfold Centering.locate
  rw [centering_find, centering_search]
  refine Speaks.bindValue (K := K) (O := O) (speaks_find f node) (fun hit => ?_)
    (fun hit hit' => ?_) (Language.prefixes_one_le hnonempty) fun hit => ?_
  · cases hit with
    | some p => exact .pure fun w hw => ⟨hw, rfl⟩
    | none =>
        have hsearch : Speaks env (ifFound (foundAt f)) (seek f) (search f passes node) :=
          speaks_search f passes node
        exact (Speaks.after (.calm (calm_setStatus _)) (fun _ => hsearch) hsearch.nonempty).emits
  · cases hit with
    | some p =>
        intro w hw
        obtain ⟨_, rfl, _, ⟨rfl, rfl⟩, rfl⟩ := Language.mem_mul.1 hw
        exact mem_located_searched f p
    | none =>
        cases hit' with
        | some p => exact searched_mul_foundAt_le f p
        | none => exact (mul_zero _).le
  · cases hit with
    | some p =>
        intro w hw
        obtain ⟨_, rfl, _, rfl, rfl⟩ := Language.mem_mul.1 hw
        exact ⟨p, mem_located_searched f p⟩
    | none => exact hlost

/-- What the comparison of a position with the middle leads to. -/
def aimWords (fx : ℤ) : Turn CenterResult Totals → Language Event :=
  Emits.onTurn (fun _ => {w | ∃ rect, |centerError fx rect| ≤ centerTolX ∧ w = [.aimed fx rect]})
    {w | ∃ rect k, Towards k fx rect ∧ w = [.aimed fx rect, .key (.down k), .key (.up k)]}

def aiming (fx : ℤ) : Language Event := {w | ∃ t, w ∈ aimWords fx t}

theorem exists_aimWords (fx : ℤ) (rect : Rect) : ∃ v, .aimed fx rect :: v ∈ aiming fx := by
  by_cases hclose : |centerError fx rect| ≤ centerTolX
  · exact ⟨[], .leave { ok := true }, rect, hclose, rfl⟩
  · exact ⟨_, .again {}, rect, _, towards_centerKey hclose, rfl⟩

theorem exists_aiming (fx : ℤ) : ∃ w, w ∈ aiming fx := by
  obtain ⟨v, hv⟩ := exists_aimWords fx ⟨0, 0, 0, 0⟩
  exact ⟨_, hv⟩

theorem speaks_aim (c : Centering) (totals : Totals) (fx : ℤ) (rect : Rect) :
    Emits (fun r => r.env = env) tape (aimWords fx) (begun env (aiming fx))
      (c.aim totals fx rect) := by
  let key := centerKey (centerError fx rect)
  let tap : Language Event := {[.key (.down key), .key (.up key)]}
  let K : Turn CenterResult Totals → Language Event := Emits.onTurn
    (fun _ => {w | |centerError fx rect| ≤ centerTolX ∧ w = []})
    {w | ¬|centerError fx rect| ≤ centerTolX ∧ w ∈ tap}
  let O : Language Event := if |centerError fx rect| ≤ centerTolX then 1 else tap
  have hlog : Speaks env (fun _ => {[.aimed fx rect]}) {[.aimed fx rect]} (log (.aimed fx rect)) :=
    .of_performs (.log rfl)
  have hstatus (text : String) : Speaks env (fun _ => 1) 1 (setStatus text) :=
    .calm (calm_setStatus text)
  refine Speaks.bindValue (K := fun _ => K) (O := fun _ => O) hlog.emits (fun _ => ?_)
    (fun _ t => ?_) ?_ fun _ => ?_
  · refine .ite (fun hclose => ?_) fun hoff => ?_
    · have hleave := (hstatus (c.doneText (centerError fx rect) totals)).value
        (Turn.leave (γ := Totals) totals.centered)
      refine hleave.emits.mono (fun t w hw => ?_) fun e => ?_
      · obtain ⟨rfl, rfl⟩ := hw
        exact ⟨hclose, rfl⟩
      · exact begun_mono (Language.prefixes_mono (if_pos hclose).ge) e
    · have htap : Speaks env (fun _ => tap) tap (specialTapKey key centerPulseMs) :=
        .of_performs (performs_specialTapKey key _)
      have hsleep : Speaks env (fun _ => 1) 1 (sleep .centerPause c.pauseMs) :=
        .silent (.sleep _ _)
      have hagain := (hstatus (c.tapText (centerError fx rect) key)).after (fun _ =>
        htap.bind (fun _ => hsleep.value (Turn.again (β := CenterResult) (totals.add key)))
          ⟨_, rfl⟩) ⟨_, Language.append_mem_mul rfl rfl⟩
      refine hagain.emits.mono (fun t w hw => ?_) fun e => ?_
      · obtain ⟨u, hu, _, ⟨rfl, rfl⟩, rfl⟩ := Language.mem_mul.1 hw
        exact ⟨hoff, (List.append_nil u).symm ▸ hu⟩
      · refine begun_mono (Language.prefixes_mono ?_) e
        rw [mul_one]
        exact (if_neg hoff).ge
  · intro w hw
    obtain ⟨_, rfl, v, hv, rfl⟩ := Language.mem_mul.1 hw
    cases t with
    | leave result =>
        obtain ⟨hclose, rfl⟩ := hv
        exact ⟨rect, hclose, rfl⟩
    | again totals' =>
        obtain ⟨hoff, rfl⟩ := hv
        exact ⟨rect, key, towards_centerKey hoff, rfl⟩
  · obtain ⟨v, hv⟩ := exists_aimWords fx rect
    rintro w ⟨_, rfl, hw⟩
    exact ⟨_, hv, hw.trans ⟨v, rfl⟩⟩
  · intro w hw
    obtain ⟨_, rfl, v, hv, rfl⟩ := Language.mem_mul.1 hw
    by_cases hclose : |centerError fx rect| ≤ centerTolX
    · have hO : O = 1 := if_pos hclose
      obtain rfl : v = [] := by rwa [hO] at hv
      exact ⟨.leave { ok := true }, rect, hclose, rfl⟩
    · have hO : O = tap := if_neg hclose
      obtain rfl : v = [.key (.down key), .key (.up key)] := by rwa [hO] at hv
      exact ⟨.again {}, rect, key, towards_centerKey hclose, rfl⟩

theorem checked {α : Type} {L : α → Language Event} {P : Abort Err → Language Event} {a : α}
    {x : Ahk α} (hx : Emits (fun r => r.env = env) tape L P x) :
    Emits (fun r => r.env = env) tape L P (do if ← specialCheckStop false then pure a else x) := by
  intro r hr s
  rw [wp_bind]
  by_cases hrun : s.running = true
  · rw [wp_specialCheckStop_of_running hrun, if_neg Bool.false_ne_true]
    exact hx r hr s
  · apply wp_imp (wp_specialCheckStop_of_stopped (Bool.eq_false_iff.2 hrun))
    intro stop s' hcheck
    rw [hcheck.1, if_pos rfl, wp_pure]
    exact added_of_stopped hcheck.2

theorem located_mul_aimWords_le (f : ScriptFile) (p : ℤ × ℤ) (t : Turn CenterResult Totals) :
    located f p * aimWords p.1 t ≤ Emits.onTurn (fun _ => settling f) (tapping f) t := by
  intro w hw
  obtain ⟨look, hlook, v, hv, rfl⟩ := Language.mem_mul.1 hw
  cases t with
  | leave result =>
      obtain ⟨rect, hclose, rfl⟩ := hv
      exact ⟨p.1, p.2, rect, look, hlook, hclose, rfl⟩
  | again totals =>
      obtain ⟨rect, k, hk, rfl⟩ := hv
      exact ⟨p.1, p.2, rect, look, k, hlook, hk, rfl⟩

theorem onTurn_le (L K : Language Event) (t : Turn CenterResult Totals) :
    Emits.onTurn (fun _ => L) K t ≤ L + K := by
  cases t with
  | leave result => exact le_sup_left
  | again totals => exact le_sup_right

theorem speaks_centerPass (f : ScriptFile) (node : Node) (passes : ℕ) (totals : Totals) :
    Emits (fun r => r.env = env) tape (Emits.onTurn (fun _ => settling f) (tapping f))
      (begun env (settling f + tapping f)) (centerPass (centering f passes node) totals) := by
  let K (hit : Option (ℤ × ℤ)) : Turn CenterResult Totals → Language Event :=
    hit.elim (fun _ => 1) fun p => aimWords p.1
  let O (hit : Option (ℤ × ℤ)) : Language Event := hit.elim 1 fun p => aiming p.1
  refine checked (Speaks.bindValue (K := K) (O := O) (speaks_locate f node passes).emits
    (fun hit => ?_) (fun hit t => ?_) ?_ fun hit => ?_)
  · cases hit with
    | none => exact .pure le_rfl
    | some p =>
        have hmarker : Speaks env (fun _ => 1) 1
            (showSpecialMarker (centering f passes node).file p.1 p.2) :=
          .calm (calm_showSpecialMarker _ _ _)
        have hrect : Speaks env (fun _ => 1) 1 clientRectOrScreen :=
          .calm (asked_clientRectOrScreen.mono fun _ _ => Asked.quiet)
        have haim (rect : Rect) : Speaks env (aimWords p.1) (aiming p.1)
            ((centering f passes node).aim totals p.1 rect) :=
          ⟨exists_aiming p.1, speaks_aim _ totals p.1 rect⟩
        exact (hmarker.after (fun _ => hrect.after haim (exists_aiming p.1))
          (exists_aiming p.1)).emits
  · cases hit with
    | none => exact (zero_mul _).le.trans bot_le
    | some p => exact located_mul_aimWords_le f p t
  · rintro w ⟨look, ⟨p, hlook⟩, hw⟩
    obtain ⟨v, t, hv⟩ := exists_aiming p.1
    have hword : look ++ v ∈ located f p * aimWords p.1 t := Language.append_mem_mul hlook hv
    have hround := onTurn_le _ _ t (located_mul_aimWords_le f p t hword)
    exact ⟨_, hround, hw.trans (List.prefix_append look v)⟩
  · cases hit with
    | none => exact (zero_mul _).le.trans bot_le
    | some p =>
        intro w hw
        obtain ⟨look, hlook, v, ⟨t, hv⟩, rfl⟩ := Language.mem_mul.1 hw
        have hword : look ++ v ∈ located f p * aimWords p.1 t := Language.append_mem_mul hlook hv
        exact onTurn_le _ _ t (located_mul_aimWords_le f p t hword)

theorem exists_settling (f : ScriptFile) : ∃ w, w ∈ settling f :=
  ⟨_, 0, 0, ⟨0, 0, 0, 0⟩, _, mem_located_searched f (0, 0), by norm_num [centerError, centerTolX],
    rfl⟩

theorem exists_centre (f : ScriptFile) (attempts : ℕ) : ∃ w, w ∈ centre f attempts :=
  Language.exists_mem_rounds (exists_settling f) ⟨[], Language.nil_mem_one⟩ attempts

theorem speaks_centerColor (f : ScriptFile) (node : Node) (passes : ℕ) :
    Speaks env (fun _ => centre f (centering f passes node).maxAttempts)
      (centre f (centering f passes node).maxAttempts) (centerColor (centering f passes node)) where
  nonempty := exists_centre f _
  emits := by
    have hlast (totals : Totals) : Speaks env (fun _ => 1) 1 (do
        setStatus ((centering f passes node).timeoutText totals)
        pure totals.exhausted) :=
      .silent (.after (.calm (calm_setStatus _)) fun _ => .pure _)
    refine Emits.loop (O := fun n => begun env (centre f n)) (speaks_centerPass f node passes)
      (fun totals => (hlast totals).emits) (fun n e => begun_mono ?_ e) (fun n e => ?_) _ _
    · rintro w ⟨v, hv, hw⟩
      obtain hv | hv := hv
      · exact ⟨v, .inl hv, hw⟩
      · obtain ⟨u, hu⟩ := exists_centre f n
        exact ⟨v ++ u, .inr (Language.append_mem_mul hv hu), hw.trans (List.prefix_append v u)⟩
    · exact (mul_begun_le _ _ e).trans (begun_mono (Language.prefixes_mono le_sup_right) e)

end Center

end WagonMove
