import WagonMove.Calm

/-!
# Invariants of search and centring from invariants of their parts

`Kept` lists the parts that search and centring are made of. An invariant that survives each part
survives every run of the code built from them, whatever the environment answers and however often
the loops go round.
-/

namespace WagonMove

open Prog

/-- The `Sleep`s between a key-down and its key-up. -/
def Site.holdsKey : Site → Bool
  | .specialTapKey | .specialHoldKey | .specialHoldTwoKeys | .rotationHold => true
  | _ => false

def findTargetColor : ScriptFile → Node → Ahk (Option (ℤ × ℤ))
  | .wagonMove, node => Wagon.specialFindTargetColor node true
  | .alienWagonMove, node => Alien.specialFindTargetColor node true

def beforeTurn : ScriptFile → Ahk Unit
  | .wagonMove => Wagon.beforeTurn
  | .alienWagonMove => Alien.beforeTurn

def search (f : ScriptFile) (passes : ℕ) (node : Node) : Ahk (Option (ℤ × ℤ)) :=
  searchUntilFound f (findTargetColor f node) (beforeTurn f) passes

def centering : ScriptFile → ℕ → Node → Centering
  | .wagonMove => Wagon.centering
  | .alienWagonMove => Alien.centering

theorem centering_find (f : ScriptFile) (passes : ℕ) (node : Node) :
    (centering f passes node).find = findTargetColor f node := by cases f <;> rfl

theorem centering_search (f : ScriptFile) (passes : ℕ) (node : Node) :
    (centering f passes node).search = search f passes node := by cases f <;> rfl

theorem leads_activateRoblox {D : Ctx → Prop} {P : St → Prop} {Q : Unit → St → Prop}
    {E : Abort Err → St → Prop} (calm : ∀ s s', Calm s s' → P s → P s')
    (thrown : ∀ e s, P s → E (.thrown e) s) (hsleep : Leads D P Q E (sleep .activateRoblox 250)) :
    Leads D P Q E activateRoblox := by
  have hraise (e : Err) : Leads D P Q E (raise e) := fun _ _ s hs => (wp_raise e).2 (thrown e s hs)
  have hasked {α : Type} {x : Ahk α} (hx : Does Asked x) : Leads D P (fun _ => P) E x :=
    (hx.mono fun _ _ => Asked.quiet).keeps calm
  refine .bind (hasked asked_getRobloxHwnd) fun hwnd => .ite (fun _ => hraise _) fun _ =>
    .bind (hasked (asked_ask _)) fun e => ?_
  cases e with
  | some e => exact hraise e
  | none => exact hsleep

theorem keeps_aim {D : Ctx → Prop} {I : St → Prop} {E : Abort Err → St → Prop} (c : Centering)
    (totals : Totals) {fx : ℤ} {r : Rect} (calm : ∀ s s', Calm s s' → I s → I s')
    (hlog : Keeps D I E (log (.aimed fx r)))
    (htap : Keeps D I E (specialTapKey (centerKey (centerError fx r)) centerPulseMs))
    (hsleep : Keeps D I E (sleep .centerPause c.pauseMs)) : Keeps D I E (c.aim totals fx r) := by
  have hstatus (text : String) : Keeps D I E (setStatus text) := (calm_setStatus text).keeps calm
  refine .bind hlog fun _ => .ite ?_ ?_
  · exact .bind (hstatus _) fun _ => .pure _
  · exact .bind (hstatus _) fun _ => .bind htap fun _ => .bind hsleep fun _ => .pure _

/-- The parts of search and centring keep `I`, in environments of `D` and with ends in `E`. -/
structure Kept (f : ScriptFile) (node : Node) (D : Ctx → Prop) (I : St → Prop)
    (E : Abort Err → St → Prop) : Prop where
  enter : ∀ site r, D r → D (r.enter site)
  thrown : ∀ e s, I s → E (.thrown e) s
  calm : ∀ s s', Calm s s' → I s → I s'
  sleep : ∀ site ms, site.holdsKey = false → Keeps D I E (sleep site ms)
  check : ∀ b, Keeps D I E (specialCheckStop b)
  find : Keeps D I E (findTargetColor f node)
  zoomTick : ∀ ms, Keeps D I E (zoomTick ms)
  pulse : Keeps D I E pulseLeft
  aim : ∀ (c : Centering) totals fx r, Keeps D I E (c.aim totals fx r)
  timedOut : Keeps D I E (searchTimedOut f)

namespace Kept

variable {f : ScriptFile} {node : Node} {D : Ctx → Prop} {I : St → Prop}
  {E : Abort Err → St → Prop} {α : Type}

theorem within (h : Kept f node D I E) {site : Site} {x : Ahk α} (hx : Keeps D I E x) :
    Keeps D I E (within site x) := .under (fun r => h.enter site r) hx

theorem quiet (h : Kept f node D I E) {x : Ahk α} (hx : IsCalm x) : Keeps D I E x :=
  hx.keeps h.calm

theorem activateRoblox (h : Kept f node D I E) : Keeps D I E activateRoblox :=
  leads_activateRoblox h.calm h.thrown (h.sleep _ _ rfl)

theorem fullZoomOut (h : Kept f node D I E) (ticks ms : ℕ) :
    Keeps D I E (specialFullZoomOut ticks ms) :=
  .bind (h.within h.activateRoblox) fun _ =>
    .loop (fun _ => h.zoomTick ms) (fun _ => .pure _) _ _

theorem beforeTurn (h : Kept f node D I E) : Keeps D I E (beforeTurn f) := by
  cases f with
  | wagonMove =>
      exact .bind (h.quiet (calm_setStatus _)) fun _ => .bind (h.quiet quiet_hideSpecialMarker)
        fun _ => .bind (h.quiet quiet_toolTip) fun _ => .bind (h.within (h.fullZoomOut 30 15))
          fun _ => .bind (h.check false) fun _ => h.quiet (calm_setStatus _)
  | alienWagonMove =>
      exact .bind (h.quiet (calm_setStatus _)) fun _ => .bind (h.quiet quiet_hideSpecialMarker)
        fun _ => .bind (h.quiet quiet_toolTip) fun _ => .bind (h.check false) fun _ => .pure _

theorem searchHead (h : Kept f node D I E) (start : ℕ) : Keeps D I E (searchHead f start) :=
  .bind (h.check false) fun _ => .ite (.pure _) <|
    .bind (h.quiet quiet_tickCount) fun _ => .ite h.timedOut (.pure _)

/-- What a search leaves behind: `I` if it gives up, and what `F` says of a hit. -/
def Sought (I : St → Prop) (F : Option (ℤ × ℤ) → St → Prop) : Option (ℤ × ℤ) → St → Prop
  | none => I
  | some p => F (some p)

/-- One pass of a search in which a colour search turns `I` into `F`. -/
theorem leads_searchPass (h : Kept f node D I E) {F : Option (ℤ × ℤ) → St → Prop}
    (hfind : Leads D I F E (findTargetColor f node))
    (hfound : ∀ p s s', Calm s s' → F (some p) s → F (some p) s')
    (hmissed : Kept f node D (F none) E) (start missCount : ℕ) :
    Leads D I (fun t s => match t with
        | .leave hit => Sought I F hit s
        | .again _ => F none s) E
      (searchPass f (findTargetColor f node) (WagonMove.beforeTurn f) start missCount) := by
  refine .bind (h.searchHead start) fun stop => .ite (fun _ => .pure fun _ hs => hs) fun _ => ?_
  refine .bind hfind fun hit => ?_
  cases hit with
  | some p =>
      have hquiet {x : Ahk Unit} (hx : IsCalm x) :
          Leads D (F (some p)) (fun _ => F (some p)) E x := hx.keeps (hfound p)
      exact .bind (hquiet (calm_showSpecialMarker f _ _)) fun _ =>
        .bind (hquiet (calm_setStatus _)) fun _ => .pure fun _ hs => hs
  | none =>
      refine .bind (hmissed.quiet (calm_setStatus _)) fun _ => .ite (fun _ => ?_) (fun _ => ?_)
      · exact .bind hmissed.beforeTurn fun _ =>
          .bind (hmissed.within hmissed.activateRoblox) fun _ =>
            .bind hmissed.pulse fun _ => .pure fun _ hs => hs
      · exact .bind (hmissed.sleep _ _ rfl) fun _ => .pure fun _ hs => hs

theorem leads_searchLast (h : Kept f node D I E) {F : Option (ℤ × ℤ) → St → Prop}
    (hstarved : ∀ s, I s → E .starved s) (start : ℕ) :
    Leads D I (Sought I F) E (searchLast f start) := by
  refine .bind (h.searchHead start) fun stop => .ite (fun _ => .pure fun _ hs => hs) fun _ => ?_
  exact fun _ _ s hs => (wp_abort _).2 (hstarved s hs)

theorem leads_search (h : Kept f node D I E) {F : Option (ℤ × ℤ) → St → Prop}
    (hfind : Leads D I F E (findTargetColor f node))
    (hfound : ∀ p s s', Calm s s' → F (some p) s → F (some p) s')
    (hmissed : Kept f node D (F none) E) (hagain : ∀ s, F none s → I s) (passes : ℕ)
    (hlast : ∀ start, Leads D I (Sought I F) E (searchLast f start)) :
    Leads D I (Sought I F) E (search f passes node) := by
  refine .bind (h.quiet quiet_tickCount) fun start => ?_
  refine .loop (fun misses => ?_) (fun _ => hlast start) _ _
  refine (h.leads_searchPass hfind hfound hmissed start misses).mono (fun _ hs => hs) ?_
  intro t s ht
  cases t with
  | leave hit => exact ht
  | again misses => exact hagain s ht

theorem searchOf (h : Kept f node D I E) (passes : ℕ)
    (hlast : ∀ start, Keeps D I E (searchLast f start)) : Keeps D I E (search f passes node) := by
  have hsought (hit : Option (ℤ × ℤ)) : Sought I (fun _ => I) hit = I := by cases hit <;> rfl
  have hsearch : Leads D I (Sought I fun _ => I) E (WagonMove.search f passes node) :=
    h.leads_search h.find (fun _ => h.calm) h (fun _ hs => hs) passes fun start =>
      (hlast start).leads.mono (fun _ hs => hs) fun hit _ hs => (hsought hit).symm ▸ hs
  exact hsearch.mono (fun _ hs => hs) fun hit _ hs => hsought hit ▸ hs

theorem search (h : Kept f node D I E) (hstarved : ∀ s, I s → E .starved s) (passes : ℕ) :
    Keeps D I E (search f passes node) :=
  h.searchOf passes fun start =>
    .bind (h.searchHead start) fun _ => .ite (.pure _) (.abort hstarved)

theorem centerPass (h : Kept f node D I E) {passes : ℕ}
    (hsearch : Keeps D I E (WagonMove.search f passes node))
    (totals : Totals) : Keeps D I E (centerPass (centering f passes node) totals) := by
  have hlocate : Keeps D I E (centering f passes node).locate := by
    unfold Centering.locate
    rw [centering_find, centering_search]
    refine .bind h.find fun hit => ?_
    cases hit with
    | some p => exact .pure _
    | none => exact .bind (h.quiet (calm_setStatus _)) fun _ => hsearch
  refine .bind (h.check false) fun _ => .ite (.pure _) <| .bind hlocate fun hit => ?_
  cases hit with
  | none => exact .pure _
  | some p =>
      exact .bind (h.quiet (calm_showSpecialMarker _ _ _)) fun _ =>
        .bind (h.quiet (asked_clientRectOrScreen.mono fun _ _ => Asked.quiet)) fun r =>
          h.aim _ _ _ r

theorem centerColor (h : Kept f node D I E) {passes : ℕ}
    (hsearch : Keeps D I E (WagonMove.search f passes node)) :
    Keeps D I E (centerColor (centering f passes node)) :=
  .loop (h.centerPass hsearch)
    (fun _ => .bind (h.quiet (calm_setStatus _)) fun _ => .pure _) _ _

end Kept

/-! ## Colour searches -/

/-- The pause of a colour search is all that matters to a property that quiet steps keep. -/
theorem leads_screenRead {D : Ctx → Prop} {I I' : St → Prop} {E : Abort Err → St → Prop}
    (node : Node) {search : Target → Ahk (Option (ℤ × ℤ))} (hsearch : ∀ t, Does Looked (search t))
    (hquiet : ∀ s s', Quiet Event.isRead s s' → I s → I s')
    (hquiet' : ∀ s s', Quiet Event.isRead s s' → I' s → I' s')
    (hsleep : Leads D I (fun _ => I') E (sleep .beginScreenRead 20)) :
    Leads D I (fun _ => I') E (screenRead node search) := by
  have hstart {α : Type} {x : Ahk α} (hx : Does (Quiet Event.isRead) x) :
      Leads D I (fun _ => I) E x := hx.keeps hquiet
  have hbegin : Leads D I (fun _ => I') E beginScreenRead :=
    .bind (hstart (.update fun _ => .of_silent rfl rfl rfl le_rfl id rfl)) fun _ =>
      .bind (hstart quiet_hideStatusOverlay) fun _ => hsleep
  refine .bind (hstart quiet_hideSpecialMarker) fun _ => .bind hbegin fun _ => ?_
  have hbody := (looked_readBody node hsearch).mono fun _ _ h => h.quiet
  have hend := calm_endScreenRead.mono fun _ _ h => h.mono Event.isCalm.isRead
  exact (Does.ensure hbody hend).keeps hquiet'

/-- Both copies of `SpecialFindTargetColor` are a colour search whose result is returned. -/
theorem findTargetColor_eq (f : ScriptFile) (node : Node) :
    ∃ find : Target → Ahk (Option (ℤ × ℤ)), (∀ t, Does Looked (find t)) ∧
      findTargetColor f node = (do
        let hit ← screenRead node find
        log (.searched hit)
        pure hit) := by
  cases f with
  | wagonMove => exact ⟨_, looked_wagon_searchTarget true, rfl⟩
  | alienWagonMove => exact ⟨_, looked_alien_searchTarget true, rfl⟩

theorem leads_findTargetColor {D : Ctx → Prop} {I I' : St → Prop} {E : Abort Err → St → Prop}
    (f : ScriptFile) (node : Node) (hquiet : ∀ s s', Quiet Event.isLook s s' → I s → I s')
    (hquiet' : ∀ s s', Quiet Event.isLook s s' → I' s → I' s')
    (hsleep : Leads D I (fun _ => I') E (sleep .beginScreenRead 20)) :
    Leads D I (fun _ => I') E (findTargetColor f node) := by
  obtain ⟨find, hlooked, he⟩ := findTargetColor_eq f node
  rw [he]
  refine .bind (leads_screenRead node hlooked
    (fun s s' hq => hquiet s s' (hq.mono Event.isRead.isLook))
    (fun s s' hq => hquiet' s s' (hq.mono Event.isRead.isLook)) hsleep) fun hit => ?_
  exact Keeps.bind (.update fun s hs => hquiet' s _ (.record trivial) hs) fun _ => .pure _

theorem keeps_findTargetColor {D : Ctx → Prop} {I : St → Prop} {E : Abort Err → St → Prop}
    (f : ScriptFile) (node : Node) (hquiet : ∀ s s', Quiet Event.isLook s s' → I s → I s')
    (hsleep : Keeps D I E (sleep .beginScreenRead 20)) : Keeps D I E (findTargetColor f node) :=
  leads_findTargetColor f node hquiet hquiet hsleep

end WagonMove
