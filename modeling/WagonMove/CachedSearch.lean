import Mathlib.Algebra.Order.Interval.Set.SuccPred
import Mathlib.Data.Int.ConditionallyCompleteOrder
import Mathlib.Data.Int.SuccPred
import Mathlib.Data.Set.Prod
import Mathlib.Order.Interval.Set.UnorderedInterval
import WagonMove.Calm
import WagonMove.Finds

/-!
# The cached colour search

The alien script looks around the last hit before it searches the whole client rectangle. The
region around the hit is clipped side by side, so when the rectangle has moved more than 60 pixels
away from the hit the corners change places and `PixelSearch` scans what lies between the two. The
search is as good as the uncached ones exactly if no pixel out there is taken for the colour.
-/

namespace WagonMove

open Prog

/-! ## The screen -/

/-- The pixels that a `PixelSearch` scans: its corners may come in any order. -/
def Search.span (q : Search) : Set (ℤ × ℤ) := Set.uIcc q.x1 q.x2 ×ˢ Set.uIcc q.y1 q.y2

/-- The pixels of a screen that are within the tolerance of a colour. -/
def near (img : ℤ × ℤ → ℕ) (color : ℕ) (tol : ℤ) : Set (ℤ × ℤ) :=
  {p | specialColorNear (img p) color tol = true}

def PixelResult.found : PixelResult → Option (ℤ × ℤ)
  | .hit x y => some (x, y)
  | .miss | .threw => none

/-- A `PixelSearch` on the screen `img`, whatever its order of scanning. -/
def Conforms (img : ℤ × ℤ → ℕ) (ps : Search → PixelResult) : Prop :=
  ∀ q, Finds (q.span ∩ near img q.color q.variation) (ps q).found

def Ctx.withSearch (ps : ℕ → Search → PixelResult) (r : Ctx) : Ctx :=
  { r with env := { r.env with pixelSearch := ps } }

namespace Rect

variable (rect : Rect)

def pixels : Set (ℤ × ℤ) :=
  Set.Ico rect.x (rect.x + rect.w) ×ˢ Set.Ico rect.y (rect.y + rect.h)

/-- The rectangle lies more than 60 pixels to one side of the position, above or below it. -/
def FarFrom (x y : ℤ) : Prop :=
  rect.x + rect.w - 1 < x - 60 ∨ x + 60 < rect.x ∨ rect.y + rect.h - 1 < y - 60 ∨ y + 60 < rect.y

/-- What is scanned for a last hit at a position: its surroundings as far as the rectangle goes, or
what lies between the two if they do not meet. -/
def scanned (x y : ℤ) : Set (ℤ × ℤ) :=
  Set.uIcc (max rect.x (x - 60)) (min (rect.x + rect.w - 1) (x + 60)) ×ˢ
    Set.uIcc (max rect.y (y - 60)) (min (rect.y + rect.h - 1) (y + 60))

end Rect

namespace Target

variable (img : ℤ × ℤ → ℕ) (t : Target)

def pixels : Set (ℤ × ℤ) := Set.Icc t.x1 t.x2 ×ˢ Set.Icc t.y1 t.y2

def rgb : Set (ℤ × ℤ) := near img t.colorRGB t.tol

def bgr : Set (ℤ × ℤ) := near img t.colorBGR t.tol

def roiSearch (s : St) (color : ℕ) : Search :=
  let (rx1, ry1, rx2, ry2) := Alien.roi t s.lastColorX s.lastColorY
  ⟨rx1, ry1, rx2, ry2, color, t.tol⟩

def around (s : St) : Set (ℤ × ℤ) := (t.roiSearch s t.colorRGB).span

/-- What the scan around the last hit takes for the colour lies in the rectangle. -/
def Enclosed (s : St) : Prop :=
  t.around s ∩ t.rgb img ⊆ t.pixels ∧
    (t.around s ∩ t.rgb img = ∅ → t.around s ∩ t.bgr img ⊆ t.pixels)

theorem span_eq_pixels {t : Target} (hx : t.x1 ≤ t.x2) (hy : t.y1 ≤ t.y2) (color : ℕ) :
    Search.span ⟨t.x1, t.y1, t.x2, t.y2, color, t.tol⟩ = t.pixels := by
  rw [Search.span, Set.uIcc_of_le hx, Set.uIcc_of_le hy]
  rfl

end Target

/-- The last hit counts: there has been one, not longer than 600 ms ago. -/
def Fresh (r : Ctx) (s : St) : Prop :=
  s.lastColorTick ≠ 0 ∧ ((s.now + r.env.drift s.asked : ℕ) : ℤ) - s.lastColorTick ≤ 600

instance (r : Ctx) (s : St) : Decidable (Fresh r s) := inferInstanceAs (Decidable (_ ∧ _))

/-! ## Searches of the screen -/

def Shows (img : ℤ × ℤ → ℕ) (r : Ctx) : Prop := ∀ n, Conforms img (r.env.pixelSearch n)

section Searches

variable {img : ℤ × ℤ → ℕ} {E : Abort Err → St → Prop} {r : Ctx} {s : St}

theorem wp_trySearch (q : Search) {Q : Option (ℤ × ℤ) → St → Prop} :
    wp (trySearch q) Q E r s ↔ Q (r.env.pixelSearch s.asked q).found
      { s.record (.pixelSearch q s.view) with asked := s.asked + 1 } := by
  rw [trySearch, wp_bind, pixelSearch, wp_bind, wp_gets, wp_bind, wp_log, wp_ask]
  cases hres : r.env.pixelSearch (s.record (.pixelSearch q s.view)).asked q with
  | hit x y | miss | threw =>
      rw [show r.env.pixelSearch s.asked q = _ from hres]
      exact wp_pure _

theorem wp_searchBoth (t : Target) (x1 y1 x2 y2 : ℤ) : wp (searchBoth x1 y1 x2 y2 t)
    (fun hit _ => hit =
      (r.env.pixelSearch s.asked ⟨x1, y1, x2, y2, t.colorRGB, t.tol⟩).found.or
        (r.env.pixelSearch (s.asked + 1) ⟨x1, y1, x2, y2, t.colorBGR, t.tol⟩).found) E r s := by
  rw [searchBoth, wp_bind, wp_trySearch]
  cases (r.env.pixelSearch s.asked ⟨x1, y1, x2, y2, t.colorRGB, t.tol⟩).found with
  | some p => exact (wp_pure _).2 rfl
  | none => exact (wp_trySearch _).2 rfl

theorem finds_rectangle {t : Target} (hr : Shows img r) (hx : t.x1 ≤ t.x2) (hy : t.y1 ≤ t.y2) :
    wp (searchBoth t.x1 t.y1 t.x2 t.y2 t)
      (fun hit _ => Finds (t.pixels ∩ (t.rgb img ∪ t.bgr img)) hit) E r s := by
  apply wp_imp (wp_searchBoth t _ _ _ _)
  intro hit _ hboth
  subst hboth
  have hfinds := (FindsInTurn.of_or (hr s.asked ⟨t.x1, t.y1, t.x2, t.y2, t.colorRGB, t.tol⟩)
    (hr (s.asked + 1) ⟨t.x1, t.y1, t.x2, t.y2, t.colorBGR, t.tol⟩)).finds
  rwa [Target.span_eq_pixels hx hy, Target.span_eq_pixels hx hy,
    ← Set.inter_union_distrib_left] at hfinds

theorem wp_roiValid : wp Alien.roiValid (fun valid s' => (valid = true ↔ Fresh r s) ∧
    s'.lastColorX = s.lastColorX ∧ s'.lastColorY = s.lastColorY) E r s := by
  rw [Alien.roiValid, wp_bind, wp_gets]
  apply wp_ite
  · intro hzero
    rw [wp_pure]
    exact ⟨iff_of_false Bool.false_ne_true fun h => h.1 hzero, rfl, rfl⟩
  · intro hne
    rw [wp_bind, wp_tickCount, wp_bind, wp_gets, wp_pure]
    refine ⟨?_, rfl, rfl⟩
    rw [decide_eq_true_iff, Fresh]
    exact (and_iff_right hne).symm

theorem wp_searchRoi (t : Target) : wp (Alien.searchRoi t) (fun hit _ =>
    (Fresh r s ∧ ∃ m n, hit = (r.env.pixelSearch m (t.roiSearch s t.colorRGB)).found.or
      (r.env.pixelSearch n (t.roiSearch s t.colorBGR)).found) ∨
    (¬Fresh r s ∧ hit = none)) E r s := by
  rw [Alien.searchRoi, wp_bind]
  apply wp_imp wp_roiValid
  intro valid s' h
  obtain ⟨hvalid, hx, hy⟩ := h
  apply wp_ite
  · intro htrue
    rw [wp_bind, wp_gets, id_eq, hx, hy]
    exact wp_imp (wp_searchBoth t _ _ _ _) fun _ _ h => .inl ⟨hvalid.1 htrue, _, _, h⟩
  · intro hfalse
    exact (wp_pure _).2 (.inr ⟨fun hfresh => hfalse (hvalid.2 hfresh), rfl⟩)

theorem finds_searchRoi (t : Target) (hr : Shows img r) : wp (Alien.searchRoi t)
    (fun hit _ => (Fresh r s ∧ FindsInTurn (t.around s ∩ t.rgb img) (t.around s ∩ t.bgr img) hit) ∨
      (¬Fresh r s ∧ hit = none)) E r s := by
  apply wp_imp (wp_searchRoi t)
  intro hit _ hroi
  obtain ⟨hfresh, m, n, rfl⟩ | hstale := hroi
  · exact .inl ⟨hfresh, .of_or (hr m _) (hr n _)⟩
  · exact .inr hstale

theorem wp_remember (p : ℤ × ℤ) : wp (Alien.remember p) (fun hit _ => hit = some p) E r s := by
  rw [Alien.remember, wp_bind, wp_update, wp_bind, wp_tickCount, wp_bind, wp_update, wp_pure]

/-- As good as a search of the whole rectangle, if what is found around the last hit is enclosed. -/
theorem finds_alien_searchTarget {t : Target} (hr : Shows img r) (hx : t.x1 ≤ t.x2)
    (hy : t.y1 ≤ t.y2) (h : Fresh r s → t.Enclosed img s) : wp (Alien.searchTarget true t)
      (fun hit _ => Finds (t.pixels ∩ (t.rgb img ∪ t.bgr img)) hit) E r s := by
  rw [Alien.searchTarget, wp_bind]
  apply wp_imp (finds_searchRoi t hr)
  intro hit s' hroi
  cases hit with
  | some p =>
      obtain ⟨hfresh, hturn⟩ | ⟨-, hnone⟩ := hroi
      · apply wp_imp (wp_remember p)
        rintro _ _ rfl
        have hfinds := hturn.finds
        rw [← Set.inter_union_distrib_left] at hfinds
        exact ⟨FindsInTurn.forall_mem_iff.2 (h hfresh) p hturn, hfinds.2⟩
      · exact nomatch hnone
  | none =>
      rw [wp_bind]
      apply wp_imp (finds_rectangle hr hx hy)
      intro hit s'' hit'
      cases hit with
      | some p =>
          apply wp_imp (wp_remember p)
          rintro _ _ rfl
          exact hit'
      | none => exact (wp_pure _).2 hit'

theorem finds_wagon_searchTarget {t : Target} (hr : Shows img r) (hx : t.x1 ≤ t.x2)
    (hy : t.y1 ≤ t.y2) : wp (Wagon.searchTarget true t)
      (fun hit _ => Finds (t.pixels ∩ (t.rgb img ∪ t.bgr img)) hit) E r s := by
  rw [Wagon.searchTarget, wp_bind]
  apply wp_imp (finds_rectangle hr hx hy)
  intro hit s' hit'
  cases hit with
  | some p => exact (wp_pure _).2 hit'
  | none => exact (wp_pure _).2 hit'

/-- A hit around the last one is returned, wherever it lies. -/
theorem wp_alien_searchTarget {t : Target} {p : ℤ × ℤ}
    (h : wp (Alien.searchRoi t) (fun hit _ => hit = some p) E r s) :
    wp (Alien.searchTarget true t) (fun hit _ => hit = some p) E r s := by
  rw [Alien.searchTarget, wp_bind]
  apply wp_imp h
  rintro _ s' rfl
  exact wp_remember p

end Searches

/-! ## Whole calls -/

/-- What every colour search does before it searches: it hides what is drawn and takes the current
rectangle. -/
def aim : Ahk Rect := do
  hideSpecialMarker
  beginScreenRead
  clientRectOrScreen

def Node.target (node : Node) (rect : Rect) : Target :=
  rect.target (normalizeHex node.colorHex false) node

theorem Node.target_x_le (node : Node) {rect : Rect} (hw : 0 < rect.w) :
    (node.target rect).x1 ≤ (node.target rect).x2 := by
  change rect.x ≤ rect.x + rect.w - 1
  omega

theorem Node.target_y_le (node : Node) {rect : Rect} (hh : 0 < rect.h) :
    (node.target rect).y1 ≤ (node.target rect).y2 := by
  change rect.y ≤ rect.y + rect.h - 1
  omega

theorem Node.target_pixels (node : Node) (rect : Rect) :
    (node.target rect).pixels = rect.pixels :=
  congrArg₂ (· ×ˢ ·) (Set.Icc_sub_one_right_eq_Ico rect.x (rect.x + rect.w))
    (Set.Icc_sub_one_right_eq_Ico rect.y (rect.y + rect.h))

theorem Node.target_around (node : Node) (rect : Rect) (s : St) :
    (node.target rect).around s = rect.scanned s.lastColorX s.lastColorY := rfl

/-- Near the last hit only pixels of the rectangle are scanned. -/
theorem Rect.scanned_subset {rect : Rect} {x y : ℤ} (hw : 0 < rect.w) (hh : 0 < rect.h)
    (h : ¬rect.FarFrom x y) : rect.scanned x y ⊆ rect.pixels := by
  unfold Rect.FarFrom at h
  rw [Rect.scanned, Set.uIcc_of_le (by omega), Set.uIcc_of_le (by omega), Rect.pixels]
  refine Set.prod_mono ?_ ?_
  · rintro p ⟨hleft, hright⟩
    exact ⟨(le_max_left _ _).trans hleft, by omega⟩
  · rintro p ⟨htop, hbottom⟩
    exact ⟨(le_max_left _ _).trans htop, by omega⟩

/-- A last hit does no harm unless the rectangle has moved away from it. -/
theorem Node.enclosed_iff (img : ℤ × ℤ → ℕ) (node : Node) (s : St) {rect : Rect} (hw : 0 < rect.w)
    (hh : 0 < rect.h) : (node.target rect).Enclosed img s ↔
      (rect.FarFrom s.lastColorX s.lastColorY →
        rect.scanned s.lastColorX s.lastColorY ∩ (node.target rect).rgb img ⊆ rect.pixels ∧
        (rect.scanned s.lastColorX s.lastColorY ∩ (node.target rect).rgb img = ∅ →
          rect.scanned s.lastColorX s.lastColorY ∩ (node.target rect).bgr img ⊆ rect.pixels)) := by
  rw [Target.Enclosed, node.target_around, node.target_pixels]
  refine ⟨fun h _ => h, fun h => ?_⟩
  by_cases hfar : rect.FarFrom s.lastColorX s.lastColorY
  · exact h hfar
  · have hsub := Rect.scanned_subset hw hh hfar
    exact ⟨Set.inter_subset_left.trans hsub, fun _ => Set.inter_subset_left.trans hsub⟩

section Calls

variable {node : Node} {r : Ctx} {s s₁ : St} {rect : Rect}

theorem wp_screenRead {search : Target → Ahk (Option (ℤ × ℤ))} {P : Option (ℤ × ℤ) → Prop}
    (haim : aim.run r s = (.ok rect, s₁)) (hhex : normalizeHex node.colorHex false ≠ "")
    (h : wp (search (node.target rect)) (fun hit _ => P hit) (fun _ _ => False) r s₁) :
    wp (screenRead node search) (fun hit _ => P hit) (fun _ _ => False) r s := by
  have hrect : wp aim (fun rect' s' => rect' = rect ∧ s' = s₁) (fun _ _ => False) r s := by
    rw [wp_iff_run, haim]
    simp
  rw [aim, wp_bind] at hrect
  rw [screenRead, wp_bind]
  apply wp_imp hrect
  intro _ s' hrect
  rw [wp_bind] at hrect ⊢
  apply wp_imp hrect
  intro _ s'' hrect
  rw [wp_ensure, wp_bind]
  refine wp_mono hrect ?_ fun _ _ hf => hf.elim
  intro rect' _ hsame
  obtain ⟨rfl, rfl⟩ := hsame
  rw [if_neg hhex]
  exact wp_mono h (fun hit _ hP => calm_endScreenRead.wp fun _ _ _ => hP) fun _ _ hf => hf.elim

theorem wp_find {search : Target → Ahk (Option (ℤ × ℤ))} {P : Option (ℤ × ℤ) → Prop}
    (haim : aim.run r s = (.ok rect, s₁)) (hhex : normalizeHex node.colorHex false ≠ "")
    (h : wp (search (node.target rect)) (fun hit _ => P hit) (fun _ _ => False) r s₁) :
    wp (do let hit ← screenRead node search; log (.searched hit); pure hit) (fun hit _ => P hit)
      (fun _ _ => False) r s := by
  rw [wp_bind]
  apply wp_imp (wp_screenRead haim hhex h)
  intro hit _ hP
  rw [wp_bind, wp_log, wp_pure]
  exact hP

end Calls

theorem ignores_aim (ps : ℕ → Search → PixelResult) : Ignores (Ctx.withSearch ps) aim := by
  have hhwnd : Ignores (Ctx.withSearch ps) getRobloxHwnd :=
    .bind (fun _ _ => rfl) fun _ => .ite (.pure _) fun _ _ => rfl
  have hfallback : Ignores (Ctx.withSearch ps) clientRectFallback := by
    refine .bind (fun _ _ => rfl) fun c => ?_
    cases c with
    | some r => exact .pure _
    | none =>
        refine .bind (fun _ _ => rfl) fun c => ?_
        cases c <;> exact .pure _
  have hclient : Ignores (Ctx.withSearch ps) getRobloxClientRect := by
    refine .bind hhwnd fun _ => .ite (.pure _) (.bind (fun _ _ => rfl) fun c => ?_)
    cases c with
    | none => exact hfallback
    | some c =>
        refine .bind (fun _ _ => rfl) fun p => ?_
        cases p with
        | none => exact hfallback
        | some p => exact .pure _
  refine .bind (.update _) fun _ => .bind (fun _ _ => rfl) fun _ => .bind hclient fun c => ?_
  cases c with
  | some r => exact .pure _
  | none => exact fun _ _ => rfl

/-! ## Bounds and agreement -/

def PixelResult.ofFound : Option (ℤ × ℤ) → PixelResult
  | some p => .hit p.1 p.2
  | none => .miss

@[simp] theorem PixelResult.found_ofFound (o : Option (ℤ × ℤ)) :
    (PixelResult.ofFound o).found = o := by cases o <;> rfl

/-- Every pixel that a `PixelSearch` may return is returned by one of them. -/
theorem exists_conforming {img : ℤ × ℤ → ℕ} {q : Search} {p : ℤ × ℤ}
    (h : p ∈ q.span ∩ near img q.color q.variation) :
    ∃ ps, Conforms img ps ∧ (ps q).found = some p := by
  choose o ho using fun q : Search => Finds.exists_result (q.span ∩ near img q.color q.variation)
  refine ⟨fun q' => .ofFound (if q' = q then some p else o q'), fun q' => ?_, ?_⟩
  · rw [PixelResult.found_ofFound]
    by_cases hq : q' = q
    · rw [if_pos hq, hq]
      exact h
    · rw [if_neg hq]
      exact ho q'
  · rw [PixelResult.found_ofFound, if_pos rfl]

theorem exists_roi_result {img : ℤ × ℤ → ℕ} {t : Target} {s : St} {p : ℤ × ℤ}
    (hp : FindsInTurn (t.around s ∩ t.rgb img) (t.around s ∩ t.bgr img) (some p)) :
    ∃ ps, Conforms img ps ∧ (ps (t.roiSearch s t.colorRGB)).found.or
      (ps (t.roiSearch s t.colorBGR)).found = some p := by
  obtain ⟨p', hp, hpp⟩ | ⟨hempty, hp⟩ := hp
  · obtain rfl := Option.some.inj hpp
    obtain ⟨ps, hconf, hps⟩ := exists_conforming (q := t.roiSearch s t.colorRGB) hp
    exact ⟨ps, hconf, by rw [hps, Option.some_or]⟩
  · obtain ⟨ps, hconf, hps⟩ := exists_conforming (q := t.roiSearch s t.colorBGR) hp
    have hnone : Finds ∅ (ps (t.roiSearch s t.colorRGB)).found :=
      hempty ▸ hconf (t.roiSearch s t.colorRGB)
    exact ⟨ps, hconf, by rw [hnone.eq_none, Option.none_or, hps]⟩

section Verdict

variable {img : ℤ × ℤ → ℕ} {node : Node} {r : Ctx} {s s₁ : St} {rect : Rect}

theorem returns_around {p : ℤ × ℤ} (haim : aim.run r s = (.ok rect, s₁))
    (hhex : normalizeHex node.colorHex false ≠ "") (hfresh : Fresh r s₁)
    (hp : FindsInTurn ((node.target rect).around s₁ ∩ (node.target rect).rgb img)
      ((node.target rect).around s₁ ∩ (node.target rect).bgr img) (some p)) :
    ∃ ps, (∀ n, Conforms img (ps n)) ∧
      ∃ s', (Alien.specialFindTargetColor node).run (r.withSearch ps) s = (.ok (some p), s') := by
  obtain ⟨ps, hconf, hps⟩ := exists_roi_result hp
  refine ⟨fun _ => ps, fun _ => hconf, ?_⟩
  have haim' : aim.run (r.withSearch fun _ => ps) s = (.ok rect, s₁) :=
    (ignores_aim _ r s).trans haim
  have hroi : wp (Alien.searchRoi (node.target rect)) (fun hit _ => hit = some p) (fun _ _ => False)
      (r.withSearch fun _ => ps) s₁ := by
    apply wp_imp (wp_searchRoi _)
    intro hit _ hroi
    obtain ⟨-, m, n, rfl⟩ | ⟨hstale, -⟩ := hroi
    · exact hps
    · exact absurd hfresh hstale
  have hfind : wp (Alien.specialFindTargetColor node) (fun hit _ => hit = some p)
      (fun _ _ => False) (r.withSearch fun _ => ps) s := by
    rw [Alien.specialFindTargetColor]
    exact wp_find haim' hhex (wp_alien_searchTarget hroi)
  obtain ⟨hit, s', hrun, rfl⟩ := exists_value hfind
  exact ⟨s', hrun⟩

end Verdict

/-- However `PixelSearch` scans the screen, a call finds the colour in the current rectangle, or
nothing if it is not there, and the two uncached searches agree with it on which is the case. -/
def AnswersAlike (img : ℤ × ℤ → ℕ) (node : Node) (r : Ctx) (s : St) (rect : Rect) : Prop :=
  ∀ ps, (∀ n, Conforms img (ps n)) → ∃ hit s',
    (Alien.specialFindTargetColor node).run (r.withSearch ps) s = (.ok hit, s') ∧
    Finds (rect.pixels ∩ ((node.target rect).rgb img ∪ (node.target rect).bgr img)) hit ∧
    (∃ hit' s', (Alien.specialCheckColorVisible node).run (r.withSearch ps) s = (.ok hit', s') ∧
      hit'.isSome = hit.isSome) ∧
    ∃ hit' s', (Wagon.specialFindTargetColor node).run (r.withSearch ps) s = (.ok hit', s') ∧
      hit'.isSome = hit.isSome

/-- The cached search is as good as the uncached ones exactly if the last hit is too old, the
rectangle has not moved away from it, or what is taken for the colour on the way from it to the
rectangle lies in the rectangle. -/
theorem cached_search_correct_iff (img : ℤ × ℤ → ℕ) (node : Node) (r : Ctx) (s s₁ : St)
    (rect : Rect) (haim : aim.run r s = (.ok rect, s₁))
    (hhex : normalizeHex node.colorHex false ≠ "") (hw : 0 < rect.w) (hh : 0 < rect.h) :
    AnswersAlike img node r s rect ↔
      (Fresh r s₁ → rect.FarFrom s₁.lastColorX s₁.lastColorY →
        rect.scanned s₁.lastColorX s₁.lastColorY ∩ (node.target rect).rgb img ⊆ rect.pixels ∧
        (rect.scanned s₁.lastColorX s₁.lastColorY ∩ (node.target rect).rgb img = ∅ →
          rect.scanned s₁.lastColorX s₁.lastColorY ∩ (node.target rect).bgr img ⊆
            rect.pixels)) := by
  rw [← node.enclosed_iff img s₁ hw hh]
  constructor
  · intro h hfresh
    refine FindsInTurn.forall_mem_iff.1 fun p hp => ?_
    obtain ⟨ps, hconf, s', hrun⟩ := returns_around haim hhex hfresh hp
    obtain ⟨hit, s'', hrun', hfinds, -⟩ := h ps hconf
    cases hrun.symm.trans hrun'
    rw [node.target_pixels]
    exact hfinds.1
  · intro h ps hconf
    have haim' : aim.run (r.withSearch ps) s = (.ok rect, s₁) := (ignores_aim _ r s).trans haim
    have hx := node.target_x_le hw
    have hy := node.target_y_le hh
    let Found (hit : Option (ℤ × ℤ)) : Prop := Finds
      ((node.target rect).pixels ∩ ((node.target rect).rgb img ∪ (node.target rect).bgr img)) hit
    have halien : wp (Alien.specialFindTargetColor node) (fun hit _ => Found hit) (fun _ _ => False)
        (r.withSearch ps) s := by
      rw [Alien.specialFindTargetColor]
      exact wp_find haim' hhex (finds_alien_searchTarget hconf hx hy h)
    have hcheck : wp (Alien.specialCheckColorVisible node) (fun hit _ => Found hit)
        (fun _ _ => False) (r.withSearch ps) s := by
      rw [Alien.specialCheckColorVisible]
      exact wp_screenRead haim' hhex (finds_rectangle hconf hx hy)
    have hwagon : wp (Wagon.specialFindTargetColor node) (fun hit _ => Found hit) (fun _ _ => False)
        (r.withSearch ps) s := by
      rw [Wagon.specialFindTargetColor]
      exact wp_find haim' hhex (finds_wagon_searchTarget hconf hx hy)
    obtain ⟨hit, s', hrun, hfinds⟩ := exists_value halien
    obtain ⟨hit₂, s₂, hrun₂, hfinds₂⟩ := exists_value hcheck
    obtain ⟨hit₃, s₃, hrun₃, hfinds₃⟩ := exists_value hwagon
    exact ⟨hit, s', hrun, node.target_pixels rect ▸ hfinds,
      ⟨hit₂, s₂, hrun₂, hfinds₂.isSome_eq hfinds⟩, hit₃, s₃, hrun₃, hfinds₃.isSome_eq hfinds⟩

def sampleNode : Node := ⟨"0xCDE3FE", 0⟩

/-- A window of 800 by 600 that shows the colour at (700, 300). -/
def largeWindow : Ctx := { env := { Env.idle with pixelSearch := fun _ _ => .hit 700 300 } }

def afterHit : St := ((Alien.specialFindTargetColor sampleNode).run largeWindow {}).2

def smallWindow : Ctx :=
  { env := { Env.idle with getClientRect := fun _ => some (0, 0, 100, 100) } }

/-- A screen that shows the colour at `q`. -/
def spot (q p : ℤ × ℤ) : ℕ := if p = q then 0xCDE3FE else 0

/-- After a hit in the large window a call in the small one, which is far from it, still answers as
it should as long as the spot does not lie in between. -/
theorem spot_inside_answers_alike :
    Fresh smallWindow (aim.run smallWindow afterHit).2 ∧
    Rect.FarFrom ⟨0, 0, 100, 100⟩ 700 300 ∧
    AnswersAlike (spot (50, 50)) sampleNode smallWindow afterHit ⟨0, 0, 100, 100⟩ := by
  have haim : aim.run smallWindow afterHit =
      (.ok ⟨0, 0, 100, 100⟩, (aim.run smallWindow afterHit).2) := rfl
  have hdark : specialColorNear 0 0xCDE3FE 0 = false ∧ specialColorNear 0 0xFEE3CD 0 = false := by
    decide +kernel
  refine ⟨by decide +kernel, .inl (by decide), ?_⟩
  refine (cached_search_correct_iff _ _ _ _ _ _ haim (by decide +kernel) (by decide)
    (by decide)).2 fun _ _ => ?_
  have hinside : ((50, 50) : ℤ × ℤ) ∈ Rect.pixels ⟨0, 0, 100, 100⟩ := by simp [Rect.pixels]
  have honly (p : ℤ × ℤ) (color : ℕ) (hcolor : specialColorNear 0 color 0 = false)
      (hp : p ∈ near (spot (50, 50)) color 0) : p = (50, 50) := by
    by_contra hne
    have hnear : specialColorNear (spot (50, 50) p) color 0 = true := hp
    rw [spot, if_neg hne, hcolor] at hnear
    exact Bool.false_ne_true hnear
  have hrgb : (sampleNode.target ⟨0, 0, 100, 100⟩).colorRGB = 0xCDE3FE := by decide +kernel
  have hbgr : (sampleNode.target ⟨0, 0, 100, 100⟩).colorBGR = 0xFEE3CD := by decide +kernel
  refine ⟨fun p hp => ?_, fun _ p hp => ?_⟩
  · exact honly p _ (hrgb ▸ hdark.1) hp.2 ▸ hinside
  · exact honly p _ (hbgr ▸ hdark.2) hp.2 ▸ hinside

/-- If it does lie in between, it is found although it is outside. -/
theorem spot_outside_is_found :
    ((Alien.specialFindTargetColor sampleNode).run largeWindow {}).1 = .ok (some (700, 300)) ∧
    (aim.run smallWindow afterHit).1 = .ok ⟨0, 0, 100, 100⟩ ∧
    ¬AnswersAlike (spot (300, 150)) sampleNode smallWindow afterHit ⟨0, 0, 100, 100⟩ := by
  refine ⟨rfl, rfl, fun h => ?_⟩
  have haim : aim.run smallWindow afterHit =
      (.ok ⟨0, 0, 100, 100⟩, (aim.run smallWindow afterHit).2) := rfl
  have hspan : (sampleNode.target ⟨0, 0, 100, 100⟩).around (aim.run smallWindow afterHit).2 =
      Set.uIcc 640 99 ×ˢ Set.uIcc 240 99 := rfl
  have hmem : ((300, 150) : ℤ × ℤ) ∈
      (sampleNode.target ⟨0, 0, 100, 100⟩).around (aim.run smallWindow afterHit).2 ∩
        (sampleNode.target ⟨0, 0, 100, 100⟩).rgb (spot (300, 150)) := by
    rw [hspan]
    refine ⟨by simp, ?_⟩
    change specialColorNear _ _ _ = true
    decide +kernel
  obtain ⟨ps, hconf, s', hrun⟩ := returns_around haim (by decide +kernel) (by decide +kernel)
    (FindsInTurn.first hmem)
  obtain ⟨hit, s'', hrun', hfinds, -⟩ := h ps hconf
  obtain ⟨hhit, -⟩ := Prod.mk.inj (hrun.symm.trans hrun')
  obtain rfl := Except.ok.inj hhit
  have hinside : ((300, 150) : ℤ × ℤ) ∈ Rect.pixels ⟨0, 0, 100, 100⟩ := hfinds.1
  simp [Rect.pixels] at hinside

end WagonMove
