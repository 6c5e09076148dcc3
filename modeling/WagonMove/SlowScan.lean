import Mathlib.Data.Int.Bitwise
import WagonMove.CachedSearch
import WagonMove.Strides

/-!
# The slow scan

When both calls of `PixelSearch` come back without a hit, the wagon script can go on and read the
colour of every fourth pixel of every fourth row. After searches that work this finds nothing new,
and after searches that fail it finds every block of four by four pixels.
-/

namespace WagonMove

open Prog

/-! ## Colours channel by channel -/

/-- The red, green and blue parts of a colour are `channel 2`, `channel 1` and `channel 0`. -/
def channel (i c : ℕ) : ℕ := c / 256 ^ i % 256

/-- Each channel of the two colours is within the tolerance. -/
def WithinTolerance (tol : ℤ) (c1 c2 : ℕ) : Prop :=
  ∀ i < 3, |(channel i c1 : ℤ) - channel i c2| ≤ tol

theorem shiftRight_and (c i : ℕ) : (c >>> (8 * i)) &&& 255 = channel i c := by
  rw [Nat.shiftRight_eq_div_pow, Nat.pow_mul, channel]
  exact Nat.and_two_pow_sub_one_eq_mod _ 8

theorem specialColorNear_iff (c1 c2 : ℕ) (tol : ℤ) :
    specialColorNear c1 c2 tol = true ↔ WithinTolerance tol c1 c2 := by
  have hred (c : ℕ) : (c >>> 16) &&& 255 = channel 2 c := shiftRight_and c 2
  have hgreen (c : ℕ) : (c >>> 8) &&& 255 = channel 1 c := shiftRight_and c 1
  have hblue (c : ℕ) : c &&& 255 = channel 0 c := shiftRight_and c 0
  simp only [specialColorNear, hred, hgreen, hblue, Bool.and_eq_true, decide_eq_true_eq,
    Int.natCast_natAbs]
  constructor
  · intro h i hi
    obtain ⟨⟨h2, h1⟩, h0⟩ := h
    obtain rfl | rfl | rfl : i = 0 ∨ i = 1 ∨ i = 2 := by omega
    · exact h0
    · exact h1
    · exact h2
  · intro h
    exact ⟨⟨h 2 (by omega), h 1 (by omega)⟩, h 0 (by omega)⟩

/-! ## The scan -/

/-- The pixels that the scan visits. -/
def Target.grid (t : Target) : Set (ℤ × ℤ) := strided 4 t.x1 t.x2 ×ˢ strided 4 t.y1 t.y2

/-- The pixels of which some call of `PixelGetColor` does not get the colour. -/
def Env.unreadable (env : Env) : Set (ℤ × ℤ) := {p | ∃ n, env.pixelGetColor n p.1 p.2 = none}

/-- `PixelGetColor` reads from the screen `img`. -/
def Reads (img : ℤ × ℤ → ℕ) (env : Env) : Prop :=
  ∀ n x y c, env.pixelGetColor n x y = some c → c = img (x, y)

section Scan

variable {img : ℤ × ℤ → ℕ} {t : Target} {E : Abort Err → St → Prop} {r : Ctx} {s : St}

theorem wp_pixelGetColor (x y : ℤ) {Q : Option ℕ → St → Prop} : wp (pixelGetColor x y) Q E r s ↔
    Q (r.env.pixelGetColor s.asked x y)
      { s.record (.pixelGetColor x y s.view) with asked := s.asked + 1 } := by
  rw [pixelGetColor, wp_bind, wp_gets, wp_bind, wp_log, wp_ask]
  rfl

theorem wp_scanRow (hr : Reads img r.env) (yy xx : ℤ) (s : St) : wp (scanRow t yy xx)
    (fun hit _ => FindsBut r.env.unreadable (strided 4 xx t.x2 ×ˢ {yy} ∩ t.rgb img) hit) E r s := by
  revert s
  induction xx using scanRow.induct t with
  | case1 xx step hle ih =>
      intro s
      have hset : strided 4 xx t.x2 ×ˢ {yy} ∩ t.rgb img =
          ({(xx, yy)} ∩ t.rgb img) ∪ (strided 4 (xx + 4) t.x2 ×ˢ {yy} ∩ t.rgb img) := by
        rw [Strided.eq_insert (by decide) hle, Set.insert_prod, Set.union_inter_distrib_right,
          Set.image_singleton]
      rw [scanRow, if_pos hle, wp_bind, wp_pixelGetColor, hset]
      cases hc : r.env.pixelGetColor s.asked xx yy with
      | none =>
          refine wp_imp (ih _) fun hit s' hrest => .next ?_ hrest
          intro p hp
          obtain ⟨rfl, -⟩ := hp
          exact ⟨s.asked, hc⟩
      | some c =>
          obtain rfl := hr _ _ _ _ hc
          refine wp_ite (fun hnear => (wp_pure _).2 (.inl ⟨rfl, hnear⟩)) fun hfar => ?_
          refine wp_imp (ih _) fun hit s' hrest => .next ?_ hrest
          intro p hp
          obtain ⟨rfl, hnear⟩ := hp
          exact absurd hnear hfar
  | case2 xx hle =>
      intro s
      rw [scanRow, if_neg hle, wp_pure, Strided.eq_empty (not_le.1 hle), Set.empty_prod,
        Set.empty_inter]
      exact .empty

theorem wp_slowScan (hr : Reads img r.env) (yy : ℤ) (s : St) : wp (slowScan t yy)
    (fun hit _ => FindsBut r.env.unreadable
      (strided 4 t.x1 t.x2 ×ˢ strided 4 yy t.y2 ∩ t.rgb img) hit) E r s := by
  revert s
  induction yy using slowScan.induct t with
  | case1 yy step hle ih =>
      intro s
      have hset : strided 4 t.x1 t.x2 ×ˢ strided 4 yy t.y2 ∩ t.rgb img =
          (strided 4 t.x1 t.x2 ×ˢ {yy} ∩ t.rgb img) ∪
            (strided 4 t.x1 t.x2 ×ˢ strided 4 (yy + 4) t.y2 ∩ t.rgb img) := by
        rw [Strided.eq_insert (by decide) hle, Set.insert_eq, Set.prod_union,
          Set.union_inter_distrib_right]
      rw [slowScan, if_pos hle, wp_bind, hset]
      apply wp_imp (wp_scanRow hr yy t.x1 s)
      intro hit s' hrow
      cases hit with
      | some p => exact (wp_pure _).2 (.inl hrow)
      | none => exact wp_imp (ih s') fun hit s'' hrest => .next hrow hrest
  | case2 yy hle =>
      intro s
      rw [slowScan, if_neg hle, wp_pure, Strided.eq_empty (not_le.1 hle), Set.prod_empty,
        Set.empty_inter]
      exact .empty

end Scan

/-! ## The two fast searches -/

/-- A fixed screen `img`: `PixelSearch`, when it does not throw, finds a pixel of its rectangle
exactly when there is one within the tolerance, and `PixelGetColor` reads what is there. -/
structure Displays (img : ℤ × ℤ → ℕ) (env : Env) : Prop where
  search : ∀ n q, env.pixelSearch n q ≠ .threw →
    Finds (q.span ∩ {p | WithinTolerance q.variation (img p) q.color}) (env.pixelSearch n q).found
  reads : Reads img env

def Target.query (t : Target) (color : ℕ) : Search := ⟨t.x1, t.y1, t.x2, t.y2, color, t.tol⟩

/-- What the RGB and the BGR search come back with, the first of them called in `s`. -/
def Target.answers (t : Target) (r : Ctx) (s : St) : PixelResult × PixelResult :=
  (r.env.pixelSearch s.asked (t.query t.colorRGB),
    r.env.pixelSearch (s.asked + 1) (t.query t.colorBGR))

def Target.answer (t : Target) (r : Ctx) (s : St) : Option (ℤ × ℤ) :=
  (t.answers r s).1.found.or (t.answers r s).2.found

section FastSearches

variable {img : ℤ × ℤ → ℕ} {t : Target} {E : Abort Err → St → Prop} {r : Ctx} {s : St}

theorem wp_searchTarget_fast : wp (Wagon.searchTarget true t)
    (fun hit _ => hit = t.answer r s) E r s := by
  rw [Wagon.searchTarget, wp_bind]
  apply wp_imp (wp_searchBoth t _ _ _ _)
  intro hit s' h
  cases hit with
  | some p => exact (wp_pure _).2 h
  | none => exact (wp_pure _).2 h

/-- The scan begins where the fast searches have come back without a hit. -/
theorem wp_searchTarget_slow (hr : Reads img r.env) : wp (Wagon.searchTarget false t)
    (fun hit _ => (t.answer r s).isSome = true ∧ hit = t.answer r s ∨
      t.answer r s = none ∧ FindsBut r.env.unreadable (t.grid ∩ t.rgb img) hit) E r s := by
  rw [Wagon.searchTarget, wp_bind]
  apply wp_imp (wp_searchBoth t _ _ _ _)
  intro hit s' h
  rw [show t.answer r s = hit from h.symm]
  cases hit with
  | some p => exact (wp_pure _).2 (.inl ⟨rfl, rfl⟩)
  | none =>
      exact wp_imp (wp_slowScan hr t.y1 s') fun _ _ hscan => .inr ⟨rfl, hscan⟩

theorem Target.grid_subset (t : Target) : t.grid ⊆ t.pixels :=
  Set.prod_mono Strided.subset_Icc Strided.subset_Icc

/-- A search that neither throws nor hits leaves nothing for the scan to find. -/
theorem Displays.grid_eq_empty (h : Displays img r.env) (hx : t.x1 ≤ t.x2) (hy : t.y1 ≤ t.y2)
    (hthrow : (t.answers r s).1 ≠ .threw) (hnone : (t.answers r s).1.found = none) :
    t.grid ∩ t.rgb img = ∅ := by
  have hfinds := h.search _ _ hthrow
  rw [show (r.env.pixelSearch s.asked (t.query t.colorRGB)).found = none from hnone] at hfinds
  have hempty : (t.query t.colorRGB).span ∩ t.rgb img = ∅ := by
    have hnear : t.rgb img = {p | WithinTolerance t.tol (img p) t.colorRGB} :=
      Set.ext fun p => specialColorNear_iff _ _ _
    rw [hnear]
    exact hfinds
  rw [Target.query, Target.span_eq_pixels hx hy] at hempty
  exact Set.subset_empty_iff.1 ((Set.inter_subset_inter_left _ t.grid_subset).trans hempty.subset)

end FastSearches

/-! ## Whole calls -/

section Calls

variable {img : ℤ × ℤ → ℕ} {node : Node} {r : Ctx} {s s₁ : St} {rect : Rect}

theorem fast_returns (haim : aim.run r s = (.ok rect, s₁))
    (hhex : normalizeHex node.colorHex false ≠ "") :
    ∃ s', (Wagon.specialFindTargetColor node true).run r s =
      (.ok ((node.target rect).answer r s₁), s') := by
  have hfast : wp (Wagon.specialFindTargetColor node true)
      (fun hit _ => hit = (node.target rect).answer r s₁) (fun _ _ => False) r s := by
    rw [Wagon.specialFindTargetColor]
    exact wp_find haim hhex wp_searchTarget_fast
  obtain ⟨hit, s', hrun, rfl⟩ := exists_value hfast
  exact ⟨s', hrun⟩

theorem slow_returns (hr : Reads img r.env) (haim : aim.run r s = (.ok rect, s₁))
    (hhex : normalizeHex node.colorHex false ≠ "") :
    ∃ hit s', (Wagon.specialFindTargetColor node false).run r s = (.ok hit, s') ∧
      (((node.target rect).answer r s₁).isSome = true ∧ hit = (node.target rect).answer r s₁ ∨
        (node.target rect).answer r s₁ = none ∧ FindsBut r.env.unreadable
          ((node.target rect).grid ∩ (node.target rect).rgb img) hit) := by
  apply exists_value
  rw [Wagon.specialFindTargetColor]
  exact wp_find haim hhex (wp_searchTarget_slow hr)

/-- The scan visits a pixel of every block of four by four. -/
theorem Target.exists_mem_grid {t : Target} {S : Set (ℤ × ℤ)} {a b c d : ℤ} (hab : a + 3 ≤ b)
    (hcd : c + 3 ≤ d) (h : Set.Icc a b ×ˢ Set.Icc c d ⊆ t.pixels ∩ S) : (t.grid ∩ S).Nonempty := by
  have hblock : Set.Icc a (a + 4 - 1) ×ˢ Set.Icc c (c + 4 - 1) ⊆ t.pixels ∩ S :=
    (Set.prod_mono (Set.Icc_subset_Icc_right (by omega))
      (Set.Icc_subset_Icc_right (by omega))).trans h
  have hcorner {x y : ℤ} (hx : x ∈ Set.Icc a (a + 4 - 1)) (hy : y ∈ Set.Icc c (c + 4 - 1)) :
      x ∈ Set.Icc t.x1 t.x2 ∧ y ∈ Set.Icc t.y1 t.y2 := (hblock (Set.mk_mem_prod hx hy)).1
  have ha : a ∈ Set.Icc a (a + 4 - 1) := Set.left_mem_Icc.2 (by omega)
  have hc : c ∈ Set.Icc c (c + 4 - 1) := Set.left_mem_Icc.2 (by omega)
  obtain ⟨p, hp, hpb⟩ := Strided.exists_mem_prod (by decide) (by decide)
    (fun x hx => (hcorner hx hc).1) (fun y hy => (hcorner ha hy).2)
  exact ⟨p, hp, (hblock hpb).2⟩

/-- Every call returns. After an RGB search that does not throw it returns what a fast call returns;
after two searches that throw it returns only matching pixels of the rectangle, and one of them if
there is a block of at least four by four. -/
theorem slow_scan_correct (img : ℤ × ℤ → ℕ) (node : Node) (r : Ctx) (s s₁ : St) (rect : Rect)
    (hscreen : Displays img r.env) (haim : aim.run r s = (.ok rect, s₁))
    (hhex : normalizeHex node.colorHex false ≠ "") (hw : 0 < rect.w) (hh : 0 < rect.h) :
    ∃ hit s', (Wagon.specialFindTargetColor node false).run r s = (.ok hit, s') ∧
      (((node.target rect).answers r s₁).1 ≠ .threw →
        ∃ s'', (Wagon.specialFindTargetColor node true).run r s = (.ok hit, s'')) ∧
      ((node.target rect).answers r s₁ = (.threw, .threw) →
        (∀ p, hit = some p → p ∈ (node.target rect).pixels ∧
          specialColorNear (img p) (node.target rect).colorRGB node.tolerance = true) ∧
        (Disjoint (node.target rect).grid r.env.unreadable → ∀ a b c d, a + 3 ≤ b → c + 3 ≤ d →
          Set.Icc a b ×ˢ Set.Icc c d ⊆ (node.target rect).pixels ∩ (node.target rect).rgb img →
          hit.isSome = true)) := by
  obtain ⟨hit, s', hrun, hslow⟩ := slow_returns hscreen.reads haim hhex
  obtain ⟨s'', hfast⟩ := fast_returns haim hhex
  refine ⟨hit, s', hrun, fun hthrow => ?_, fun hthrew => ?_⟩
  · obtain ⟨-, rfl⟩ | ⟨hnone, hbut⟩ := hslow
    · exact ⟨s'', hfast⟩
    · have hmiss := (Option.or_eq_none_iff.1 hnone).1
      rw [hscreen.grid_eq_empty (node.target_x_le hw) (node.target_y_le hh) hthrow hmiss] at hbut
      rw [hnone] at hfast
      exact ⟨s'', hbut.eq_none ▸ hfast⟩
  · have hnone : (node.target rect).answer r s₁ = none := by
      rw [Target.answer, hthrew]
      rfl
    obtain ⟨hsome, -⟩ | ⟨-, hbut⟩ := hslow
    · rw [hnone] at hsome
      exact nomatch hsome
    · refine ⟨?_, fun hread a b c d hab hcd hblock => ?_⟩
      · rintro p rfl
        exact ⟨Target.grid_subset _ hbut.1, hbut.2⟩
      · have hfinds := hbut.finds (hread.mono_left Set.inter_subset_left)
        exact hfinds.isSome_iff.2 (Target.exists_mem_grid hab hcd hblock)

end Calls

/-- Searches that throw on a screen of which every pixel has the colour. -/
def plainScreen : Ctx :=
  { env := { Env.idle with
      pixelSearch := fun _ _ => .threw
      pixelGetColor := fun _ _ _ => some 0xCDE3FE } }

theorem plain_screen_is_hit : ∃ p s',
    (Wagon.specialFindTargetColor sampleNode false).run plainScreen {} = (.ok (some p), s') ∧
      p ∈ (sampleNode.target ⟨0, 0, 800, 600⟩).pixels := by
  have hscreen : Displays (fun _ => 0xCDE3FE) plainScreen.env :=
    ⟨fun _ _ h => absurd rfl h, fun _ _ _ _ h => (Option.some.inj h).symm⟩
  obtain ⟨hit, s', hrun, -, hthrew⟩ := slow_scan_correct (fun _ => 0xCDE3FE) sampleNode plainScreen
    {} _ ⟨0, 0, 800, 600⟩ hscreen rfl (by decide) (by decide) (by decide)
  obtain ⟨hsound, hcomplete⟩ := hthrew rfl
  have hread : Disjoint (sampleNode.target ⟨0, 0, 800, 600⟩).grid plainScreen.env.unreadable :=
    Set.disjoint_left.2 fun _ _ h => nomatch h.choose_spec
  have hmatch : specialColorNear 0xCDE3FE
      (sampleNode.target ⟨0, 0, 800, 600⟩).colorRGB sampleNode.tolerance = true := by decide +kernel
  obtain ⟨p, rfl⟩ := Option.isSome_iff_exists.1 (hcomplete hread 0 799 0 599 (by decide) (by decide)
    fun p hp => ⟨hp, hmatch⟩)
  exact ⟨p, s', hrun, (hsound p rfl).1⟩

end WagonMove
