import Mathlib.Algebra.Order.Floor.Defs
import Mathlib.Data.Rat.Floor
import WagonMove.EaseOut

/-!
# The detection marker

`ShowSpecialMarker`, `_AnimateSpecialMarker` and `HideSpecialMarker` with the globals they share.
Windows are counted apart from the handle `specialMarkerGui`, so that a window whose handle was
lost would still be seen. Positions are exact rationals; 0.35 is 7/20.
-/

namespace WagonMove

/-- The two scripts: `wagon_move.ahk` and `alien_wagon_move.ahk`. -/
inductive ScriptFile where
  | wagonMove
  | alienWagonMove
  deriving DecidableEq

/-- AutoHotkey's `Round`: to the nearest integer, halves away from zero. -/
def round (q : ℚ) : ℤ := if 0 ≤ q then ⌊q + 1 / 2⌋ else ⌈q - 1 / 2⌉

structure Marker where
  /-- `specialMarkerGui`; `none` is the empty string. -/
  gui : Option ℕ := none
  windows : List ℕ := []
  /-- How many `Gui` objects have been made; each gets a fresh handle. -/
  made : ℕ := 0
  curX : ℚ := 0
  curY : ℚ := 0
  tgtX : ℚ := 0
  tgtY : ℚ := 0
  drawn : Option (ℤ × ℤ) := none
  /-- Whether the timer of `_AnimateSpecialMarker` is on. -/
  timer : Bool := false
  deriving DecidableEq

namespace Marker

/-- The common body of `ShowSpecialMarker`, from the target position on. -/
def showAt (tx ty : ℤ) (m : Marker) : Marker :=
  match m.gui with
  | some _ => { m with tgtX := tx, tgtY := ty, timer := true }
  | none =>
    { m with
      tgtX := tx, tgtY := ty, gui := some m.made, windows := m.made :: m.windows
      made := m.made + 1, drawn := some (tx, ty), curX := tx, curY := ty }

def showSpecialMarker : ScriptFile → ℤ → ℤ → Marker → Marker
  | .wagonMove, x, y, m =>
    let specialMarkerW := 86
    m.showAt (x - specialMarkerW / 2) (y + 14)
  | .alienWagonMove, x, y, m =>
    let specialMarkerW := 10
    let specialMarkerH := 10
    m.showAt (x - specialMarkerW / 2) (y - specialMarkerH / 2)

/-- The share of the remaining distance that one frame covers. -/
def frameShare : ℚ := 7 / 20

def animateSpecialMarker (m : Marker) : Marker :=
  match m.gui with
  | none => { m with timer := false }
  | some _ =>
    let dx := m.tgtX - m.curX
    let dy := m.tgtY - m.curY
    if |dx| ≤ 1 ∧ |dy| ≤ 1 then
      { m with
        curX := m.tgtX, curY := m.tgtY, drawn := some (round m.tgtX, round m.tgtY), timer := false }
    else
      let curX := m.curX + dx * frameShare
      let curY := m.curY + dy * frameShare
      { m with curX := curX, curY := curY, drawn := some (round curX, round curY) }

def hideSpecialMarker (m : Marker) : Marker :=
  { m with
    timer := false, windows := m.windows.filter (fun i => m.gui ≠ some i), gui := none
    drawn := none }

/-- A timer period passes: the timer fires only while it is on. -/
def tick (m : Marker) : Marker := if m.timer then m.animateSpecialMarker else m

/-- What the scripts and the timer do to the marker. -/
inductive Op where
  | show (x y : ℤ)
  | hide
  | tick

def step (f : ScriptFile) (m : Marker) : Op → Marker
  | .show x y => m.showSpecialMarker f x y
  | .hide => m.hideSpecialMarker
  | .tick => m.tick

def after (f : ScriptFile) (ops : List Op) : Marker := ops.foldl (step f) {}

/-! ## The invariant -/

/-- The handle is the one live window, the timer needs a live window, and a live window whose
timer is off stands at its target. -/
structure Inv (m : Marker) : Prop where
  windows_eq : m.windows = m.gui.toList
  gui_of_timer : m.timer = true → m.gui ≠ none
  at_target : m.gui ≠ none → m.timer = false → m.curX = m.tgtX ∧ m.curY = m.tgtY

theorem inv_init : Inv {} := ⟨rfl, by simp, by simp⟩

theorem showSpecialMarker_eq (f : ScriptFile) (x y : ℤ) (m : Marker) :
    ∃ tx ty, m.showSpecialMarker f x y = m.showAt tx ty := by
  cases f <;> exact ⟨_, _, rfl⟩

theorem Inv.showAt {m : Marker} (h : Inv m) (tx ty : ℤ) : Inv (m.showAt tx ty) := by
  cases hg : m.gui with
  | none =>
      have hw := h.windows_eq
      have ht : m.timer = false := by
        by_contra hn
        exact h.gui_of_timer (by simpa using hn) hg
      constructor <;> simp [Marker.showAt, hg, hw, ht]
  | some i =>
      have hw := h.windows_eq
      constructor <;> simp [Marker.showAt, hg, hw]

theorem Inv.hideSpecialMarker {m : Marker} (h : Inv m) : Inv m.hideSpecialMarker := by
  have hw := h.windows_eq
  constructor
  · cases hg : m.gui <;> simp [Marker.hideSpecialMarker, hg, hw]
  · simp [Marker.hideSpecialMarker]
  · simp [Marker.hideSpecialMarker]

/-! ## One frame of the animation -/

theorem tick_of_off {m : Marker} (h : m.timer = false) : m.tick = m := by simp [tick, h]

/-- A frame with the timer on either arrives and stops, or eases both axes and goes on. -/
theorem tick_cases {m : Marker} (h : Inv m) (ht : m.timer = true) :
    (|m.tgtX - m.curX| ≤ 1 ∧ |m.tgtY - m.curY| ≤ 1 ∧
      m.tick = { m with
        curX := m.tgtX, curY := m.tgtY, drawn := some (round m.tgtX, round m.tgtY)
        timer := false }) ∨
    (¬(|m.tgtX - m.curX| ≤ 1 ∧ |m.tgtY - m.curY| ≤ 1) ∧
      ∃ d, m.tick = { m with
        curX := EaseOut.ease frameShare m.tgtX m.curX
        curY := EaseOut.ease frameShare m.tgtY m.curY, drawn := d }) := by
  obtain ⟨i, hg⟩ := Option.ne_none_iff_exists'.1 (h.gui_of_timer ht)
  by_cases hn : |m.tgtX - m.curX| ≤ 1 ∧ |m.tgtY - m.curY| ≤ 1
  · exact .inl ⟨hn.1, hn.2, by simp only [tick, ht, if_true, animateSpecialMarker, hg, if_pos hn]⟩
  · refine .inr ⟨hn, m.animateSpecialMarker.drawn, ?_⟩
    simp only [tick, ht, if_true, animateSpecialMarker, hg, if_neg hn, EaseOut.ease]

theorem tick_targets {m : Marker} (h : Inv m) :
    m.tick.tgtX = m.tgtX ∧ m.tick.tgtY = m.tgtY ∧ m.tick.gui = m.gui := by
  cases ht : m.timer with
  | false => simp [tick_of_off ht]
  | true =>
      obtain ⟨-, -, he⟩ | ⟨-, d, he⟩ := tick_cases h ht <;> simp [he]

theorem Inv.tick {m : Marker} (h : Inv m) : Inv m.tick := by
  cases ht : m.timer with
  | false => rwa [tick_of_off ht]
  | true =>
      have hg := h.gui_of_timer ht
      obtain ⟨-, -, he⟩ | ⟨-, d, he⟩ := tick_cases h ht
      · rw [he]
        exact ⟨h.windows_eq, by simp, by simp⟩
      · rw [he]
        exact ⟨h.windows_eq, fun _ => hg, by simp [ht]⟩

theorem Inv.step {m : Marker} (h : Inv m) (f : ScriptFile) (op : Op) : Inv (m.step f op) := by
  cases op with
  | «show» x y =>
      obtain ⟨tx, ty, he⟩ := showSpecialMarker_eq f x y m
      rw [Marker.step, he]
      exact h.showAt tx ty
  | hide => exact h.hideSpecialMarker
  | tick => exact h.tick

theorem inv_after (f : ScriptFile) (ops : List Op) : Inv (after f ops) := by
  suffices ∀ m, Inv m → Inv (ops.foldl (step f) m) from this {} inv_init
  induction ops with
  | nil => exact fun _ h => h
  | cons op ops ih => exact fun m h => ih _ (h.step f op)

theorem Inv.iterate_tick {m : Marker} (h : Inv m) (n : ℕ) : Inv (Marker.tick^[n] m) := by
  induction n with
  | zero => exact h
  | succ n ih => rw [Function.iterate_succ_apply']; exact ih.tick

end Marker
end WagonMove
