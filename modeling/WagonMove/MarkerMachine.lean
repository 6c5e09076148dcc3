import WagonMove.Marker

/-!
# The marker as a state machine

Any interleaving of showing, hiding and animation frames keeps at most one window, an idle marker
stands at its target, and an animation approaches its target monotonically and ends.
-/

namespace WagonMove.Marker

theorem frameShare_nonneg : 0 ≤ frameShare := by norm_num [frameShare]

theorem frameShare_le_one : frameShare ≤ 1 := by norm_num [frameShare]

/-- One frame brings neither axis further from the target and passes it on neither. -/
theorem tick_approaches {m : Marker} (h : Inv m) :
    (|m.tgtX - m.tick.curX| ≤ |m.tgtX - m.curX| ∧ m.tick.curX ∈ Set.uIcc m.curX m.tgtX) ∧
      (|m.tgtY - m.tick.curY| ≤ |m.tgtY - m.curY| ∧ m.tick.curY ∈ Set.uIcc m.curY m.tgtY) := by
  cases ht : m.timer with
  | false => simp [tick_of_off ht]
  | true =>
      obtain ⟨-, -, he⟩ | ⟨-, d, he⟩ := tick_cases h ht
      · simp [he]
      · have hle := @EaseOut.abs_gap_ease_le ℚ _ _ _ frameShare
        have hmem := @EaseOut.ease_mem_uIcc ℚ _ _ _ frameShare
        rw [he]
        exact ⟨⟨hle frameShare_nonneg frameShare_le_one, hmem frameShare_nonneg frameShare_le_one⟩,
          hle frameShare_nonneg frameShare_le_one, hmem frameShare_nonneg frameShare_le_one⟩

theorem iterate_tick_targets {m : Marker} (h : Inv m) (n : ℕ) :
    (tick^[n] m).tgtX = m.tgtX ∧ (tick^[n] m).tgtY = m.tgtY ∧ (tick^[n] m).gui = m.gui := by
  induction n with
  | zero => exact ⟨rfl, rfl, rfl⟩
  | succ n ih =>
      rw [Function.iterate_succ_apply']
      obtain ⟨hx, hy, hg⟩ := tick_targets (h.iterate_tick n)
      exact ⟨hx.trans ih.1, hy.trans ih.2.1, hg.trans ih.2.2⟩

/-- While the timer stays on, the frames are the iterates of the ease-out on both axes. -/
theorem iterate_tick_eq_ease {m : Marker} (h : Inv m) (n : ℕ)
    (ht : (tick^[n] m).timer = true) :
    (tick^[n] m).curX = (EaseOut.ease frameShare m.tgtX)^[n] m.curX ∧
      (tick^[n] m).curY = (EaseOut.ease frameShare m.tgtY)^[n] m.curY := by
  induction n with
  | zero => exact ⟨rfl, rfl⟩
  | succ n ih =>
      rw [Function.iterate_succ_apply'] at ht
      obtain ⟨hx, hy, -⟩ := iterate_tick_targets h n
      have hon : (tick^[n] m).timer = true := by
        by_contra hoff
        rw [tick_of_off (by simpa using hoff)] at ht
        exact hoff ht
      obtain ⟨ihx, ihy⟩ := ih hon
      obtain ⟨-, -, he⟩ | ⟨-, d, he⟩ := tick_cases (h.iterate_tick n) hon
      · rw [he] at ht
        simp at ht
      · simp only [Function.iterate_succ_apply', he, ihx, ihy, hx, hy, and_self]

theorem settles {m : Marker} (h : Inv m) (hg : m.gui ≠ none) :
    ∃ n, (tick^[n] m).timer = false ∧
      (tick^[n] m).curX = m.tgtX ∧ (tick^[n] m).curY = m.tgtY := by
  obtain ⟨n, hnx, hny⟩ := EaseOut.exists_abs_gap_le₂ (by norm_num [frameShare]) frameShare_le_one
    m.tgtX m.curX m.tgtY m.curY one_pos
  have hn := h.iterate_tick n
  obtain ⟨htx, hty, htg⟩ := iterate_tick_targets h n
  cases ht : (tick^[n] m).timer with
  | false =>
      obtain ⟨hx, hy⟩ := hn.at_target (by rwa [htg]) ht
      exact ⟨n, ht, hx.trans htx, hy.trans hty⟩
  | true =>
      obtain ⟨hx, hy⟩ := iterate_tick_eq_ease h n ht
      obtain ⟨-, -, he⟩ | ⟨hfar, -⟩ := tick_cases hn ht
      · refine ⟨n + 1, ?_⟩
        rw [Function.iterate_succ_apply', he]
        exact ⟨rfl, htx, hty⟩
      · rw [htx, hty, hx, hy] at hfar
        exact absurd ⟨hnx, hny⟩ hfar

/-- The laws of the marker after any sequence of operations. A marker that was hidden in
mid-animation keeps a stale position, so only a live marker is promised to arrive. -/
theorem marker_laws (f : ScriptFile) (ops : List Op) :
    ((after f ops).windows.length ≤ 1 ∧ (after f ops).windows = (after f ops).gui.toList) ∧
    ((after f ops).timer = true → (after f ops).gui ≠ none) ∧
    ((after f ops).gui ≠ none → (after f ops).timer = false →
      (after f ops).curX = (after f ops).tgtX ∧ (after f ops).curY = (after f ops).tgtY) ∧
    (∀ n, ∀ m, m = tick^[n] (after f ops) →
      (m.tick.tgtX = m.tgtX ∧ m.tick.tgtY = m.tgtY) ∧
      (|m.tgtX - m.tick.curX| ≤ |m.tgtX - m.curX| ∧ m.tick.curX ∈ Set.uIcc m.curX m.tgtX) ∧
      (|m.tgtY - m.tick.curY| ≤ |m.tgtY - m.curY| ∧ m.tick.curY ∈ Set.uIcc m.curY m.tgtY)) ∧
    ((after f ops).gui ≠ none → ∃ n, (tick^[n] (after f ops)).timer = false ∧
      (tick^[n] (after f ops)).curX = (after f ops).tgtX ∧
      (tick^[n] (after f ops)).curY = (after f ops).tgtY) := by
  have h := inv_after f ops
  refine ⟨⟨?_, h.windows_eq⟩, h.gui_of_timer, h.at_target, ?_, settles h⟩
  · rw [h.windows_eq]
    cases (after f ops).gui <;> simp
  · rintro n m rfl
    have hn := h.iterate_tick n
    exact ⟨⟨(tick_targets hn).1, (tick_targets hn).2.1⟩, tick_approaches hn⟩

/-- Hiding a marker in mid-animation leaves it off target for good. -/
theorem hidden_marker_stays_off_target :
    ¬∃ n, (tick^[n] (after .wagonMove [.show 0 0, .show 100 0, .hide])).curX =
        (tick^[n] (after .wagonMove [.show 0 0, .show 100 0, .hide])).tgtX ∧
      (tick^[n] (after .wagonMove [.show 0 0, .show 100 0, .hide])).timer = false := by
  rintro ⟨n, h⟩
  have hfix : tick (after .wagonMove [.show 0 0, .show 100 0, .hide]) =
      after .wagonMove [.show 0 0, .show 100 0, .hide] := tick_of_off rfl
  rw [Function.iterate_fixed hfix] at h
  exact absurd h (by decide +kernel)

end WagonMove.Marker
