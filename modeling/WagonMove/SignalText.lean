import Mathlib.Data.Bool.AllAny
import WagonMove.Ini
import WagonMove.Flow

/-!
# The signal as a text

The detail of a signal goes into an INI text as it is. Read line by line, the text gives back what
has been signalled exactly if the detail has no line break.
-/

namespace WagonMove

/-- Where a reader ends a line; whether a lone carriage return does so is up to the reader. -/
def lineBreak (cr : Bool) (c : Char) : Bool := c == '\n' || (cr && c == '\r')

/-- A text is a well-formed INI document with the one section `Result`, in which each key occurs
once, and its values are the status, the detail up to blanks at its ends, and the tick. -/
structure Decodes (cr : Bool) (text : List Char) (status : Status) (detail : String) (tick : ℕ) :
    Prop where
  wellFormed : .other ∉ Ini.lines (lineBreak cr) isBlank text
  result : ∃ sec, Ini.read (lineBreak cr) isBlank text = [sec] ∧ sec.name = "Result".toList ∧
    sec.values "status".toList = [status.text.toList] ∧
    sec.values "detail".toList = [trimChars detail.toList] ∧
    (sec.values "tick".toList).map (Nat.ofDigitChars 10 · 0) = [tick]

theorem isBlank_of_lineBreak {cr : Bool} {c : Char} (h : lineBreak cr c = true) :
    isBlank c = false := by
  simp only [lineBreak, Bool.or_eq_true, Bool.and_eq_true, beq_iff_eq] at h
  obtain rfl | ⟨-, rfl⟩ := h <;> rfl

theorem toList_signalContent_lines (status : Status) (detail : String) (tick : ℕ) :
    (signalContent status detail tick).toList = "[Result]".toList ++ '\n' ::
      ("status".toList ++ '=' :: status.text.toList ++ '\n' ::
        ("detail".toList ++ '=' :: detail.toList ++ '\n' ::
          ("tick".toList ++ '=' :: (toString tick).toList ++ '\n' :: []))) := by
  rw [toList_signalContent]
  simp

theorem isDigit_of_mem_toString {tick : ℕ} {c : Char} (h : c ∈ (toString tick).toList) :
    c.isDigit = true := by
  rw [Nat.toString_eq_repr, Nat.toList_repr] at h
  exact Nat.isDigit_of_mem_toDigits (by decide) (by decide) h

theorem not_lineBreak_of_isDigit (cr : Bool) {c : Char} (h : c.isDigit = true) :
    lineBreak cr c = false ∧ isBlank c = false := by
  constructor
  · rw [Bool.eq_false_iff]
    intro hbreak
    simp only [lineBreak, Bool.or_eq_true, Bool.and_eq_true, beq_iff_eq] at hbreak
    obtain rfl | ⟨-, rfl⟩ := hbreak <;> cases h
  · rw [Bool.eq_false_iff]
    intro hblank
    simp only [isBlank, Bool.or_eq_true, decide_eq_true_eq] at hblank
    obtain rfl | rfl := hblank <;> cases h

theorem lines_signalContent {cr : Bool} {detail : String} (status : Status) (tick : ℕ)
    (h : ∀ c ∈ detail.toList, lineBreak cr c = false) :
    Ini.lines (lineBreak cr) isBlank (signalContent status detail tick).toList =
      [.header "Result".toList, .entry "status".toList status.text.toList,
        .entry "detail".toList (trimChars detail.toList),
        .entry "tick".toList (toString tick).toList, .empty] := by
  have hnewline : lineBreak cr '\n' = true := by cases cr <;> rfl
  have hheader : ∀ c ∈ "[Result]".toList, lineBreak cr c = false := by
    cases cr <;> exact List.all_iff_forall_prop.1 (by decide)
  have hstatus : ∀ c ∈ "status".toList ++ '=' :: status.text.toList, lineBreak cr c = false := by
    cases cr <;> cases status <;> exact List.all_iff_forall_prop.1 (by decide)
  have hdetail : ∀ c ∈ "detail".toList ++ '=' :: detail.toList, lineBreak cr c = false := by
    rw [List.forall_mem_append, List.forall_mem_cons]
    exact ⟨by cases cr <;> exact List.all_iff_forall_prop.1 (by decide), by cases cr <;> rfl, h⟩
  have htick : ∀ c ∈ "tick".toList ++ '=' :: (toString tick).toList, lineBreak cr c = false := by
    rw [List.forall_mem_append, List.forall_mem_cons]
    refine ⟨by cases cr <;> exact List.all_iff_forall_prop.1 (by decide), by cases cr <;> rfl,
      fun c hc => ?_⟩
    exact (not_lineBreak_of_isDigit cr (isDigit_of_mem_toString hc)).1
  have hdigits : Ini.trim isBlank (toString tick).toList = (toString tick).toList :=
    Ini.trim_eq_self fun c hc => (not_lineBreak_of_isDigit cr (isDigit_of_mem_toString hc)).2
  have hreadDetail : Ini.readLine isBlank ("detail".toList ++ '=' :: detail.toList) =
      .entry "detail".toList (trimChars detail.toList) :=
    Ini.readLine_entry ⟨'d', "etail".toList, rfl, by decide, by decide⟩
      (List.all_iff_forall_prop.1 (by decide))
  have hreadTick : Ini.readLine isBlank ("tick".toList ++ '=' :: (toString tick).toList) =
      .entry "tick".toList (toString tick).toList :=
    (Ini.readLine_entry ⟨'t', "ick".toList, rfl, by decide, by decide⟩
      (List.all_iff_forall_prop.1 (by decide))).trans (congrArg _ hdigits)
  rw [toList_signalContent_lines, Ini.lines_append hheader hnewline,
    Ini.lines_append hstatus hnewline, Ini.lines_append hdetail hnewline,
    Ini.lines_append htick hnewline, Ini.lines_nil, hreadDetail, hreadTick]
  cases status <;> rfl

theorem Decodes.unbroken {cr : Bool} {text : List Char} {status : Status} {detail : String}
    {tick : ℕ} (h : Decodes cr text status detail tick) :
    ∀ c ∈ detail.toList, lineBreak cr c = false := by
  obtain ⟨-, sec, hread, -, -, hdetail, -⟩ := h
  intro c hc
  have hsplit : c ∈ trimChars detail.toList ∨ isBlank c = true := Ini.mem_trim_or_blank hc
  obtain hc | hc := hsplit
  · have hmem : trimChars detail.toList ∈ sec.values "detail".toList := by
      rw [hdetail]
      exact List.mem_singleton_self _
    have hsec : sec ∈ Ini.read (lineBreak cr) isBlank text := by
      rw [hread]
      exact List.mem_singleton_self _
    obtain ⟨e, he, hvalue⟩ := List.mem_map.1 hmem
    exact Ini.values_unbroken text sec hsec e (List.mem_of_mem_filter he) c (hvalue ▸ hc)
  · rw [Bool.eq_false_iff]
    exact fun hbreak => Bool.false_ne_true ((isBlank_of_lineBreak hbreak).symm.trans hc)

/-- The text of a signal decodes to what has been signalled exactly if its detail has no line
break. -/
theorem signal_decodes_iff (cr : Bool) (status : Status) (detail : String) (tick : ℕ) :
    Decodes cr (signalContent status detail tick).toList status detail tick ↔
      ∀ c ∈ detail.toList, lineBreak cr c = false := by
  refine ⟨Decodes.unbroken, fun h => ?_⟩
  have hlines := lines_signalContent status tick h
  have hread := congrArg (fun ls => (ls.foldl Ini.addLine []).reverse) hlines
  refine ⟨by rw [hlines]; simp, ⟨"Result".toList, _⟩, hread, rfl, rfl, rfl, ?_⟩
  change [Nat.ofDigitChars 10 (toString tick).toList 0] = [tick]
  rw [Nat.toString_eq_repr, Nat.toList_repr, Nat.ofDigitChars_ten_toDigits]

def brokenMessage : Env := { Env.idle with winActivate := fun _ => some ⟨"failed\nstatus=ok"⟩ }

/-- The run signals it as it is, and no reader gets it back. -/
theorem broken_detail_is_lost :
    ∃ tick, (execute .wagonMove ⟨none, none, none⟩ 1 brokenMessage fun _ => none).2.files
        "C:\\scripts\\wagon_done.ini" = some (signalContent .error "failed\nstatus=ok" tick) ∧
      ∀ cr, ¬Decodes cr (signalContent .error "failed\nstatus=ok" tick).toList .error
        "failed\nstatus=ok" tick := by
  refine ⟨1, by decide +kernel, fun cr h => ?_⟩
  exact absurd (h.unbroken '\n' (by decide)) (by cases cr <;> decide)

end WagonMove
