import Mathlib.Data.List.DropRight

/-!
# Reading INI texts line by line

A text is cut into lines at the characters that `brk` accepts. A line in brackets opens a section,
`key=value` adds an entry to the last section opened, and both sides of an entry lose the blanks at
their ends. No line break of a text survives in the values that are read from it.
-/

namespace Ini

/-! ## Trimming -/

section Trim

variable {α : Type*} (blank : α → Bool)

def trim (cs : List α) : List α := (cs.dropWhile blank).rdropWhile blank

variable {blank} {c : α} {cs : List α}

theorem mem_of_mem_trim (h : c ∈ trim blank cs) : c ∈ cs :=
  (List.dropWhile_sublist blank).subset ((List.rdropWhile_prefix blank _).subset h)

/-- Trimming takes away nothing but blanks. -/
theorem mem_trim_or_blank (h : c ∈ cs) : c ∈ trim blank cs ∨ blank c = true := by
  rw [← List.takeWhile_append_dropWhile (p := blank) (l := cs), List.mem_append] at h
  obtain h | h := h
  · exact .inr (List.mem_takeWhile_imp h)
  · rw [← List.rdropWhile_append_rtakeWhile (p := blank) (l := cs.dropWhile blank),
      List.mem_append] at h
    exact h.imp_right List.mem_rtakeWhile_imp

theorem rdropWhile_cons (hc : blank c = false) :
    (c :: cs).rdropWhile blank = c :: cs.rdropWhile blank := by
  induction cs using List.reverseRecOn with
  | nil => rw [List.rdropWhile_singleton, if_neg (by simp [hc]), List.rdropWhile_nil]
  | append_singleton cs x ih =>
      rw [← List.cons_append, List.rdropWhile_concat, List.rdropWhile_concat, ih]
      split <;> rfl

theorem trim_cons (hc : blank c = false) : trim blank (c :: cs) = c :: cs.rdropWhile blank := by
  rw [trim, List.dropWhile_cons_of_neg (by simp [hc]), rdropWhile_cons hc]

theorem trim_eq_self (h : ∀ c ∈ cs, blank c = false) : trim blank cs = cs := by
  cases cs with
  | nil => rfl
  | cons c cs =>
      rw [trim_cons (h c (by simp)), List.rdropWhile_eq_self_iff.2]
      intro hl
      simp [h _ (List.mem_cons_of_mem _ (List.getLast_mem hl))]

end Trim

/-! ## Lines -/

inductive Line where
  | empty
  | comment
  | header (name : List Char)
  | entry (key value : List Char)
  | other
  deriving DecidableEq

structure Section where
  name : List Char
  entries : List (List Char × List Char)
  deriving DecidableEq

variable (brk blank : Char → Bool)

def readLine (l : List Char) : Line :=
  match trim blank l with
  | [] => .empty
  | ';' :: _ => .comment
  | '[' :: rest => if rest.getLast? = some ']' then .header (trim blank rest.dropLast) else .other
  | _ =>
    if '=' ∈ l then
      .entry (trim blank (l.takeWhile (· ≠ '='))) (trim blank ((l.dropWhile (· ≠ '=')).drop 1))
    else .other

/-- The effect of a line on the sections read so far, the last one first. -/
def addLine : List Section → Line → List Section
  | secs, .header name => ⟨name, []⟩ :: secs
  | sec :: secs, .entry key value => { sec with entries := sec.entries ++ [(key, value)] } :: secs
  | secs, _ => secs

def lines (text : List Char) : List Line := (text.splitOnP brk).map (readLine blank)

def read (text : List Char) : List Section := ((lines brk blank text).foldl addLine []).reverse

def Section.values (sec : Section) (key : List Char) : List (List Char) :=
  (sec.entries.filter fun e => e.1 = key).map Prod.snd

variable {brk blank}

theorem lines_append {l : List Char} (h : ∀ c ∈ l, brk c = false) {c : Char} (hc : brk c = true)
    (rest : List Char) :
    lines brk blank (l ++ c :: rest) = readLine blank l :: lines brk blank rest := by
  rw [lines, List.splitOnP_append_cons_of_forall_mem h c hc, List.map_cons, lines]

theorem lines_nil : lines brk blank [] = [.empty] := rfl

/-- An entry as it is written is read back, its value trimmed. -/
theorem readLine_entry {key value : List Char}
    (hhead : ∃ c rest, key = c :: rest ∧ c ≠ '[' ∧ c ≠ ';')
    (hkey : ∀ x ∈ key, blank x = false ∧ x ≠ '=') :
    readLine blank (key ++ '=' :: value) = .entry key (trim blank value) := by
  obtain ⟨c, key, rfl, hbracket, hcomment⟩ := hhead
  have hne : ∀ x ∈ c :: key, (decide (x ≠ '=')) = true := fun x hx => by simpa using (hkey x hx).2
  have htake : (c :: key ++ '=' :: value).takeWhile (· ≠ '=') = c :: key := by
    rw [List.takeWhile_append_of_pos hne, List.takeWhile_cons_of_neg (by simp), List.append_nil]
  have hdrop : ((c :: key ++ '=' :: value).dropWhile (· ≠ '=')).drop 1 = value := by
    rw [List.dropWhile_append_of_pos hne, List.dropWhile_cons_of_neg (by simp), List.drop_one,
      List.tail_cons]
  rw [readLine, List.cons_append, trim_cons (hkey c List.mem_cons_self).1, ← List.cons_append]
  split
  · contradiction
  · injection ‹_ = _› with hc
    exact absurd hc hcomment
  · injection ‹_ = _› with hc
    exact absurd hc hbracket
  · rw [if_pos (by simp), htake, hdrop, trim_eq_self fun x hx => (hkey x hx).1]

theorem forall_mem_splitOnP {α : Type*} {p : α → Bool} (xs : List α) :
    ∀ l ∈ xs.splitOnP p, ∀ x ∈ l, p x = false := by
  induction xs with
  | nil => simp
  | cons x xs ih =>
      rw [List.splitOnP_cons_eq_if_modifyHead]
      split
      · simpa using ih
      · rename_i hx
        obtain ⟨l, ls, hls⟩ := List.exists_cons_of_ne_nil (List.splitOnP_ne_nil p xs)
        rw [hls] at ih ⊢
        simp only [List.modifyHead_cons, List.forall_mem_cons] at ih ⊢
        exact ⟨⟨Bool.not_eq_true _ ▸ hx, ih.1⟩, ih.2⟩

theorem mem_of_readLine_eq_entry {l key value : List Char} (h : readLine blank l = .entry key value)
    {c : Char} (hc : c ∈ value) : c ∈ l := by
  unfold readLine at h
  split at h
  · cases h
  · cases h
  · split at h <;> cases h
  · split at h
    · cases h
      exact (List.dropWhile_sublist _).subset (List.mem_of_mem_drop (mem_of_mem_trim hc))
    · cases h

/-- The values that are read hold no line break. -/
theorem values_unbroken (text : List Char) : ∀ sec ∈ read brk blank text, ∀ e ∈ sec.entries,
    ∀ c ∈ e.2, brk c = false := by
  have hfold : ∀ (ls : List Line) (secs : List Section),
      (∀ key value, .entry key value ∈ ls → ∀ c ∈ value, brk c = false) →
      (∀ sec ∈ secs, ∀ e ∈ sec.entries, ∀ c ∈ e.2, brk c = false) →
      ∀ sec ∈ ls.foldl addLine secs, ∀ e ∈ sec.entries, ∀ c ∈ e.2, brk c = false := by
    intro ls
    induction ls with
    | nil => exact fun _ _ h => h
    | cons l ls ih =>
        intro secs hl hsecs
        refine ih _ (fun k v hm => hl k v (List.mem_cons_of_mem _ hm)) ?_
        cases l with
        | empty | comment | other => cases secs <;> exact hsecs
        | header name => simpa [addLine] using hsecs
        | entry key value =>
            cases secs with
            | nil => exact hsecs
            | cons sec secs =>
                simp only [List.forall_mem_cons] at hsecs
                simp only [addLine, List.forall_mem_cons, List.forall_mem_append]
                exact ⟨⟨hsecs.1, hl key value List.mem_cons_self, by simp⟩, hsecs.2⟩
  intro sec hsec
  refine hfold (lines brk blank text) [] (fun key value hm c hc => ?_) (by simp) sec
    (List.mem_reverse.1 hsec)
  obtain ⟨l, hl, hline⟩ := List.mem_map.1 hm
  exact forall_mem_splitOnP text l hl c (mem_of_readLine_eq_entry hline hc)

/-! ## Looking a value up -/

variable (brk blank) in
/-- The first value that the key has in the first section of the name. -/
def lookup (text name key : List Char) : Option (List Char) :=
  ((read brk blank text).find? (·.name = name)).bind fun sec => (sec.values key).head?

theorem addLine_append (secs : List Section) (sec : Section) (l : Line) : ∃ secs' more,
    addLine (secs ++ [sec]) l = secs' ++ [{ sec with entries := sec.entries ++ more }] := by
  cases l with
  | empty | comment | other => exact ⟨secs, [], by cases secs <;> simp [addLine]⟩
  | header name => exact ⟨⟨name, []⟩ :: secs, [], by simp [addLine]⟩
  | entry key value =>
      cases secs with
      | nil => exact ⟨[], [(key, value)], rfl⟩
      | cons sec' secs =>
          exact ⟨{ sec' with entries := sec'.entries ++ [(key, value)] } :: secs, [],
            by simp [addLine]⟩

/-- What the first section holds already stays at its beginning. -/
theorem foldl_addLine_append (ls : List Line) (secs : List Section) (sec : Section) :
    ∃ secs' more, ls.foldl addLine (secs ++ [sec]) =
      secs' ++ [{ sec with entries := sec.entries ++ more }] := by
  induction ls generalizing secs sec with
  | nil => exact ⟨secs, [], by simp⟩
  | cons l ls ih =>
      obtain ⟨secs', more, hl⟩ := addLine_append secs sec l
      obtain ⟨secs'', more', hls⟩ := ih secs' { sec with entries := sec.entries ++ more }
      exact ⟨secs'', more ++ more', by rw [List.foldl_cons, hl, hls, List.append_assoc]⟩

/-- A text that starts with a section and an entry answers for this entry, whatever follows. -/
theorem lookup_of_lines {text name key value : List Char} {ls : List Line}
    (h : lines brk blank text = .header name :: .entry key value :: ls) :
    lookup brk blank text name key = some value := by
  obtain ⟨secs, more, hfold⟩ := foldl_addLine_append ls [] ⟨name, [(key, value)]⟩
  have hread : read brk blank text = ⟨name, (key, value) :: more⟩ :: secs.reverse := by
    rw [read, h]
    change (ls.foldl addLine ([] ++ [⟨name, [(key, value)]⟩])).reverse = _
    rw [hfold, List.reverse_append]
    rfl
  rw [lookup, hread, List.find?_cons_of_pos (by simp)]
  simp [Section.values]

end Ini
