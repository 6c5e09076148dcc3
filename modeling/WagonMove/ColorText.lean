import WagonMove.Ini
import WagonMove.Screen
import WagonMove.Spaced

/-!
# The colour texts that are accepted

`NormalizeHex` trims a text, drops a `#` and a `0x` from its front and takes every space out of the
rest. The texts that come through are those of a small grammar; what is left of them are six digits
in upper case, on which the function has no further effect.
-/

namespace WagonMove

/-! ## Hexadecimal digits -/

theorem forall_hexDigit {P : Char → Prop}
    (h : ∀ n < 103, isHexDigit (Char.ofNat n) = true → P (Char.ofNat n)) {c : Char}
    (hc : isHexDigit c = true) : P c := by
  have hlast {a : Char} (ha : a.toNat < 103) (hca : c ≤ a) : c.toNat < 103 :=
    Nat.lt_of_le_of_lt hca ha
  have hlt : c.toNat < 103 := by
    simp only [isHexDigit, isDecDigit, Bool.or_eq_true, Bool.and_eq_true, decide_eq_true_eq] at hc
    obtain (⟨-, hc⟩ | ⟨-, hc⟩) | ⟨-, hc⟩ := hc
    · exact hlast (by decide) hc
    · exact hlast (by decide) hc
    · exact hlast (by decide) hc
  have hval := h c.toNat hlt
  rw [Char.ofNat_toNat] at hval
  exact hval hc

theorem isSpace_of_isHexDigit {c : Char} (hc : isHexDigit c = true) : isSpace c = false :=
  forall_hexDigit (P := fun c => isSpace c = false) (by decide) hc

theorem isHexDigit_toUpper {c : Char} (hc : isHexDigit c = true) :
    isHexDigit c.toUpper = true :=
  forall_hexDigit (P := fun c => isHexDigit c.toUpper = true) (by decide) hc

theorem toUpper_toUpper {c : Char} (hc : isHexDigit c = true) : c.toUpper.toUpper = c.toUpper :=
  forall_hexDigit (P := fun c => c.toUpper.toUpper = c.toUpper) (by decide) hc

theorem digitValue_lt {c : Char} (hc : isHexDigit c = true) : digitValue c < 16 :=
  forall_hexDigit (P := fun c => digitValue c < 16) (by decide) hc

theorem isSpace_of_isBlank (c : Char) (hc : isBlank c = true) : isSpace c = true := by
  simp only [isBlank, Bool.or_eq_true, decide_eq_true_eq] at hc
  obtain rfl | rfl := hc <;> rfl

theorem digitsValue_lt {base : ℕ} {cs : List Char} (h : ∀ c ∈ cs, digitValue c < base) :
    digitsValue base cs < base ^ cs.length := by
  have hfold (n : ℕ) :
      cs.foldl (fun n c => n * base + digitValue c) n < (n + 1) * base ^ cs.length := by
    induction cs generalizing n with
    | nil => simp
    | cons c cs ih =>
        obtain ⟨hc, hcs⟩ := List.forall_mem_cons.1 h
        have hstep : n * base + digitValue c + 1 ≤ (n + 1) * base := by
          rw [Nat.add_mul, Nat.one_mul]
          omega
        calc
          _ < (n * base + digitValue c + 1) * base ^ cs.length := ih hcs _
          _ ≤ (n + 1) * base * base ^ cs.length := Nat.mul_le_mul_right _ hstep
          _ = (n + 1) * base ^ (cs.length + 1) := by rw [Nat.pow_succ', Nat.mul_assoc]
  simpa [digitsValue] using hfold 0

/-! ## Taking a text apart -/

/-- What `NormalizeHex` takes for the digits of a text. -/
def colorDigits (text : List Char) : List Char :=
  (dropHexPrefix (dropHash (trimChars text))).filter (!isSpace ·)

/-- A text cut into blanks, an optional `#`, an optional `0x` and six spaced digits. -/
structure ColorText where
  blanks : List Char
  hash : List Char
  hexPrefix : List Char
  digits : List Char
  rest : List Char
  isBlank_blanks : ∀ c ∈ blanks, isBlank c = true
  hash_mem : hash ∈ [[], ['#']]
  hexPrefix_mem : hexPrefix ∈ [[], ['0', 'x'], ['0', 'X']]
  length_digits : digits.length = 6
  isHexDigit_digits : ∀ d ∈ digits, isHexDigit d = true
  spaced : Spaced isSpace digits rest

def ColorText.text (t : ColorText) : List Char := t.blanks ++ (t.hash ++ t.hexPrefix ++ t.rest)

theorem filter_trimChars (text : List Char) :
    (trimChars text).filter (!isSpace ·) = text.filter (!isSpace ·) := by
  rw [trimChars, Spaced.filter_rdropWhile isSpace_of_isBlank,
    Spaced.filter_dropWhile isSpace_of_isBlank]

theorem rdropWhile_append {marks : List Char} (h : ∀ c ∈ marks, isBlank c = false)
    (rest : List Char) : (marks ++ rest).rdropWhile isBlank = marks ++ rest.rdropWhile isBlank := by
  induction marks with
  | nil => rfl
  | cons c marks ih =>
      obtain ⟨hc, hmarks⟩ := List.forall_mem_cons.1 h
      rw [List.cons_append, Ini.rdropWhile_cons hc, ih hmarks, List.cons_append]

/-- Trimming stops at the first mark, and what it takes from the rest are spaces. -/
theorem trimChars_append {blanks marks : List Char} (hb : ∀ c ∈ blanks, isBlank c = true)
    (hm : ∀ c ∈ marks, isBlank c = false) (rest : List Char) :
    ∃ rest', trimChars (blanks ++ (marks ++ rest)) = marks ++ rest' ∧
      rest'.filter (!isSpace ·) = rest.filter (!isSpace ·) := by
  rw [trimChars, List.dropWhile_append_of_pos hb]
  cases marks with
  | nil => exact ⟨_, rfl, filter_trimChars rest⟩
  | cons c marks =>
      refine ⟨rest.rdropWhile isBlank, ?_, Spaced.filter_rdropWhile isSpace_of_isBlank rest⟩
      rw [List.cons_append, List.dropWhile_cons_of_neg (by simp [hm c List.mem_cons_self]),
        ← List.cons_append, rdropWhile_append hm]

theorem dropHash_of_notMem {cs : List Char} (h : '#' ∉ cs) : dropHash cs = cs := by
  unfold dropHash
  split
  · exact absurd List.mem_cons_self h
  · rfl

theorem dropHexPrefix_of_notMem {cs : List Char} (hx : 'x' ∉ cs) (hX : 'X' ∉ cs) :
    dropHexPrefix cs = cs := by
  unfold dropHexPrefix
  split
  · rename_i x cs
    have hne : x ≠ 'x' ∧ x ≠ 'X' :=
      ⟨fun h => hx (by simp [h]), fun h => hX (by simp [h])⟩
    rw [if_neg (by simp [hne])]
  · rfl

/-- Both prefixes are recognised in front of digits, and nothing of the digits is taken for one. -/
theorem dropPrefixes_append {hash hexPrefix rest : List Char} (hhash : hash ∈ [[], ['#']])
    (hpre : hexPrefix ∈ [[], ['0', 'x'], ['0', 'X']])
    (hrest : ∀ c ∈ rest.filter (!isSpace ·), isHexDigit c = true) :
    dropHexPrefix (dropHash (hash ++ hexPrefix ++ rest)) = rest := by
  have hno {c : Char} (hs : isSpace c = false) (hd : isHexDigit c = false) : c ∉ rest := by
    intro hc
    have := hrest c (List.mem_filter.2 ⟨hc, by simp [hs]⟩)
    simp [hd] at this
  have hmark : '#' ∉ rest := hno (by decide) (by decide)
  have hlast : dropHexPrefix rest = rest :=
    dropHexPrefix_of_notMem (hno (by decide) (by decide)) (hno (by decide) (by decide))
  have hhex : dropHexPrefix (hexPrefix ++ rest) = rest := by
    simp only [List.mem_cons, List.not_mem_nil, or_false] at hpre
    obtain rfl | rfl | rfl := hpre
    · exact hlast
    · rfl
    · rfl
  simp only [List.mem_cons, List.not_mem_nil, or_false] at hhash hpre
  obtain rfl | rfl := hhash
  · rw [List.nil_append, dropHash_of_notMem, hhex]
    obtain rfl | rfl | rfl := hpre <;> simp [hmark]
  · exact hhex

theorem exists_hash (cs : List Char) : ∃ hash ∈ [[], ['#']], cs = hash ++ dropHash cs := by
  unfold dropHash
  split
  · exact ⟨['#'], by simp, rfl⟩
  · exact ⟨[], by simp, rfl⟩

theorem exists_hexPrefix (cs : List Char) :
    ∃ hexPrefix ∈ [[], ['0', 'x'], ['0', 'X']], cs = hexPrefix ++ dropHexPrefix cs := by
  unfold dropHexPrefix
  split
  · split
    · rename_i x cs hx
      simp only [Bool.or_eq_true, decide_eq_true_eq] at hx
      obtain rfl | rfl := hx
      · exact ⟨['0', 'x'], by simp, rfl⟩
      · exact ⟨['0', 'X'], by simp, rfl⟩
    · exact ⟨[], by simp, rfl⟩
  · exact ⟨[], by simp, rfl⟩

namespace ColorText

theorem filter_rest (t : ColorText) : t.rest.filter (!isSpace ·) = t.digits :=
  t.spaced.filter_eq fun d hd => isSpace_of_isHexDigit (t.isHexDigit_digits d hd)

theorem isBlank_marks (t : ColorText) : ∀ c ∈ t.hash ++ t.hexPrefix, isBlank c = false := by
  have hhash := t.hash_mem
  have hpre := t.hexPrefix_mem
  simp only [List.mem_cons, List.not_mem_nil, or_false] at hhash hpre
  obtain h | h := hhash <;> obtain h' | h' | h' := hpre <;> rw [h, h'] <;> simp [isBlank]

theorem colorDigits_text (t : ColorText) : colorDigits t.text = t.digits := by
  obtain ⟨rest, htrim, hrest⟩ := trimChars_append t.isBlank_blanks t.isBlank_marks t.rest
  rw [t.filter_rest] at hrest
  rw [colorDigits, text, htrim, dropPrefixes_append t.hash_mem t.hexPrefix_mem, hrest]
  rw [hrest]
  exact t.isHexDigit_digits

theorem exists_of_colorDigits {s : List Char} (hlen : (colorDigits s).length = 6)
    (hhex : ∀ c ∈ colorDigits s, isHexDigit c = true) : ∃ t : ColorText, t.text = s := by
  obtain ⟨hash, hhash, hs⟩ := exists_hash (trimChars s)
  obtain ⟨hexPrefix, hpre, hs'⟩ := exists_hexPrefix (dropHash (trimChars s))
  let trail := (s.dropWhile isBlank).rtakeWhile isBlank
  have htrail : trail.filter (!isSpace ·) = [] := List.filter_eq_nil_iff.2 fun c hc => by
    simp [isSpace_of_isBlank c (List.mem_rtakeWhile_imp hc)]
  refine ⟨
    { blanks := s.takeWhile isBlank
      hash := hash
      hexPrefix := hexPrefix
      digits := colorDigits s
      rest := dropHexPrefix (dropHash (trimChars s)) ++ trail
      isBlank_blanks := fun c hc => List.mem_takeWhile_imp hc
      hash_mem := hhash
      hexPrefix_mem := hpre
      length_digits := hlen
      isHexDigit_digits := hhex
      spaced := ?_ }, ?_⟩
  · rw [Spaced.iff_filter fun d hd => isSpace_of_isHexDigit (hhex d hd), List.filter_append, htrail,
      List.append_nil, colorDigits]
  · have htext : hash ++ (hexPrefix ++ dropHexPrefix (dropHash (trimChars s))) = trimChars s := by
      rw [← hs', ← hs]
    have htrimmed : trimChars s ++ trail = s.dropWhile isBlank :=
      List.rdropWhile_append_rtakeWhile
    calc
      _ = s.takeWhile isBlank ++
          (hash ++ (hexPrefix ++ dropHexPrefix (dropHash (trimChars s))) ++ trail) := by
        simp only [text, List.append_assoc]
      _ = s := by rw [htext, htrimmed, List.takeWhile_append_dropWhile]

end ColorText

/-! ## What `NormalizeHex` returns -/

def prefixText (withPrefix : Bool) : List Char := if withPrefix then ['0', 'x'] else []

theorem normalizeHex_eq (s : String) (p : Bool) : normalizeHex s p =
    if (colorDigits s.toList).length = 6 ∧ (colorDigits s.toList).all isHexDigit = true then
      String.ofList (prefixText p ++ (colorDigits s.toList).map Char.toUpper)
    else "" := by
  change (if !((colorDigits s.toList).all isHexDigit && (colorDigits s.toList).length = 6) then ""
    else _) = _
  by_cases h : (colorDigits s.toList).length = 6 ∧ (colorDigits s.toList).all isHexDigit = true
  · rw [if_pos h, if_neg (by simp [h.1, h.2])]
    cases p <;> rfl
  · rw [if_neg h, if_pos]
    simp only [Bool.not_eq_true', Bool.and_eq_false_iff, decide_eq_false_iff_not]
    by_contra! hno
    exact h ⟨hno.2, by simpa using hno.1⟩

theorem normalizeHex_text (t : ColorText) (p : Bool) : normalizeHex (String.ofList t.text) p =
    String.ofList (prefixText p ++ t.digits.map Char.toUpper) := by
  rw [normalizeHex_eq, String.toList_ofList, t.colorDigits_text,
    if_pos ⟨t.length_digits, List.all_eq_true.2 t.isHexDigit_digits⟩]

theorem normalizeHex_of_not {s : String} (h : ¬∃ t : ColorText, s = String.ofList t.text)
    (p : Bool) : normalizeHex s p = "" := by
  rw [normalizeHex_eq, if_neg]
  intro hcolor
  obtain ⟨hlen, hhex⟩ := hcolor
  obtain ⟨t, ht⟩ := ColorText.exists_of_colorDigits hlen (List.all_eq_true.1 hhex)
  exact h ⟨t, by rw [ht, String.ofList_toList]⟩

/-- Six digits in upper case, with or without a prefix, are a colour text again. -/
def ColorText.normal (t : ColorText) (p : Bool) : ColorText where
  blanks := []
  hash := []
  hexPrefix := prefixText p
  digits := t.digits.map Char.toUpper
  rest := t.digits.map Char.toUpper
  isBlank_blanks := by simp
  hash_mem := by simp
  hexPrefix_mem := by cases p <;> simp [prefixText]
  length_digits := by rw [List.length_map, t.length_digits]
  isHexDigit_digits := by
    rw [List.forall_mem_map]
    exact fun d hd => isHexDigit_toUpper (t.isHexDigit_digits d hd)
  spaced := .self _

theorem normalizeHex_normalizeHex (s : String) (p q : Bool) :
    normalizeHex (normalizeHex s p) q = normalizeHex s q := by
  by_cases h : ∃ t : ColorText, s = String.ofList t.text
  · obtain ⟨t, rfl⟩ := h
    have hupper : (t.digits.map Char.toUpper).map Char.toUpper = t.digits.map Char.toUpper := by
      rw [List.map_map]
      exact List.map_congr_left fun d hd => toUpper_toUpper (t.isHexDigit_digits d hd)
    have hnormal : prefixText p ++ t.digits.map Char.toUpper = (t.normal p).text := rfl
    rw [normalizeHex_text t p, normalizeHex_text t q, hnormal, normalizeHex_text (t.normal p) q]
    exact congrArg (fun ds => String.ofList (prefixText q ++ ds)) hupper
  · rw [normalizeHex_of_not h p, normalizeHex_of_not h q]
    cases q <;> decide

/-- What a text in digits stands for is read without an error. -/
theorem integer_hexColor {ds : List Char} (hne : ds ≠ [])
    (hhex : ∀ d ∈ ds, isHexDigit d = true) :
    integer ("0x" ++ String.ofList ds) = some (hexColor (String.ofList ds)) := by
  have hlist : ("0x" ++ String.ofList ds).toList = '0' :: 'x' :: ds := by
    simp
  have htrim : trimChars ('0' :: 'x' :: ds) = '0' :: 'x' :: ds := by
    refine Ini.trim_eq_self fun c hc => Bool.eq_false_iff.2 fun hb => ?_
    have hspace := isSpace_of_isBlank c hb
    simp only [List.mem_cons] at hc
    obtain rfl | rfl | hc := hc
    · exact absurd hspace (by decide)
    · exact absurd hspace (by decide)
    · rw [isSpace_of_isHexDigit (hhex c hc)] at hspace
      exact absurd hspace Bool.false_ne_true
  have hread : readUnsigned ('0' :: 'x' :: ds) = some (digitsValue 16 ds) := by
    rw [readUnsigned, if_pos (by decide), if_pos]
    simpa [hne] using hhex
  rw [integer, hlist, htrim]
  simp [takeSign, hread, hexColor]

theorem hexColor_lt {ds : List Char} (hlen : ds.length = 6)
    (hhex : ∀ d ∈ ds, isHexDigit d = true) : hexColor (String.ofList ds) ≤ 0xFFFFFF := by
  have hlt := digitsValue_lt fun d hd => digitValue_lt (hhex d hd)
  rw [hlen] at hlt
  rw [hexColor, String.toList_ofList]
  omega

/-- `NormalizeHex` accepts exactly the texts of the grammar and returns their digits in upper case,
which `Integer` reads as a colour. Normalising twice is normalising once. -/
theorem normalizeHex_accepts_colorText :
    (∀ s, normalizeHex s false ≠ "" ↔ ∃ t : ColorText, s = String.ofList t.text) ∧
    (∀ t : ColorText, normalizeHex (String.ofList t.text) false =
      String.ofList (t.digits.map Char.toUpper)) ∧
    (∀ t : ColorText, ∃ n, integer ("0x" ++ normalizeHex (String.ofList t.text) false) = some n ∧
      n = hexColor (normalizeHex (String.ofList t.text) false) ∧ 0 ≤ n ∧ n ≤ 0xFFFFFF) ∧
    ∀ s p q, normalizeHex (normalizeHex s p) q = normalizeHex s q := by
  have hvalue (t : ColorText) : normalizeHex (String.ofList t.text) false =
      String.ofList (t.digits.map Char.toUpper) := normalizeHex_text t false
  have hlen (t : ColorText) : (t.digits.map Char.toUpper).length = 6 :=
    (t.normal false).length_digits
  refine ⟨fun s => ?_, hvalue, fun t => ?_, normalizeHex_normalizeHex⟩
  · constructor
    · intro h
      by_contra hno
      exact h (normalizeHex_of_not hno false)
    · rintro ⟨t, rfl⟩ hempty
      rw [hvalue, ← String.toList_inj, String.toList_ofList] at hempty
      have := hlen t
      simp [hempty] at this
  · have hhex := (t.normal false).isHexDigit_digits
    rw [hvalue]
    refine ⟨_, integer_hexColor (List.ne_nil_of_length_pos ?_) hhex, rfl, Nat.cast_nonneg _, ?_⟩
    · have := hlen t
      omega
    · exact_mod_cast hexColor_lt (hlen t) hhex

end WagonMove
