import Mathlib.Data.List.Count

/-!
# Quoted literals with doubled quotes

`escape` doubles one quote character. The reader stands behind an opening quote and takes any
character of `isQuote` for a quote: a pair of them stands for the second one, a lone one ends the
literal. What was escaped is read back exactly if it has no quote but the doubled one.
-/

namespace Quoting

variable {α : Type*}

def escape [DecidableEq α] (q : α) (l : List α) : List α :=
  l.flatMap fun c => if c = q then [q, q] else [c]

/-- The value of the literal and what follows its closing quote. -/
def readLiteral (isQuote : α → Bool) : List α → Option (List α × List α)
  | [] => none
  | [c] => if isQuote c then some ([], []) else none
  | c :: d :: rest =>
    if isQuote c then
      if isQuote d then (readLiteral isQuote rest).map fun p => (d :: p.1, p.2)
      else some ([], d :: rest)
    else (readLiteral isQuote (d :: rest)).map fun p => (c :: p.1, p.2)

section Read

variable {isQuote : α → Bool} {c d : α} {rest l value : List α}

theorem readLiteral_end (hc : isQuote c = true) (hrest : ∀ d ∈ rest.head?, isQuote d = false) :
    readLiteral isQuote (c :: rest) = some ([], rest) := by
  cases rest with
  | nil => rw [readLiteral, if_pos hc]
  | cons d rest =>
      have hd : isQuote d = false := hrest d rfl
      rw [readLiteral, if_pos hc, if_neg (by simp [hd])]

theorem readLiteral_pair (hc : isQuote c = true) (hd : isQuote d = true) :
    readLiteral isQuote (c :: d :: rest) =
      (readLiteral isQuote rest).map fun p => (d :: p.1, p.2) := by
  rw [readLiteral, if_pos hc, if_pos hd]

theorem readLiteral_plain (hc : isQuote c = false) : readLiteral isQuote (c :: rest) =
    (readLiteral isQuote rest).map fun p => (c :: p.1, p.2) := by
  cases rest with
  | nil => simp [readLiteral, hc]
  | cons d rest => rw [readLiteral, if_neg (by simp [hc])]

/-- Each character of the value takes one place in the text, and a second one if it is a quote. -/
theorem length_of_readLiteral (h : readLiteral isQuote l = some (value, rest)) :
    l.length = value.length + value.countP isQuote + 1 + rest.length := by
  induction l using readLiteral.induct isQuote generalizing value with
  | case1 => simp [readLiteral] at h
  | case2 c hc =>
      rw [readLiteral, if_pos hc] at h
      cases h
      rfl
  | case3 c hc => simp [readLiteral, hc] at h
  | case4 c d rest' hc hd ih =>
      rw [readLiteral_pair hc hd] at h
      obtain ⟨p, hp, heq⟩ := Option.map_eq_some_iff.1 h
      cases heq
      have hlength := ih hp
      rw [List.countP_cons_of_pos hd]
      simp only [List.length_cons]
      omega
  | case5 c d rest' hc hd =>
      rw [readLiteral, if_pos hc, if_neg hd] at h
      cases h
      simp
      omega
  | case6 c d rest' hc ih =>
      rw [readLiteral_plain (by simpa using hc)] at h
      obtain ⟨p, hp, heq⟩ := Option.map_eq_some_iff.1 h
      cases heq
      have hlength := ih hp
      rw [List.countP_cons_of_neg hc]
      simp only [List.length_cons] at hlength ⊢
      omega

end Read

section Escape

variable [DecidableEq α] {isQuote : α → Bool} {q : α} {l rest : List α}

theorem length_escape (q : α) (l : List α) : (escape q l).length = l.length + l.count q := by
  induction l with
  | nil => rfl
  | cons c l ih =>
      rw [escape, List.flatMap_cons, List.length_append, ← escape, ih]
      by_cases hc : c = q
      · subst hc
        simp
        omega
      · simp [hc]
        omega

theorem escape_cons (q c : α) (l : List α) :
    escape q (c :: l) = (if c = q then [q, q] else [c]) ++ escape q l := rfl

theorem mem_escape {c : α} : c ∈ escape q l ↔ c ∈ l := by
  induction l with
  | nil => rfl
  | cons d l ih =>
      rw [escape_cons, List.mem_append, ih, List.mem_cons]
      by_cases hd : d = q <;> simp [hd]

/-- An escaped text is read back if its only quotes are those that are doubled. -/
theorem readLiteral_escape (hq : isQuote q = true) (hl : ∀ c ∈ l, isQuote c = true → c = q)
    (hrest : ∀ d ∈ rest.head?, isQuote d = false) :
    readLiteral isQuote (escape q l ++ q :: rest) = some (l, rest) := by
  induction l with
  | nil => exact readLiteral_end hq hrest
  | cons c l ih =>
      have htail := ih fun d hd => hl d (List.mem_cons_of_mem _ hd)
      rw [escape_cons]
      by_cases hc : c = q
      · simp only [if_pos hc, List.cons_append, List.nil_append]
        rw [readLiteral_pair hq hq, htail, hc]
        rfl
      · have hplain : isQuote c = false := by
          by_contra hquote
          exact hc (hl c List.mem_cons_self (by simpa using hquote))
        simp only [if_neg hc, List.cons_append, List.nil_append]
        rw [readLiteral_plain hplain, htail]
        rfl

/-- A text has at least as many quotes as it has of those that are doubled, and no more exactly if
all its quotes are. -/
theorem count_le_countP (hq : isQuote q = true) (l : List α) : l.count q ≤ l.countP isQuote :=
  List.countP_mono_left fun c _ hc => by rwa [beq_iff_eq.1 hc]

theorem only_quote_of_countP_le (hq : isQuote q = true) (h : l.countP isQuote ≤ l.count q) :
    ∀ c ∈ l, isQuote c = true → c = q := by
  induction l with
  | nil => simp
  | cons c l ih =>
      have hle := count_le_countP hq l
      rw [List.countP_cons, List.count_cons] at h
      by_cases hc : c = q
      · subst hc
        simp only [hq, if_true, beq_self_eq_true] at h
        intro d hd hquote
        obtain rfl | hd := List.mem_cons.1 hd
        · rfl
        · exact ih (by omega) d hd hquote
      · simp only [beq_iff_eq, hc, if_false] at h
        intro d hd hquote
        obtain rfl | hd := List.mem_cons.1 hd
        · rw [if_pos hquote] at h
          omega
        · exact ih (by split at h <;> omega) d hd hquote

end Escape

end Quoting
