import GroupUnify.Proofs.Text.Digits
import GroupUnify.Text.Blank
import GroupUnify.Text.Letter
import Mathlib.Tactic.Common

/-!
# Runs of characters, and classes apart

A scanner takes the longest run of characters of one class off the front of a text. A run that is put in
front of a text which does not go on with its class (`Halts`) is taken again, and nothing else is.

Which class is asked for first does not matter for the blanks, the letters and the digits: no character
is in two of them.
-/

namespace GroupUnify.Text

variable {p : Char → Bool} {c : Char} {cs ds rest : List Char}

/-! ### Runs -/

/-- The text does not start with a character of the class `p`. -/
def Halts (p : Char → Bool) (cs : List Char) : Prop := ∀ c ∈ cs.head?, p c = false

theorem halts_nil (p : Char → Bool) : Halts p [] := by simp [Halts]

theorem halts_cons : Halts p (c :: cs) ↔ p c = false := by simp [Halts]

theorem Halts.append_of_ne_nil (h : Halts p cs) (hne : cs ≠ []) (rest : List Char) :
    Halts p (cs ++ rest) := by
  obtain ⟨c, cs, rfl⟩ := List.exists_cons_of_ne_nil hne
  exact halts_cons.2 (halts_cons.1 h)

theorem Halts.append (h : Halts p cs) (hrest : Halts p rest) : Halts p (cs ++ rest) := by
  cases cs with
  | nil => exact hrest
  | cons c cs => exact h.append_of_ne_nil (List.cons_ne_nil c cs) rest

theorem Halts.of_append (h : Halts p (cs ++ rest)) : Halts p cs := by
  cases cs with
  | nil => exact halts_nil p
  | cons c cs => exact halts_cons.2 (halts_cons.1 h)

/-- What is left behind a run does not go on with it. -/
theorem halts_dropWhile (p : Char → Bool) (cs : List Char) : Halts p (cs.dropWhile p) := by
  induction cs with
  | nil => exact halts_nil p
  | cons c cs ih =>
    rw [List.dropWhile_cons]
    split
    · exact ih
    · next hc => exact halts_cons.2 (by simpa using hc)

theorem Halts.takeWhile (h : Halts p cs) : cs.takeWhile p = [] := by
  cases cs with
  | nil => rfl
  | cons c cs => rw [List.takeWhile_cons, halts_cons.1 h, if_neg Bool.false_ne_true]

theorem Halts.dropWhile (h : Halts p cs) : cs.dropWhile p = cs := by
  cases cs with
  | nil => rfl
  | cons c cs => rw [List.dropWhile_cons, halts_cons.1 h, if_neg Bool.false_ne_true]

/-- **A run is taken whole**, and the text behind it is left. -/
theorem takeWhile_run (hds : ∀ d ∈ ds, p d = true) (hrest : Halts p rest) :
    (ds ++ rest).takeWhile p = ds := by
  rw [List.takeWhile_append_of_pos hds, hrest.takeWhile, List.append_nil]

theorem dropWhile_run (hds : ∀ d ∈ ds, p d = true) (hrest : Halts p rest) :
    (ds ++ rest).dropWhile p = rest := by
  rw [List.dropWhile_append_of_pos hds, hrest.dropWhile]

/-! ### Classes that are apart -/

namespace Ranges

variable {r s : Ranges} {n : ℕ}

theorem le_of_increasing {least : ℕ} {ranges : List (ℕ × ℕ)} {p : ℕ × ℕ}
    (h : Increasing least ranges) (hp : p ∈ ranges) : least ≤ p.1 := by
  induction ranges generalizing least with
  | nil => cases hp
  | cons q rest ih =>
    obtain ⟨hleast, hq, hrest⟩ := h
    rcases List.mem_cons.1 hp with rfl | hp
    · exact hleast
    · have hbehind := ih hrest hp
      omega

theorem search_iff {least : ℕ} {ranges : List (ℕ × ℕ)} (h : Increasing least ranges) :
    search ranges n = true ↔ ∃ p ∈ ranges, p.1 ≤ n ∧ n ≤ p.2 := by
  induction ranges generalizing least with
  | nil => simp [search]
  | cons q rest ih =>
    obtain ⟨-, hq, hrest⟩ := h
    simp only [search, Bool.and_eq_true, Bool.or_eq_true, decide_eq_true_eq, ih hrest]
    constructor
    · rintro ⟨hlo, hhi | ⟨p, hp, hpn⟩⟩
      · exact ⟨q, List.mem_cons_self, hlo, hhi⟩
      · exact ⟨p, List.mem_cons_of_mem q hp, hpn⟩
    · rintro ⟨p, hp, hlo, hhi⟩
      rcases List.mem_cons.1 hp with rfl | hp
      · exact ⟨hlo, Or.inl hhi⟩
      · -- a range further on starts behind this one
        have hbehind := le_of_increasing hrest hp
        exact ⟨by omega, Or.inr ⟨p, hp, hlo, hhi⟩⟩

/-- **The search misses no range**, although it ends at the first one that starts after the code point. -/
theorem contains_iff (r : Ranges) : r.contains n = true ↔ ∃ p ∈ r.ranges, p.1 ≤ n ∧ n ≤ p.2 :=
  search_iff r.increasing

/-- No range of `r` meets a range of `s`. -/
def Apart (r s : Ranges) : Prop := ∀ p ∈ r.ranges, ∀ q ∈ s.ranges, p.2 < q.1 ∨ q.2 < p.1

instance (r s : Ranges) : Decidable (Apart r s) :=
  inferInstanceAs (Decidable (∀ p ∈ r.ranges, ∀ q ∈ s.ranges, p.2 < q.1 ∨ q.2 < p.1))

theorem Apart.not_contains (h : Apart r s) (hr : r.contains n = true) : s.contains n = false := by
  by_contra hs
  rw [Bool.not_eq_false] at hs
  obtain ⟨p, hp, hpn⟩ := (contains_iff r).1 hr
  obtain ⟨q, hq, hqn⟩ := (contains_iff s).1 hs
  have := h p hp q hq
  omega

end Ranges

theorem isBlank_eq_false_of_isLetter (h : isLetter c = true) : isBlank c = false :=
  Ranges.Apart.not_contains (r := letterRanges) (by decide +kernel) h

/-- The digits that numbers are made of, as a range. -/
def numberRanges : Ranges := ⟨[(0x30, 0x39)], by decide⟩

theorem contains_numberRanges (h : Decimal.isDigit c = true) :
    numberRanges.contains c.toNat = true :=
  numberRanges.contains_iff.2 ⟨_, List.mem_cons_self, Decimal.toNat_of_isDigit h⟩

theorem isBlank_eq_false_of_isDigit (h : Decimal.isDigit c = true) : isBlank c = false :=
  Ranges.Apart.not_contains (by decide +kernel) (contains_numberRanges h)

theorem isLetter_eq_false_of_isDigit (h : Decimal.isDigit c = true) : isLetter c = false :=
  Ranges.Apart.not_contains (by decide +kernel) (contains_numberRanges h)

end GroupUnify.Text
