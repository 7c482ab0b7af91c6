import GroupUnify.Decimal
import Mathlib.Data.Nat.Notation
import Mathlib.Data.Int.Notation

/-!
# The digits of a number

A number is written with its digits, after a minus sign if it is negative. Its digits stand for it, the
first one is not `0` unless the number is zero, and there are at most `Decimal.digitLimit` of them exactly
if the number fits.
-/

namespace GroupUnify.Decimal

variable {n : ℕ} {m : ℤ} {c : Char}

/-- The digits of a number, the most significant first. -/
def digits (n : ℕ) : List Char := Nat.toDigits 10 n

theorem isDigit_eq (c : Char) : isDigit c = c.isDigit := by
  simp [isDigit, Char.isDigit, Char.le_def]

theorem toNat_of_isDigit (h : isDigit c = true) : 0x30 ≤ c.toNat ∧ c.toNat ≤ 0x39 := by
  rw [isDigit, Bool.and_eq_true, decide_eq_true_eq, decide_eq_true_eq] at h
  exact h

theorem isDigit_of_mem_digits (h : c ∈ digits n) : isDigit c = true := by
  rw [isDigit_eq]
  exact Nat.isDigit_of_mem_toDigits (by decide) (by decide) h

theorem digits_ne_nil (n : ℕ) : digits n ≠ [] := Nat.toDigits_ne_nil

/-- A number is written with a first digit and more digits behind it. -/
theorem exists_digits_eq (n : ℕ) : ∃ c cs, digits n = c :: cs ∧ ∀ d ∈ c :: cs, isDigit d = true := by
  obtain ⟨c, cs, hcs⟩ := List.exists_cons_of_ne_nil (digits_ne_nil n)
  exact ⟨c, cs, hcs, fun d hd => isDigit_of_mem_digits (n := n) (hcs ▸ hd)⟩

/-- **The digits of a number stand for it.** -/
theorem value_digits (n : ℕ) : value (digits n) = n := Nat.ofDigitChars_ten_toDigits

theorem digits_zero : digits 0 = ['0'] := Nat.toDigits_zero 10

theorem digits_ne_zero (h : n ≠ 0) : digits n ≠ ['0'] := by
  intro hn
  have hvalue := value_digits n
  rw [hn, ← digits_zero, value_digits] at hvalue
  exact h hvalue.symm

/-- No number but zero is written with a leading `0`. -/
theorem head_digits (h : n ≠ 0) : (digits n).head? ≠ some '0' := by
  induction n using Nat.strongRecOn with
  | ind n ih =>
    rw [digits, Nat.toDigits_eq_if (by decide)]
    split
    · next hlt =>
      have hdigit : ∀ k, k < 10 → k ≠ 0 → k.digitChar ≠ '0' := by decide
      simpa using hdigit n hlt h
    · next hge =>
      have hhead := ih (n / 10) (by omega) (by omega)
      obtain ⟨c, cs, hcs⟩ := List.exists_cons_of_ne_nil (digits_ne_nil (n / 10))
      rw [hcs] at hhead
      rw [digits] at hcs
      rw [hcs]
      exact hhead

theorem length_digits_le_iff {k : ℕ} (hk : 0 < k) : (digits n).length ≤ k ↔ n < Nat.pow 10 k :=
  Nat.length_toDigits_le_iff (by decide) hk

theorem fits_iff : Fits m ↔ (digits m.natAbs).length ≤ digitLimit :=
  (length_digits_le_iff (by decide)).symm

theorem fits_neg : Fits (-m) ↔ Fits m := by rw [fits_iff, fits_iff, Int.natAbs_neg]

theorem fits_of_natAbs_lt (h : m.natAbs < 10) : Fits m := by
  rw [fits_iff, digits, Nat.toDigits_of_lt_base h, List.length_singleton]
  decide

/-- **The text of a number** is that of its size behind its sign. -/
theorem toString_eq (m : ℤ) :
    toString m = (if m < 0 then "-" else "") ++ toString m.natAbs := by
  rw [Int.toString_eq_repr, Int.repr_eq_if]
  split
  · next h =>
    have habs : m.toNat = m.natAbs := by omega
    rw [if_neg (by omega), habs, String.empty_append]
    rfl
  · next h =>
    have habs : (-m).toNat = m.natAbs := by omega
    rw [if_pos (by omega), habs]
    rfl

theorem toList_toString (n : ℕ) : (toString n).toList = digits n := Nat.toList_repr

end GroupUnify.Decimal
