import GroupUnify.Text.Hex
import Mathlib.Algebra.Order.Ring.Nat
import Mathlib.Tactic.Ring

/-!
# Hexadecimal digits are read back

The last `k` hexadecimal digits of a number stand for the number modulo `16 ^ k`.
-/

namespace GroupUnify.Text

variable {d acc : ℕ}

theorem hexDigitValue?_hexDigit (h : d < 16) : hexDigitValue? (hexDigit d) = some d := by
  have hall : ∀ d < 16, hexDigitValue? (hexDigit d) = some d := by decide
  exact hall d h

theorem hexValue?_append (acc : ℕ) (cs ds : List Char) :
    hexValue? acc (cs ++ ds) = (hexValue? acc cs).bind fun n => hexValue? n ds := by
  induction cs generalizing acc with
  | nil => rfl
  | cons c cs ih =>
    rw [List.cons_append, hexValue?, hexValue?, Option.bind_assoc]
    simp only [ih]

/-- **Digits that are written are read back.** -/
theorem hexValue?_hexDigits : ∀ k n, hexValue? acc (hexDigits k n) = some (16 ^ k * acc + n % 16 ^ k) := by
  intro k
  induction k with
  | zero => intro n; simp [hexDigits, hexValue?, Nat.mod_one]
  | succ k ih =>
    intro n
    have hlast : n % 16 < 16 := Nat.mod_lt n (by decide)
    have hsplit : n % 16 ^ (k + 1) = 16 * (n / 16 % 16 ^ k) + n % 16 := by
      rw [Nat.pow_succ', Nat.mod_mul, Nat.add_comm]
    rw [hexDigits, hexValue?_append, ih, Option.bind_some, hexValue?, hexDigitValue?_hexDigit hlast,
      Option.bind_some, hexValue?, hsplit, Nat.pow_succ']
    congr 1
    ring

end GroupUnify.Text
