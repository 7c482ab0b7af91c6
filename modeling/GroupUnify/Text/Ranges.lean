/-!
# Sets of characters as ranges of code points

A character class is an increasing list of inclusive ranges of code points; `Ranges.contains`
looks a code point up.
-/

namespace GroupUnify.Text

/-- The ranges start at `least` or later, none is empty, and each ends before the next one starts. -/
def Increasing (least : Nat) : List (Nat × Nat) → Prop
  | [] => True
  | p :: rest => least ≤ p.1 ∧ p.1 ≤ p.2 ∧ Increasing (p.2 + 1) rest

instance decidableIncreasing (least : Nat) :
    (ranges : List (Nat × Nat)) → Decidable (Increasing least ranges)
  | [] => inferInstanceAs (Decidable True)
  | p :: rest =>
    have := decidableIncreasing (p.2 + 1) rest
    inferInstanceAs (Decidable (least ≤ p.1 ∧ p.1 ≤ p.2 ∧ Increasing (p.2 + 1) rest))

/-- Inclusive ranges of code points, in increasing order and apart from each other. -/
structure Ranges where
  ranges : List (Nat × Nat)
  increasing : Increasing 0 ranges

namespace Ranges

/-- Looks for a range that holds `n`. The search ends at the first range that starts after `n`. -/
def search : List (Nat × Nat) → Nat → Bool
  | [], _ => false
  | (lo, hi) :: rest, n => decide (lo ≤ n) && (decide (n ≤ hi) || search rest n)

/-- Does the code point `n` lie in one of the ranges? -/
def contains (r : Ranges) (n : Nat) : Bool := search r.ranges n

end Ranges

end GroupUnify.Text
