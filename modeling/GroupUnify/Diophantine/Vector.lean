/-!
# Integer vectors of any length

Vectors are lists of integers; an entry beyond the end of a list counts as zero. `entry` is the view
in which the operations are described, `dot` the value of a vector at a valuation of the indices.

* `entry_invert`, `entry_clear`, `entry_addMultiple`: the entries of the results.
* `dot_invert`, `dot_clear`, `dot_addMultiple`: the values of the results.
* `divisible`, `quotients`, `remainders`: division toward the floor, which refuses the divisor zero.
-/

namespace GroupUnify.Diophantine

/-- The entry of `v` at `i`, zero beyond the end. -/
def entry (v : List Int) (i : Nat) : Int := v.getD i 0

/-- The sum of all `v i * p i`. -/
def dot : List Int → (Nat → Int) → Int
  | [], _ => 0
  | x :: xs, p => x * p 0 + dot xs fun i => p (i + 1)

/-- Each entry with the other sign. -/
def invert (v : List Int) : List Int := v.map fun x => -x

/-- The vector with entry zero at `i`. A position outside changes nothing. -/
def clear (i : Nat) (v : List Int) : List Int := v.set i 0

/-- The vector `v + m * w`; the shorter one is padded with zeros. -/
def addMultiple (m : Int) : List Int → List Int → List Int
  | [], w => w.map fun y => m * y
  | v, [] => v
  | x :: v, y :: w => (x + m * y) :: addMultiple m v w

/-! ### Entries and values of the results -/

@[simp] theorem entry_nil (i : Nat) : entry [] i = 0 := rfl

@[simp] theorem entry_cons_zero (x : Int) (v : List Int) : entry (x :: v) 0 = x := rfl

@[simp] theorem entry_cons_succ (x : Int) (v : List Int) (i : Nat) :
    entry (x :: v) (i + 1) = entry v i := rfl

theorem entry_map (f : Int → Int) (hf : f 0 = 0) (v : List Int) (i : Nat) :
    entry (v.map f) i = f (entry v i) := by
  simp only [entry, List.getD_eq_getElem?_getD, List.getElem?_map]
  cases v[i]? <;> simp [hf]

theorem entry_invert (v : List Int) (i : Nat) : entry (invert v) i = -entry v i :=
  entry_map _ rfl v i

theorem entry_clear (i : Nat) (v : List Int) (j : Nat) :
    entry (clear i v) j = if j = i then 0 else entry v j := by
  simp only [entry, clear, List.getD_eq_getElem?_getD, List.getElem?_set]
  split <;> split <;> simp_all

theorem entry_addMultiple (m : Int) (v w : List Int) (i : Nat) :
    entry (addMultiple m v w) i = entry v i + m * entry w i := by
  fun_induction addMultiple m v w generalizing i with
  | case1 w => simpa using entry_map (m * ·) (Int.mul_zero m) w i
  | case2 v => simp
  | case3 x v y w ih => cases i <;> simp [ih]

theorem dot_map_mul (m : Int) (v : List Int) (p : Nat → Int) :
    dot (v.map (m * ·)) p = m * dot v p := by
  induction v generalizing p with
  | nil => simp [dot]
  | cons x v ih => simp only [List.map_cons, dot, ih]; grind

theorem dot_invert (v : List Int) (p : Nat → Int) : dot (invert v) p = -dot v p := by
  induction v generalizing p with
  | nil => rfl
  | cons x v ih => simp only [invert, List.map_cons, dot] at ih ⊢; grind

theorem dot_clear (i : Nat) (v : List Int) (p : Nat → Int) :
    dot (clear i v) p = dot v p - entry v i * p i := by
  induction v generalizing i p with
  | nil => simp [clear, dot]
  | cons x v ih =>
    cases i with
    | zero => simp only [clear, List.set_cons_zero, dot, entry_cons_zero]; grind
    | succ i =>
      have h := ih i fun j => p (j + 1)
      simp only [clear, List.set_cons_succ, dot, entry_cons_succ] at h ⊢
      grind

theorem dot_addMultiple (m : Int) (v w : List Int) (p : Nat → Int) :
    dot (addMultiple m v w) p = dot v p + m * dot w p := by
  fun_induction addMultiple m v w generalizing p with
  | case1 w => simpa [dot] using dot_map_mul m w p
  | case2 v => simp [dot]
  | case3 x v y w ih => simp only [dot, ih]; grind

/-! ### Division -/

/-- Why a division is refused. -/
inductive DivisionError where
  /-- A remainder modulo zero. -/
  | remainder
  /-- A quotient by zero. -/
  | quotient
deriving DecidableEq, Repr

/-- The wording of a refusal. -/
def DivisionError.message : DivisionError → String
  | .remainder => "integer modulo by zero"
  | .quotient => "integer division or modulo by zero"

/-- Does `k` divide every entry? With no entries nothing is divided. -/
def divisible (k : Int) (v : List Int) : Except DivisionError Bool :=
  if k = 0 ∧ v ≠ [] then .error .remainder else .ok (v.all fun x => x.fmod k == 0)

/-- The floor of each entry divided by `k`. -/
def quotients (k : Int) (v : List Int) : Except DivisionError (List Int) :=
  if k = 0 ∧ v ≠ [] then .error .quotient else .ok (v.map fun x => x.fdiv k)

/-- The remainder of each entry modulo `k`, with the sign of `k`. -/
def remainders (k : Int) (v : List Int) : Except DivisionError (List Int) :=
  if k = 0 ∧ v ≠ [] then .error .remainder else .ok (v.map fun x => x.fmod k)

/-- Division by a number that is not zero is never refused. -/
theorem divisible_of_ne_zero {k : Int} (hk : k ≠ 0) (v : List Int) :
    divisible k v = .ok (v.all fun x => x.fmod k == 0) := if_neg fun h => hk h.1

theorem quotients_of_ne_zero {k : Int} (hk : k ≠ 0) (v : List Int) :
    quotients k v = .ok (v.map fun x => x.fdiv k) := if_neg fun h => hk h.1

theorem remainders_of_ne_zero {k : Int} (hk : k ≠ 0) (v : List Int) :
    remainders k v = .ok (v.map fun x => x.fmod k) := if_neg fun h => hk h.1

end GroupUnify.Diophantine
