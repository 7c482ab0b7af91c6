/-!
# Terms of a free Abelian group

A term is a sum of factors `c • x`, kept as a list of names with integer coefficients. The order of
the list is part of the value: it is what the operations below make it, and it later numbers the
unknowns of a problem. Equality of terms as group elements, `a ≈ b`, ignores it.

* `Term.add`: a name of both terms keeps its place in the first one, and disappears when its
  coefficients cancel; the other names of the second term follow.
* `Term.canonical`: the factors sorted by name, then by coefficient.
* `Term.WellFormed`: no name twice and no coefficient zero. A list of factors without this is
  allowed everywhere, and `Term.total` reads it as the sum that it stands for.
-/

namespace GroupUnify

/-- A name with its coefficient. -/
abbrev Factor := String × Int

/-- The order of factors: by name, then by coefficient. -/
def Factor.le (f g : Factor) : Bool := decide (f.1 < g.1) || (f.1 == g.1 && decide (f.2 ≤ g.2))

/-- A linear combination of names, in stored order. -/
@[ext]
structure Term where
  factors : List Factor
deriving DecidableEq, Repr

namespace Term

/-- The group identity: the empty sum. -/
def zero : Term := ⟨[]⟩

instance : Zero Term := ⟨zero⟩

instance : Inhabited Term := ⟨zero⟩

/-- The name `x` as a term. -/
def var (x : String) : Term := ⟨[(x, 1)]⟩

/-- Has the term no factors? -/
def isZero (t : Term) : Bool := t.factors.isEmpty

/-- The names of the factors, in stored order. -/
def names (t : Term) : List String := t.factors.map Prod.fst

/-- The coefficient of the first factor with name `x`; zero if there is none. -/
def coefficient (t : Term) (x : String) : Int := (t.factors.lookup x).getD 0

/-- The sum of the coefficients of all factors with name `x`. -/
def totalOf (x : String) : List Factor → Int
  | [] => 0
  | f :: fs => (if f.1 = x then f.2 else 0) + totalOf x fs

/-- The coefficient of `x` in the group element that the factors add up to. -/
def total (t : Term) (x : String) : Int := totalOf x t.factors

/-- No name stands twice and no coefficient is zero. -/
structure WellFormed (t : Term) : Prop where
  nodup : t.names.Nodup
  nonzero : ∀ f ∈ t.factors, f.2 ≠ 0

/-! ### Group operations -/

/-- All coefficients multiplied by `k`. The multiple by zero is the identity. -/
def scale (k : Int) (t : Term) : Term :=
  if k = 0 then zero
  else if k = 1 then t
  else ⟨t.factors.map fun f => (f.1, k * f.2)⟩

/-- The inverse: each coefficient with the other sign. -/
def neg (t : Term) : Term := ⟨t.factors.map fun f => (f.1, -f.2)⟩

instance : Neg Term := ⟨neg⟩

/-- Gives `x` the coefficient `c`: in its place if it has one, else at the end. -/
def put (x : String) (c : Int) : List Factor → List Factor
  | [] => [(x, c)]
  | (y, d) :: rest => if y = x then (y, c) :: rest else (y, d) :: put x c rest

/-- The factors with each name once: in its first place, with its last coefficient. -/
def collect (fs : List Factor) : List Factor := fs.foldl (fun kept f => put f.1 f.2 kept) []

/-- Adds `c` to the coefficient of `x`: in its place if it has one, else at the end. A name whose
coefficient becomes zero goes. -/
def increase (x : String) (c : Int) : List Factor → List Factor
  | [] => if c = 0 then [] else [(x, c)]
  | (y, d) :: rest =>
    if y = x then
      if d + c = 0 then rest else (y, d + c) :: rest
    else (y, d) :: increase x c rest

/-- The sum of two terms. -/
def add (a b : Term) : Term :=
  ⟨b.factors.foldl (fun kept f => increase f.1 f.2 kept) (collect a.factors)⟩

instance : Add Term := ⟨add⟩

/-- The sum of `c • x` over the pairs `(x, c)`; zeros and repeated names are welcome. -/
def ofPairs (pairs : List Factor) : Term :=
  pairs.foldl (fun sum f => sum + scale f.2 (var f.1)) 0

/-! ### Canonical order and equality -/

/-- The factors in increasing order. -/
def canonical (t : Term) : Term := ⟨t.factors.mergeSort Factor.le⟩

/-- Two terms with the same factors, whatever their order, are the same group element. -/
instance : Setoid Term where
  r a b := a.canonical = b.canonical
  iseqv := ⟨fun _ => rfl, Eq.symm, Eq.trans⟩

instance (a b : Term) : Decidable (a ≈ b) := inferInstanceAs (Decidable (a.canonical = b.canonical))

/-- The terms of a list, of several equal ones only the first. -/
def distinct (ts : List Term) : List Term := ts.eraseDupsBy fun a b => decide (a ≈ b)

end Term

end GroupUnify
