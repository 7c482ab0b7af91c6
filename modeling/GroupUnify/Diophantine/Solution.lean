import GroupUnify.Diophantine.Vector

/-!
# Solutions of an equation system, and elimination

A system gives the same linear form in unknowns `x₀, x₁, …` several constant right hand sides. Its
solution maps the index of an eliminated unknown to a `Form`: a vector of coefficients of the other
unknowns and a vector of constants, one for each right hand side. Indices from the number of
unknowns on are parameters.

* `Solution.eliminate`: records the value of one more unknown and puts it into the forms recorded so
  far.
* `Form.value`, `Solution.value`: the values of a form and of an unknown under a valuation of the
  indices.
* `Form.value_substitute`: elimination keeps the value of every recorded form.
-/

namespace GroupUnify.Diophantine

/-- An affine form: coefficients of the unknowns, and constants. -/
structure Form where
  coefficients : List Int
  constants : List Int
deriving DecidableEq, Repr

namespace Form

/-- The value of a form for right hand side `k`, under the valuation `p`. -/
def value (f : Form) (p : Nat → Int) (k : Nat) : Int := dot f.coefficients p + entry f.constants k

/-- The form `f` with `e` in place of the unknown `i`. -/
def substitute (f : Form) (i : Nat) (e : Form) : Form :=
  let m := entry f.coefficients i
  if m = 0 then f
  else ⟨addMultiple m (clear i f.coefficients) e.coefficients,
    addMultiple m f.constants e.constants⟩

/-- **Substitution keeps values**, under every valuation that gives the unknown `i` the value of `e`. -/
theorem value_substitute {f e : Form} {i k : Nat} {p : Nat → Int} (h : p i = e.value p k) :
    (f.substitute i e).value p k = f.value p k := by
  unfold substitute
  by_cases hm : entry f.coefficients i = 0
  · simp [hm]
  · simp only [hm, if_false, value, dot_addMultiple, dot_clear, entry_addMultiple] at h ⊢
    grind

/-- If `e` does not mention the unknown `i`, neither does any form after the substitution. -/
theorem entry_substitute {f e : Form} {i : Nat} (h : entry e.coefficients i = 0) :
    entry (f.substitute i e).coefficients i = 0 := by
  unfold substitute
  by_cases hm : entry f.coefficients i = 0
  · simp [hm]
  · simp [hm, entry_addMultiple, entry_clear, h]

end Form

/-- The forms of the eliminated unknowns, by index. -/
abbrev Solution := List (Nat × Form)

namespace Solution

/-- The indices of the eliminated unknowns. -/
def keys (s : Solution) : List Nat := s.map Prod.fst

/-- The form recorded for the unknown `i`. -/
def form? (s : Solution) (i : Nat) : Option Form := s.lookup i

/-- The value of the unknown `i` for right hand side `k`, under the valuation `p` of the indices that
are free: that of its form if it has one, else its own. -/
def value (s : Solution) (p : Nat → Int) (k i : Nat) : Int :=
  match s.form? i with
  | some f => f.value p k
  | none => p i

/-- Puts the form `e` in place of the unknown `i` in every recorded form, and records it for `i`
itself when `i` is one of the `n` unknowns of the problem. Parameters are not recorded, and a form
already recorded for `i` stays. -/
def eliminate (n i : Nat) (e : Form) (s : Solution) : Solution :=
  let rest := s.map fun f => (f.1, f.2.substitute i e)
  if i < n ∧ i ∉ s.keys then (i, e) :: rest else rest

end Solution

end GroupUnify.Diophantine
