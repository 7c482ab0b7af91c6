import GroupUnify.Diophantine.Solution

/-!
# Elimination at a signed index

An index below zero counts positions from the end of each vector: -1 is the last one. Such a position
has to exist, and it is never cleared. At an index that is not negative all is as before
(`Signed.eliminate_ofNat`).
-/

namespace GroupUnify.Diophantine.Signed

/-- The entry of `v` at a signed index; none before the start of the vector. -/
def entryAt (v : List Int) : Int → Option Int
  | .ofNat i => some (entry v i)
  | .negSucc k => v.reverse[k]?

/-- The vector with entry zero at an index that is not negative. -/
def clear : Int → List Int → List Int
  | .ofNat i, v => Diophantine.clear i v
  | .negSucc _, v => v

/-- The form `f` with `e` in place of the unknown `i`; none if `i` is before the start of a vector. -/
def substitute (f : Form) (i : Int) (e : Form) : Option Form :=
  (entryAt f.coefficients i).map fun m =>
    if m = 0 then f
    else ⟨addMultiple m (clear i f.coefficients) e.coefficients,
      addMultiple m f.constants e.constants⟩

/-- Puts `e` in place of the unknown `i` in all forms, and records it when `i` is less than `n`; none
if `i` is before the start of a vector. -/
def eliminate (n i : Int) (e : Form) (s : List (Int × Form)) : Option (List (Int × Form)) := do
  let rest ← s.mapM fun f => return (f.1, ← substitute f.2 i e)
  return if i < n ∧ i ∉ s.map Prod.fst then (i, e) :: rest else rest

/-- Records the form `f` for `i`; an earlier one gives way. -/
def insert (i : Int) (f : Form) : List (Int × Form) → List (Int × Form)
  | [] => [(i, f)]
  | (j, g) :: rest => if j = i then (i, f) :: rest else (j, g) :: insert i f rest

/-- The given forms, of two for one index the later one. -/
def ofForms (fs : List (Int × Form)) : List (Int × Form) :=
  fs.foldl (fun s f => insert f.1 f.2 s) []

/-- The forms in order of their indices. -/
def sorted (s : List (Int × Form)) : List (Int × Form) := s.mergeSort fun f g => decide (f.1 ≤ g.1)

/-- A solution with its indices as integers. -/
def ofSolution (s : Solution) : List (Int × Form) := s.map fun f => ((f.1 : Int), f.2)

/-- The forms of indices that are not negative. -/
def toSolution (s : List (Int × Form)) : Solution :=
  s.filterMap fun f =>
    match f.1 with
    | .ofNat i => some (i, f.2)
    | .negSucc _ => none

theorem substitute_ofNat (f : Form) (i : Nat) (e : Form) :
    substitute f (i : Int) e = some (f.substitute i e) := rfl

/-- **At a natural index nothing fails**, and the forms are those of `Solution.eliminate`. -/
theorem eliminate_ofNat (n i : Nat) (e : Form) (s : Solution) :
    eliminate n i e (ofSolution s) = some (ofSolution (s.eliminate n i e)) := by
  have hrest : ∀ s : Solution,
      ((ofSolution s).mapM fun f => return (f.1, ← substitute f.2 (i : Int) e) :
          Option (List (Int × Form))) =
        some (ofSolution (s.map fun f => (f.1, f.2.substitute i e))) := by
    intro s
    induction s with
    | nil => rfl
    | cons f s ih =>
      simp only [ofSolution, List.map_cons, List.mapM_cons, substitute_ofNat] at ih ⊢
      simp only [ih]
      rfl
  have hkey : (i : Int) ∈ (ofSolution s).map Prod.fst ↔ i ∈ s.keys := by
    simp only [ofSolution, Solution.keys, List.map_map, List.mem_map, Function.comp_apply]
    exact ⟨fun ⟨f, hf, h⟩ => ⟨f, hf, Int.ofNat_inj.1 h⟩,
      fun ⟨f, hf, h⟩ => ⟨f, hf, congrArg Int.ofNat h⟩⟩
  simp only [eliminate, hrest, Solution.eliminate, hkey, Int.ofNat_lt]
  by_cases h : i < n ∧ i ∉ s.keys <;> simp [h, ofSolution]

end GroupUnify.Diophantine.Signed
