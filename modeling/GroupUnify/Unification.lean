import GroupUnify.Diophantine.Solver
import GroupUnify.Parameter
import GroupUnify.Term.Substitution

/-!
# Unification and matching in Abelian groups

A matcher of `a` and `b` is a substitution that turns `a` into `b`, the names of `b` being constants;
a unifier makes `a` and `b` equal. Counting the occurrences of each name of `b` in the terms put into
`a` gives one linear equation per name, all with the coefficients of `a` on the left. So a most general
matcher is read off the most general integer solution, and a unifier of `a` and `b` is a matcher of
`a - b` and the identity.

* `Search`: what looking for a substitution gives, with the rounds of the solver.
* `findMatcher`, `findUnifier`: the two searches.
* `Substitution.Matches`, `Substitution.Unifies`: what their results are meant to satisfy.
-/

namespace GroupUnify

/-- The rounds of a search, and its answer: most general bindings, or none if nothing fits. -/
structure Search where
  rounds : List Diophantine.Round
  answer : Except Diophantine.Error (Option Substitution)

namespace Search

/-- The term of an unknown with value `f`: each coefficient at the parameter of its index, each
constant at the name that it counts. -/
def termOf (constants : List String) (f : Diophantine.Form) : Term :=
  Term.ofPairs (f.coefficients.mapIdx (fun j c => (Parameter.name j, c)) ++
    constants.zip f.constants)

/-- The bindings of the `unknowns`, in their order. An unknown without a form is free: it gets the
parameter of its own index. -/
def bindings (unknowns constants : List String) (s : Diophantine.Solution) : Substitution :=
  unknowns.mapIdx fun i x =>
    ⟨x, match s.form? i with
      | some f => termOf constants f
      | none => Term.var (Parameter.name i)⟩

end Search

/-- A most general substitution that turns `a` into `b`. If `a` is the identity there is nothing to
replace, and only the identity matches. -/
def findMatcher (a b : Term) : Search :=
  if a.isZero then ⟨[], .ok (if b.isZero then some [] else none)⟩
  else
    let run := Diophantine.solve (a.factors.map Prod.snd) (b.factors.map Prod.snd)
    ⟨run.rounds, run.answer.map fun solution =>
      solution.map (Search.bindings a.names b.names)⟩

/-- A most general substitution that makes `a` and `b` equal. -/
def findUnifier (a b : Term) : Search := findMatcher (a + -b) 0

namespace Substitution

/-- The substitution makes `a` and `b` equal. -/
def Unifies (s : Substitution) (a b : Term) : Prop := s.apply a ≈ s.apply b

/-- The substitution turns `a` into `b`. -/
def Matches (s : Substitution) (a b : Term) : Prop := s.apply a ≈ b

instance (s : Substitution) (a b : Term) : Decidable (s.Unifies a b) :=
  inferInstanceAs (Decidable (_ ≈ _))

instance (s : Substitution) (a b : Term) : Decidable (s.Matches a b) :=
  inferInstanceAs (Decidable (_ ≈ _))

end Substitution

end GroupUnify
