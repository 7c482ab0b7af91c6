import GroupUnify.Term.Basic

/-!
# Substitution

A substitution is a list of bindings. All bindings apply at once: the terms put in are not looked
at again, so a binding may mention names that are bound themselves.

* `Term.bind`: the sum of `c • f x` over the factors, for any assignment `f` of terms to names.
* `Substitution.image`: what a substitution does to a name; the last binding of a name counts, and
  a name without binding stays.
-/

namespace GroupUnify

/-- The sum of `c • f x` over the factors `c • x` of a term. -/
def Term.bind (t : Term) (f : String → Term) : Term :=
  t.factors.foldl (fun sum g => sum + Term.scale g.2 (f g.1)) 0

/-- One binding: a name and the term to put in its place. -/
structure Binding where
  name : String
  term : Term
deriving DecidableEq, Repr

/-- Bindings in order. -/
abbrev Substitution := List Binding

namespace Substitution

/-- The term of the last binding of `x`. -/
def find? (x : String) : Substitution → Option Term
  | [] => none
  | b :: bs => (find? x bs).or (if b.name = x then some b.term else none)

/-- The term that replaces `x`: the name itself if it is not bound. -/
def image (s : Substitution) (x : String) : Term := (s.find? x).getD (Term.var x)

/-- The term `t` with all its names replaced at once. -/
def apply (s : Substitution) (t : Term) : Term := t.bind s.image

/-- First `s`, then `r`: the bindings of `s` with `r` applied to their terms, over those of `r`. -/
def followedBy (s r : Substitution) : Substitution :=
  r ++ s.map fun b => ⟨b.name, r.apply b.term⟩

/-- The substitution `s` with `r` applied to each of its terms: an instance of `s`. -/
def instantiate (s r : Substitution) : Substitution := s.map fun b => ⟨b.name, r.apply b.term⟩

end Substitution

end GroupUnify
