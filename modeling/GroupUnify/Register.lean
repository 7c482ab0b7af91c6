import GroupUnify.Failure
import GroupUnify.Term.Printer
import GroupUnify.Unification

/-!
# Register programs of term operations

A program is a list of instructions, each of which fills a new register with a term. A failing
instruction leaves the identity in its register. `Register.run` gives for each instruction the term
with its text, or the failure.
-/

namespace GroupUnify

/-- One instruction; registers are given by their numbers from zero on, or by negative numbers that
count from the last one. -/
inductive Instruction where
  | zero
  | var (x : String)
  | parse (text : String)
  /-- Reads the text of a register. -/
  | reparse (a : Int)
  | ofPairs (pairs : List Factor)
  | scale (k : Int) (a : Int)
  | neg (a : Int)
  | add (a b : Int)
  | canonical (a : Int)
  /-- Applies bindings whose terms are registers. -/
  | substitute (bindings : List (String × Int)) (a : Int)
  /-- Applies a unifier of two registers to the first. -/
  | unify (a b : Int)
  /-- Applies a matcher of two registers to the first. -/
  | «match» (a b : Int)
deriving DecidableEq, Repr

namespace Register

/-- The answer of a search applied to `t`; the identity if there is none. -/
def applied (search : Search) (t : Term) : Except Failure Term :=
  match search.answer with
  | .error cause => .error (.solver cause)
  | .ok none => .ok 0
  | .ok (some s) => .ok (s.apply t)

/-- The term of register `a`. -/
def get (registers : List Term) (a : Int) : Except Failure Term :=
  let found :=
    match a with
    | .ofNat i => registers[i]?
    | .negSucc k => registers.reverse[k]?
  match found with
  | some t => .ok t
  | none => .error (.register a)

/-- The bindings whose terms are registers. -/
def bindings (registers : List Term) (given : List (String × Int)) :
    Except Failure Substitution :=
  given.mapM fun b => return ⟨b.1, ← get registers b.2⟩

/-- The term that an instruction makes of the registers. -/
def eval [CallStack] (registers : List Term) : Instruction → Except Failure Term
  | .zero => .ok 0
  | .var x => .ok (Term.var x)
  | .parse text => (Term.parse text).mapError .parse
  | .reparse a => do
    let text ← (← get registers a).format.mapError .decimal
    (Term.parse text).mapError .parse
  | .ofPairs pairs => .ok (Term.ofPairs pairs)
  | .scale k a => return (← get registers a).scale k
  | .neg a => return -(← get registers a)
  | .add a b => return (← get registers a) + (← get registers b)
  | .canonical a => return (← get registers a).canonical
  | .substitute given a => return (← bindings registers given).apply (← get registers a)
  | .unify a b => do
    let left ← get registers a
    applied (findUnifier left (← get registers b)) left
  | .match a b => do
    let left ← get registers a
    applied (findMatcher left (← get registers b)) left

/-- The term of an instruction with its text. -/
def result [CallStack] (registers : List Term) (i : Instruction) : Except Failure (Term × String) := do
  let t ← eval registers i
  return (t, ← t.format.mapError .decimal)

/-- What stands in a register after an instruction with this result. -/
def stored : Except Failure (Term × String) → Term
  | .ok (t, _) => t
  | .error _ => 0

/-- The results of a program that starts with `registers` filled. -/
def runFrom [CallStack] (registers : List Term) : List Instruction → List (Except Failure (Term × String))
  | [] => []
  | i :: rest =>
    let r := result registers i
    r :: runFrom (registers ++ [stored r]) rest

/-- The results of a program. -/
def run [CallStack] (program : List Instruction) : List (Except Failure (Term × String)) := runFrom [] program

end Register

end GroupUnify
