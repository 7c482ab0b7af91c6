import GroupUnify.Diophantine.Pivot
import GroupUnify.Diophantine.Solution

/-!
# Solving a system of linear Diophantine equations

`solve c d` finds the most general integer solution of the equations `c · x = d k`, one for each
constant `d k`; without constants it solves `c · x = 0`. Each round looks at the pivot, the entry of
least absolute value:

* a negative pivot turns all signs;
* pivot one solves its unknown, and so does a pivot that divides everything, after division;
* otherwise the pivot's unknown is replaced by a fresh parameter that takes the floor quotients along,
  and the remainders stay, with the pivot for the parameter.

A run keeps its rounds beside its result. It ends because the pivot shrinks (`State.weight_advance`).
-/

namespace GroupUnify.Diophantine

/-- Why a system has no answer. -/
inductive Error where
  /-- All coefficients are zero. -/
  | noPivot (coefficients : List Int)
  /-- A division by zero. -/
  | division (cause : DivisionError)
deriving DecidableEq, Repr

/-- The wording of a failure. -/
def Error.message : Error → String
  | .noPivot c => "no non-zero coefficient in [" ++ ", ".intercalate (c.map toString) ++ "]"
  | .division cause => cause.message

/-- What a round does. -/
inductive Action where
  | negate
  | reduce
  | eliminate
  | divide
  | fail
deriving DecidableEq, Repr

/-- The word for an action. -/
def Action.name : Action → String
  | .negate => "negate"
  | .reduce => "reduce"
  | .eliminate => "eliminate"
  | .divide => "divide"
  | .fail => "fail"

/-- A round: its number from one on, its action, and the pivot and equations that it found. -/
structure Round where
  number : Nat
  action : Action
  pivot : Pivot
  coefficients : List Int
  constants : List Int
deriving DecidableEq, Repr

/-- Equations under way: coefficients and constants, and the forms recorded so far. -/
structure State where
  coefficients : List Int
  constants : List Int
  solution : Solution
deriving DecidableEq, Repr

/-- A result: a solution, or none because the equations have no integer solution. -/
abbrev Answer := Except Error (Option Solution)

/-- What one round leads to: other equations, or a result. -/
inductive Step where
  | advance (action : Action) (next : State)
  | finish (action : Action) (answer : Answer)

namespace State

/-- The form of the unknown `i` if its coefficient is one: the rest of the equation with its signs
turned. -/
def solved (st : State) (i : Nat) : Form := ⟨invert (clear i st.coefficients), st.constants⟩

/-- One round with pivot `p` on a problem with `n` unknowns. -/
def step (n : Nat) (st : State) (p : Pivot) : Except DivisionError Step :=
  if p.value < 0 then
    .ok (.advance .negate ⟨invert st.coefficients, invert st.constants, st.solution⟩)
  else if p.value = 0 then
    .ok (.finish .fail (.error (.noPivot st.coefficients)))
  else if p.value = 1 then
    .ok (.finish .eliminate (.ok (some (st.solution.eliminate n p.index (st.solved p.index)))))
  else do
    if ← divisible p.value st.coefficients then
      if ← divisible p.value st.constants then
        let quotient : State :=
          ⟨← quotients p.value st.coefficients, ← quotients p.value st.constants, st.solution⟩
        return .finish .divide
          (.ok (some (st.solution.eliminate n p.index (quotient.solved p.index))))
      else
        return .finish .fail (.ok none)
    else
      let parts ← quotients p.value (clear p.index st.coefficients)
      let rest ← remainders p.value st.coefficients
      return .advance .reduce ⟨rest ++ [p.value], st.constants,
        st.solution.eliminate n p.index ⟨invert parts ++ [1], []⟩⟩

/-- Twice the absolute value of the pivot, and one more while the pivot is negative. -/
def weight (st : State) : Nat :=
  match pivot? st.coefficients with
  | none => 0
  | some p => 2 * p.value.natAbs + if p.value < 0 then 1 else 0

end State

/-- After a reduction some entry is smaller than the old pivot and not zero. -/
theorem natAbs_pivot_remainders {v : List Int} {k : Int} {q : Pivot} (hk : 0 < k)
    (hv : (v.all fun x => x.fmod k == 0) = false)
    (hq : pivot? (v.map (fun x => x.fmod k) ++ [k]) = some q) :
    q.value.natAbs < k.natAbs ∧ 0 ≤ q.value := by
  obtain ⟨hmem, -, hleast⟩ := pivot?_spec hq
  simp only [List.all_eq_false, beq_iff_eq] at hv
  obtain ⟨x, hx, hx0⟩ := hv
  have hlo := Int.fmod_nonneg_of_pos x hk
  have hhi := Int.fmod_lt_of_pos x hk
  have hle := hleast (x.fmod k)
    (List.mem_append_left _ (List.mem_map_of_mem hx)) hx0
  refine ⟨by omega, ?_⟩
  rcases List.mem_append.1 hmem with hmem | hmem
  · obtain ⟨y, -, hy⟩ := List.mem_map.1 hmem
    rw [← hy]
    exact Int.fmod_nonneg_of_pos y hk
  · rw [List.mem_singleton.1 hmem]
    omega

/-- **The pivot shrinks**: a round that goes on leaves equations of less weight. -/
theorem State.weight_advance {n : Nat} {st next : State} {p : Pivot} {action : Action}
    (hp : pivot? st.coefficients = some p) (h : st.step n p = .ok (.advance action next)) :
    next.weight < st.weight := by
  unfold State.step at h
  split at h
  · next hneg =>
    cases h
    simp only [State.weight, hp, pivot?_invert, Option.map_some, Int.natAbs_neg]
    have h1 : ¬ -p.value < 0 := by omega
    simp only [h1, hneg, if_true, if_false]
    omega
  · split at h
    · cases h
    · split at h
      · cases h
      · next hneg hzero _ =>
        simp only [divisible_of_ne_zero hzero, quotients_of_ne_zero hzero,
          remainders_of_ne_zero hzero, bind, Except.bind, pure, Except.pure] at h
        split at h
        · split at h <;> cases h
        · next hdiv =>
          cases h
          simp only [Bool.not_eq_true] at hdiv
          simp only [State.weight, hp]
          split
          · split <;> omega
          · next q hq =>
            obtain ⟨hlt, hnn⟩ := natAbs_pivot_remainders (by omega) hdiv hq
            have h1 : ¬ q.value < 0 := by omega
            simp only [h1, if_false, hneg]
            omega

/-- The rounds of a run, and its result. -/
structure Run where
  rounds : List Round
  answer : Answer

namespace State

/-- Rounds from number `number` on until there is a result. -/
def run (n number : Nat) (st : State) : Run :=
  match _hp : pivot? st.coefficients with
  | none => ⟨[], .ok (some st.solution)⟩
  | some p =>
    let round (action : Action) : Round :=
      ⟨number, action, p, st.coefficients, st.constants⟩
    match h : st.step n p with
    | .error cause => ⟨[], .error (.division cause)⟩
    | .ok (.finish action answer) => ⟨[round action], answer⟩
    | .ok (.advance action next) =>
      let later := next.run n (number + 1)
      ⟨round action :: later.rounds, later.answer⟩
termination_by st.weight
decreasing_by exact weight_advance _hp h

end State

/-- The run on the equations `c · x = d k`. Without unknowns the solution is empty. -/
def solve (c d : List Int) : Run := State.run c.length 1 ⟨c, d, []⟩

end GroupUnify.Diophantine
