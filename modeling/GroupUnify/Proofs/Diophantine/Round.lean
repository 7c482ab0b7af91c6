import GroupUnify.Diophantine.Solver
import Mathlib.Algebra.Order.Ring.Int
import Mathlib.Logic.Relation
import Mathlib.Tactic.Common

/-!
# What a round of the solver can do

A run is a chain of rounds, each of which leaves other equations (`Advances`), closed by a round with
a result (`Finishes`). Both relations say all there is to say about a round, so no later proof opens
`State.step`.

* `pivot?_entry`: the pivot stands at its index.
* `step_eq`: a round in closed form; it never divides by zero.
* `exists_not_leads`: rounds cannot go on forever.
* `run_records`: the rounds of a run are such a chain, numbered from the first on.
* `run_reaches`: the answer of a run is that of the last state it reaches.
* `State.answer_of_advances`, `State.answer_of_finishes`: the answer of a run, by its first round.
-/

namespace GroupUnify.Diophantine

open Relation

/-! ### The place of the pivot -/

theorem pivotFrom_entry (v : List ℤ) : ∀ (pre : List ℤ) (best : Pivot),
    entry (pre ++ v) best.index = best.value → best.index < pre.length →
      entry (pre ++ v) (pivotFrom pre.length best v).index = (pivotFrom pre.length best v).value ∧
        (pivotFrom pre.length best v).index < (pre ++ v).length := by
  induction v with
  | nil =>
    intro pre best h hi
    rw [List.append_nil] at h ⊢
    exact ⟨h, hi⟩
  | cons x xs ih =>
    intro pre best h hi
    have hlen : (pre ++ [x]).length = pre.length + 1 := by simp
    have happ : pre ++ x :: xs = (pre ++ [x]) ++ xs := by simp
    rw [happ] at h ⊢
    rw [pivotFrom, ← hlen]
    by_cases himp : Improves best.value x
    · rw [if_pos himp]
      exact ih (pre ++ [x]) ⟨pre.length, x⟩ (by simp [entry]) (by simp)
    · rw [if_neg himp]
      exact ih (pre ++ [x]) best h (by omega)

/-- **The pivot stands at its index.** -/
theorem pivot?_entry {v : List ℤ} {p : Pivot} (h : pivot? v = some p) :
    entry v p.index = p.value ∧ p.index < v.length := by
  cases v with
  | nil => simp [pivot?] at h
  | cons x xs =>
    simp only [pivot?, Option.some.injEq] at h
    subst h
    exact pivotFrom_entry xs [x] ⟨0, x⟩ rfl (by simp)

theorem exists_pivot? {v : List ℤ} (h : v ≠ []) : ∃ p, pivot? v = some p := by
  cases v with
  | nil => exact absurd rfl h
  | cons x xs => exact ⟨_, rfl⟩

/-! ### States after a round -/

namespace State

/-- The same equations with all signs turned. -/
def negated (st : State) : State :=
  ⟨invert st.coefficients, invert st.constants, st.solution⟩

/-- Coefficients and constants divided by `k`. -/
def quotient (st : State) (k : ℤ) : State :=
  ⟨st.coefficients.map (·.fdiv k), st.constants.map (·.fdiv k), st.solution⟩

/-- The pivot's unknown in terms of a fresh parameter: the parameter less the floor quotients. -/
def carried (st : State) (p : Pivot) : Form :=
  ⟨invert ((clear p.index st.coefficients).map (·.fdiv p.value)) ++ [1], []⟩

/-- The remainders, with the pivot as the coefficient of the fresh parameter. -/
def reduced (n : ℕ) (st : State) (p : Pivot) : State :=
  ⟨st.coefficients.map (·.fmod p.value) ++ [p.value], st.constants,
    st.solution.eliminate n p.index (st.carried p)⟩

/-- **A round in closed form.** Every division is by the pivot, which is not zero by then. -/
theorem step_eq (n : ℕ) (st : State) (p : Pivot) :
    st.step n p = .ok (
      if p.value < 0 then .advance .negate st.negated
      else if p.value = 0 then .finish .fail (.error (.noPivot st.coefficients))
      else if p.value = 1 then
        .finish .eliminate (.ok (some (st.solution.eliminate n p.index (st.solved p.index))))
      else if st.coefficients.all fun x => x.fmod p.value == 0 then
        if st.constants.all fun x => x.fmod p.value == 0 then
          .finish .divide (.ok (some (st.solution.eliminate n p.index
            ((st.quotient p.value).solved p.index))))
        else .finish .fail (.ok none)
      else .advance .reduce (st.reduced n p)) := by
  unfold step
  by_cases hneg : p.value < 0
  · rw [if_pos hneg, if_pos hneg, negated]
  rw [if_neg hneg, if_neg hneg]
  by_cases hzero : p.value = 0
  · rw [if_pos hzero, if_pos hzero]
  rw [if_neg hzero, if_neg hzero]
  by_cases hone : p.value = 1
  · rw [if_pos hone, if_pos hone]
  rw [if_neg hone, if_neg hone]
  simp only [divisible_of_ne_zero hzero, quotients_of_ne_zero hzero, remainders_of_ne_zero hzero,
    bind, Except.bind, pure, Except.pure, reduced, carried, quotient]
  split
  · split <;> rfl
  · rfl

end State

/-! ### Rounds that go on and rounds that end -/

/-- A round that goes on, with its action. -/
inductive Advances (n : ℕ) : Action → State → State → Prop
  | negate {st : State} {p : Pivot} (hp : pivot? st.coefficients = some p) (hneg : p.value < 0) :
      Advances n .negate st st.negated
  | reduce {st : State} {p : Pivot} (hp : pivot? st.coefficients = some p) (hpos : 1 < p.value)
      (hrest : ∃ x ∈ st.coefficients, ¬ p.value ∣ x) :
      Advances n .reduce st (st.reduced n p)

/-- A round with a result, with its action. Pivot one is the case of a pivot that divides everything
in which there is nothing to divide. -/
inductive Finishes (n : ℕ) (st : State) : Action → Answer → Prop
  | noPivot {p : Pivot} (hp : pivot? st.coefficients = some p) (hzero : p.value = 0) :
      Finishes n st .fail (.error (.noPivot st.coefficients))
  | unsolvable {p : Pivot} (hp : pivot? st.coefficients = some p) (hpos : 1 < p.value)
      (hc : ∀ x ∈ st.coefficients, p.value ∣ x) (hd : ∃ y ∈ st.constants, ¬ p.value ∣ y) :
      Finishes n st .fail (.ok none)
  | solved {p : Pivot} (hp : pivot? st.coefficients = some p) (hpos : 0 < p.value)
      (hc : ∀ x ∈ st.coefficients, p.value ∣ x) (hd : ∀ y ∈ st.constants, p.value ∣ y) :
      Finishes n st (if p.value = 1 then .eliminate else .divide)
        (.ok (some (st.solution.eliminate n p.index ((st.quotient p.value).solved p.index))))

theorem all_fmod_iff {k : ℤ} {v : List ℤ} :
    (v.all fun x => x.fmod k == 0) = true ↔ ∀ x ∈ v, k ∣ x := by
  simp only [List.all_eq_true, beq_iff_eq, Int.dvd_iff_fmod_eq_zero]

theorem State.quotient_one (st : State) : st.quotient 1 = st := by
  simp [quotient]

variable {n : ℕ} {st next : State} {p : Pivot} {action : Action} {answer : Answer}

/-- A round that goes on does one of two things. -/
theorem advances_of_step (hp : pivot? st.coefficients = some p)
    (h : st.step n p = .ok (.advance action next)) : Advances n action st next := by
  rw [State.step_eq, Except.ok.injEq] at h
  split at h
  · next hneg => cases h; exact .negate hp hneg
  split at h
  · cases h
  split at h
  · cases h
  split at h
  · split at h <;> cases h
  · next hneg hzero hone hdiv =>
    cases h
    rw [all_fmod_iff] at hdiv
    push Not at hdiv
    exact .reduce hp (by omega) hdiv

/-- Either of them is what the round does. -/
theorem step_of_advances (h : Advances n action st next) :
    ∃ p, pivot? st.coefficients = some p ∧ st.step n p = .ok (.advance action next) := by
  cases h with
  | @negate _ p hp hneg =>
    refine ⟨p, hp, ?_⟩
    rw [State.step_eq, if_pos hneg]
  | @reduce _ p hp hpos hrest =>
    have hall : ¬ (st.coefficients.all fun x => x.fmod p.value == 0) = true := by
      rw [all_fmod_iff]
      push Not
      exact hrest
    refine ⟨p, hp, ?_⟩
    rw [State.step_eq, if_neg (by omega), if_neg (by omega), if_neg (by omega), if_neg hall]

/-- The two things, by the sign of a given pivot. -/
theorem cases_of_advances (hp : pivot? st.coefficients = some p) (h : Advances n action st next) :
    (action = .negate ∧ p.value < 0 ∧ next = st.negated) ∨
      (action = .reduce ∧ 1 < p.value ∧ (∃ x ∈ st.coefficients, ¬ p.value ∣ x) ∧
        next = st.reduced n p) := by
  cases h with
  | negate hp' hneg =>
    rw [hp] at hp'
    cases hp'
    exact Or.inl ⟨rfl, hneg, rfl⟩
  | reduce hp' hpos hrest =>
    rw [hp] at hp'
    cases hp'
    exact Or.inr ⟨rfl, hpos, hrest, rfl⟩

/-- A round with a result is one of three kinds. -/
theorem finishes_of_step (hp : pivot? st.coefficients = some p)
    (h : st.step n p = .ok (.finish action answer)) : Finishes n st action answer := by
  rw [State.step_eq, Except.ok.injEq] at h
  split at h
  · cases h
  split at h
  · next hzero => cases h; exact .noPivot hp hzero
  split at h
  · next hone =>
    cases h
    have hs := Finishes.solved (n := n) hp (by omega) (fun x _ => hone ▸ one_dvd x)
      (fun y _ => hone ▸ one_dvd y)
    rw [if_pos hone, hone, State.quotient_one] at hs
    exact hs
  split at h
  · next hneg hzero hone hdiv =>
    rw [all_fmod_iff] at hdiv
    split at h
    · next hd =>
      cases h
      rw [all_fmod_iff] at hd
      have hs := Finishes.solved (n := n) hp (by omega) hdiv hd
      rw [if_neg hone] at hs
      exact hs
    · next hd =>
      cases h
      rw [all_fmod_iff] at hd
      push Not at hd
      exact .unsolvable hp (by omega) hdiv hd
  · cases h

/-- Each of them is what the round does. -/
theorem step_of_finishes (h : Finishes n st action answer) :
    ∃ p, pivot? st.coefficients = some p ∧ st.step n p = .ok (.finish action answer) := by
  cases h with
  | @noPivot p hp hzero =>
    refine ⟨p, hp, ?_⟩
    rw [State.step_eq, if_neg (by omega), if_pos hzero]
  | @unsolvable p hp hpos hc hd =>
    have hall : ¬ (st.constants.all fun x => x.fmod p.value == 0) = true := by
      rw [all_fmod_iff]
      push Not
      exact hd
    refine ⟨p, hp, ?_⟩
    rw [State.step_eq, if_neg (by omega), if_neg (by omega), if_neg (by omega),
      if_pos (all_fmod_iff.2 hc), if_neg hall]
  | @solved p hp hpos hc hd =>
    refine ⟨p, hp, ?_⟩
    rw [State.step_eq, if_neg (by omega), if_neg (by omega)]
    by_cases hone : p.value = 1
    · rw [if_pos hone, if_pos hone, hone, State.quotient_one]
    · rw [if_neg hone, if_neg hone, if_pos (all_fmod_iff.2 hc), if_pos (all_fmod_iff.2 hd)]

theorem nonneg_of_finishes (hp : pivot? st.coefficients = some p)
    (h : Finishes n st action answer) : 0 ≤ p.value := by
  cases h with
  | noPivot hp' hzero => rw [hp] at hp'; cases hp'; omega
  | unsolvable hp' hpos hc hd => rw [hp] at hp'; cases hp'; omega
  | solved hp' hpos hc hd => rw [hp] at hp'; cases hp'; omega

/-! ### Runs -/

/-- Some round leads from the first state to the second. -/
def Leads (n : ℕ) (st next : State) : Prop := ∃ action, Advances n action st next

theorem coefficients_ne_nil_of_advances (h : Advances n action st next) :
    next.coefficients ≠ [] := by
  cases h with
  | negate hp hneg =>
    have hlt := (pivot?_entry hp).2
    intro hnil
    rw [State.negated, invert, List.map_eq_nil_iff] at hnil
    rw [hnil] at hlt
    exact absurd hlt (by simp)
  | reduce hp hpos hrest => simp [State.reduced]

theorem weight_of_leads (h : Leads n st next) : next.weight < st.weight := by
  obtain ⟨action, hadv⟩ := h
  obtain ⟨p, hp, hstep⟩ := step_of_advances hadv
  exact State.weight_advance hp hstep

/-- **Rounds cannot go on forever.** -/
theorem exists_not_leads (n : ℕ) (chain : ℕ → State) :
    ∃ i, ¬ Leads n (chain i) (chain (i + 1)) := by
  by_contra hforever
  push Not at hforever
  -- the weights fall below every bound
  have hfall : ∀ i, (chain i).weight + i ≤ (chain 0).weight := by
    intro i
    induction i with
    | zero => omega
    | succ i ih =>
      have := weight_of_leads (hforever i)
      omega
  have := hfall ((chain 0).weight + 1)
  omega

/-- The answer of a run, by what its first round does. -/
theorem State.answer_eq (hp : pivot? st.coefficients = some p) (n number : ℕ) :
    (st.run n number).answer =
      match st.step n p with
      | .error cause => .error (.division cause)
      | .ok (.finish _ answer) => answer
      | .ok (.advance _ next) => (next.run n (number + 1)).answer := by
  rw [State.run]
  split
  · next hp' => rw [hp] at hp'; cases hp'
  · next q hp' =>
    rw [hp] at hp'
    cases hp'
    split
    · next hstep => rw [hstep]
    · next hstep => rw [hstep]
    · next hstep => rw [hstep]

theorem State.answer_of_finishes (h : Finishes n st action answer) (number : ℕ) :
    (st.run n number).answer = answer := by
  obtain ⟨p, hp, hstep⟩ := step_of_finishes h
  rw [State.answer_eq hp, hstep]

theorem State.answer_of_advances (h : Advances n action st next) (number : ℕ) :
    (st.run n number).answer = (next.run n (number + 1)).answer := by
  obtain ⟨p, hp, hstep⟩ := step_of_advances h
  rw [State.answer_eq hp, hstep]

/-- The rounds and the answer of a run that starts in `st` with round `number`. -/
inductive Records (n : ℕ) : ℕ → State → List Round → Answer → Prop
  | finish {number : ℕ} {st : State} {p : Pivot} {action : Action} {answer : Answer}
      (hp : pivot? st.coefficients = some p) (hfin : Finishes n st action answer) :
      Records n number st [⟨number, action, p, st.coefficients, st.constants⟩] answer
  | advance {number : ℕ} {st next : State} {p : Pivot} {action : Action} {rounds : List Round}
      {answer : Answer} (hp : pivot? st.coefficients = some p) (hadv : Advances n action st next)
      (later : Records n (number + 1) next rounds answer) :
      Records n number st (⟨number, action, p, st.coefficients, st.constants⟩ :: rounds) answer

/-- **A run is a chain of rounds** that is closed by one with a result. -/
theorem run_records (n number : ℕ) (st : State) (hst : st.coefficients ≠ []) :
    Records n number st (st.run n number).rounds (st.run n number).answer := by
  -- only the first state can be without a pivot, since rounds keep the equations non-empty
  fun_induction State.run n number st with
  | case1 number st hp =>
    obtain ⟨p, hp'⟩ := exists_pivot? hst
    rw [hp] at hp'
    cases hp'
  | case2 number st p hp cause h =>
    rw [State.step_eq] at h
    cases h
  | case3 number st p hp round action answer h => exact .finish hp (finishes_of_step hp h)
  | case4 number st p hp round action next h later ih =>
    have hadv := advances_of_step hp h
    exact .advance hp hadv (ih (coefficients_ne_nil_of_advances hadv))

theorem Records.reaches {rounds : List Round} {number : ℕ}
    (h : Records n number st rounds answer) :
    ∃ last action, ReflTransGen (Leads n) st last ∧ Finishes n last action answer := by
  induction h with
  | finish hp hfin => exact ⟨_, _, .refl, hfin⟩
  | advance hp hadv later ih =>
    obtain ⟨last, action, hreach, hfin⟩ := ih
    exact ⟨last, action, .head ⟨_, hadv⟩ hreach, hfin⟩

/-- **The answer of a run is that of the last state it reaches.** -/
theorem run_reaches (n number : ℕ) (st : State) (hst : st.coefficients ≠ []) :
    ∃ last action, ReflTransGen (Leads n) st last ∧
      Finishes n last action (st.run n number).answer :=
  (run_records n number st hst).reaches

end GroupUnify.Diophantine
