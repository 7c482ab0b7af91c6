import GroupUnify.Proofs.Diophantine.Solvability
import Mathlib.Data.List.Forall2

/-!
# Each right hand side alone

A run takes all right hand sides along, and none of them has an influence on another or on the coefficients.
Two systems with the same coefficients are compared at one place of each: position `k` in the constants of
the one and position `l` in those of the other. They agree there if the entries are equal, and so do their
forms. A turn of signs, a reduction and the last round keep the agreement (`State.Agrees.negated`,
`State.Agrees.reduced`, `State.Agrees.solved`), since constants are combined entry by entry and a vector
that is too short counts as zero. With `l = 0` the other system has one right hand side; at positions beyond
the last one it is the homogeneous equation.

* `Records.agrees`: two runs with solutions agree at the end if they agree at the start.
* `solve_agrees`: the same for systems.
* `solve_each`: all right hand sides at once against each one alone.
-/

namespace GroupUnify.Diophantine

variable {n number : ℕ} {c d d' : List ℤ} {st st' next : State} {p : Pivot} {action : Action}
  {rounds : List Round} {answer : Answer} {e e' f g : Form} {s s' : Solution} {i k l : ℕ}

/-! ### Forms -/

/-- The forms have the same coefficients, and the constant of `f` at `k` is that of `g` at `l`. -/
structure Form.Agrees (k l : ℕ) (f g : Form) : Prop where
  coefficients : f.coefficients = g.coefficients
  constants : entry f.constants k = entry g.constants l

/-- Substitution combines constants entry by entry. -/
theorem Form.Agrees.substitute (h : f.Agrees k l g) (he : e.Agrees k l e') (i : ℕ) :
    (f.substitute i e).Agrees k l (g.substitute i e') := by
  rw [substitute_eq, substitute_eq, ← h.coefficients, ← he.coefficients]
  by_cases hm : entry f.coefficients i = 0
  · rw [if_pos hm, if_pos hm]
    exact h
  · rw [if_neg hm, if_neg hm]
    refine ⟨rfl, ?_⟩
    simp only [entry_addMultiple, h.constants, he.constants]

/-! ### Solutions -/

namespace Solution

/-- The forms of the two solutions agree one by one, in the same order and for the same unknowns. -/
def Agrees (k l : ℕ) (s s' : Solution) : Prop :=
  List.Forall₂ (fun f g => f.1 = g.1 ∧ f.2.Agrees k l g.2) s s'

/-- The unknowns with their vectors of coefficients, in the order of the solution. -/
def vectors (s : Solution) : List (ℕ × List ℤ) := s.map fun f => (f.1, f.2.coefficients)

/-- The constant of the unknown `i` for right hand side `k`: zero if its vector is too short. -/
def constant (s : Solution) (i k : ℕ) : ℤ := (s.form? i).elim 0 fun f => entry f.constants k

theorem Agrees.vectors (h : s.Agrees k l s') : s.vectors = s'.vectors := by
  induction h with
  | nil => rfl
  | @cons f g s s' hfg hs ih =>
    have hhead : (f.1, f.2.coefficients) = (g.1, g.2.coefficients) :=
      Prod.ext hfg.1 hfg.2.coefficients
    rw [Solution.vectors, List.map_cons, hhead]
    exact congrArg ((g.1, g.2.coefficients) :: ·) ih

theorem Agrees.keys (h : s.Agrees k l s') : s.keys = s'.keys := by
  have hvectors := congrArg (List.map Prod.fst) h.vectors
  rw [Solution.vectors, Solution.vectors, List.map_map, List.map_map] at hvectors
  exact hvectors

theorem Agrees.constant (h : s.Agrees k l s') (i : ℕ) : s.constant i k = s'.constant i l := by
  induction h with
  | nil => rfl
  | @cons f g s s' hfg hs ih =>
    obtain ⟨i', f⟩ := f
    obtain ⟨j, g⟩ := g
    obtain ⟨rfl, hagrees⟩ := hfg
    simp only [Solution.constant, form?, List.lookup_cons] at ih ⊢
    cases i == i' with
    | true => exact hagrees.constants
    | false => exact ih

theorem Agrees.eliminate (h : s.Agrees k l s') (he : e.Agrees k l e') (n i : ℕ) :
    (s.eliminate n i e).Agrees k l (s'.eliminate n i e') := by
  have hrest : Agrees k l (s.map fun f => (f.1, f.2.substitute i e))
      (s'.map fun f => (f.1, f.2.substitute i e')) := by
    rw [Agrees, List.forall₂_map_left_iff, List.forall₂_map_right_iff]
    exact h.imp fun f g hfg => ⟨hfg.1, hfg.2.substitute he i⟩
  rw [Solution.eliminate, Solution.eliminate, ← h.keys]
  by_cases hi : i < n ∧ i ∉ s.keys
  · rw [if_pos hi, if_pos hi]
    exact .cons ⟨rfl, he⟩ hrest
  · rw [if_neg hi, if_neg hi]
    exact hrest

end Solution

/-! ### States -/

namespace State

/-- The equations have the same coefficients and agree at `k` and `l`, and so do the recorded forms. -/
structure Agrees (k l : ℕ) (st st' : State) : Prop where
  coefficients : st.coefficients = st'.coefficients
  constants : entry st.constants k = entry st'.constants l
  solution : st.solution.Agrees k l st'.solution

theorem Agrees.negated (h : st.Agrees k l st') : st.negated.Agrees k l st'.negated where
  coefficients := congrArg invert h.coefficients
  constants := by
    rw [State.negated, State.negated, entry_invert, entry_invert, h.constants]
  solution := h.solution

theorem Agrees.reduced (h : st.Agrees k l st') (n : ℕ) (p : Pivot) :
    (st.reduced n p).Agrees k l (st'.reduced n p) := by
  have hcarried : (st.carried p).Agrees k l (st'.carried p) := by
    rw [carried, carried, h.coefficients]
    exact ⟨rfl, rfl⟩
  refine ⟨?_, h.constants, h.solution.eliminate hcarried n p.index⟩
  rw [State.reduced, State.reduced, h.coefficients]

theorem Agrees.solved (h : st.Agrees k l st') (n : ℕ) (p : Pivot) :
    (st.solution.eliminate n p.index ((st.quotient p.value).solved p.index)).Agrees k l
      (st'.solution.eliminate n p.index ((st'.quotient p.value).solved p.index)) := by
  refine h.solution.eliminate ⟨?_, ?_⟩ n p.index
  · rw [State.solved, State.solved, quotient, quotient, h.coefficients]
  · rw [State.solved, State.solved, quotient, quotient, entry_map_fdiv, entry_map_fdiv, h.constants]

end State

/-! ### Runs -/

/-- A round that goes on does so whatever the right hand sides are. -/
theorem State.Agrees.advances (h : st.Agrees k l st') (hadv : Advances n action st next) :
    ∃ next', Advances n action st' next' ∧ next.Agrees k l next' := by
  cases hadv with
  | @negate _ p hp hneg =>
    rw [h.coefficients] at hp
    exact ⟨_, .negate hp hneg, h.negated⟩
  | @reduce _ p hp hpos hrest =>
    rw [h.coefficients] at hp hrest
    exact ⟨_, .reduce hp hpos hrest, h.reduced n p⟩

/-- A solution that the other run comes to agrees with this one. -/
theorem State.Agrees.finishes (h : st.Agrees k l st') (hfin : Finishes n st action (.ok (some s)))
    (number : ℕ) (hs' : (st'.run n number).answer = .ok (some s')) : s.Agrees k l s' := by
  cases hfin with
  | @solved p hp hpos hc hd =>
    rw [h.coefficients] at hp hc
    by_cases hd' : ∀ y ∈ st'.constants, p.value ∣ y
    · rw [State.answer_of_finishes (.solved hp hpos hc hd') number] at hs'
      cases hs'
      exact h.solved n p
    · -- an indivisible right hand side leaves the other run without a solution
      push Not at hd'
      have hone : 1 < p.value := by
        obtain ⟨y, -, hndvd⟩ := hd'
        by_contra hle
        have hp1 : p.value = 1 := by omega
        rw [hp1] at hndvd
        exact hndvd (one_dvd y)
      rw [State.answer_of_finishes (.unsolvable hp hone hc hd') number] at hs'
      cases hs'

/-- **Runs that agree at the start come to solutions that agree**, if both come to a solution. -/
theorem Records.agrees (h : Records n number st rounds answer) :
    ∀ {st' : State} {first : ℕ}, st.Agrees k l st' → answer = .ok (some s) →
      (st'.run n first).answer = .ok (some s') → s.Agrees k l s' := by
  induction h with
  | finish hp hfin =>
    intro st' first hst hs hs'
    rw [hs] at hfin
    exact hst.finishes hfin first hs'
  | advance hp hadv later ih =>
    intro st' first hst hs hs'
    obtain ⟨next', hadv', hnext⟩ := hst.advances hadv
    rw [State.answer_of_advances hadv' first] at hs'
    exact ih hnext hs hs'

/-- **A right hand side has the same constants in every system** with the same coefficients. -/
theorem solve_agrees (hc : c ≠ []) (hdk : entry d k = entry d' l)
    (hs : (solve c d).answer = .ok (some s)) (hs' : (solve c d').answer = .ok (some s')) :
    s.Agrees k l s' := by
  have hstart : State.Agrees k l ⟨c, d, []⟩ ⟨c, d', []⟩ := ⟨rfl, hdk, .nil⟩
  exact (run_records c.length 1 ⟨c, d, []⟩ hc).agrees hstart hs hs'

/-- **All right hand sides at once agree with each one alone.** There is no solution exactly if some right
hand side alone has none. Otherwise there is one, for all of them, for each alone and for the homogeneous
equation; the unknowns that are solved and their vectors of coefficients are those of the homogeneous
equation, and the constants for a right hand side are those that it has alone. -/
theorem solve_each (hc : ∃ x ∈ c, x ≠ 0) (d : List ℤ) :
    ((solve c d).answer = .ok none ↔ ∃ k, ∃ hk : k < d.length, (solve c [d[k]]).answer = .ok none) ∧
    ((solve c d).answer ≠ .ok none →
      ∃ s s₀, (solve c d).answer = .ok (some s) ∧ (solve c []).answer = .ok (some s₀) ∧
        s.vectors = s₀.vectors ∧
        ∀ k, ∀ hk : k < d.length, ∃ s', (solve c [d[k]]).answer = .ok (some s') ∧
          s'.keys = s.keys ∧ ∀ i, s.constant i k = s'.constant i 0) := by
  have hne : c ≠ [] := by
    obtain ⟨x, hx, -⟩ := hc
    exact List.ne_nil_of_mem hx
  constructor
  · rw [solve_eq_none_iff hc]
    simp only [solve_eq_none_iff hc, List.mem_singleton, exists_eq_left]
    constructor
    · rintro ⟨y, hy, hndvd⟩
      obtain ⟨k, hk, rfl⟩ := List.getElem_of_mem hy
      exact ⟨k, hk, hndvd⟩
    · rintro ⟨k, hk, hndvd⟩
      exact ⟨d[k], List.getElem_mem hk, hndvd⟩
  · intro hsome
    have hdvd : ∀ y ∈ d, (c : Multiset ℤ).gcd ∣ y := by
      rw [Ne, solve_eq_none_iff hc] at hsome
      push Not at hsome
      exact hsome
    obtain ⟨s, hs⟩ := solve_eq_some hc hdvd
    obtain ⟨s₀, hs₀⟩ := solve_eq_some hc (d := []) fun y hy => absurd hy List.not_mem_nil
    -- beyond the last right hand side stands zero
    have hlast : entry d d.length = entry [] 0 := entry_of_length_le le_rfl
    refine ⟨s, s₀, hs, hs₀, (solve_agrees hne hlast hs hs₀).vectors, fun k hk => ?_⟩
    have hdvdk : ∀ y ∈ [d[k]], (c : Multiset ℤ).gcd ∣ y := by
      intro y hy
      rw [List.mem_singleton.1 hy]
      exact hdvd _ (List.getElem_mem hk)
    obtain ⟨s', hs'⟩ := solve_eq_some hc hdvdk
    have hagrees : s.Agrees k 0 s' := solve_agrees hne (entry_of_lt hk) hs hs'
    exact ⟨s', hs', hagrees.keys.symm, hagrees.constant⟩

/-- Three right hand sides for `6 x + 10 y + 15 z`; the constants of `z` for them are `-1`, `4` and `0`. -/
theorem solve_each_three :
    (∃ x ∈ [6, 10, 15], x ≠ (0 : ℤ)) ∧ (solve [6, 10, 15] [1, -4, 0]).answer ≠ .ok none ∧
    ∃ s s₀, (solve [6, 10, 15] [1, -4, 0]).answer = .ok (some s) ∧
      (solve [6, 10, 15] []).answer = .ok (some s₀) ∧ s.vectors = s₀.vectors ∧
      ∃ s', (solve [6, 10, 15] [-4]).answer = .ok (some s') ∧ s'.keys = s.keys ∧
        ∀ i, s.constant i 1 = s'.constant i 0 := by
  have hc : ∃ x ∈ [6, 10, 15], x ≠ (0 : ℤ) := ⟨6, by simp, by decide⟩
  have hsome : (solve [6, 10, 15] [1, -4, 0]).answer ≠ .ok none := by decide +kernel
  obtain ⟨-, heach⟩ := solve_each hc [1, -4, 0]
  obtain ⟨s, s₀, hs, hs₀, hvectors, halone⟩ := heach hsome
  exact ⟨hc, hsome, s, s₀, hs, hs₀, hvectors, halone 1 (by decide)⟩

end GroupUnify.Diophantine
