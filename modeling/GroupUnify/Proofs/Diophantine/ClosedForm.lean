import GroupUnify.Proofs.Diophantine.Parametrisation
import Mathlib.Order.Interval.Finset.Nat

/-!
# The closed form of a solution

Indices only ever leave the equations: a round that reduces or solves **eliminates** the index of its
pivot, and a reduction brings in the next index in turn as a parameter. So what is left at the end of a
run is known from its rounds alone (`remaining`): the unknowns and the parameters, less the pivots of the
eliminations. The solution is closed over these indices (`Records.closed`). Hence its keys are the unknowns
that were eliminated, and nothing that was eliminated at any time, unknown or parameter, is mentioned in a
form; forms that were recorded before are no exception, because an elimination puts its form into them.

* `remaining_negate`, `remaining_reduce`, `remaining_last`: what a round does to the indices that are left.
* `solve_closed`: the solution of a run is closed over what its rounds leave.
* `solve_closedForm`: keys, forms and lengths of every solution.
-/

namespace GroupUnify.Diophantine

open Finset

variable {c d : List ℤ} {live : Finset ℕ} {st : State} {p : Pivot} {s : Solution} {answer : Answer}
  {rounds : List Round} {r : Round} {number m i j : ℕ}

/-! ### Eliminations -/

/-- Does the round solve the unknown of its pivot for the others? -/
def Round.Eliminates (r : Round) : Prop :=
  r.action = .reduce ∨ r.action = .eliminate ∨ r.action = .divide

instance : DecidablePred Round.Eliminates :=
  fun r => inferInstanceAs (Decidable (r.action = .reduce ∨ r.action = .eliminate ∨ r.action = .divide))

/-- The indices that rounds eliminate. -/
def eliminated (rounds : List Round) : Finset ℕ :=
  ((rounds.filter (·.Eliminates)).map fun r => r.pivot.index).toFinset

/-- How many of the rounds are reductions. -/
def reductionCount (rounds : List Round) : ℕ := (rounds.map Round.action).count .reduce

theorem mem_eliminated : j ∈ eliminated rounds ↔ ∃ r ∈ rounds, r.Eliminates ∧ r.pivot.index = j := by
  simp [eliminated, and_assoc]

theorem eliminated_cons (r : Round) (rounds : List Round) :
    eliminated (r :: rounds) =
      if r.Eliminates then insert r.pivot.index (eliminated rounds) else eliminated rounds := by
  by_cases h : r.Eliminates <;> simp [eliminated, h]

theorem reductionCount_cons (r : Round) (rounds : List Round) :
    reductionCount (r :: rounds) =
      reductionCount rounds + if r.action = .reduce then 1 else 0 := by
  by_cases h : r.action = .reduce <;> simp [reductionCount, h]

/-- The indices that are left of the `live` ones and of the parameters, numbered from `m` on, that the
rounds bring in. -/
def remaining (live : Finset ℕ) (m : ℕ) (rounds : List Round) : Finset ℕ :=
  (live ∪ Ico m (m + reductionCount rounds)) \ eliminated rounds

theorem mem_remaining : j ∈ remaining live m rounds ↔
    (j ∈ live ∨ m ≤ j ∧ j < m + reductionCount rounds) ∧ j ∉ eliminated rounds := by
  rw [remaining, mem_sdiff, mem_union, mem_Ico]

/-- A turn of signs eliminates nothing. -/
theorem remaining_negate (hr : r.action = .negate) :
    remaining live m (r :: rounds) = remaining live m rounds := by
  have hnot : ¬ r.Eliminates := by simp [Round.Eliminates, hr]
  rw [remaining, remaining, eliminated_cons, reductionCount_cons, if_neg hnot, if_neg (by simp [hr]),
    Nat.add_zero]

/-- A reduction trades the index of its pivot for the next parameter. -/
theorem remaining_reduce (hr : r.action = .reduce) (hm : r.pivot.index < m) :
    remaining live m (r :: rounds) =
      remaining (insert m (live.erase r.pivot.index)) (m + 1) rounds := by
  have hyes : r.Eliminates := Or.inl hr
  ext j
  rw [mem_remaining, mem_remaining, eliminated_cons, reductionCount_cons, if_pos hyes, if_pos hr,
    mem_insert, mem_insert, mem_erase, not_or]
  -- the parameters that come in are not the pivot, which is below them
  constructor
  · rintro ⟨hj | hj, hji, hjr⟩
    · exact ⟨Or.inl (Or.inr ⟨hji, hj⟩), hjr⟩
    · refine ⟨?_, hjr⟩
      by_cases hjm : j = m
      · exact Or.inl (Or.inl hjm)
      · exact Or.inr (by omega)
  · rintro ⟨(rfl | ⟨hji, hj⟩) | hj, hjr⟩
    · exact ⟨Or.inr (by omega), by omega, hjr⟩
    · exact ⟨Or.inl hj, hji, hjr⟩
    · exact ⟨Or.inr (by omega), by omega, hjr⟩

/-- The last round eliminates the index of its pivot. -/
theorem remaining_last (hr : r.Eliminates) (hred : r.action ≠ .reduce) :
    remaining live m [r] = live.erase r.pivot.index := by
  ext j
  rw [mem_remaining, eliminated_cons, reductionCount_cons, if_pos hr, if_neg hred, mem_erase, mem_insert]
  have hnil : eliminated [] = ∅ := rfl
  have hzero : reductionCount [] = 0 := rfl
  rw [hnil, hzero]
  simp only [notMem_empty, or_false]
  constructor
  · rintro ⟨hj | hj, hji⟩
    · exact ⟨hji, hj⟩
    · omega
  · rintro ⟨hji, hj⟩
    exact ⟨Or.inl hj, hji⟩

/-! ### Runs -/

theorem Solution.Bounded.mono {a a' b : ℕ} (h : s.Bounded a b) (haa : a ≤ a') : s.Bounded a' b :=
  fun f hf => ⟨(h f hf).1.trans haa, (h f hf).2⟩

/-- **A run closes its solution over what the rounds leave**, and one reduction more makes the vectors
longer by one entry at most. -/
theorem Records.closed (h : Records c.length number st rounds answer) :
    ∀ {live : Finset ℕ}, State.Tracks c d live st → answer = .ok (some s) →
      s.Closed c.length (remaining live st.coefficients.length rounds) ∧
        s.Bounded (st.coefficients.length + reductionCount rounds) d.length := by
  induction h with
  | finish hp hfin =>
    rintro live ht rfl
    cases hfin with
    | @solved p' hp' hpos hcdiv hddiv =>
      rw [hp] at hp'
      cases hp'
      -- the round is recorded as an elimination or as a division, by its pivot
      rw [remaining_last]
      · exact ⟨ht.closed_solved hp hpos, ht.bounded_solved.mono (Nat.le_add_right _ _)⟩
      · unfold Round.Eliminates
        split <;> simp
      · simp only
        split <;> simp
  | @advance number st next p action rounds answer hp hadv later ih =>
    intro live ht hs
    rcases cases_of_advances hp hadv with ⟨rfl, hneg, rfl⟩ | ⟨rfl, hone, hrest, rfl⟩
    · have hlen : st.negated.coefficients.length = st.coefficients.length := by
        simp [State.negated, invert]
      obtain ⟨hclosed, hbounded⟩ := ih ht.negated hs
      rw [hlen] at hclosed hbounded
      rw [remaining_negate rfl, reductionCount_cons]
      exact ⟨hclosed, hbounded.mono (by omega)⟩
    · have hlen : (st.reduced c.length p).coefficients.length = st.coefficients.length + 1 := by
        simp [State.reduced]
      obtain ⟨hclosed, hbounded⟩ := ih (ht.reduced hp hone) hs
      rw [hlen] at hclosed hbounded
      rw [remaining_reduce rfl (pivot?_entry hp).2, reductionCount_cons]
      exact ⟨hclosed, hbounded.mono (by rw [if_pos rfl]; omega)⟩

/-- The solution of a run is closed over the unknowns and parameters that its rounds leave. -/
theorem solve_closed (hc : ∃ x ∈ c, x ≠ 0) (h : (solve c d).answer = .ok (some s)) :
    s.Closed c.length
        (range (c.length + reductionCount (solve c d).rounds) \ eliminated (solve c d).rounds) ∧
      s.Bounded (c.length + reductionCount (solve c d).rounds) d.length := by
  have hne : c ≠ [] := by
    obtain ⟨x, hx, -⟩ := hc
    exact List.ne_nil_of_mem hx
  have hrec : Records c.length 1 ⟨c, d, []⟩ (solve c d).rounds (solve c d).answer :=
    run_records c.length 1 ⟨c, d, []⟩ hne
  obtain ⟨hclosed, hbounded⟩ := hrec.closed (.start hc) h
  refine ⟨?_, hbounded⟩
  -- the parameters follow on the unknowns
  have hall : range c.length ∪ Ico c.length (c.length + reductionCount (solve c d).rounds) =
      range (c.length + reductionCount (solve c d).rounds) := by
    rw [range_eq_Ico, range_eq_Ico, Ico_union_Ico_eq_Ico (Nat.zero_le _) (Nat.le_add_right _ _)]
  rw [← hall]
  exact hclosed

/-- One unknown at least is eliminated: fewer indices than unknowns are left live. -/
theorem Solution.Exact.keys_ne_nil (h : s.Exact c d live) : s.keys ≠ [] := by
  intro hnil
  have hsub : range c.length ⊆ live := by
    intro i hi
    by_contra hil
    have hkey := (h.closed.keys_iff i).2 ⟨mem_range.1 hi, hil⟩
    rw [hnil] at hkey
    exact absurd hkey List.not_mem_nil
  have hcard := card_le_card hsub
  have := h.card
  rw [card_range] at hcard
  omega

/-- **The closed form of every solution**, read off the rounds of its run: the keys are the unknowns that
were eliminated, of which there is one at least; no form mentions an unknown that has a form, or anything
that was eliminated in any round, parameters included; vectors of coefficients have an entry for each
unknown and for each reduction at most, and vectors of constants one for each right hand side. -/
theorem solve_closedForm (hc : ∃ x ∈ c, x ≠ 0) (h : (solve c d).answer = .ok (some s)) :
    (∀ i ∈ s.keys, i < c.length) ∧ s.keys ≠ [] ∧
    (∀ f ∈ s, ∀ i ∈ s.keys, entry f.2.coefficients i = 0) ∧
    (∀ f ∈ s, f.2.coefficients.length ≤ c.length + reductionCount (solve c d).rounds) ∧
    (∀ f ∈ s, f.2.constants.length ≤ d.length) ∧
    (∀ r ∈ (solve c d).rounds, r.Eliminates → ∀ f ∈ s, entry f.2.coefficients r.pivot.index = 0) ∧
    ∀ i, i ∈ s.keys ↔ i < c.length ∧ ∃ r ∈ (solve c d).rounds, r.Eliminates ∧ r.pivot.index = i := by
  obtain ⟨live, hexact⟩ := solve_exact hc h
  obtain ⟨hclosed, hbounded⟩ := solve_closed hc h
  have hkeys : ∀ i, i ∈ s.keys ↔ i < c.length ∧ i ∈ eliminated (solve c d).rounds := by
    intro i
    rw [hclosed.keys_iff, mem_sdiff, mem_range]
    constructor
    · rintro ⟨hi, hleft⟩
      refine ⟨hi, ?_⟩
      by_contra hie
      exact hleft ⟨by omega, hie⟩
    · rintro ⟨hi, hie⟩
      exact ⟨hi, fun hleft => hleft.2 hie⟩
  -- a form mentions nothing that was eliminated, and the keys were
  have hfree : ∀ i ∈ eliminated (solve c d).rounds, ∀ f ∈ s, entry f.2.coefficients i = 0 := by
    intro i hi f hf
    by_contra hfi
    exact (mem_sdiff.1 (hclosed.mentions f hf i hfi)).2 hi
  have hpivot : ∀ r ∈ (solve c d).rounds, r.Eliminates →
      ∀ f ∈ s, entry f.2.coefficients r.pivot.index = 0 := by
    intro r hr hre
    exact hfree _ (mem_eliminated.2 ⟨r, hr, hre, rfl⟩)
  refine ⟨?_, hexact.keys_ne_nil, ?_, ?_, ?_, hpivot, ?_⟩
  · intro i hi
    exact ((hkeys i).1 hi).1
  · intro f hf i hi
    exact hfree i ((hkeys i).1 hi).2 f hf
  · intro f hf
    exact (hbounded f hf).1
  · intro f hf
    exact (hbounded f hf).2
  · intro i
    rw [hkeys, mem_eliminated]

/-- The equation `64 x - 41 y = 1`: its run eliminates both unknowns and four of the five parameters. -/
theorem solve_closedForm_two_unknowns :
    ∃ s, (∃ x ∈ [64, -41], x ≠ (0 : ℤ)) ∧ (solve [64, -41] [1]).answer = .ok (some s) ∧
      (∀ i ∈ s.keys, i < 2) ∧ s.keys ≠ [] ∧
      (∀ f ∈ s, f.2.coefficients.length ≤ 2 + 5) ∧ (∀ f ∈ s, f.2.constants.length ≤ 1) ∧
      (∀ i ∈ [0, 1, 2, 3, 4, 5], ∀ f ∈ s, entry f.2.coefficients i = 0) ∧
      0 ∈ s.keys ∧ 1 ∈ s.keys := by
  have hc : ∃ x ∈ [64, -41], x ≠ (0 : ℤ) := ⟨64, by simp, by decide⟩
  have h : (solve [64, -41] [1]).answer = .ok (some
      [(0, ⟨[0, 0, 0, 0, 0, 0, -41], [-16]⟩), (1, ⟨[0, 0, 0, 0, 0, 0, -64], [-25]⟩)]) := by
    decide +kernel
  have hcount : reductionCount (solve [64, -41] [1]).rounds = 5 := by decide +kernel
  have hpivots : ∀ i ∈ [0, 1, 2, 3, 4, 5],
      ∃ r ∈ (solve [64, -41] [1]).rounds, r.Eliminates ∧ r.pivot.index = i := by decide +kernel
  obtain ⟨hlt, hne, -, hlength, hconstants, hfree, hkeys⟩ := solve_closedForm hc h
  rw [hcount] at hlength
  refine ⟨_, hc, h, hlt, hne, hlength, hconstants, ?_, ?_, ?_⟩
  · intro i hi
    obtain ⟨r, hr, hre, rfl⟩ := hpivots i hi
    exact hfree r hr hre
  · exact (hkeys 0).2 ⟨by decide, hpivots 0 (by decide)⟩
  · exact (hkeys 1).2 ⟨by decide, hpivots 1 (by decide)⟩

end GroupUnify.Diophantine
