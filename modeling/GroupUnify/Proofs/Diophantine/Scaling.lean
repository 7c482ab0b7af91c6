import GroupUnify.Proofs.Diophantine.Live
import GroupUnify.Proofs.Diophantine.Solvability

/-!
# A factor on all equations

The equations `k c · x = k d` have the answer of `c · x = d`, form by form. For a positive factor the two
runs go in lock step: the pivots stand at the same place, floor quotients are the same, remainders have the
factor again (`Advances.scaled`), and the last round divides the factor away with the pivot, so that one run
may end with a division where the other has nothing to divide (`Finishes.scaled`). A negative factor is a
positive one on the equations with their signs turned, and these have the same answer since one of the two
runs turns the signs in its first round (`State.answer_negated`).

* `pivot?_map_mul`: the pivot under a factor.
* `Records.answer_scaled`: the answer under a positive factor.
* `solve_map_mul`: the answer of every system under every factor but zero.
-/

namespace GroupUnify.Diophantine

variable {n number : ℕ} {c d v : List ℤ} {st next : State} {p : Pivot} {action : Action}
  {rounds : List Round} {answer : Answer} {k : ℤ}

/-! ### The pivot -/

/-- The pivot of a vector with the factor `k`. -/
def Pivot.scaled (k : ℤ) (p : Pivot) : Pivot := ⟨p.index, k * p.value⟩

theorem pivotFrom_map_mul (hk : k ≠ 0) (xs : List ℤ) : ∀ (i : ℕ) (best : Pivot),
    pivotFrom i (best.scaled k) (xs.map (k * ·)) = (pivotFrom i best xs).scaled k := by
  induction xs with
  | nil => intro i best; rfl
  | cons x xs ih =>
    intro i best
    have hpos : 0 < k.natAbs := Int.natAbs_pos.2 hk
    have himp : Improves (best.scaled k).value (k * x) ↔ Improves best.value x := by
      rw [Pivot.scaled, Improves, Improves, Int.natAbs_mul, Int.natAbs_mul, Nat.mul_lt_mul_left hpos,
        Int.mul_eq_zero, Ne, Int.mul_eq_zero]
      simp only [hk, false_or]
    rw [List.map_cons, pivotFrom, pivotFrom, ← ih]
    by_cases h : Improves best.value x
    · rw [if_pos h, if_pos (himp.2 h), Pivot.scaled]
    · rw [if_neg h, if_neg (fun h' => h (himp.1 h'))]

/-- **The pivot keeps its place** and takes the factor. -/
theorem pivot?_map_mul (hk : k ≠ 0) (hp : pivot? v = some p) :
    pivot? (v.map (k * ·)) = some (p.scaled k) := by
  cases v with
  | nil => cases hp
  | cons x xs =>
    cases hp
    exact congrArg some (pivotFrom_map_mul hk xs 1 ⟨0, x⟩)

/-! ### States -/

namespace State

/-- The same equations with the factor `k`. What has been recorded stays. -/
def scaled (k : ℤ) (st : State) : State :=
  ⟨st.coefficients.map (k * ·), st.constants.map (k * ·), st.solution⟩

theorem scaled_one (st : State) : st.scaled 1 = st := by
  simp [scaled]

theorem scaled_negated (k : ℤ) (st : State) : st.negated.scaled k = st.scaled (-k) := by
  simp [scaled, negated, invert, Function.comp_def]

theorem negated_scaled (k : ℤ) (st : State) : (st.scaled k).negated = st.scaled (-k) := by
  simp [scaled, negated, invert, Function.comp_def]

theorem negated_negated (st : State) : st.negated.negated = st := by
  simp [negated, invert]

/-- A pivot with the factor divides it away. -/
theorem quotient_scaled (hk : 0 < k) (st : State) (a : ℤ) :
    (st.scaled k).quotient (k * a) = st.quotient a := by
  simp [scaled, quotient, Function.comp_def, Int.mul_fdiv_mul_of_pos _ _ hk]

theorem carried_scaled (hk : 0 < k) (st : State) (p : Pivot) :
    (st.scaled k).carried (p.scaled k) = st.carried p := by
  rw [carried_eq, carried_eq]
  simp [scaled, Pivot.scaled, Function.comp_def, Int.mul_fdiv_mul_of_pos _ _ hk]

/-- The remainders keep the factor, and what a reduction records does not have it. -/
theorem reduced_scaled (hk : 0 < k) (n : ℕ) (st : State) (p : Pivot) :
    (st.scaled k).reduced n (p.scaled k) = (st.reduced n p).scaled k := by
  rw [reduced, carried_scaled hk]
  simp [scaled, Pivot.scaled, reduced, Function.comp_def, Int.mul_fmod_mul_of_pos _ _ hk]

end State

/-! ### Rounds -/

theorem map_mul_of_zero (k : ℤ) (hv : ∀ x ∈ v, x = 0) : v.map (k * ·) = v := by
  have hid : v.map (k * ·) = v.map id := by
    apply List.map_congr_left
    intro x hx
    rw [hv x hx, mul_zero, id]
  rw [hid, List.map_id]

theorem forall_dvd_map_mul {a : ℤ} (h : ∀ x ∈ v, a ∣ x) (k : ℤ) : ∀ x ∈ v.map (k * ·), k * a ∣ x := by
  rw [List.forall_mem_map]
  exact fun x hx => mul_dvd_mul_left k (h x hx)

theorem exists_not_dvd_map_mul (hk : k ≠ 0) {a : ℤ} (h : ∃ x ∈ v, ¬ a ∣ x) :
    ∃ x ∈ v.map (k * ·), ¬ k * a ∣ x := by
  obtain ⟨x, hx, hndvd⟩ := h
  exact ⟨k * x, List.mem_map_of_mem hx, fun hdvd => hndvd ((mul_dvd_mul_iff_left hk).1 hdvd)⟩

/-- **A round that goes on does so under a positive factor**, with the same action. -/
theorem Advances.scaled (h : Advances n action st next) (hk : 0 < k) :
    Advances n action (st.scaled k) (next.scaled k) := by
  cases h with
  | @negate _ p hp hneg =>
    have hp' : pivot? (st.scaled k).coefficients = some (p.scaled k) := pivot?_map_mul hk.ne' hp
    have hneg' : (p.scaled k).value < 0 := mul_neg_of_pos_of_neg hk hneg
    have hadv : Advances n .negate (st.scaled k) (st.scaled k).negated := .negate hp' hneg'
    rw [State.negated_scaled, ← State.scaled_negated] at hadv
    exact hadv
  | @reduce _ p hp hpos hrest =>
    have hp' : pivot? (st.scaled k).coefficients = some (p.scaled k) := pivot?_map_mul hk.ne' hp
    have hpos' : 1 < (p.scaled k).value := one_lt_mul hk hpos
    have hrest' : ∃ x ∈ (st.scaled k).coefficients, ¬ (p.scaled k).value ∣ x :=
      exists_not_dvd_map_mul hk.ne' hrest
    have hadv : Advances n .reduce (st.scaled k) ((st.scaled k).reduced n (p.scaled k)) :=
      .reduce hp' hpos' hrest'
    rw [State.reduced_scaled hk] at hadv
    exact hadv

/-- **A round with a result has the same result under a positive factor.** It may divide where there was
nothing to divide before. -/
theorem Finishes.scaled (h : Finishes n st action answer) (hk : 0 < k) :
    ∃ action', Finishes n (st.scaled k) action' answer := by
  cases h with
  | @noPivot p hp hzero =>
    have hp' : pivot? (st.scaled k).coefficients = some (p.scaled k) := pivot?_map_mul hk.ne' hp
    have hzero' : (p.scaled k).value = 0 := by rw [Pivot.scaled, hzero, mul_zero]
    -- all coefficients are zero, so the message does not show the factor
    have hsame : (st.scaled k).coefficients = st.coefficients :=
      map_mul_of_zero k ((pivot?_spec hp).2.1 hzero)
    have hfin : Finishes n (st.scaled k) .fail (.error (.noPivot (st.scaled k).coefficients)) :=
      .noPivot hp' hzero'
    rw [hsame] at hfin
    exact ⟨_, hfin⟩
  | @unsolvable p hp hpos hc hd =>
    have hp' : pivot? (st.scaled k).coefficients = some (p.scaled k) := pivot?_map_mul hk.ne' hp
    have hpos' : 1 < (p.scaled k).value := one_lt_mul hk hpos
    have hc' : ∀ x ∈ (st.scaled k).coefficients, (p.scaled k).value ∣ x :=
      forall_dvd_map_mul hc k
    have hd' : ∃ y ∈ (st.scaled k).constants, ¬ (p.scaled k).value ∣ y :=
      exists_not_dvd_map_mul hk.ne' hd
    exact ⟨_, .unsolvable hp' hpos' hc' hd'⟩
  | @solved p hp hpos hc hd =>
    have hp' : pivot? (st.scaled k).coefficients = some (p.scaled k) := pivot?_map_mul hk.ne' hp
    have hpos' : 0 < (p.scaled k).value := mul_pos hk hpos
    have hc' : ∀ x ∈ (st.scaled k).coefficients, (p.scaled k).value ∣ x :=
      forall_dvd_map_mul hc k
    have hd' : ∀ y ∈ (st.scaled k).constants, (p.scaled k).value ∣ y :=
      forall_dvd_map_mul hd k
    have hfin := Finishes.solved (n := n) hp' hpos' hc' hd'
    rw [Pivot.scaled, State.quotient_scaled hk] at hfin
    exact ⟨_, hfin⟩

/-! ### Runs -/

/-- **The answer of a run under a positive factor**, whatever number its first round has. -/
theorem Records.answer_scaled (h : Records n number st rounds answer) (hk : 0 < k) :
    ∀ first : ℕ, ((st.scaled k).run n first).answer = answer := by
  induction h with
  | finish hp hfin =>
    intro first
    obtain ⟨action', hfin'⟩ := hfin.scaled hk
    exact State.answer_of_finishes hfin' first
  | advance hp hadv later ih =>
    intro first
    rw [State.answer_of_advances (hadv.scaled hk)]
    exact ih (first + 1)

namespace State

theorem answer_scaled (hst : st.coefficients ≠ []) (hk : 0 < k) (n first number : ℕ) :
    ((st.scaled k).run n first).answer = (st.run n number).answer :=
  (run_records n number st hst).answer_scaled hk first

/-- The number of the first round does not matter. -/
theorem answer_number (hst : st.coefficients ≠ []) (n first number : ℕ) :
    (st.run n first).answer = (st.run n number).answer := by
  have h := answer_scaled hst one_pos n first number
  rw [scaled_one] at h
  exact h

/-- **Turning all signs does not change the answer**: the run that meets a negative pivot turns them back. -/
theorem answer_negated (hst : ∃ x ∈ st.coefficients, x ≠ 0) (n first number : ℕ) :
    (st.negated.run n first).answer = (st.run n number).answer := by
  obtain ⟨x, hx, hx0⟩ := hst
  have hne : st.coefficients ≠ [] := List.ne_nil_of_mem hx
  have hne' : st.negated.coefficients ≠ [] := List.ne_nil_of_mem (List.mem_map_of_mem hx)
  obtain ⟨p, hp⟩ := exists_pivot? hne
  have hp' : pivot? st.negated.coefficients = some ⟨p.index, -p.value⟩ := by
    rw [negated, pivot?_invert, hp, Option.map_some]
  have hp0 : p.value ≠ 0 := fun h0 => hx0 ((pivot?_spec hp).2.1 h0 x hx)
  rcases lt_or_gt_of_ne hp0 with hneg | hpos
  · rw [answer_of_advances (.negate hp hneg) number]
    exact answer_number hne' n first (number + 1)
  · have hadv : Advances n .negate st.negated st.negated.negated :=
      .negate hp' (neg_neg_of_pos hpos)
    rw [negated_negated] at hadv
    rw [answer_of_advances hadv first]
    exact answer_number hne n (first + 1) number

end State

/-- **A factor on all equations does not change the answer**: the same forms, no solution in the same cases,
and the same refusal. -/
theorem solve_map_mul (hk : k ≠ 0) (c d : List ℤ) :
    (solve (c.map (k * ·)) (d.map (k * ·))).answer = (solve c d).answer := by
  rcases exists_nonzero_or c with rfl | ⟨hnil, hzero⟩ | hc
  · rw [List.map_nil, solve_nil, solve_nil]
  · rw [map_mul_of_zero k hzero, solve_of_zero hnil hzero, solve_of_zero hnil hzero]
  have hne : c ≠ [] := by
    obtain ⟨x, hx, -⟩ := hc
    exact List.ne_nil_of_mem hx
  rw [solve, solve, List.length_map]
  rcases lt_or_gt_of_ne hk with hneg | hpos
  · -- a negative factor is a positive one on the equations with their signs turned
    have hturned : State.scaled k ⟨c, d, []⟩ = (State.negated ⟨c, d, []⟩).scaled (-k) := by
      rw [State.scaled_negated, neg_neg]
    have hne' : (State.negated ⟨c, d, []⟩).coefficients ≠ [] := by
      simpa [State.negated, invert] using hne
    calc (State.run c.length 1 (State.scaled k ⟨c, d, []⟩)).answer
        = (State.run c.length 1 (State.negated ⟨c, d, []⟩)).answer := by
          rw [hturned]
          exact State.answer_scaled hne' (by omega) c.length 1 1
      _ = (State.run c.length 1 ⟨c, d, []⟩).answer := State.answer_negated hc c.length 1 1
  · have hstart : (State.mk c d []).coefficients ≠ [] := hne
    exact State.answer_scaled hstart hpos c.length 1 1

end GroupUnify.Diophantine
