import GroupUnify.Proofs.Diophantine.Parametrisation
import Mathlib.Algebra.GCDMonoid.Multiset
import Mathlib.Algebra.GCDMonoid.Nat
import Mathlib.Algebra.Ring.Divisibility.Basic
import Mathlib.Data.Int.GCD

/-!
# Which equations the solver solves

`c · x = b` has an integer solution exactly if the greatest common divisor of `c` divides `b`
(`exists_dot_eq_iff`). A returned solution gives a solution for every right hand side, and if none is
returned some right hand side has none, so the divisor decides between the two. The other answers belong
to equations in which there is nothing to divide by.

* `solve_nil`, `solve_of_zero`: no unknowns, and no coefficient but zero.
* `solve_eq_none_iff`: all other equations.
* `solve_outcome`: the outcome of every run.
-/

namespace GroupUnify.Diophantine

variable {c d v : List ℤ} {b k : ℤ}

/-! ### One equation -/

theorem dvd_dot (h : ∀ x ∈ v, k ∣ x) (p : ℕ → ℤ) : k ∣ dot v p := by
  induction v generalizing p with
  | nil => exact dvd_zero k
  | cons x v ih =>
    have hx : k ∣ x * p 0 := (h x List.mem_cons_self).mul_right _
    have hv := ih (fun y hy => h y (List.mem_cons_of_mem _ hy)) fun i => p (i + 1)
    rw [dot]
    exact dvd_add hx hv

/-- Every multiple of the greatest common divisor is a value. -/
theorem exists_dot_eq (v : List ℤ) : ∀ {b : ℤ}, (v : Multiset ℤ).gcd ∣ b → ∃ y, dot v y = b := by
  induction v with
  | nil =>
    intro b hb
    exact ⟨0, (zero_dvd_iff.1 hb).symm⟩
  | cons x v ih =>
    rintro _ ⟨m, rfl⟩
    -- the divisor is a combination of `x` and the divisor of the rest
    have hst := Int.gcd_eq_gcd_ab x (v : Multiset ℤ).gcd
    set s := Int.gcdA x (v : Multiset ℤ).gcd
    set t := Int.gcdB x (v : Multiset ℤ).gcd
    obtain ⟨y, hy⟩ := ih (b := (v : Multiset ℤ).gcd * (t * m)) (dvd_mul_right _ _)
    have hcons : ((x :: v : List ℤ) : Multiset ℤ).gcd = x * s + (v : Multiset ℤ).gcd * t := by
      rw [← Multiset.cons_coe, Multiset.gcd_cons, ← Int.coe_gcd, hst]
    refine ⟨fun i => if i = 0 then s * m else y (i - 1), ?_⟩
    have hrest : dot v (fun i => if i + 1 = 0 then s * m else y (i + 1 - 1)) = dot v y := by
      simp
    rw [dot, hrest, hy, hcons, if_pos rfl]
    ring

/-- **An equation has an integer solution exactly if the greatest common divisor of its coefficients
divides the right hand side.** -/
theorem exists_dot_eq_iff : (∃ y, dot v y = b) ↔ (v : Multiset ℤ).gcd ∣ b := by
  refine ⟨?_, exists_dot_eq v⟩
  rintro ⟨y, rfl⟩
  exact dvd_dot (fun x hx => Multiset.gcd_dvd (Multiset.mem_coe.2 hx)) y

/-! ### Answers -/

theorem solve_nil (d : List ℤ) : (solve [] d).answer = .ok (some []) := by
  rw [solve, State.run]
  rfl

theorem solve_of_zero (hc : c ≠ []) (h0 : ∀ x ∈ c, x = 0) (d : List ℤ) :
    (solve c d).answer = .error (.noPivot c) := by
  -- the pivot is zero, and of all rounds only the one without a pivot allows that
  have hrec := run_records c.length 1 ⟨c, d, []⟩ hc
  have hzero : ∀ p, pivot? c = some p → p.value = 0 := fun p hp => h0 _ (pivot?_spec hp).1
  rw [solve]
  generalize (State.run c.length 1 ⟨c, d, []⟩).rounds = rounds at hrec
  generalize (State.run c.length 1 ⟨c, d, []⟩).answer = answer at hrec ⊢
  cases hrec with
  | finish hp hfin =>
    cases hfin with
    | noPivot hp' _ => rfl
    | unsolvable hp' hpos _ _ => have := hzero _ hp'; omega
    | solved hp' hpos _ _ => have := hzero _ hp'; omega
  | advance hp hadv later =>
    have := hzero _ hp
    rcases cases_of_advances hp hadv with ⟨-, hneg, -⟩ | ⟨-, hone, -, -⟩ <;> omega

/-- A solution is returned only if all right hand sides are multiples of the divisor. -/
theorem gcd_dvd_of_solve {s : Solution} (hc : ∃ x ∈ c, x ≠ 0)
    (h : (solve c d).answer = .ok (some s)) : ∀ y ∈ d, (c : Multiset ℤ).gcd ∣ y := by
  intro y hy
  obtain ⟨live, hs⟩ := solve_exact hc h
  obtain ⟨i, hi, rfl⟩ := List.getElem_of_mem hy
  have hval := (hs.parametrises i).sound 0 (Set.mem_univ _)
  rw [entry_of_lt hi] at hval
  exact exists_dot_eq_iff.1 ⟨_, hval⟩

/-- None is returned only if some right hand side is not a multiple of the divisor. -/
theorem exists_not_gcd_dvd_of_solve (hc : ∃ x ∈ c, x ≠ 0) (h : (solve c d).answer = .ok none) :
    ∃ y ∈ d, ¬ (c : Multiset ℤ).gcd ∣ y := by
  obtain ⟨i, hi, hno⟩ := exists_unsolvable_of_solve hc h
  refine ⟨d[i], List.getElem_mem hi, fun hdvd => ?_⟩
  obtain ⟨y, hy⟩ := exists_dot_eq c hdvd
  rw [entry_of_lt hi] at hno
  exact hno y hy

/-- **No solution exactly if the divisor fails to divide some right hand side.** -/
theorem solve_eq_none_iff (hc : ∃ x ∈ c, x ≠ 0) :
    (solve c d).answer = .ok none ↔ ∃ y ∈ d, ¬ (c : Multiset ℤ).gcd ∣ y := by
  refine ⟨exists_not_gcd_dvd_of_solve hc, ?_⟩
  rintro ⟨y, hy, hndvd⟩
  obtain ⟨answer, hanswer⟩ := exists_answer_of_solve hc d
  cases answer with
  | none => exact hanswer
  | some s => exact absurd (gcd_dvd_of_solve hc hanswer y hy) hndvd

theorem solve_eq_some (hc : ∃ x ∈ c, x ≠ 0) (hd : ∀ y ∈ d, (c : Multiset ℤ).gcd ∣ y) :
    ∃ s, (solve c d).answer = .ok (some s) := by
  obtain ⟨answer, hanswer⟩ := exists_answer_of_solve hc d
  cases answer with
  | some s => exact ⟨s, hanswer⟩
  | none =>
    obtain ⟨y, hy, hndvd⟩ := exists_not_gcd_dvd_of_solve hc hanswer
    exact absurd (hd y hy) hndvd

theorem exists_nonzero_or (c : List ℤ) : c = [] ∨ (c ≠ [] ∧ ∀ x ∈ c, x = 0) ∨ ∃ x ∈ c, x ≠ 0 := by
  by_cases hnil : c = []
  · exact Or.inl hnil
  by_cases hzero : ∀ x ∈ c, x = 0
  · exact Or.inr (Or.inl ⟨hnil, hzero⟩)
  · push Not at hzero
    exact Or.inr (Or.inr hzero)

/-- There is never a division by zero. -/
theorem solve_ne_division (c d : List ℤ) (cause : DivisionError) :
    (solve c d).answer ≠ .error (.division cause) := by
  intro h
  rcases exists_nonzero_or c with rfl | ⟨hnil, hzero⟩ | hc
  · rw [solve_nil] at h; cases h
  · rw [solve_of_zero hnil hzero] at h; cases h
  · obtain ⟨answer, hanswer⟩ := exists_answer_of_solve hc d
    rw [hanswer] at h
    cases h

/-- **The outcome of every run**: rounds cannot go on forever and never divide by zero; the solution is
empty without unknowns, the run fails for want of a pivot if all coefficients are zero, and else the
greatest common divisor of the coefficients decides whether there is a solution. -/
theorem solve_outcome (c d : List ℤ) :
    (∀ chain : ℕ → State, ∃ i, ¬ Leads c.length (chain i) (chain (i + 1))) ∧
    (∀ cause, (solve c d).answer ≠ .error (.division cause)) ∧
    (c = [] → (solve c d).answer = .ok (some [])) ∧
    (c ≠ [] → (∀ x ∈ c, x = 0) → (solve c d).answer = .error (.noPivot c)) ∧
    ((∃ x ∈ c, x ≠ 0) →
      ((solve c d).answer = .ok none ↔ ∃ y ∈ d, ¬ (c : Multiset ℤ).gcd ∣ y) ∧
      ((∀ y ∈ d, (c : Multiset ℤ).gcd ∣ y) → ∃ s, (solve c d).answer = .ok (some s))) := by
  refine ⟨exists_not_leads c.length, solve_ne_division c d, ?_,
    fun hnil hzero => solve_of_zero hnil hzero d,
    fun hc => ⟨solve_eq_none_iff hc, solve_eq_some hc⟩⟩
  rintro rfl
  exact solve_nil d

/-- The equations `6 y - 4 z = 2` and `6 y - 4 z = 3`, with an unknown that does not occur in them. -/
theorem solve_outcome_indivisible :
    (∃ x ∈ [0, 6, -4], x ≠ (0 : ℤ)) ∧ (∃ y ∈ [2, 3], ¬ (([0, 6, -4] : List ℤ) : Multiset ℤ).gcd ∣ y) ∧
      (solve [0, 6, -4] [2, 3]).answer = .ok none := by
  have hc : ∃ x ∈ [0, 6, -4], x ≠ (0 : ℤ) := ⟨6, by simp, by decide⟩
  have hd : ∃ y ∈ [2, 3], ¬ (([0, 6, -4] : List ℤ) : Multiset ℤ).gcd ∣ y :=
    ⟨3, by simp, by decide⟩
  obtain ⟨-, -, -, -, hdecides⟩ := solve_outcome [0, 6, -4] [2, 3]
  exact ⟨hc, hd, (hdecides hc).1.2 hd⟩

end GroupUnify.Diophantine
