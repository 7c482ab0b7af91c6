import GroupUnify.Proofs.Diophantine.Solvability
import GroupUnify.Proofs.Term.Group
import GroupUnify.Proofs.Term.Order
import GroupUnify.Proofs.Unification.Unifying

/-!
# The order of the unknowns

The solver knows an unknown by its index only, and so do the names of parameters. The unknowns of a unifier
of `a` and `b` are the names of `a - b` in the order in which this sum is stored: first the names of `a` whose
coefficients differ, then the names that only `b` has (`names_sub_eq`). The binding with number `i` is that of
the unknown with index `i`, and an unknown that stays free gets the parameter with this number.

* `unknowns_in_stored_order`: the stored factors of a sum, and the unknowns of a unifier.
-/

namespace GroupUnify

open Diophantine

variable {a b : Term} {σ : Substitution}

/-- **The names of a difference**, in stored order. -/
theorem Term.names_sub_eq (ha : a.WellFormed) (hb : b.WellFormed) :
    (a + -b).names = (a.names.filter fun x => a.coefficient x ≠ b.coefficient x) ++
      b.names.filter fun x => x ∉ a.names := by
  have hdiffer : ∀ x ∈ a.names, decide (a.coefficient x + (-b).coefficient x ≠ 0) =
      decide (a.coefficient x ≠ b.coefficient x) := by
    intro x _
    rw [coefficient_neg hb, decide_eq_decide]
    omega
  rw [names, factors_add_eq_map ha hb.neg, List.map_append, List.map_map, List.map_map, names_neg,
    List.filter_congr hdiffer]
  simp only [Function.comp_def, List.map_id']

/-- A unifier binds the names of the difference, in their order, to what the solver has for their indices. -/
theorem exists_solution_of_findUnifier (ha : a.WellFormed)
    (h : (findUnifier a b).answer = .ok (some σ)) :
    ∃ sol, (solve (a + -b).coefficients []).answer = .ok (some sol) ∧
      σ = Search.bindings (a + -b).names [] sol := by
  rw [findUnifier] at h
  cases hz : (a + -b).isZero with
  | true =>
    rw [findMatcher_of_isZero hz] at h
    cases h
    rw [Term.isZero_iff.1 hz]
    exact ⟨[], solve_nil [], rfl⟩
  | false =>
    rw [findMatcher_of_not_isZero hz] at h
    obtain ⟨answer, hrun⟩ := exists_answer_of_solve ((ha.add (-b)).exists_coefficient hz) []
    have hcoefficients : (0 : Term).coefficients = [] := rfl
    rw [hcoefficients, hrun] at h
    cases answer with
    | none => cases h
    | some sol =>
      cases h
      exact ⟨sol, hrun, rfl⟩

/-- **The order of a sum, and of the unknowns.** A sum stores the names of `a` whose total is not zero, in the
order of `a` and with that total, and then the names that only `b` has, in the order of `b` and with their
coefficients there. So the names whose coefficients differ have their indices as unknowns of a unifier in the
order of `a`, and then those that only `b` has in the order of `b`. -/
theorem unknowns_in_stored_order (ha : a.WellFormed) (hb : b.WellFormed) :
    (a + b).factors =
      ((a.names.filter fun x => a.coefficient x + b.coefficient x ≠ 0).map fun x =>
        (x, a.coefficient x + b.coefficient x)) ++
      ((b.names.filter fun x => x ∉ a.names).map fun x => (x, b.coefficient x)) ∧
    ∀ σ, (findUnifier a b).answer = .ok (some σ) →
      ∃ sol, (solve (a + -b).coefficients []).answer = .ok (some sol) ∧
        σ = Search.bindings ((a.names.filter fun x => a.coefficient x ≠ b.coefficient x) ++
          b.names.filter fun x => x ∉ a.names) [] sol := by
  refine ⟨Term.factors_add_eq_map ha hb, fun σ hσ => ?_⟩
  obtain ⟨sol, hsol, hbindings⟩ := exists_solution_of_findUnifier ha hσ
  rw [Term.names_sub_eq ha hb] at hbindings
  exact ⟨sol, hsol, hbindings⟩

/-- The terms `2y + x + 3z` and `5w + x - 2y + v`. In the sum `y` cancels, in the difference `x`. -/
theorem unknowns_in_stored_order_four :
    let a : Term := ⟨[("y", 2), ("x", 1), ("z", 3)]⟩
    let b : Term := ⟨[("w", 5), ("x", 1), ("y", -2), ("v", 1)]⟩
    a.WellFormed ∧ b.WellFormed ∧
      (a + b).factors = [("x", 2), ("z", 3), ("w", 5), ("v", 1)] ∧
      ∃ σ sol, (findUnifier a b).answer = .ok (some σ) ∧
        (solve [4, 3, -5, -1] []).answer = .ok (some sol) ∧
        σ = Search.bindings ["y", "z", "w", "v"] [] sol := by
  intro a b
  have ha : a.WellFormed := by decide
  have hb : b.WellFormed := by decide
  obtain ⟨hsum, hunknowns⟩ := unknowns_in_stored_order ha hb
  obtain ⟨σ, hσ⟩ := exists_findUnifier ha b
  obtain ⟨sol, hsol, hbindings⟩ := hunknowns σ hσ
  have hcoefficients : (a + -b).coefficients = [4, 3, -5, -1] := by decide
  have hnames : (a.names.filter fun x => a.coefficient x ≠ b.coefficient x) ++
      (b.names.filter fun x => x ∉ a.names) = ["y", "z", "w", "v"] := by decide
  rw [hcoefficients] at hsol
  rw [hnames] at hbindings
  exact ⟨ha, hb, hsum.trans (by decide), σ, sol, hσ, hsol, hbindings⟩

end GroupUnify
