import GroupUnify.Proofs.Diophantine.Scaling
import GroupUnify.Proofs.Unification.Matching

/-!
# A factor on both sides

A factor other than zero keeps the names of a term and their order and multiplies its coefficients. So the
equations of `k a` and `k b` are those of `a` and `b` with the factor `k`, and what is found is read off the
same forms for the same names.

* `answers_scale`: the answers of the solver and of the search for a matcher.
-/

namespace GroupUnify

open Diophantine

variable {k : ℤ} {t : Term}

namespace Term

theorem names_scale (hk : k ≠ 0) (t : Term) : (t.scale k).names = t.names := by
  by_cases hone : k = 1
  · rw [scale, if_neg hk, if_pos hone]
  · rw [scale, if_neg hk, if_neg hone, names, names, List.map_map]
    rfl

theorem coefficients_scale (hk : k ≠ 0) (t : Term) :
    (t.scale k).coefficients = t.coefficients.map (k * ·) := by
  by_cases hone : k = 1
  · simp [scale, hone]
  · rw [scale, if_neg hk, if_neg hone, coefficients, coefficients, List.map_map, List.map_map]
    rfl

theorem isZero_eq (t : Term) : t.isZero = t.names.isEmpty := by
  rw [isZero, names, List.isEmpty_map]

theorem isZero_scale (hk : k ≠ 0) (t : Term) : (t.scale k).isZero = t.isZero := by
  rw [isZero_eq, isZero_eq, names_scale hk]

end Term

/-- **A factor on both sides does not change the bindings that are found.** -/
theorem findMatcher_scale (hk : k ≠ 0) (a b : Term) :
    (findMatcher (a.scale k) (b.scale k)).answer = (findMatcher a b).answer := by
  cases ha : a.isZero with
  | true =>
    have ha' : (a.scale k).isZero = true := by rw [Term.isZero_scale hk, ha]
    rw [findMatcher_of_isZero ha', findMatcher_of_isZero ha, Term.isZero_scale hk]
  | false =>
    have ha' : (a.scale k).isZero = false := by rw [Term.isZero_scale hk, ha]
    rw [findMatcher_of_not_isZero ha', findMatcher_of_not_isZero ha, Term.coefficients_scale hk,
      Term.coefficients_scale hk, Term.names_scale hk, Term.names_scale hk, solve_map_mul hk]

/-- **A factor other than zero on the whole system does not change the answer**: the solver gives the same
forms in the same order, no solution in the same cases and the same refusals, and the search for a matcher
gives the same bindings. -/
theorem answers_scale (hk : k ≠ 0) :
    (∀ c d : List ℤ, (solve (c.map (k * ·)) (d.map (k * ·))).answer = (solve c d).answer) ∧
    ∀ a b : Term, (findMatcher (a.scale k) (b.scale k)).answer = (findMatcher a b).answer :=
  ⟨solve_map_mul hk, findMatcher_scale hk⟩

/-- The equations `6 y - 4 z = 2` and the terms `2x + 3y` and `x + 2w` under the factor `-3`: the signs are
turned in one of the two runs only. -/
theorem answers_scale_negative :
    (-3 : ℤ) ≠ 0 ∧
    (solve [0, -18, 12] [-6]).answer = (solve [0, 6, -4] [2]).answer ∧
    (findMatcher ⟨[("x", -6), ("y", -9)]⟩ ⟨[("x", -3), ("w", -6)]⟩).answer =
      (findMatcher ⟨[("x", 2), ("y", 3)]⟩ ⟨[("x", 1), ("w", 2)]⟩).answer := by
  have hk : (-3 : ℤ) ≠ 0 := by decide
  have hc : [0, 6, -4].map ((-3 : ℤ) * ·) = [0, -18, 12] := by decide
  have hd : [2].map ((-3 : ℤ) * ·) = [-6] := by decide
  have ha : Term.scale (-3) ⟨[("x", 2), ("y", 3)]⟩ = ⟨[("x", -6), ("y", -9)]⟩ := by decide
  have hb : Term.scale (-3) ⟨[("x", 1), ("w", 2)]⟩ = ⟨[("x", -3), ("w", -6)]⟩ := by decide
  obtain ⟨hsolve, hfind⟩ := answers_scale hk
  rw [← hc, ← hd, ← ha, ← hb]
  exact ⟨hk, hsolve _ _, hfind _ _⟩

end GroupUnify
