import GroupUnify.Proofs.Term.Order

/-!
# Terms made of pairs

A list of names with integers is a sum, whatever stands in it: zeros, a name that comes again, a name that cancels
and is back later. What the list adds up to depends on its values only (`eval_ofPairs`), so the pairs may come in
any order, and two terms for two parts of the list add up to the term for the whole. The stored order does depend
on the order of the pairs. The factors of a well-formed term are the pairs that give just these factors back.

* `coefficient_ofPairs`: the coefficients.
* `ofPairs_equiv_of_perm`, `ofPairs_add_equiv`: other orders, and parts.
* `ofPairs_factors`: the pairs of a well-formed term.
-/

namespace GroupUnify.Term

variable {t : Term} {pairs front back : List Factor} {x : String}

theorem totalOf_eq_sum (x : String) (fs : List Factor) :
    totalOf x fs = ((fs.filter fun f => f.1 = x).map Prod.snd).sum := by
  induction fs with
  | nil => rfl
  | cons f fs ih =>
    rw [totalOf, ih, List.filter_cons]
    by_cases hf : f.1 = x <;> simp [hf]

/-- **The coefficient of a name** is the sum of all integers that stand with it. -/
theorem coefficient_ofPairs (pairs : List Factor) (x : String) :
    (ofPairs pairs).coefficient x = ((pairs.filter fun f => f.1 = x).map Prod.snd).sum := by
  rw [(wellFormed_ofPairs pairs).coefficient_eq_total, total_eq_eval, eval_ofPairs,
    ← totalOf_eq_sumAt, totalOf_eq_sum]

theorem ofPairs_equiv_of_perm (h : front.Perm pairs) : ofPairs front ≈ ofPairs pairs := by
  rw [equiv_iff_eval (wellFormed_ofPairs front) (wellFormed_ofPairs pairs)]
  intro v
  rw [eval_ofPairs, eval_ofPairs, sumAt_perm h]

/-- **Parts add up**, and each of them may hold what the other cancels. -/
theorem ofPairs_add_equiv (front back : List Factor) :
    ofPairs front + ofPairs back ≈ ofPairs (front ++ back) := by
  have hfront := wellFormed_ofPairs front
  rw [equiv_iff_eval (hfront.add _) (wellFormed_ofPairs _)]
  intro v
  rw [eval_add v hfront.nodup, eval_ofPairs, eval_ofPairs, eval_ofPairs, sumAt_append]

/-- **The pairs of a well-formed term** make this term again, in its stored order. -/
theorem ofPairs_factors (h : t.WellFormed) : ofPairs t.factors = t := by
  rw [ofPairs_eq_bind]
  exact bind_of_var h fun _ _ => rfl

/-- **Every list of pairs has a normal form.** It is well-formed, and a name has as its coefficient the sum of the
integers that stand with it. Lists with the same pairs in another order give equal terms, and so do two lists that
share the pairs out between them when their terms are added. The pairs of a well-formed term give its stored
factors. -/
theorem ofPairs_normalises (pairs : List Factor) :
    (ofPairs pairs).WellFormed ∧
    (∀ x, (ofPairs pairs).coefficient x = ((pairs.filter fun f => f.1 = x).map Prod.snd).sum) ∧
    (∀ others, others.Perm pairs → ofPairs others ≈ ofPairs pairs) ∧
    (∀ front back, (front ++ back).Perm pairs → ofPairs front + ofPairs back ≈ ofPairs pairs) ∧
    ∀ t : Term, t.WellFormed → (ofPairs t.factors).factors = t.factors := by
  refine ⟨wellFormed_ofPairs pairs, coefficient_ofPairs pairs,
    fun others h => ofPairs_equiv_of_perm h, fun front back h => ?_, fun t ht => ?_⟩
  · have hparts := ofPairs_add_equiv front back
    have hwhole := ofPairs_equiv_of_perm h
    exact Setoid.trans hparts hwhole
  · rw [ofPairs_factors ht]

/-- The pairs `2x`, `0z`, `y`, `-2x` and `-3x`. The name `x` cancels and is back behind `y`; in another order it
stands in front, and of the two parts the second cancels what the first has. -/
theorem ofPairs_normalises_back_again :
    ofPairs [("x", 2), ("z", 0), ("y", 1), ("x", -2), ("x", -3)] = ⟨[("y", 1), ("x", -3)]⟩ ∧
      ofPairs [("x", -3), ("x", 2), ("y", 1), ("x", -2), ("z", 0)] = ⟨[("x", -3), ("y", 1)]⟩ ∧
      ofPairs [("x", -3), ("x", 2), ("y", 1), ("x", -2), ("z", 0)] ≈
        ofPairs [("x", 2), ("z", 0), ("y", 1), ("x", -2), ("x", -3)] ∧
      ofPairs [("x", 2), ("y", 1)] + ofPairs [("z", 0), ("x", -2), ("x", -3)] ≈
        ofPairs [("x", 2), ("z", 0), ("y", 1), ("x", -2), ("x", -3)] ∧
      WellFormed ⟨[("y", 1), ("x", -3)]⟩ ∧
      (ofPairs [("y", 1), ("x", -3)]).factors = [("y", 1), ("x", -3)] := by
  have hwf : WellFormed ⟨[("y", 1), ("x", -3)]⟩ := by decide
  obtain ⟨-, -, horder, hparts, hback⟩ :=
    ofPairs_normalises [("x", 2), ("z", 0), ("y", 1), ("x", -2), ("x", -3)]
  exact ⟨by decide, by decide, horder _ (by decide), hparts _ _ (by decide), hwf, hback _ hwf⟩

end GroupUnify.Term
