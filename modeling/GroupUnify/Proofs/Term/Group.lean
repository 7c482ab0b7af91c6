import GroupUnify.Proofs.Term.Equality
import Mathlib.Data.Finsupp.Defs

/-!
# Terms as a free Abelian group

A well-formed term is known by its coefficients, and the operations act on these name by name
(`coefficient_add`, `coefficient_neg`, `coefficient_scale`). So the laws of an Abelian group, and those of
its integer multiples, hold of terms as they hold of integers. They hold up to equality only: two sums of the
same terms can differ in the order of their factors. The group is free on the names, since any choice of
coefficients, all but finitely many of them zero, belongs to a term.

* `WellFormed.equiv_iff_coefficient`, `equiv_iff_canonical`: when two terms are equal.
* `exists_coefficient_eq`: which families of coefficients terms have.
* `free_abelian_group`: coefficients, equality and laws together.
-/

namespace GroupUnify.Term

variable {a b c : Term} {x : String} {k l : ℤ}

/-! ### Coefficients of results -/

theorem coefficient_zero (x : String) : coefficient 0 x = 0 := rfl

theorem coefficient_add (ha : a.WellFormed) (hb : b.WellFormed) (x : String) :
    (a + b).coefficient x = a.coefficient x + b.coefficient x := by
  rw [(ha.add b).coefficient_eq_total, ha.coefficient_eq_total, hb.coefficient_eq_total,
    total_eq_eval, eval_add _ ha.nodup, total_eq_eval, total_eq_eval]

theorem coefficient_neg (ha : a.WellFormed) (x : String) : (-a).coefficient x = -a.coefficient x := by
  rw [ha.neg.coefficient_eq_total, ha.coefficient_eq_total, total_eq_eval, eval_neg, total_eq_eval]

theorem coefficient_scale (ha : a.WellFormed) (k : ℤ) (x : String) :
    (a.scale k).coefficient x = k * a.coefficient x := by
  rw [(ha.scale k).coefficient_eq_total, ha.coefficient_eq_total, total_eq_eval, eval_scale,
    total_eq_eval]

/-! ### Equality -/

/-- **Well-formed terms are equal exactly if they have the same coefficients.** -/
theorem WellFormed.equiv_iff_coefficient (ha : a.WellFormed) (hb : b.WellFormed) :
    a ≈ b ↔ ∀ x, a.coefficient x = b.coefficient x := by
  rw [equiv_iff_total ha hb]
  constructor
  · intro h x
    rw [ha.coefficient_eq_total, hb.coefficient_eq_total, h x]
  · intro h x
    rw [← ha.coefficient_eq_total, ← hb.coefficient_eq_total, h x]

/-- Terms are equal exactly if their canonical forms have the same factors in the same order. -/
theorem equiv_iff_canonical : a ≈ b ↔ a.canonical.factors = b.canonical.factors :=
  ⟨fun h => congrArg factors h, fun h => Term.ext h⟩

/-- Every family of coefficients is that of a term if only finitely many are not zero. -/
theorem exists_coefficient_eq (g : String →₀ ℤ) :
    ∃ t : Term, t.WellFormed ∧ ∀ x, t.coefficient x = g x := by
  have hwf := wellFormed_ofPairs (g.support.toList.map fun x => (x, g x))
  refine ⟨_, hwf, fun x => ?_⟩
  rw [hwf.coefficient_eq_total, total_eq_eval, eval_ofPairs,
    sumAt_indicator_map g g.support.nodup_toList]
  split
  · rfl
  · next hx =>
    rw [Finset.mem_toList, Finsupp.mem_support_iff, not_not] at hx
    exact hx.symm

/-! ### Laws -/

theorem add_comm_equiv (ha : a.WellFormed) (hb : b.WellFormed) : a + b ≈ b + a := by
  rw [(ha.add b).equiv_iff_coefficient (hb.add a)]
  intro x
  rw [coefficient_add ha hb, coefficient_add hb ha, add_comm]

theorem add_assoc_equiv (ha : a.WellFormed) (hb : b.WellFormed) (hc : c.WellFormed) :
    a + b + c ≈ a + (b + c) := by
  rw [((ha.add b).add c).equiv_iff_coefficient (ha.add (b + c))]
  intro x
  rw [coefficient_add (ha.add b) hc, coefficient_add ha hb, coefficient_add ha (hb.add c),
    coefficient_add hb hc, add_assoc]

theorem add_zero_equiv (ha : a.WellFormed) : a + 0 ≈ a := by
  rw [(ha.add 0).equiv_iff_coefficient ha]
  intro x
  rw [coefficient_add ha wellFormed_zero, coefficient_zero, add_zero]

theorem add_neg_equiv (ha : a.WellFormed) : a + -a ≈ 0 := by
  rw [(ha.add (-a)).equiv_iff_coefficient wellFormed_zero]
  intro x
  rw [coefficient_add ha ha.neg, coefficient_neg ha, coefficient_zero, add_neg_cancel]

theorem scale_add_equiv (ha : a.WellFormed) (hb : b.WellFormed) (k : ℤ) :
    (a + b).scale k ≈ a.scale k + b.scale k := by
  rw [((ha.add b).scale k).equiv_iff_coefficient ((ha.scale k).add _)]
  intro x
  rw [coefficient_scale (ha.add b), coefficient_add ha hb, coefficient_add (ha.scale k) (hb.scale k),
    coefficient_scale ha, coefficient_scale hb, mul_add]

theorem add_scale_equiv (ha : a.WellFormed) (k l : ℤ) :
    a.scale (k + l) ≈ a.scale k + a.scale l := by
  rw [(ha.scale (k + l)).equiv_iff_coefficient ((ha.scale k).add _)]
  intro x
  rw [coefficient_scale ha, coefficient_add (ha.scale k) (ha.scale l), coefficient_scale ha,
    coefficient_scale ha, add_mul]

theorem scale_scale_equiv (ha : a.WellFormed) (k l : ℤ) :
    (a.scale l).scale k ≈ a.scale (k * l) := by
  rw [((ha.scale l).scale k).equiv_iff_coefficient (ha.scale (k * l))]
  intro x
  rw [coefficient_scale (ha.scale l), coefficient_scale ha, coefficient_scale ha, mul_assoc]

/-- **Terms are a free Abelian group.** On well-formed terms the operations act on the coefficients name by
name; terms with the same coefficients, and only these, are equal, and they are those with the same canonical
form; so sums are commutative and associative, the identity is neutral, negation inverts, and multiples
distribute over sums of terms and of integers. The group is free on the names: every finite choice of
coefficients is met. -/
theorem free_abelian_group (ha : a.WellFormed) (hb : b.WellFormed) (hc : c.WellFormed) (k l : ℤ) :
    (∀ x, (a + b).coefficient x = a.coefficient x + b.coefficient x ∧
      (-a).coefficient x = -a.coefficient x ∧
      (a.scale k).coefficient x = k * a.coefficient x ∧
      coefficient 0 x = 0) ∧
    (a ≈ b ↔ ∀ x, a.coefficient x = b.coefficient x) ∧
    ((∀ x, a.coefficient x = b.coefficient x) ↔ a.canonical.factors = b.canonical.factors) ∧
    (a + b ≈ b + a ∧ a + b + c ≈ a + (b + c)) ∧
    (a + 0 ≈ a ∧ 0 + a ≈ a) ∧
    (a + -a ≈ 0 ∧ -a + a ≈ 0) ∧
    ((a + b).scale k ≈ a.scale k + b.scale k ∧ a.scale (k + l) ≈ a.scale k + a.scale l ∧
      (a.scale l).scale k ≈ a.scale (k * l)) ∧
    ∀ g : String →₀ ℤ, ∃ t : Term, t.WellFormed ∧ ∀ x, t.coefficient x = g x := by
  have hequal := ha.equiv_iff_coefficient hb
  have hcanonical : (∀ x, a.coefficient x = b.coefficient x) ↔
      a.canonical.factors = b.canonical.factors := by
    rw [← hequal, equiv_iff_canonical]
  have hzero : 0 + a ≈ a := by
    have hcomm := add_comm_equiv wellFormed_zero ha
    exact Setoid.trans hcomm (add_zero_equiv ha)
  have hneg : -a + a ≈ 0 := by
    have hcomm := add_comm_equiv ha.neg ha
    exact Setoid.trans hcomm (add_neg_equiv ha)
  refine ⟨?_, hequal, hcanonical, ⟨add_comm_equiv ha hb, add_assoc_equiv ha hb hc⟩,
    ⟨add_zero_equiv ha, hzero⟩, ⟨add_neg_equiv ha, hneg⟩, ?_, exists_coefficient_eq⟩
  · intro x
    exact ⟨coefficient_add ha hb x, coefficient_neg ha x, coefficient_scale ha k x,
      coefficient_zero x⟩
  · exact ⟨scale_add_equiv ha hb k, add_scale_equiv ha k l, scale_scale_equiv ha k l⟩

/-- The terms `2y + x`, `z - x` and `-3z`: a name cancels, and the two sums have their factors in different
order. -/
theorem free_abelian_group_cancelling :
    WellFormed ⟨[("y", 2), ("x", 1)]⟩ ∧ WellFormed ⟨[("z", 1), ("x", -1)]⟩ ∧
      WellFormed ⟨[("z", -3)]⟩ ∧
      (⟨[("y", 2), ("x", 1)]⟩ + ⟨[("z", 1), ("x", -1)]⟩ : Term) = ⟨[("y", 2), ("z", 1)]⟩ ∧
      (⟨[("z", 1), ("x", -1)]⟩ + ⟨[("y", 2), ("x", 1)]⟩ : Term) = ⟨[("z", 1), ("y", 2)]⟩ ∧
      (⟨[("y", 2), ("x", 1)]⟩ + ⟨[("z", 1), ("x", -1)]⟩ : Term) ≈
        ⟨[("z", 1), ("x", -1)]⟩ + ⟨[("y", 2), ("x", 1)]⟩ ∧
      (⟨[("y", 2), ("x", 1)]⟩ + ⟨[("z", 1), ("x", -1)]⟩ + ⟨[("z", -3)]⟩ : Term) ≈
        ⟨[("y", 2), ("x", 1)]⟩ + (⟨[("z", 1), ("x", -1)]⟩ + ⟨[("z", -3)]⟩) ∧
      (⟨[("y", 2), ("x", 1)]⟩ + ⟨[("z", 1), ("x", -1)]⟩ : Term).coefficient "x" = 1 + -1 := by
  have ha : WellFormed ⟨[("y", 2), ("x", 1)]⟩ := by decide
  have hb : WellFormed ⟨[("z", 1), ("x", -1)]⟩ := by decide
  have hc : WellFormed ⟨[("z", -3)]⟩ := by decide
  obtain ⟨hcoefficient, -, -, ⟨hcomm, hassoc⟩, -⟩ := free_abelian_group ha hb hc (-2) 3
  exact ⟨ha, hb, hc, by decide, by decide, hcomm, hassoc, (hcoefficient "x").1⟩

end GroupUnify.Term
