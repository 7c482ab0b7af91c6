import GroupUnify.Proofs.Unification.Unifying

/-!
# Unification always succeeds, and instances of a unifier unify

A unifier of `a` and `b` binds the names of `a - b` and turns that term into the identity. Both facts
hold whatever the names are: parameters with the name of a user cannot disturb them. An instance of
the unifier still binds all names of `a - b`, so on this term it does what the unifier and then the
instance does, and the identity stays what it is (`Matches.instantiate`).

* `Term.mem_names_sub`: the names of `a - b` are those whose coefficients differ.
* `findUnifier_succeeds`: the whole result.
-/

namespace GroupUnify

open Substitution

variable {a b t : Term} {s r σ : Substitution} {x : String}

namespace Substitution

/-- On a term with all names bound an instance does `s` and then `r`. -/
theorem apply_instantiate_equiv (r : Substitution) (ht : ∀ x ∈ t.names, x ∈ s.map Binding.name) :
    (s.instantiate r).apply t ≈ r.apply (s.apply t) := by
  rw [apply_equiv_iff]
  intro y
  rw [total_apply, total_apply_apply]
  apply Term.eval_congr
  intro x hx
  rw [image_instantiate r (ht x hx), total_apply]

/-- **Instances keep what is turned into the identity.** -/
theorem Matches.instantiate (h : s.Matches t 0) (ht : ∀ x ∈ t.names, x ∈ s.map Binding.name)
    (r : Substitution) : (s.instantiate r).Matches t 0 := by
  have hinst := apply_instantiate_equiv r ht
  have hzero : r.apply (s.apply t) ≈ r.apply 0 := apply_equiv_of_equiv r h
  exact Setoid.trans hinst hzero

end Substitution

/-- The names that are left when everything is on the left are those whose coefficients differ. -/
theorem Term.mem_names_sub (ha : a.WellFormed) (hb : b.WellFormed) (x : String) :
    x ∈ (a + -b).names ↔ a.coefficient x ≠ b.coefficient x := by
  have htotal := Term.total_sub ha b x
  rw [(ha.add (-b)).mem_names_iff, htotal, ← ha.coefficient_eq_total, ← hb.coefficient_eq_total]
  omega

/-- **Unification always succeeds and is sound, whatever the names**: a unifier is found, it binds
each name whose coefficients differ once and no other, and all its instances are unifiers too. -/
theorem findUnifier_succeeds (ha : a.WellFormed) (hb : b.WellFormed) :
    ∃ σ, (findUnifier a b).answer = .ok (some σ) ∧
      (σ.map Binding.name).Nodup ∧
      (∀ x, x ∈ σ.map Binding.name ↔ a.coefficient x ≠ b.coefficient x) ∧
      σ.Unifies a b ∧
      ∀ r : Substitution, (σ.instantiate r).Unifies a b := by
  have hsub := ha.add (-b)
  -- everything is read off `a - b`, which the unifier turns into the identity
  obtain ⟨σ, hσ⟩ := exists_findUnifier ha b
  have hnames : σ.map Binding.name = (a + -b).names := names_of_findMatcher hsub hσ
  have hmatches : σ.Matches (a + -b) 0 := matches_of_findMatcher hsub Term.wellFormed_zero hσ
  refine ⟨σ, hσ, ?_, fun x => ?_, (unifies_iff_matches ha b σ).2 hmatches, fun r => ?_⟩
  · rw [hnames]
    exact hsub.nodup
  · rw [hnames]
    exact Term.mem_names_sub ha hb x
  · have hbound : ∀ x ∈ (a + -b).names, x ∈ σ.map Binding.name := by
      intro x hx
      rw [hnames]
      exact hx
    exact (unifies_iff_matches ha b _).2 (hmatches.instantiate hbound r)

/-- The terms `2g1 + y + 4z` and `y + g0`, which have names of parameters; `y` cancels. -/
theorem findUnifier_succeeds_parameter_names :
    Term.WellFormed ⟨[("g1", 2), ("y", 1), ("z", 4)]⟩ ∧ Term.WellFormed ⟨[("y", 1), ("g0", 1)]⟩ ∧
      ∃ σ, (findUnifier ⟨[("g1", 2), ("y", 1), ("z", 4)]⟩ ⟨[("y", 1), ("g0", 1)]⟩).answer =
          .ok (some σ) ∧ "y" ∉ σ.map Binding.name ∧ "g0" ∈ σ.map Binding.name ∧
        (σ.instantiate [⟨"g1", ⟨[("y", 3), ("g1", -1)]⟩⟩]).Unifies
          ⟨[("g1", 2), ("y", 1), ("z", 4)]⟩ ⟨[("y", 1), ("g0", 1)]⟩ := by
  have ha : Term.WellFormed ⟨[("g1", 2), ("y", 1), ("z", 4)]⟩ := by decide
  have hb : Term.WellFormed ⟨[("y", 1), ("g0", 1)]⟩ := by decide
  obtain ⟨σ, hσ, -, hnames, -, hinst⟩ := findUnifier_succeeds ha hb
  have hy : "y" ∉ σ.map Binding.name := fun h => (hnames "y").1 h (by decide)
  have hg : "g0" ∈ σ.map Binding.name := (hnames "g0").2 (by decide)
  exact ⟨ha, hb, σ, hσ, hy, hg, hinst _⟩

end GroupUnify
