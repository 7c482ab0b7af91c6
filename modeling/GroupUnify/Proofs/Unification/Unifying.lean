import GroupUnify.Proofs.Unification.Matching

/-!
# Unification is most general

A unifier of `a` and `b` is a matcher of `a - b` and the identity (`unifies_iff_matches`), so checking the
one is checking the other (`checks_agree`). Names that cancel in `a - b` are not bound by what is found; an
instance binds them beside the parameters.
-/

namespace GroupUnify

open Substitution

variable {a b : Term} {s : Substitution} {x y : String}

theorem Term.total_sub (ha : a.WellFormed) (b : Term) (x : String) :
    (a + -b).total x = a.total x - b.total x := by
  rw [Term.total_eq_eval, Term.eval_add _ ha.nodup, Term.eval_neg, Term.total_eq_eval,
    Term.total_eq_eval]
  ring

/-- **Moving everything to the left is exact.** -/
theorem unifies_iff_matches (ha : a.WellFormed) (b : Term) (s : Substitution) :
    s.Unifies a b ↔ s.Matches (a + -b) 0 := by
  rw [Unifies, Matches, Term.equiv_iff_eval (wellFormed_apply s a) (wellFormed_apply s b),
    Term.equiv_iff_eval (wellFormed_apply s (a + -b)) Term.wellFormed_zero]
  apply forall_congr'
  intro v
  rw [eval_apply, eval_apply, eval_apply, Term.eval_add _ ha.nodup, Term.eval_neg, Term.eval_zero]
  omega

/-- **Both checks give the same answer**, whatever is bound: a substitution makes `a` and `b` equal exactly
if it turns the difference into the identity, on whichever side that is formed, and the sides may be
exchanged. The names that cancel in the difference may be bound, and may stand in the terms put in. -/
theorem checks_agree (ha : a.WellFormed) (hb : b.WellFormed) (s : Substitution) :
    decide (s.Unifies a b) = decide (s.Matches (a + -b) 0) ∧
    decide (s.Unifies a b) = decide (s.Unifies b a) ∧
    decide (s.Unifies a b) = decide (s.Matches (b + -a) 0) := by
  have hleft : s.Unifies a b ↔ s.Matches (a + -b) 0 := unifies_iff_matches ha b s
  have hright : s.Unifies b a ↔ s.Matches (b + -a) 0 := unifies_iff_matches hb a s
  have hswap : s.Unifies a b ↔ s.Unifies b a := ⟨fun h => Setoid.symm h, fun h => Setoid.symm h⟩
  exact ⟨decide_eq_decide.2 hleft, decide_eq_decide.2 hswap, decide_eq_decide.2 (hswap.trans hright)⟩

/-- The terms `2x + y` and `y + 4z`. The name `y` cancels; it is bound, and the last binding of `x`, a raw one,
mentions it. -/
theorem checks_agree_cancelling :
    let s : Substitution := [⟨"x", 0⟩, ⟨"y", ⟨[("z", 1)]⟩⟩, ⟨"x", ⟨[("y", 1), ("z", 2), ("y", -1)]⟩⟩]
    Term.WellFormed ⟨[("x", 2), ("y", 1)]⟩ ∧ Term.WellFormed ⟨[("y", 1), ("z", 4)]⟩ ∧
      (⟨[("x", 2), ("y", 1)]⟩ + -⟨[("y", 1), ("z", 4)]⟩ : Term) = ⟨[("x", 2), ("z", -4)]⟩ ∧
      decide (s.Unifies ⟨[("x", 2), ("y", 1)]⟩ ⟨[("y", 1), ("z", 4)]⟩) = true ∧
      decide (s.Matches (⟨[("x", 2), ("y", 1)]⟩ + -⟨[("y", 1), ("z", 4)]⟩) 0) = true := by
  intro s
  have ha : Term.WellFormed ⟨[("x", 2), ("y", 1)]⟩ := by decide
  have hb : Term.WellFormed ⟨[("y", 1), ("z", 4)]⟩ := by decide
  have hunifies : s.Unifies ⟨[("x", 2), ("y", 1)]⟩ ⟨[("y", 1), ("z", 4)]⟩ :=
    Term.equiv_iff_perm.2 (by decide)
  obtain ⟨hmatches, -⟩ := checks_agree ha hb s
  rw [decide_eq_true hunifies] at hmatches
  exact ⟨ha, hb, by decide, decide_eq_true hunifies, hmatches.symm⟩

/-- A term that repeats a name can be the identity while its difference is not. -/
example : Substitution.Unifies [] ⟨[("x", 1), ("x", -1)]⟩ 0 ∧
    ¬ Substitution.Matches [] (⟨[("x", 1), ("x", -1)]⟩ + -0) 0 := by decide +kernel

/-- What is found binds the names of the term that is solved. -/
theorem names_of_findMatcher {μ : Substitution} (ha : a.WellFormed)
    (h : (findMatcher a b).answer = .ok (some μ)) : μ.map Binding.name = a.names := by
  rcases cases_of_findMatcher ha h with ⟨rfl, -, rfl⟩ | ⟨sol, live, -, rfl⟩
  · rfl
  · exact Search.names_bindings _ _ sol

/-- There is always a most general unifier. -/
theorem exists_findUnifier (ha : a.WellFormed) (b : Term) :
    ∃ σ, (findUnifier a b).answer = .ok (some σ) := by
  obtain ⟨answer, hanswer⟩ := exists_answer_of_findMatcher (ha.add (-b)) 0
  cases answer with
  | some σ => exact ⟨σ, hanswer⟩
  | none =>
    -- the substitution that puts in the identity everywhere would match
    exfalso
    set zeros : Substitution := (a + -b).names.map fun x => ⟨x, 0⟩ with hzeros
    refine not_matches_of_findMatcher (ha.add (-b)) Term.wellFormed_zero hanswer zeros ?_
    rw [Matches, Term.equiv_iff_total (wellFormed_apply _ _) Term.wellFormed_zero]
    intro y
    have hzero : ∀ x ∈ (a + -b).names, (zeros.image x).total y = 0 := by
      intro x hx
      rw [image_of_find? (find?_map_names (fun _ => 0) hx)]
      rfl
    rw [total_apply, Term.eval_congr hzero, Term.eval_zero_valuation]
    rfl

/-- **Every unifier is an instance of the one that is found**: beside the parameters, the names that
cancel are bound as `s` binds them. -/
theorem exists_yieldsOn_of_unifies {σ : Substitution} (ha : a.WellFormed)
    (hares : ∀ x ∈ a.names, Parameter.isReserved x = false)
    (hbres : ∀ x ∈ b.names, Parameter.isReserved x = false)
    (hσ : (findUnifier a b).answer = .ok (some σ)) (hs : s.Unifies a b) :
    ∃ θ : Substitution, θ.WellFormed ∧ σ.YieldsOn θ (a.names ++ b.names) s := by
  have hnames := names_of_findMatcher (ha.add (-b)) hσ
  obtain ⟨θ, hwf, -, hyields⟩ := exists_yieldsOn_of_matches (ha.add (-b)) Term.wellFormed_zero
    (fun _ hx => absurd hx List.not_mem_nil) hσ ((unifies_iff_matches ha b s).1 hs)
  set η : Substitution := (a.names ++ b.names).map fun x => ⟨x, s.apply (Term.var x)⟩ with hη
  have hηp : ∀ j, Parameter.name j ∉ η.map Binding.name := by
    intro j hmem
    obtain ⟨t, ht, htj⟩ := List.mem_map.1 hmem
    obtain ⟨x, hx, rfl⟩ := List.mem_map.1 ht
    have hres : Parameter.isReserved x = false := by
      rcases List.mem_append.1 hx with hx | hx
      · exact hares x hx
      · exact hbres x hx
    have hxj : x = Parameter.name j := htj
    rw [hxj, Parameter.isReserved_name] at hres
    cases hres
  refine ⟨θ ++ η, ?_, fun x hx => ?_⟩
  · intro t ht
    rcases List.mem_append.1 ht with ht | ht
    · exact hwf t ht
    · obtain ⟨x, -, rfl⟩ := List.mem_map.1 ht
      exact wellFormed_apply s _
  · by_cases hxσ : x ∈ (a + -b).names
    · exact hyields η hηp (fun _ hx => absurd hx List.not_mem_nil) x hxσ
    · -- a name that cancels stays under `σ`, and `η` binds it
      rw [← hnames] at hxσ
      rw [apply_equiv_iff]
      intro y
      rw [total_apply_apply, Term.eval_var, image_of_not_bound hxσ, Term.eval_var,
        image_of_find? (by rw [find?_append, hη, find?_map_names _ hx, Option.some_or])]

/-- **A unifier is always found, and it is most general and exact**: it leaves alone the names whose
coefficients agree, and the unifiers of `a` and `b` are, on the names of both, its instances. -/
theorem findUnifier_mostGeneral (ha : a.WellFormed) (hb : b.WellFormed)
    (hares : ∀ x ∈ a.names, Parameter.isReserved x = false)
    (hbres : ∀ x ∈ b.names, Parameter.isReserved x = false) :
    ∃ σ, (findUnifier a b).answer = .ok (some σ) ∧
      (∀ x, a.coefficient x = b.coefficient x → x ∉ σ.map Binding.name) ∧
      ∀ s : Substitution,
        (s.Unifies a b ↔ ∃ θ : Substitution, σ.YieldsOn θ (a.names ++ b.names) s) ∧
        (s.Unifies a b → ∃ θ : Substitution, θ.WellFormed ∧
          σ.YieldsOn θ (a.names ++ b.names) s) := by
  obtain ⟨σ, hσ⟩ := exists_findUnifier ha b
  have hnames := names_of_findMatcher (ha.add (-b)) hσ
  have hunifies : σ.Unifies a b := (unifies_iff_matches ha b σ).2
    (matches_of_findMatcher (ha.add (-b)) Term.wellFormed_zero hσ)
  have hcomplete : ∀ s : Substitution, s.Unifies a b → ∃ θ : Substitution, θ.WellFormed ∧
      σ.YieldsOn θ (a.names ++ b.names) s :=
    fun s hs => exists_yieldsOn_of_unifies ha hares hbres hσ hs
  refine ⟨σ, hσ, fun x hx => ?_, fun s => ⟨⟨fun hs => ?_, ?_⟩, hcomplete s⟩⟩
  · rw [hnames, (ha.add (-b)).mem_names_iff, Term.total_sub ha, not_not,
      ← ha.coefficient_eq_total, ← hb.coefficient_eq_total, hx, sub_self]
  · obtain ⟨θ, -, hθ⟩ := hcomplete s hs
    exact ⟨θ, hθ⟩
  · rintro ⟨θ, hθ⟩
    have hsa := apply_apply_equiv fun x hx => hθ x (List.mem_append_left _ hx)
    have hsb := apply_apply_equiv fun x hx => hθ x (List.mem_append_right _ hx)
    exact Setoid.trans (Setoid.symm hsa)
      (Setoid.trans (apply_equiv_of_equiv θ hunifies) hsb)

/-- The terms `2x + y + 4z` and `y + z`, in which `y` cancels. -/
theorem findUnifier_mostGeneral_cancelling :
    Term.WellFormed ⟨[("x", 2), ("y", 1), ("z", 4)]⟩ ∧ Term.WellFormed ⟨[("y", 1), ("z", 1)]⟩ ∧
      ∃ σ, (findUnifier ⟨[("x", 2), ("y", 1), ("z", 4)]⟩ ⟨[("y", 1), ("z", 1)]⟩).answer =
          .ok (some σ) ∧ "y" ∉ σ.map Binding.name ∧
        ∃ θ : Substitution, θ.WellFormed ∧ σ.YieldsOn θ ["x", "y", "z", "y", "z"]
          [⟨"x", ⟨[("u", 3)]⟩⟩, ⟨"y", ⟨[("x", 5)]⟩⟩, ⟨"z", ⟨[("u", -2)]⟩⟩] := by
  have ha : Term.WellFormed ⟨[("x", 2), ("y", 1), ("z", 4)]⟩ := by decide
  have hb : Term.WellFormed ⟨[("y", 1), ("z", 1)]⟩ := by decide
  obtain ⟨σ, hσ, hfree, hgeneral⟩ := findUnifier_mostGeneral ha hb (by decide) (by decide)
  exact ⟨ha, hb, σ, hσ, hfree "y" (by decide), (hgeneral _).2 (Term.equiv_iff_perm.2 (by decide))⟩

end GroupUnify
