import GroupUnify.Proofs.Unification.Bindings

/-!
# Matching is sound, complete and most general

A matcher has to solve one equation per name: the coefficients of that name in the terms put in solve
the equation of the left term for the name's coefficient on the right. The solver parametrises all
solutions for all names in one pass, so its bindings match (`matches_of_findMatcher`), nothing matches
when it gives none (`not_matches_of_findMatcher`), and every other matcher is an instance: the
solutions for all names, read at a parameter's index, are the coefficients of the term for that
parameter (`exists_yieldsOn_of_matches`).

* `findMatcher_decides`: an answer always comes and is right, whatever the names.
* `findMatcher_mostGeneral`: the matchers are the instances of the one that is found, if the right
  side has no parameter names.
-/

namespace GroupUnify

open Diophantine Substitution

variable {a b : Term} {s θ η μ : Substitution} {x y : String} {j : ℕ}

/-! ### The three answers -/

theorem findMatcher_of_isZero (h : a.isZero = true) :
    (findMatcher a b).answer = .ok (if b.isZero then some [] else none) := by
  rw [findMatcher, if_pos h]

theorem findMatcher_of_not_isZero (h : a.isZero = false) :
    (findMatcher a b).answer = (solve a.coefficients b.coefficients).answer.map fun solution =>
      solution.map (Search.bindings a.names b.names) := by
  rw [findMatcher, if_neg (by simp [h])]
  rfl

/-- **What is found**: no bindings for the identity on both sides, else the bindings of an exact
solution. -/
theorem cases_of_findMatcher (ha : a.WellFormed) (h : (findMatcher a b).answer = .ok (some μ)) :
    (a = 0 ∧ b = 0 ∧ μ = []) ∨
      ∃ sol live, sol.Exact a.coefficients b.coefficients live ∧
        μ = Search.bindings a.names b.names sol := by
  cases hz : a.isZero with
  | true =>
    rw [findMatcher_of_isZero hz] at h
    split at h
    · next hbz =>
      cases h
      exact Or.inl ⟨Term.isZero_iff.1 hz, Term.isZero_iff.1 hbz, rfl⟩
    · cases h
  | false =>
    rw [findMatcher_of_not_isZero hz] at h
    obtain ⟨answer, hrun⟩ := exists_answer_of_solve (ha.exists_coefficient hz) b.coefficients
    rw [hrun] at h
    cases answer with
    | none => cases h
    | some sol =>
      cases h
      obtain ⟨live, hsol⟩ := solve_exact (ha.exists_coefficient hz) hrun
      exact Or.inr ⟨sol, live, hsol, rfl⟩

theorem exists_answer_of_findMatcher (ha : a.WellFormed) (b : Term) :
    ∃ answer, (findMatcher a b).answer = .ok answer := by
  cases hz : a.isZero with
  | true => exact ⟨_, findMatcher_of_isZero hz⟩
  | false =>
    obtain ⟨answer, hanswer⟩ :=
      exists_answer_of_solve (ha.exists_coefficient hz) b.coefficients
    refine ⟨answer.map (Search.bindings a.names b.names), ?_⟩
    rw [findMatcher_of_not_isZero hz, hanswer]
    rfl

/-! ### Soundness -/

/-- **Bindings that are found match.** A parameter that has the name of a constant does no harm: the
coefficients of each parameter cancel on their own. -/
theorem matches_of_findMatcher (ha : a.WellFormed) (hb : b.WellFormed)
    (h : (findMatcher a b).answer = .ok (some μ)) : μ.Matches a b := by
  rcases cases_of_findMatcher ha h with ⟨rfl, rfl, rfl⟩ | ⟨sol, live, hsol, rfl⟩
  · exact Setoid.refl 0
  · rw [Matches, Term.equiv_iff_total (wellFormed_apply _ a) hb]
    intro y
    rw [Term.total_eq_eval]
    exact eval_apply_bindings ha hb hsol fun _ _ => rfl

/-- **Nothing matches if nothing is found**: some name's equation has no integer solution. -/
theorem not_matches_of_findMatcher (ha : a.WellFormed) (hb : b.WellFormed)
    (h : (findMatcher a b).answer = .ok none) (s : Substitution) : ¬ s.Matches a b := by
  intro hs
  have htotal := (Term.equiv_iff_total (wellFormed_apply s a) hb).1 hs
  cases hz : a.isZero with
  | true =>
    rw [findMatcher_of_isZero hz] at h
    have hbz : b.isZero = true := by
      rw [Term.isZero_iff.1 hz] at hs
      have hperm := Term.equiv_iff_perm.1 hs
      rw [Term.isZero, List.isEmpty_iff]
      exact List.nil_perm.1 hperm
    rw [if_pos hbz] at h
    cases h
  | false =>
    rw [findMatcher_of_not_isZero hz] at h
    obtain ⟨answer, hrun⟩ := exists_answer_of_solve (ha.exists_coefficient hz) b.coefficients
    cases answer with
    | some sol => rw [hrun] at h; cases h
    | none =>
      obtain ⟨k, hk, hno⟩ := exists_unsolvable_of_solve (ha.exists_coefficient hz) hrun
      rw [b.length_coefficients] at hk
      have hidx : b.names.idxOf b.names[k] = k := hb.nodup.idxOf_getElem k hk
      refine hno (fun i => (s.image (a.nameAt i)).total b.names[k]) ?_
      rw [← total_apply_eq_dot, htotal, hb.total_eq_entry, hidx]

/-- **Matching decides**: there is always an answer, it is none exactly if no substitution whatsoever
turns `a` into `b`, and bindings that are found do. -/
theorem findMatcher_decides (ha : a.WellFormed) (hb : b.WellFormed) :
    ∃ answer, (findMatcher a b).answer = .ok answer ∧
      (answer = none ↔ ∀ s : Substitution, ¬ s.Matches a b) ∧
      ∀ μ, answer = some μ → μ.Matches a b := by
  obtain ⟨answer, hanswer⟩ := exists_answer_of_findMatcher ha b
  have hfound : ∀ μ, answer = some μ → μ.Matches a b := by
    rintro μ rfl
    exact matches_of_findMatcher ha hb hanswer
  refine ⟨answer, hanswer, ⟨?_, fun hno => ?_⟩, hfound⟩
  · rintro rfl
    exact not_matches_of_findMatcher ha hb hanswer
  · cases answer with
    | none => rfl
    | some μ => exact absurd (hfound μ rfl) (hno μ)

/-- The terms `4x + 6g1` and `10g2 + 2x`, which share a name and use names of parameters. -/
theorem findMatcher_decides_shared_names :
    Term.WellFormed ⟨[("x", 4), ("g1", 6)]⟩ ∧ Term.WellFormed ⟨[("g2", 10), ("x", 2)]⟩ ∧
      ∃ answer, (findMatcher ⟨[("x", 4), ("g1", 6)]⟩ ⟨[("g2", 10), ("x", 2)]⟩).answer =
          .ok answer ∧
        (answer = none ↔ ∀ s : Substitution,
          ¬ s.Matches ⟨[("x", 4), ("g1", 6)]⟩ ⟨[("g2", 10), ("x", 2)]⟩) ∧
        ∀ μ, answer = some μ → μ.Matches ⟨[("x", 4), ("g1", 6)]⟩ ⟨[("g2", 10), ("x", 2)]⟩ := by
  have ha : Term.WellFormed ⟨[("x", 4), ("g1", 6)]⟩ := by decide
  have hb : Term.WellFormed ⟨[("g2", 10), ("x", 2)]⟩ := by decide
  exact ⟨ha, hb, findMatcher_decides ha hb⟩

/-! ### Completeness -/

/-- The names on the right and in the terms that `s` puts in on the left. -/
def occurring (s : Substitution) (a b : Term) : List String :=
  (b.names ++ a.names.flatMap fun x => (s.image x).names).dedup

/-- The coefficients of a name in the terms of a matcher are a solution of its equation. A name that
occurs nowhere has the solution zero. -/
theorem exists_valuation_of_matches {sol : Solution} {live : Finset ℕ} (hb : b.WellFormed)
    (hsol : sol.Exact a.coefficients b.coefficients live) (hs : s.Matches a b) (y : String) :
    ∃ p : ℕ → ℤ, (∀ i < a.names.length,
      sol.value p (b.names.idxOf y) i = (s.image (a.nameAt i)).total y) ∧
        (y ∉ occurring s a b → p = 0) := by
  by_cases hy : y ∈ occurring s a b
  · have heq : dot a.coefficients (fun i => (s.image (a.nameAt i)).total y) =
        entry b.coefficients (b.names.idxOf y) := by
      rw [← total_apply_eq_dot, ← hb.total_eq_entry]
      exact (Term.equiv_iff_total (wellFormed_apply s a) hb).1 hs y
    obtain ⟨p, -, hp⟩ := (hsol.parametrises _).complete _ heq
    exact ⟨p, fun i hi => hp i (by rw [a.length_coefficients]; exact hi), absurd hy⟩
  · -- the terms put in have none of `y`, and its equation is the homogeneous one
    refine ⟨0, fun i hi => ?_, fun _ => rfl⟩
    rw [occurring, List.mem_dedup, List.mem_append, not_or] at hy
    obtain ⟨hyb, hya⟩ := hy
    have hname : y ∉ (s.image (a.nameAt i)).names := fun hmem =>
      hya (List.mem_flatMap.2 ⟨_, Term.nameAt_mem hi, hmem⟩)
    rw [List.idxOf_eq_length hyb, ← b.length_coefficients, hsol.value_length,
      Term.total, Term.totalOf_of_not_mem hname]
    exact sol.direction_zero i

/-- The bindings that give the parameters below `bound` the coefficients `p y` at the names `ys`. -/
def assignment (bound : ℕ) (ys : List String) (p : String → ℕ → ℤ) : Substitution :=
  (List.range bound).map fun j =>
    ⟨Parameter.name j, Term.ofPairs (ys.map fun y => (y, p y j))⟩

variable {bound : ℕ} {ys : List String} {p : String → ℕ → ℤ}

theorem wellFormed_assignment : (assignment bound ys p).WellFormed := by
  intro t ht
  obtain ⟨j, -, rfl⟩ := List.mem_map.1 ht
  exact Term.wellFormed_ofPairs _

theorem bindsParameters_assignment : (assignment bound ys p).BindsParameters := by
  intro t ht
  obtain ⟨j, -, rfl⟩ := List.mem_map.1 ht
  exact Parameter.isReserved_name j

theorem total_image_assignment (hys : ys.Nodup) (hp : y ∉ ys → p y = 0)
    (hη : Parameter.name j ∉ η.map Binding.name) (hj : j < bound) :
    (Substitution.image (assignment bound ys p ++ η) (Parameter.name j)).total y = p y j := by
  have hfind : find? (Parameter.name j) (assignment bound ys p ++ η) =
      some (Term.ofPairs (ys.map fun y => (y, p y j))) := by
    rw [find?_append, find?_eq_none_iff.2 hη, Option.none_or, assignment,
      find?_map Parameter.name_injective, if_pos (List.mem_range.2 hj)]
  rw [image_of_find? hfind, Term.total_eq_eval, Term.eval_ofPairs,
    Term.sumAt_indicator_map (fun y => p y j) hys]
  split
  · rfl
  · next hy => rw [hp hy]; rfl

/-- **Every matcher is an instance of the one that is found**, under bindings `θ` of parameters only,
and more bindings `η` of other names do not matter. -/
theorem exists_yieldsOn_of_matches (ha : a.WellFormed) (hb : b.WellFormed)
    (hres : ∀ x ∈ b.names, Parameter.isReserved x = false)
    (h : (findMatcher a b).answer = .ok (some μ)) (hs : s.Matches a b) :
    ∃ θ : Substitution, θ.WellFormed ∧ θ.BindsParameters ∧
      ∀ η : Substitution, (∀ j, Parameter.name j ∉ η.map Binding.name) →
        (∀ x ∈ b.names, x ∉ η.map Binding.name) → μ.YieldsOn (θ ++ η) a.names s := by
  rcases cases_of_findMatcher ha h with ⟨rfl, -, -⟩ | ⟨sol, live, hsol, rfl⟩
  · exact ⟨[], fun _ ht => absurd ht List.not_mem_nil, fun _ ht => absurd ht List.not_mem_nil,
      fun _ _ _ _ hx => absurd hx List.not_mem_nil⟩
  -- one valuation for each name, all of them read off at once at each parameter
  choose p hp hp0 using exists_valuation_of_matches hb hsol hs
  obtain ⟨bound, hbound⟩ := live.exists_nat_subset_range
  refine ⟨assignment bound (occurring s a b) p, wellFormed_assignment, bindsParameters_assignment,
    fun η hηp hηb x hx => ?_⟩
  obtain ⟨i, hi, rfl⟩ := List.getElem_of_mem hx
  have hparam : ∀ y, ∀ j ∈ live,
      (Substitution.image (assignment bound (occurring s a b) p ++ η)
        (Parameter.name j)).total y = p y j := fun y j hj =>
    total_image_assignment (List.nodup_dedup _) (hp0 y) (hηp j) (Finset.mem_range.1 (hbound hj))
  have hconst : ∀ y, ∀ x ∈ b.names,
      (Substitution.image (assignment bound (occurring s a b) p ++ η) x).total y =
        Term.indicator y x := by
    intro y x hx
    have hθ : x ∉ (assignment bound (occurring s a b) p ++ η).map Binding.name := by
      rw [List.map_append, List.mem_append, not_or]
      exact ⟨bindsParameters_assignment.not_bound (hres x hx), hηb x hx⟩
    rw [image_of_not_bound hθ, Term.total_eq_eval, Term.eval_var]
  rw [apply_equiv_iff]
  intro y
  rw [total_apply_apply, total_apply, Term.eval_var, Term.eval_var, ← Term.nameAt_of_lt hi,
    ← hp y i hi, eval_image_nameAt ha hb hsol (hconst y) hi]
  exact hsol.closed.value_congr (by rw [a.length_coefficients]; exact hi) (hparam y)

/-- **A matcher that is found is most general and exact**: the matchers of `a` and `b` are, on the names
of `a`, its instances under bindings of parameters, and well-formed bindings do. -/
theorem findMatcher_mostGeneral (ha : a.WellFormed) (hb : b.WellFormed)
    (hres : ∀ x ∈ b.names, Parameter.isReserved x = false)
    (h : (findMatcher a b).answer = .ok (some μ)) (s : Substitution) :
    (s.Matches a b ↔ ∃ θ : Substitution, θ.BindsParameters ∧ μ.YieldsOn θ a.names s) ∧
    (s.Matches a b → ∃ θ : Substitution, θ.WellFormed ∧ θ.BindsParameters ∧
      μ.YieldsOn θ a.names s) := by
  have hcomplete : s.Matches a b → ∃ θ : Substitution, θ.WellFormed ∧ θ.BindsParameters ∧
      μ.YieldsOn θ a.names s := by
    intro hs
    obtain ⟨θ, hwf, hθ, hyields⟩ := exists_yieldsOn_of_matches ha hb hres h hs
    have hnil := hyields [] (fun _ => List.not_mem_nil) (fun _ _ => List.not_mem_nil)
    rw [List.append_nil] at hnil
    exact ⟨θ, hwf, hθ, hnil⟩
  refine ⟨⟨fun hs => ?_, ?_⟩, hcomplete⟩
  · obtain ⟨θ, -, hθ⟩ := hcomplete hs
    exact ⟨θ, hθ⟩
  · rintro ⟨θ, hθ, hyields⟩
    -- bindings of parameters leave the right side alone
    have hfix : θ.apply b ≈ b := by
      rw [Term.equiv_iff_total (wellFormed_apply θ b) hb]
      intro y
      rw [total_apply, Term.total_eq_eval]
      apply Term.eval_congr
      intro x hx
      rw [image_of_not_bound (hθ.not_bound (hres x hx)), Term.total_eq_eval, Term.eval_var]
    have hμ := apply_equiv_of_equiv θ (matches_of_findMatcher ha hb h)
    exact Setoid.trans (Setoid.symm (apply_apply_equiv hyields)) (Setoid.trans hμ hfix)

/-- The terms `2x + 3y` and `x + 2w`, and a matcher that mentions a name of neither. -/
theorem findMatcher_mostGeneral_shared_name :
    ∃ μ, (findMatcher ⟨[("x", 2), ("y", 3)]⟩ ⟨[("x", 1), ("w", 2)]⟩).answer = .ok (some μ) ∧
      Term.WellFormed ⟨[("x", 2), ("y", 3)]⟩ ∧ Term.WellFormed ⟨[("x", 1), ("w", 2)]⟩ ∧
      (∀ x ∈ ["x", "w"], Parameter.isReserved x = false) ∧
      ∃ θ : Substitution, θ.WellFormed ∧ θ.BindsParameters ∧ μ.YieldsOn θ ["x", "y"]
        [⟨"x", ⟨[("x", -1), ("w", -2), ("u", 3)]⟩⟩, ⟨"y", ⟨[("x", 1), ("w", 2), ("u", -2)]⟩⟩] := by
  have ha : Term.WellFormed ⟨[("x", 2), ("y", 3)]⟩ := by decide
  have hb : Term.WellFormed ⟨[("x", 1), ("w", 2)]⟩ := by decide
  have hres : ∀ x ∈ ["x", "w"], Parameter.isReserved x = false := by decide
  have h : (findMatcher ⟨[("x", 2), ("y", 3)]⟩ ⟨[("x", 1), ("w", 2)]⟩).answer = .ok (some
      [⟨"x", ⟨[("g2", 3), ("x", -1), ("w", -2)]⟩⟩, ⟨"y", ⟨[("g2", -2), ("x", 1), ("w", 2)]⟩⟩]) := by
    decide +kernel
  have hs : Substitution.Matches [⟨"x", ⟨[("x", -1), ("w", -2), ("u", 3)]⟩⟩,
      ⟨"y", ⟨[("x", 1), ("w", 2), ("u", -2)]⟩⟩] ⟨[("x", 2), ("y", 3)]⟩ ⟨[("x", 1), ("w", 2)]⟩ :=
    Term.equiv_iff_perm.2 (by decide)
  exact ⟨_, h, ha, hb, hres, (findMatcher_mostGeneral ha hb hres h _).2 hs⟩

end GroupUnify
