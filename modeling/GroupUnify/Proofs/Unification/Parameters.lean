import GroupUnify.Proofs.Unification.Unifying

/-!
# The parameters of a matcher

A matcher of a term with `n` names has `n - 1` parameters, and none of them is redundant. The indices that
a solution leaves free are its live ones (`Solution.Exact.free_iff`): one that no value depended on could
be moved without moving the solution, and each solution comes from one valuation only. The names of
parameters in the bindings are those of the free indices (`parameters_bindings`), so they can be counted.
Instances under two substitutions of the parameters are read off name by name: for each name the
coefficients in the terms put in for the parameters are a valuation of the live indices, and equal instances
are equal solutions (`apply_name_equiv_of_bindings`).

* `findMatcher_parameters`: the number of parameters, and which instances differ.
-/

namespace GroupUnify

namespace Diophantine.Solution

variable {c d : List ℤ} {live : Finset ℕ} {s : Solution} {f : Form} {i j : ℕ}

/-- With distinct keys each recorded form is the one that is found. -/
theorem form?_of_mem (hs : s.keys.Nodup) (h : (i, f) ∈ s) : s.form? i = some f := by
  have hkey : i ∈ s.keys := List.mem_map_of_mem h
  cases hf : s.form? i with
  | none => exact absurd hkey (form?_eq_none_iff.1 hf)
  | some g =>
    have heq := List.inj_on_of_nodup_map hs (mem_of_form? hf) h rfl
    rw [Prod.mk.injEq] at heq
    rw [heq.2]

/-- **Every live index is free**: the values depend on it. -/
theorem Exact.free_of_live (h : s.Exact c d live) (hj : j ∈ live) : s.Free c.length j := by
  by_contra hfree
  rw [Free, not_or] at hfree
  obtain ⟨hrecorded, hmentioned⟩ := hfree
  -- otherwise index `j` could be given any value
  have hvalue : ∀ i < c.length, s.value 0 0 i = s.value (Function.update 0 j 1) 0 i := by
    intro i hi
    cases hf : s.form? i with
    | none =>
      have hik := form?_eq_none_iff.1 hf
      have hij : i ≠ j := fun hij => hrecorded ⟨hij ▸ hi, hij ▸ hik⟩
      rw [value_of_not_mem hik, value_of_not_mem hik, Function.update_of_ne hij]
    | some f =>
      rw [value_of_form? hf, value_of_form? hf]
      apply Form.value_congr
      intro l hl
      have hlj : l ≠ j := fun hlj => hmentioned ⟨_, mem_of_form? hf, hlj ▸ hl⟩
      rw [Function.update_of_ne hlj]
  have hzero := (h.parametrises 0).unique 0 (Set.mem_univ _) _ (Set.mem_univ _) hvalue j hj
  rw [Function.update_self] at hzero
  exact zero_ne_one hzero

theorem Exact.free_iff (h : s.Exact c d live) : s.Free c.length j ↔ j ∈ live :=
  ⟨h.live_of_free, h.free_of_live⟩

end Diophantine.Solution

open Diophantine Substitution

variable {a b : Term} {s θ η μ : Substitution} {constants : List String} {sol : Solution}
  {live : Finset ℕ} {f : Form} {x y : String} {i j : ℕ}

/-! ### Names in the terms of forms -/

namespace Search

theorem dot_indicator (v : List ℤ) (j : ℕ) :
    dot v (fun i => Term.indicator (Parameter.name j) (Parameter.name i)) = entry v j := by
  have hupdate : (fun i => Term.indicator (Parameter.name j) (Parameter.name i)) =
      Function.update (fun _ => 0) j 1 := by
    funext i
    by_cases hij : i = j
    · rw [hij, Function.update_self, Term.indicator, if_pos rfl]
    · rw [Function.update_of_ne hij, Term.indicator, if_neg fun h => hij (Parameter.name_injective h)]
  rw [hupdate, dot_update, dot_zero]
  ring

/-- The coefficient of a parameter in the term of a form is that of its index. -/
theorem total_termOf (hres : ∀ x ∈ constants, Parameter.isReserved x = false)
    (hnodup : constants.Nodup) (hf : f.constants.length ≤ constants.length) (j : ℕ) :
    (termOf constants f).total (Parameter.name j) = entry f.coefficients j := by
  have hnot : Parameter.name j ∉ constants := by
    intro hmem
    have := hres _ hmem
    rw [Parameter.isReserved_name] at this
    cases this
  rw [Term.total_eq_eval, eval_termOf hnodup hf (fun _ _ => rfl), Form.value,
    List.idxOf_eq_length hnot, entry_of_length_le hf, add_zero, dot_indicator]

theorem wellFormed_termOf (constants : List String) (f : Form) : (termOf constants f).WellFormed :=
  Term.wellFormed_ofPairs _

/-- A name in the term of a form is that of a parameter or a constant. -/
theorem mem_names_termOf (hx : x ∈ (termOf constants f).names) :
    (∃ j, x = Parameter.name j) ∨ x ∈ constants := by
  rw [(wellFormed_termOf constants f).mem_names_iff, Term.total_eq_eval, termOf, Term.eval_ofPairs,
    ← Term.totalOf_eq_sumAt] at hx
  have hmem : x ∈ (f.coefficients.mapIdx (fun j c => (Parameter.name j, c)) ++
      constants.zip f.constants).map Prod.fst := by
    by_contra hnot
    exact hx (Term.totalOf_of_not_mem hnot)
  obtain ⟨g, hg, rfl⟩ := List.mem_map.1 hmem
  rcases List.mem_append.1 hg with hg | hg
  · obtain ⟨j, hj, rfl⟩ := List.mem_mapIdx.1 hg
    exact Or.inl ⟨j, rfl⟩
  · exact Or.inr (List.of_mem_zip hg).1

/-- The parameters in the term of a form are those that it mentions. -/
theorem reserved_mem_names_termOf (hres : ∀ x ∈ constants, Parameter.isReserved x = false)
    (hnodup : constants.Nodup) (hf : f.constants.length ≤ constants.length) :
    (x ∈ (termOf constants f).names ∧ Parameter.isReserved x = true) ↔
      ∃ j, entry f.coefficients j ≠ 0 ∧ Parameter.name j = x := by
  have hiff : ∀ j, Parameter.name j ∈ (termOf constants f).names ↔ entry f.coefficients j ≠ 0 := by
    intro j
    rw [(wellFormed_termOf constants f).mem_names_iff, total_termOf hres hnodup hf]
  constructor
  · rintro ⟨hx, hxr⟩
    rcases mem_names_termOf hx with ⟨j, rfl⟩ | hxc
    · exact ⟨j, (hiff j).1 hx, rfl⟩
    · rw [hres x hxc] at hxr
      cases hxr
  · rintro ⟨j, hj, rfl⟩
    exact ⟨(hiff j).2 hj, Parameter.isReserved_name j⟩

end Search

/-! ### Counting -/

/-- The names of parameters in the terms of a substitution. -/
def Substitution.parameters (s : Substitution) : Finset String :=
  {x ∈ (s.flatMap fun t => t.term.names).toFinset | Parameter.isReserved x = true}

theorem Substitution.mem_parameters :
    x ∈ s.parameters ↔ ∃ t ∈ s, x ∈ t.term.names ∧ Parameter.isReserved x = true := by
  rw [parameters, Finset.mem_filter, List.mem_toFinset, List.mem_flatMap]
  constructor
  · rintro ⟨⟨t, ht, hx⟩, hxr⟩
    exact ⟨t, ht, hx, hxr⟩
  · rintro ⟨t, ht, hx, hxr⟩
    exact ⟨⟨t, ht, hx⟩, hxr⟩

/-- **The parameters of the bindings are those of the live indices.** -/
theorem parameters_bindings (hb : b.WellFormed)
    (hres : ∀ x ∈ b.names, Parameter.isReserved x = false)
    (hsol : sol.Exact a.coefficients b.coefficients live) :
    (Search.bindings a.names b.names sol).parameters = live.image Parameter.name := by
  have hlen : ∀ f ∈ sol, f.2.constants.length ≤ b.names.length := by
    intro f hf
    rw [← b.length_coefficients]
    exact hsol.constants f hf
  ext x
  rw [mem_parameters, Finset.mem_image]
  constructor
  · rintro ⟨t, ht, hx⟩
    obtain ⟨i, hi, rfl⟩ := List.mem_mapIdx.1 ht
    cases hform : sol.form? i with
    | none =>
      -- a name without a form is bound to the parameter of its own index
      simp only [hform] at hx
      have hxi : x = Parameter.name i := List.mem_singleton.1 hx.1
      refine ⟨i, hsol.free_iff.1 (Or.inl ⟨?_, Solution.form?_eq_none_iff.1 hform⟩), hxi.symm⟩
      rw [a.length_coefficients]
      exact hi
    | some f =>
      simp only [hform] at hx
      have hmem := Solution.mem_of_form? hform
      obtain ⟨j, hj, hjx⟩ :=
        (Search.reserved_mem_names_termOf hres hb.nodup (hlen _ hmem)).1 hx
      exact ⟨j, hsol.free_iff.1 (Or.inr ⟨_, hmem, hj⟩), hjx⟩
  · rintro ⟨j, hj, rfl⟩
    rcases hsol.free_iff.2 hj with ⟨hjn, hjk⟩ | ⟨⟨i, f⟩, hf, hfj⟩
    · rw [a.length_coefficients] at hjn
      refine ⟨_, Search.mem_bindings b.names sol hjn, ?_⟩
      rw [Solution.form?_eq_none_iff.2 hjk]
      exact ⟨List.mem_singleton.2 rfl, Parameter.isReserved_name j⟩
    · have hi : i < a.names.length := by
        rw [← a.length_coefficients]
        exact ((hsol.closed.keys_iff i).1 (List.mem_map_of_mem hf)).1
      refine ⟨_, Search.mem_bindings b.names sol hi, ?_⟩
      rw [Solution.form?_of_mem hsol.closed.nodup hf]
      exact (Search.reserved_mem_names_termOf hres hb.nodup (hlen _ hf)).2 ⟨j, hfj, rfl⟩

/-! ### Instances -/

/-- What a substitution of parameters does to the name of a constant. -/
theorem Substitution.BindsParameters.total_image (hθ : θ.BindsParameters)
    (hx : Parameter.isReserved x = false) (y : String) :
    (θ.image x).total y = Term.indicator y x := by
  rw [image_of_not_bound (hθ.not_bound hx), Term.total_eq_eval, Term.eval_var]

/-- **Equal instances are instances under equal terms for the parameters.** -/
theorem apply_name_equiv_of_bindings (ha : a.WellFormed) (hb : b.WellFormed)
    (hres : ∀ x ∈ b.names, Parameter.isReserved x = false)
    (hsol : sol.Exact a.coefficients b.coefficients live) (hθ : θ.BindsParameters)
    (hη : η.BindsParameters)
    (h : ∀ t ∈ Search.bindings a.names b.names sol, θ.apply t.term ≈ η.apply t.term) (hj : j ∈ live) :
    θ.apply (Term.var (Parameter.name j)) ≈ η.apply (Term.var (Parameter.name j)) := by
  rw [apply_equiv_iff]
  intro y
  rw [total_apply, total_apply, Term.eval_var, Term.eval_var]
  -- the coefficients of `y` in the terms for the parameters are two valuations with equal values
  refine (hsol.parametrises (b.names.idxOf y)).unique
    (fun l => (θ.image (Parameter.name l)).total y) (Set.mem_univ _)
    (fun l => (η.image (Parameter.name l)).total y) (Set.mem_univ _) (fun i hi => ?_) j hj
  rw [a.length_coefficients] at hi
  have hvalue : ∀ ζ : Substitution, ζ.BindsParameters →
      sol.value (fun l => (ζ.image (Parameter.name l)).total y) (b.names.idxOf y) i =
        (ζ.apply (Substitution.image (Search.bindings a.names b.names sol) (a.nameAt i))).total y := by
    intro ζ hζ
    rw [total_apply, eval_image_nameAt ha hb hsol (fun x hx => hζ.total_image (hres x hx) y) hi]
  have hmem := Search.mem_bindings b.names sol hi
  have himage := image_of_find?
    (find?_of_mem (by rw [Search.names_bindings]; exact ha.nodup) hmem)
  rw [hvalue θ hθ, hvalue η hη, Term.nameAt_of_lt hi, himage]
  exact apply_equiv_iff.1 (h _ hmem) y

/-- Substitutions that agree on the parameters in a term have equal instances of it. -/
theorem apply_equiv_of_parameters {t : Term} (hθ : θ.BindsParameters) (hη : η.BindsParameters)
    (h : ∀ x ∈ t.names, Parameter.isReserved x = true →
      θ.apply (Term.var x) ≈ η.apply (Term.var x)) : θ.apply t ≈ η.apply t := by
  rw [apply_equiv_iff]
  intro y
  rw [total_apply, total_apply]
  apply Term.eval_congr
  intro x hx
  cases hxr : Parameter.isReserved x with
  | true =>
    have hxy := apply_equiv_iff.1 (h x hx hxr) y
    rwa [total_apply, total_apply, Term.eval_var, Term.eval_var] at hxy
  | false => rw [hθ.total_image hxr, hη.total_image hxr]

/-- **A matcher has no redundant parameters.** It binds the names of `a`, each once; if these are `n`
names, the bindings have `n - 1` parameters; and two substitutions of parameters that differ on one of them
have different instances of some binding. (If they agree on all of them, no instance differs.) -/
theorem findMatcher_parameters (ha : a.WellFormed) (hb : b.WellFormed) (ha0 : a.isZero = false)
    (hres : ∀ x ∈ b.names, Parameter.isReserved x = false)
    (h : (findMatcher a b).answer = .ok (some μ)) :
    μ.map Binding.name = a.names ∧
    μ.parameters.card + 1 = a.names.length ∧
    (∀ x ∈ μ.parameters, ∃ j, x = Parameter.name j) ∧
    ∀ θ η : Substitution, θ.BindsParameters → η.BindsParameters →
      ((∃ x ∈ μ.parameters, ¬ θ.apply (Term.var x) ≈ η.apply (Term.var x)) ↔
        ∃ t ∈ μ, ¬ θ.apply t.term ≈ η.apply t.term) := by
  have hnames := names_of_findMatcher ha h
  rcases cases_of_findMatcher ha h with ⟨rfl, -, -⟩ | ⟨sol, live, hsol, rfl⟩
  · cases ha0
  have hparameters := parameters_bindings hb hres hsol
  have hcard : (Search.bindings a.names b.names sol).parameters.card + 1 = a.names.length := by
    rw [hparameters, Finset.card_image_of_injective _ Parameter.name_injective, hsol.card,
      a.length_coefficients]
  have hlive : ∀ x ∈ (Search.bindings a.names b.names sol).parameters,
      ∃ j ∈ live, x = Parameter.name j := by
    intro x hx
    rw [hparameters] at hx
    obtain ⟨j, hj, hjx⟩ := Finset.mem_image.1 hx
    exact ⟨j, hj, hjx.symm⟩
  refine ⟨hnames, hcard, ?_, ?_⟩
  · intro x hx
    obtain ⟨j, -, hjx⟩ := hlive x hx
    exact ⟨j, hjx⟩
  intro θ η hθ hη
  constructor
  · rintro ⟨x, hx, hdiffer⟩
    by_contra hequal
    push Not at hequal
    obtain ⟨j, hj, rfl⟩ := hlive x hx
    exact hdiffer (apply_name_equiv_of_bindings ha hb hres hsol hθ hη hequal hj)
  · rintro ⟨t, ht, hdiffer⟩
    by_contra hequal
    push Not at hequal
    exact hdiffer (apply_equiv_of_parameters hθ hη fun x hx hxr =>
      hequal x (mem_parameters.2 ⟨t, ht, hx, hxr⟩))

/-- The terms `6x + 10y + 15z` and `x + 2w`: two parameters, and a term for one of them shows. -/
theorem findMatcher_parameters_three_names :
    ∃ μ, (findMatcher ⟨[("x", 6), ("y", 10), ("z", 15)]⟩ ⟨[("x", 1), ("w", 2)]⟩).answer =
        .ok (some μ) ∧
      Term.WellFormed ⟨[("x", 6), ("y", 10), ("z", 15)]⟩ ∧ Term.WellFormed ⟨[("x", 1), ("w", 2)]⟩ ∧
      Term.isZero ⟨[("x", 6), ("y", 10), ("z", 15)]⟩ = false ∧
      (∀ x ∈ ["x", "w"], Parameter.isReserved x = false) ∧
      μ.map Binding.name = ["x", "y", "z"] ∧ μ.parameters.card + 1 = 3 ∧
      BindsParameters [⟨"g4", ⟨[("x", 1)]⟩⟩, ⟨"g7", ⟨[("x", 2)]⟩⟩] ∧
      ∃ t ∈ μ, ¬ Substitution.apply [⟨"g4", ⟨[("x", 1)]⟩⟩, ⟨"g7", ⟨[("x", 2)]⟩⟩] t.term ≈
        Substitution.apply [] t.term := by
  have ha : Term.WellFormed ⟨[("x", 6), ("y", 10), ("z", 15)]⟩ := by decide
  have hb : Term.WellFormed ⟨[("x", 1), ("w", 2)]⟩ := by decide
  have hres : ∀ x ∈ ["x", "w"], Parameter.isReserved x = false := by decide
  have h : (findMatcher ⟨[("x", 6), ("y", 10), ("z", 15)]⟩ ⟨[("x", 1), ("w", 2)]⟩).answer =
      .ok (some [⟨"x", ⟨[("g3", 5), ("g4", -5), ("x", 1), ("w", 2)]⟩⟩,
        ⟨"y", ⟨[("g4", -3), ("x", 1), ("w", 2)]⟩⟩,
        ⟨"z", ⟨[("g3", -2), ("g4", 4), ("x", -1), ("w", -2)]⟩⟩]) := by
    decide +kernel
  have hθ : BindsParameters [⟨"g4", ⟨[("x", 1)]⟩⟩, ⟨"g7", ⟨[("x", 2)]⟩⟩] := by
    intro t ht
    simp only [List.mem_cons, List.not_mem_nil, or_false] at ht
    rcases ht with rfl | rfl <;> decide
  have hη : BindsParameters [] := fun t ht => absurd ht List.not_mem_nil
  obtain ⟨hnames, hcard, -, hdiffer⟩ := findMatcher_parameters ha hb rfl hres h
  refine ⟨_, h, ha, hb, rfl, hres, hnames, hcard, hθ, (hdiffer _ _ hθ hη).1 ⟨"g4", ?_, ?_⟩⟩
  · exact mem_parameters.2 ⟨⟨"y", ⟨[("g4", -3), ("x", 1), ("w", 2)]⟩⟩, by simp, by decide, by decide⟩
  · exact fun heq => absurd (Term.equiv_iff_perm.1 heq) (by decide)

end GroupUnify
