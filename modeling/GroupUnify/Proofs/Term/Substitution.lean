import GroupUnify.Proofs.Term.Equality

/-!
# Substitutions as homomorphisms

What a substitution does to a term follows from the images of the names: the value of the result is the
value of the term under the valuation of the images (`eval_apply`). So substitutions respect equality,
and one that agrees with another on the names of a term agrees with it on the term
(`apply_apply_equiv`).
-/

namespace GroupUnify.Substitution

variable {s r σ θ : Substitution} {a b t : Term} {x y : String} {v : String → ℤ}

/-- All terms put in are well-formed. -/
def WellFormed (s : Substitution) : Prop := ∀ b ∈ s, b.term.WellFormed

/-- On the names `xs`, doing `σ` and then `θ` is doing `s`. -/
def YieldsOn (σ θ : Substitution) (xs : List String) (s : Substitution) : Prop :=
  ∀ x ∈ xs, θ.apply (σ.apply (Term.var x)) ≈ s.apply (Term.var x)

/-! ### Images of names -/

theorem find?_append (s r : Substitution) (x : String) :
    find? x (s ++ r) = (find? x r).or (find? x s) := by
  induction s with
  | nil => simp [find?]
  | cons b s ih => rw [List.cons_append, find?, find?, ih, Option.or_assoc]

theorem find?_eq_none_iff : find? x s = none ↔ x ∉ s.map Binding.name := by
  induction s with
  | nil => simp [find?]
  | cons b s ih =>
    rw [find?, Option.or_eq_none_iff, ih, List.map_cons, List.mem_cons, not_or]
    by_cases hb : b.name = x
    · simp [hb]
    · simp [hb, Ne.symm hb]

theorem find?_of_mem (hs : (s.map Binding.name).Nodup) {b : Binding} (hb : b ∈ s) :
    find? b.name s = some b.term := by
  induction s with
  | nil => exact absurd hb List.not_mem_nil
  | cons b' s ih =>
    obtain ⟨hnew, hs⟩ := List.nodup_cons.1 hs
    rw [find?]
    rcases List.mem_cons.1 hb with rfl | hb
    · rw [find?_eq_none_iff.2 hnew, Option.none_or, if_pos rfl]
    · rw [ih hs hb, Option.some_or]

/-- Look-up among bindings of distinct names `f i`. -/
theorem find?_map {ι : Type} [DecidableEq ι] {f : ι → String} (hf : Function.Injective f)
    (g : ι → Term) (is : List ι) (i : ι) :
    find? (f i) (is.map fun i => ⟨f i, g i⟩) = if i ∈ is then some (g i) else none := by
  induction is with
  | nil => simp [find?]
  | cons j is ih =>
    rw [List.map_cons, find?, ih]
    by_cases hi : i ∈ is
    · rw [if_pos hi, if_pos (List.mem_cons_of_mem _ hi), Option.some_or]
    · rw [if_neg hi, Option.none_or]
      by_cases hij : j = i
      · rw [if_pos (congrArg f hij), if_pos (by simp [hij]), hij]
      · rw [if_neg (fun h => hij (hf h)), if_neg]
        rw [List.mem_cons, not_or]
        exact ⟨Ne.symm hij, hi⟩

theorem find?_map_names (g : String → Term) {xs : List String} (hx : x ∈ xs) :
    find? x (xs.map fun x => ⟨x, g x⟩) = some (g x) := by
  have h := find?_map Function.injective_id g xs x
  rw [if_pos hx] at h
  exact h

theorem image_of_find? (h : find? x s = some t) : s.image x = t := by
  rw [image, h, Option.getD_some]

theorem image_of_not_bound (h : x ∉ s.map Binding.name) : s.image x = Term.var x := by
  rw [image, find?_eq_none_iff.2 h, Option.getD_none]

theorem find?_instantiate (s r : Substitution) (x : String) :
    find? x (s.instantiate r) = (find? x s).map r.apply := by
  induction s with
  | nil => rfl
  | cons b s ih =>
    rw [instantiate] at ih ⊢
    rw [List.map_cons, find?, find?, ih]
    -- a later binding wins on both sides, else the one at the head does
    cases find? x s with
    | some t => rfl
    | none =>
      by_cases hb : b.name = x
      · simp [hb]
      · simp [hb]

theorem image_instantiate (r : Substitution) (hx : x ∈ s.map Binding.name) :
    (s.instantiate r).image x = r.apply (s.image x) := by
  have hfind := find?_instantiate s r x
  cases hs : find? x s with
  | none => exact absurd hx (find?_eq_none_iff.1 hs)
  | some t =>
    rw [hs, Option.map_some] at hfind
    rw [image_of_find? hfind, image_of_find? hs]

/-! ### Values of results -/

theorem wellFormed_apply (s : Substitution) (t : Term) : (s.apply t).WellFormed :=
  Term.wellFormed_bind t s.image

theorem eval_apply (v : String → ℤ) (s : Substitution) (t : Term) :
    (s.apply t).eval v = t.eval fun x => (s.image x).eval v :=
  Term.eval_bind v t s.image

theorem total_apply (s : Substitution) (t : Term) (y : String) :
    (s.apply t).total y = t.eval fun x => (s.image x).total y := by
  rw [Term.total_eq_eval, eval_apply]
  exact Term.eval_congr fun x _ => (Term.total_eq_eval _ y).symm

theorem total_apply_apply (θ σ : Substitution) (t : Term) (y : String) :
    (θ.apply (σ.apply t)).total y =
      t.eval fun x => (σ.image x).eval fun z => (θ.image z).total y := by
  rw [total_apply, eval_apply]

/-- Results are equal when their coefficients are, whatever the terms put in. -/
theorem apply_equiv_iff : s.apply a ≈ r.apply b ↔ ∀ y, (s.apply a).total y = (r.apply b).total y :=
  Term.equiv_iff_total (wellFormed_apply s a) (wellFormed_apply r b)

theorem apply_equiv_of_equiv (s : Substitution) (h : a ≈ b) : s.apply a ≈ s.apply b := by
  rw [apply_equiv_iff]
  intro y
  rw [total_apply, total_apply, Term.eval_eq_of_equiv h]

/-- **Agreement on names is agreement on terms.** -/
theorem apply_apply_equiv (h : σ.YieldsOn θ t.names s) : θ.apply (σ.apply t) ≈ s.apply t := by
  rw [apply_equiv_iff]
  intro y
  rw [total_apply_apply, total_apply]
  apply Term.eval_congr
  intro x hx
  have hxy := apply_equiv_iff.1 (h x hx) y
  rw [total_apply_apply, total_apply, Term.eval_var, Term.eval_var] at hxy
  exact hxy

end GroupUnify.Substitution
