import GroupUnify.Proofs.Expression.Names
import GroupUnify.Proofs.Term.Order
import GroupUnify.Proofs.Unification.Parameters

/-!
# Parameters are fresh

No name that is read from a text is reserved, and all names of parameters are. So the terms of a unifier
share no name with the names that it binds, and applying it twice is applying it once, in the stored
factors too: nothing in a result is bound any more, and a well-formed term without a bound name is rebuilt
factor by factor (`Substitution.apply_of_not_bound`). A parameter whose index is that of an unknown stands
for this unknown. It occurs only if the index is live, and then the unknown has no form
(`Search.inPlace_bindings`).

* `fresh_of_parse`: names and parameters, from the text to the two results.
-/

namespace GroupUnify

open Diophantine

variable {a b t : Term} {s μ : Substitution} {unknowns constants : List String} {sol : Solution}
  {live : Finset ℕ} {x y : String} {text : String} {e : Equation}

/-! ### Applying a substitution twice -/

namespace Term

theorem mem_names_of_sub (ha : a.WellFormed) (h : x ∈ (a + -b).names) :
    x ∈ a.names ∨ x ∈ b.names := by
  by_contra hnone
  rw [not_or] at hnone
  rw [(ha.add (-b)).mem_names_iff, total_sub ha, total, total, totalOf_of_not_mem hnone.1,
    totalOf_of_not_mem hnone.2] at h
  exact h rfl

end Term

namespace Substitution

/-- **A well-formed term without bound names stays**, factor by factor. -/
theorem apply_of_not_bound (ht : t.WellFormed) (h : ∀ x ∈ t.names, x ∉ s.map Binding.name) :
    s.apply t = t :=
  Term.bind_of_var ht fun x hx => image_of_not_bound (h x hx)

theorem exists_mem_of_find? (h : s.find? y = some t) : ∃ r ∈ s, r.term = t := by
  induction s with
  | nil => cases h
  | cons r s ih =>
    rw [find?, Option.or_eq_some_iff] at h
    rcases h with h | ⟨-, h⟩
    · obtain ⟨r', hr', hterm⟩ := ih h
      exact ⟨r', List.mem_cons_of_mem _ hr', hterm⟩
    · split at h
      · exact ⟨r, List.mem_cons_self, Option.some.inj h⟩
      · cases h

/-- A name that is put in comes from a binding, or it stands there because it is not bound. -/
theorem mem_names_image (hx : x ∈ (s.image y).names) :
    (∃ r ∈ s, x ∈ r.term.names) ∨ x ∉ s.map Binding.name := by
  cases hy : s.find? y with
  | some t =>
    obtain ⟨r, hr, rfl⟩ := exists_mem_of_find? hy
    rw [image_of_find? hy] at hx
    exact Or.inl ⟨r, hr, hx⟩
  | none =>
    rw [find?_eq_none_iff] at hy
    rw [image_of_not_bound hy] at hx
    rw [List.mem_singleton.1 hx]
    exact Or.inr hy

/-- A name of a result is one of some name's image. -/
theorem mem_names_apply (hx : x ∈ (s.apply t).names) : ∃ y ∈ t.names, x ∈ (s.image y).names := by
  by_contra hnone
  push Not at hnone
  have hzero : ∀ y ∈ t.names, (s.image y).total x = 0 :=
    fun y hy => Term.totalOf_of_not_mem (hnone y hy)
  rw [(wellFormed_apply s t).mem_names_iff, total_apply, Term.eval_congr hzero,
    Term.eval_zero_valuation] at hx
  exact hx rfl

/-- **Twice is once** if no term that is put in mentions a bound name. -/
theorem apply_apply_self (h : ∀ r ∈ s, ∀ x ∈ r.term.names, x ∉ s.map Binding.name) (t : Term) :
    s.apply (s.apply t) = s.apply t := by
  apply apply_of_not_bound (wellFormed_apply s t)
  intro x hx
  obtain ⟨y, -, hxy⟩ := mem_names_apply hx
  rcases mem_names_image hxy with ⟨r, hr, hxr⟩ | hx
  · exact h r hr x hxr
  · exact hx

/-- A parameter with the number of a binding occurs only if this binding puts in the parameter itself. -/
def InPlace (s : Substitution) : Prop :=
  ∀ j, ∀ hj : j < s.length, (∃ r ∈ s, Parameter.name j ∈ r.term.names) →
    s[j].term = Term.var (Parameter.name j)

end Substitution

/-! ### The bindings that are found -/

namespace Search

/-- The names that are put in are those of parameters and constants. -/
theorem mem_names_of_mem_bindings {r : Binding} (hr : r ∈ bindings unknowns constants sol)
    (hx : x ∈ r.term.names) : (∃ j, x = Parameter.name j) ∨ x ∈ constants := by
  obtain ⟨i, hi, rfl⟩ := List.mem_mapIdx.1 hr
  cases hform : sol.form? i with
  | none =>
    simp only [hform] at hx
    exact Or.inl ⟨i, List.mem_singleton.1 hx⟩
  | some f =>
    simp only [hform] at hx
    exact mem_names_termOf hx

theorem inPlace_bindings (hb : b.WellFormed) (hres : ∀ x ∈ b.names, Parameter.isReserved x = false)
    (hsol : sol.Exact a.coefficients b.coefficients live) :
    (bindings a.names b.names sol).InPlace := by
  intro j hj hoccurs
  obtain ⟨r, hr, hjr⟩ := hoccurs
  have hparameter : Parameter.name j ∈ (bindings a.names b.names sol).parameters :=
    Substitution.mem_parameters.2 ⟨r, hr, hjr, Parameter.isReserved_name j⟩
  rw [parameters_bindings hb hres hsol, Finset.mem_image] at hparameter
  obtain ⟨i, hi, hij⟩ := hparameter
  rw [Parameter.name_injective hij] at hi
  -- a live index is not a key, so the unknown with this index has no form
  have hkey : j ∉ sol.keys := fun hkey => ((hsol.closed.keys_iff j).1 hkey).2 hi
  have hform : sol.form? j = none := Solution.form?_eq_none_iff.2 hkey
  simp only [bindings, List.getElem_mapIdx, hform]

end Search

/-- What is found puts in parameters and names of `b`, and keeps parameters in place. -/
theorem names_in_findMatcher (ha : a.WellFormed) (hb : b.WellFormed)
    (hres : ∀ x ∈ b.names, Parameter.isReserved x = false)
    (h : (findMatcher a b).answer = .ok (some μ)) :
    (∀ r ∈ μ, ∀ x ∈ r.term.names, (∃ j, x = Parameter.name j) ∨ x ∈ b.names) ∧ μ.InPlace := by
  rcases cases_of_findMatcher ha h with ⟨-, -, rfl⟩ | ⟨sol, live, hsol, rfl⟩
  · exact ⟨fun r hr => absurd hr List.not_mem_nil, fun j hj => absurd hj (Nat.not_lt_zero j)⟩
  · exact ⟨fun r hr x hx => Search.mem_names_of_mem_bindings hr hx,
      Search.inPlace_bindings hb hres hsol⟩

/-- **Parameters are fresh, from the text to the result.** If a text is read as an equation, its names are
identifiers of the text and none is reserved, so none is the name of a parameter. A unifier is found; it
binds the names of `left - right`, its terms mention parameters only, and applying it twice gives the very
term that applying it once gives. A matcher that is found mentions parameters and names of the right side.
In both a parameter with the number of a binding occurs only if this binding puts in the parameter itself. -/
theorem fresh_of_parse [CallStack] (h : Equation.parse text = .ok e) :
    (∀ x, x ∈ e.left.names ∨ x ∈ e.right.names →
      Parameter.isReserved x = false ∧ .identifier x ∈ Token.ofString text ∧
        ∀ j, x ≠ Parameter.name j) ∧
    (∃ σ, (findUnifier e.left e.right).answer = .ok (some σ) ∧
      σ.map Binding.name = (e.left + -e.right).names ∧
      (∀ r ∈ σ, ∀ x ∈ r.term.names, ∃ j, x = Parameter.name j) ∧ σ.InPlace ∧
      ∀ t, σ.apply (σ.apply t) = σ.apply t) ∧
    ∀ μ, (findMatcher e.left e.right).answer = .ok (some μ) →
      μ.map Binding.name = e.left.names ∧
      (∀ r ∈ μ, ∀ x ∈ r.term.names, (∃ j, x = Parameter.name j) ∨ x ∈ e.right.names) ∧
      μ.InPlace := by
  obtain ⟨hleft, hright⟩ := Equation.wellFormed_of_parse h
  have hsub := hleft.add (-e.right)
  have hnames : ∀ x, x ∈ e.left.names ∨ x ∈ e.right.names →
      Parameter.isReserved x = false ∧ .identifier x ∈ Token.ofString text :=
    fun x hx => Equation.names_of_parse h hx
  have hfree : ∀ x, Parameter.isReserved x = false → ∀ j, x ≠ Parameter.name j := by
    rintro x hx j rfl
    rw [Parameter.isReserved_name] at hx
    cases hx
  refine ⟨fun x hx => ?_, ?_, fun μ hμ => ?_⟩
  · obtain ⟨hres, hmem⟩ := hnames x hx
    exact ⟨hres, hmem, hfree x hres⟩
  · obtain ⟨σ, hσ⟩ := exists_findUnifier hleft e.right
    have hbound : σ.map Binding.name = (e.left + -e.right).names := names_of_findMatcher hsub hσ
    obtain ⟨hmention, hplace⟩ := names_in_findMatcher hsub Term.wellFormed_zero
      (fun x hx => absurd hx List.not_mem_nil) hσ
    have hparameter : ∀ r ∈ σ, ∀ x ∈ r.term.names, ∃ j, x = Parameter.name j := by
      intro r hr x hx
      rcases hmention r hr x hx with hj | hx
      · exact hj
      · exact absurd hx List.not_mem_nil
    refine ⟨σ, hσ, hbound, hparameter, hplace, Substitution.apply_apply_self fun r hr x hx => ?_⟩
    obtain ⟨j, rfl⟩ := hparameter r hr x hx
    intro hmem
    rw [hbound] at hmem
    -- the names that are bound are names of the text
    have hside : Parameter.name j ∈ e.left.names ∨ Parameter.name j ∈ e.right.names :=
      Term.mem_names_of_sub hleft hmem
    exact hfree _ (hnames _ hside).1 j rfl
  · obtain ⟨hmention, hplace⟩ := names_in_findMatcher hleft hright
      (fun x hx => (hnames x (Or.inr hx)).1) hμ
    exact ⟨names_of_findMatcher hleft hμ, hmention, hplace⟩

/-- Four names; the unifier binds `z` to `4g0 + 5g1 - 10g3` and each other name to its own parameter. -/
theorem fresh_of_parse_four_names :
    Equation.parse "4x + 6y - z = 10w + y" =
      .ok ⟨⟨[("x", 4), ("y", 6), ("z", -1)]⟩, ⟨[("w", 10), ("y", 1)]⟩⟩ ∧
    (∀ x ∈ ["x", "y", "z", "w"], Parameter.isReserved x = false ∧
      .identifier x ∈ Token.ofString "4x + 6y - z = 10w + y" ∧ ∀ j, x ≠ Parameter.name j) ∧
    ∃ σ, (findUnifier ⟨[("x", 4), ("y", 6), ("z", -1)]⟩ ⟨[("w", 10), ("y", 1)]⟩).answer =
        .ok (some σ) ∧ σ.InPlace ∧
      σ.apply (σ.apply ⟨[("z", 3), ("v", 1)]⟩) = σ.apply ⟨[("z", 3), ("v", 1)]⟩ := by
  have h : Equation.parse "4x + 6y - z = 10w + y" =
      .ok ⟨⟨[("x", 4), ("y", 6), ("z", -1)]⟩, ⟨[("w", 10), ("y", 1)]⟩⟩ := by decide +kernel
  have hsides : ∀ x ∈ ["x", "y", "z", "w"], x ∈ ["x", "y", "z"] ∨ x ∈ ["w", "y"] := by decide
  obtain ⟨hnames, ⟨σ, hσ, -, -, hplace, htwice⟩, -⟩ := fresh_of_parse h
  exact ⟨h, fun x hx => hnames x (hsides x hx), σ, hσ, hplace, htwice _⟩

end GroupUnify
