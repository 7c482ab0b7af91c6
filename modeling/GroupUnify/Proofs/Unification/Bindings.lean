import GroupUnify.Proofs.Diophantine.Parametrisation
import GroupUnify.Proofs.Term.Substitution
import GroupUnify.Unification
import Std.Data.String.ToNat

/-!
# Bindings read off a solution

The coefficients of a term are the equation that the solver gets, and its names number the unknowns.
A valuation of names that counts each constant name for itself makes the binding of an unknown take
the value that the solution gives the unknown (`eval_image_bindings`); the valuation of the solution's
indices is that of the parameter names. So the solver's exactness carries over to terms
(`eval_apply_bindings`).

* `Parameter.name_injective`, `Parameter.isReserved_name`: parameters have names of their own.
-/

namespace GroupUnify

open Diophantine

theorem Parameter.name_injective : Function.Injective Parameter.name := by
  intro i j h
  have hlist := congrArg String.toList h
  simp only [Parameter.name, String.toList_append, String.toList_singleton, List.cons_append,
    List.nil_append, List.cons.injEq, true_and] at hlist
  exact Nat.repr_injective (String.toList_inj.1 hlist)

theorem Parameter.isReserved_name (j : ℕ) : Parameter.isReserved (Parameter.name j) = true := by
  simp [Parameter.isReserved, Parameter.name]

namespace Term

variable {t : Term} {v : String → ℤ} {x y : String}

/-- The coefficients in stored order: the equation that a term stands for. -/
def coefficients (t : Term) : List ℤ := t.factors.map Prod.snd

/-- The name with number `i`. -/
def nameAt (t : Term) (i : ℕ) : String := t.names.getD i ""

theorem length_coefficients (t : Term) : t.coefficients.length = t.names.length := by
  rw [coefficients, names, List.length_map, List.length_map]

theorem sumAt_eq_dot (v : String → ℤ) (fs : List Factor) :
    sumAt v fs = dot (fs.map Prod.snd) fun i => v ((fs.map Prod.fst).getD i "") := by
  induction fs with
  | nil => rfl
  | cons f fs ih => rw [sumAt, ih]; rfl

/-- **The value of a term is that of its coefficients** at the values of its names. -/
theorem eval_eq_dot (v : String → ℤ) (t : Term) :
    t.eval v = dot t.coefficients fun i => v (t.nameAt i) :=
  sumAt_eq_dot v t.factors

theorem nameAt_of_lt {i : ℕ} (hi : i < t.names.length) : t.nameAt i = t.names[i] := by
  rw [nameAt, List.getD_eq_getElem?_getD, List.getElem?_eq_getElem hi, Option.getD_some]

theorem nameAt_mem {i : ℕ} (hi : i < t.names.length) : t.nameAt i ∈ t.names := by
  rw [nameAt_of_lt hi]
  exact List.getElem_mem hi

theorem totalOf_eq_entry (y : String) (fs : List Factor) (h : (fs.map Prod.fst).Nodup) :
    totalOf y fs = entry (fs.map Prod.snd) ((fs.map Prod.fst).idxOf y) := by
  induction fs with
  | nil => rfl
  | cons f fs ih =>
    obtain ⟨hf, hfs⟩ := List.nodup_cons.1 h
    rw [totalOf, List.map_cons, List.map_cons]
    -- a name found at the head does not come again
    by_cases hfy : f.1 = y
    · rw [if_pos hfy, totalOf_of_not_mem (hfy ▸ hf), List.idxOf_cons_eq _ hfy, entry_cons_zero,
        add_zero]
    · rw [if_neg hfy, zero_add, ih hfs, List.idxOf_cons_ne _ hfy, entry_cons_succ]

/-- The right hand side for a name is its coefficient; a name that does not occur has a number beyond
the last. -/
theorem WellFormed.total_eq_entry (h : t.WellFormed) (y : String) :
    t.total y = entry t.coefficients (t.names.idxOf y) :=
  totalOf_eq_entry y t.factors h.nodup

/-- A term that is not the identity gives an equation with a non-zero coefficient. -/
theorem WellFormed.exists_coefficient (h : t.WellFormed) (ht : t.isZero = false) :
    ∃ z ∈ t.coefficients, z ≠ 0 := by
  obtain ⟨fs⟩ := t
  cases fs with
  | nil => cases ht
  | cons f fs => exact ⟨f.2, List.mem_cons_self, h.nonzero f List.mem_cons_self⟩

theorem isZero_iff : t.isZero = true ↔ t = 0 := by
  obtain ⟨fs⟩ := t
  rw [isZero, List.isEmpty_iff]
  constructor
  · rintro rfl; rfl
  · exact congrArg factors

end Term

namespace Search

variable {unknowns constants : List String} {v : String → ℤ} {x y : String} {i : ℕ}

theorem names_bindings (unknowns constants : List String) (sol : Solution) :
    (bindings unknowns constants sol).map Binding.name = unknowns := by
  apply List.ext_getElem
  · simp [bindings]
  · intro i h h'
    simp [bindings]

theorem mem_bindings (constants : List String) (sol : Solution) (hi : i < unknowns.length) :
    ⟨unknowns[i], (sol.form? i).elim (Term.var (Parameter.name i)) (termOf constants)⟩ ∈
      bindings unknowns constants sol := by
  rw [bindings, List.mem_mapIdx]
  refine ⟨i, hi, ?_⟩
  cases sol.form? i with
  | none => rfl
  | some f => rfl

theorem sumAt_mapIdx (v : String → ℤ) (z : List ℤ) : ∀ name : ℕ → String,
    Term.sumAt v (z.mapIdx fun j c => (name j, c)) = dot z fun j => v (name j) := by
  induction z with
  | nil => intro name; rfl
  | cons c z ih =>
    intro name
    rw [List.mapIdx_cons, Term.sumAt, ih fun j => name (j + 1)]
    rfl

/-- Constants count for the name `y` if the valuation counts it among the constant names. -/
theorem sumAt_zip (y : String) : ∀ {constants : List String} {z : List ℤ}, constants.Nodup →
    z.length ≤ constants.length → (∀ x ∈ constants, v x = Term.indicator y x) →
      Term.sumAt v (constants.zip z) = entry z (constants.idxOf y) := by
  intro constants
  induction constants with
  | nil =>
    intro z _ hz _
    rw [List.eq_nil_of_length_eq_zero (Nat.le_zero.1 hz)]
    rfl
  | cons x xs ih =>
    intro z hnodup hz hv
    obtain ⟨hx, hxs⟩ := List.nodup_cons.1 hnodup
    cases z with
    | nil => rfl
    | cons c z =>
      have hrest := ih (z := z) hxs (by simpa using hz)
        (fun x hx => hv x (List.mem_cons_of_mem _ hx))
      rw [List.zip_cons_cons, Term.sumAt, hv x List.mem_cons_self, hrest, Term.indicator]
      by_cases hxy : x = y
      · subst hxy
        rw [List.idxOf_eq_length hx, entry_of_length_le (by simpa using hz), if_pos rfl,
          List.idxOf_cons_self, entry_cons_zero]
        ring
      · rw [if_neg hxy, List.idxOf_cons_ne _ hxy, entry_cons_succ]
        ring

/-- The value of the term of a form is that of the form. -/
theorem eval_termOf {f : Form} (hnodup : constants.Nodup)
    (hf : f.constants.length ≤ constants.length)
    (hv : ∀ x ∈ constants, v x = Term.indicator y x) :
    (termOf constants f).eval v =
      f.value (fun j => v (Parameter.name j)) (constants.idxOf y) := by
  rw [termOf, Term.eval_ofPairs, Term.sumAt_append, sumAt_mapIdx, sumAt_zip y hnodup hf hv]
  rfl

/-- **The value of a binding is that of its unknown.** -/
theorem eval_image_bindings {sol : Solution} (hunknowns : unknowns.Nodup)
    (hnodup : constants.Nodup) (hsol : ∀ f ∈ sol, f.2.constants.length ≤ constants.length)
    (hv : ∀ x ∈ constants, v x = Term.indicator y x) (hi : i < unknowns.length) :
    (Substitution.image (bindings unknowns constants sol) unknowns[i]).eval v =
      sol.value (fun j => v (Parameter.name j)) (constants.idxOf y) i := by
  have hfind := Substitution.find?_of_mem (by rw [names_bindings]; exact hunknowns)
    (mem_bindings constants sol hi)
  rw [Substitution.image_of_find? hfind]
  cases hform : sol.form? i with
  | none =>
    rw [Solution.value_of_not_mem (Solution.form?_eq_none_iff.1 hform)]
    exact Term.eval_var v _
  | some f =>
    rw [Solution.value_of_form? hform]
    exact eval_termOf hnodup (hsol _ (Solution.mem_of_form? hform)) hv

end Search

namespace Substitution

variable {a b : Term} {v : String → ℤ} {s θ : Substitution} {x y : String}

/-- Only parameters are bound. -/
def BindsParameters (θ : Substitution) : Prop := ∀ t ∈ θ, Parameter.isReserved t.name = true

theorem BindsParameters.not_bound (h : θ.BindsParameters) (hx : Parameter.isReserved x = false) :
    x ∉ θ.map Binding.name := by
  intro hmem
  obtain ⟨t, ht, rfl⟩ := List.mem_map.1 hmem
  rw [h t ht] at hx
  cases hx

/-- The coefficient of `y` in a result, by the equation of the term. -/
theorem total_apply_eq_dot (s : Substitution) (a : Term) (y : String) :
    (s.apply a).total y = dot a.coefficients fun i => (s.image (a.nameAt i)).total y := by
  rw [total_apply, Term.eval_eq_dot]

variable {sol : Solution} {live : Finset ℕ} {i : ℕ}

/-- The image of a name of `a` under the bindings of an exact solution. -/
theorem eval_image_nameAt (ha : a.WellFormed) (hb : b.WellFormed)
    (hsol : sol.Exact a.coefficients b.coefficients live)
    (hv : ∀ x ∈ b.names, v x = Term.indicator y x) (hi : i < a.names.length) :
    (Substitution.image (Search.bindings a.names b.names sol) (a.nameAt i)).eval v =
      sol.value (fun j => v (Parameter.name j)) (b.names.idxOf y) i := by
  have hlen : ∀ f ∈ sol, f.2.constants.length ≤ b.names.length := by
    intro f hf
    rw [← b.length_coefficients]
    exact hsol.constants f hf
  rw [Term.nameAt_of_lt hi]
  exact Search.eval_image_bindings ha.nodup hb.nodup hlen hv hi

/-- **Applied to its term, an exact solution gives the right hand side** for every name. -/
theorem eval_apply_bindings (ha : a.WellFormed) (hb : b.WellFormed)
    (hsol : sol.Exact a.coefficients b.coefficients live)
    (hv : ∀ x ∈ b.names, v x = Term.indicator y x) :
    (Substitution.apply (Search.bindings a.names b.names sol) a).eval v = b.total y := by
  rw [eval_apply, Term.eval_eq_dot, hb.total_eq_entry,
    ← (hsol.parametrises (b.names.idxOf y)).sound (fun j => v (Parameter.name j)) (Set.mem_univ _)]
  apply dot_congr_of_lt
  intro i hi
  rw [a.length_coefficients] at hi
  exact eval_image_nameAt ha hb hsol hv hi

end Substitution

end GroupUnify
