import GroupUnify.Proofs.Term.Evaluation
import Mathlib.Data.String.Basic

/-!
# Equality of terms

Two terms are equal when their factors are the same up to order (`equiv_iff_perm`), since the canonical
order leaves no choice. Well-formed terms are equal exactly when they are the same group element, that
is, when all their coefficients agree (`equiv_iff_total`).
-/

namespace GroupUnify

/-! ### The order of factors -/

namespace Factor

variable {f g h : Factor}

theorem le_iff : Factor.le f g = true ↔ f.1 < g.1 ∨ f.1 = g.1 ∧ f.2 ≤ g.2 := by
  simp [Factor.le]

theorem le_trans (hfg : Factor.le f g = true) (hgh : Factor.le g h = true) :
    Factor.le f h = true := by
  rw [le_iff] at hfg hgh ⊢
  rcases hfg with hfg | ⟨hfg, hfg'⟩
  · rcases hgh with hgh | ⟨hgh, -⟩
    · exact Or.inl (String.lt_trans hfg hgh)
    · exact Or.inl (hgh ▸ hfg)
  · rcases hgh with hgh | ⟨hgh, hgh'⟩
    · exact Or.inl (hfg ▸ hgh)
    · exact Or.inr ⟨hfg.trans hgh, by omega⟩

theorem le_total (f g : Factor) : (Factor.le f g || Factor.le g f) = true := by
  rw [Bool.or_eq_true, le_iff, le_iff]
  rcases lt_trichotomy f.1 g.1 with hlt | heq | hlt
  · exact Or.inl (Or.inl hlt)
  · rcases Int.le_total f.2 g.2 with hle | hle
    · exact Or.inl (Or.inr ⟨heq, hle⟩)
    · exact Or.inr (Or.inr ⟨heq.symm, hle⟩)
  · exact Or.inr (Or.inl hlt)

theorem le_antisymm (hfg : Factor.le f g = true) (hgf : Factor.le g f = true) : f = g := by
  rw [le_iff] at hfg hgf
  rcases hfg with hfg | ⟨hfg, hfg'⟩
  · rcases hgf with hgf | ⟨hgf, -⟩
    · exact absurd (String.lt_trans hfg hgf) (String.lt_irrefl _)
    · rw [hgf] at hfg
      exact absurd hfg (String.lt_irrefl _)
  · rcases hgf with hgf | ⟨-, hgf'⟩
    · rw [hfg] at hgf
      exact absurd hgf (String.lt_irrefl _)
    · exact Prod.ext hfg (by omega)

end Factor

namespace Term

variable {a b t : Term} {x : String} {c : ℤ}

theorem pairwise_mergeSort (fs : List Factor) :
    (fs.mergeSort Factor.le).Pairwise fun f g => Factor.le f g = true := by
  apply List.pairwise_mergeSort
  · intro f g h
    exact Factor.le_trans
  · exact Factor.le_total

/-- **Equality ignores the order of the factors and nothing else.** -/
theorem equiv_iff_perm : a ≈ b ↔ a.factors.Perm b.factors := by
  have ha := List.mergeSort_perm a.factors Factor.le
  have hb := List.mergeSort_perm b.factors Factor.le
  constructor
  · intro h
    have heq : a.factors.mergeSort Factor.le = b.factors.mergeSort Factor.le :=
      congrArg factors h
    rw [heq] at ha
    exact ha.symm.trans hb
  · -- lists in order with the same elements are the same list
    intro h
    have heq : a.factors.mergeSort Factor.le = b.factors.mergeSort Factor.le :=
      List.Perm.eq_of_pairwise (fun _ _ _ _ => Factor.le_antisymm) (pairwise_mergeSort a.factors)
        (pairwise_mergeSort b.factors) (ha.trans (h.trans hb.symm))
    exact congrArg Term.mk heq

/-- The canonical form is the same group element. -/
theorem canonical_equiv (t : Term) : t.canonical ≈ t :=
  equiv_iff_perm.2 (List.mergeSort_perm t.factors Factor.le)

theorem canonical_canonical (t : Term) : t.canonical.canonical = t.canonical := canonical_equiv t

/-- Factors in order are the canonical form of every term that has them. -/
theorem canonical_eq_of_pairwise {fs : List Factor} (hperm : t.factors.Perm fs)
    (hfs : fs.Pairwise fun f g => Factor.le f g = true) : t.canonical = ⟨fs⟩ := by
  have hsorted := List.mergeSort_perm t.factors Factor.le
  exact congrArg Term.mk (List.Perm.eq_of_pairwise (fun _ _ _ _ => Factor.le_antisymm)
    (pairwise_mergeSort t.factors) hfs (hsorted.trans hperm))

theorem WellFormed.canonical (h : t.WellFormed) : t.canonical.WellFormed := by
  have hperm := List.mergeSort_perm t.factors Factor.le
  exact ⟨(hperm.map Prod.fst).nodup_iff.2 h.nodup, fun f hf => h.nonzero f (hperm.mem_iff.1 hf)⟩

theorem eval_eq_of_equiv (h : a ≈ b) (v : String → ℤ) : a.eval v = b.eval v :=
  sumAt_perm (equiv_iff_perm.1 h)

/-! ### Coefficients of well-formed terms -/

theorem totalOf_of_not_mem {fs : List Factor} (h : x ∉ fs.map Prod.fst) : totalOf x fs = 0 := by
  induction fs with
  | nil => rfl
  | cons f fs ih =>
    rw [List.map_cons, List.mem_cons, not_or] at h
    rw [totalOf, if_neg (Ne.symm h.1), ih h.2, add_zero]

/-- The factors of a well-formed term are its non-zero coefficients. -/
theorem WellFormed.mem_iff (h : t.WellFormed) :
    (x, c) ∈ t.factors ↔ c ≠ 0 ∧ t.total x = c := by
  obtain ⟨fs⟩ := t
  rw [total]
  induction fs with
  | nil => simp [totalOf]; omega
  | cons f fs ih =>
    obtain ⟨hf, hf0, hfs⟩ := wellFormed_cons.1 h
    rw [List.mem_cons, ih hfs, totalOf]
    by_cases hfx : f.1 = x
    · rw [if_pos hfx, totalOf_of_not_mem (hfx ▸ hf)]
      constructor
      · rintro (heq | ⟨hc, h0⟩)
        · rw [← heq] at hf0 ⊢
          exact ⟨hf0, by simp⟩
        · exact absurd h0.symm hc
      · rintro ⟨-, hsum⟩
        exact Or.inl (Prod.ext hfx.symm (by simpa using hsum.symm))
    · rw [if_neg hfx, zero_add]
      constructor
      · rintro (heq | hmem)
        · exact absurd (by rw [← heq]) hfx
        · exact hmem
      · exact Or.inr

/-- **Well-formed terms are equal when their coefficients are.** -/
theorem equiv_iff_total (ha : a.WellFormed) (hb : b.WellFormed) :
    a ≈ b ↔ ∀ x, a.total x = b.total x := by
  constructor
  · intro h x
    rw [total_eq_eval, total_eq_eval, eval_eq_of_equiv h]
  · intro h
    rw [equiv_iff_perm]
    refine (List.perm_ext_iff_of_nodup ha.nodup.of_map hb.nodup.of_map).2 ?_
    rintro ⟨x, c⟩
    rw [ha.mem_iff, hb.mem_iff, h x]

/-- Well-formed terms are equal when they have the same value under every valuation of the names. -/
theorem equiv_iff_eval (ha : a.WellFormed) (hb : b.WellFormed) :
    a ≈ b ↔ ∀ v : String → ℤ, a.eval v = b.eval v := by
  constructor
  · exact eval_eq_of_equiv
  · intro h
    rw [equiv_iff_total ha hb]
    intro x
    rw [total_eq_eval, h, total_eq_eval]

/-- A name of a well-formed term is one with a coefficient. -/
theorem WellFormed.mem_names_iff (h : t.WellFormed) : x ∈ t.names ↔ t.total x ≠ 0 := by
  constructor
  · intro hx
    obtain ⟨f, hf, rfl⟩ := List.mem_map.1 hx
    obtain ⟨hf0, hft⟩ := h.mem_iff.1 hf
    rw [hft]
    exact hf0
  · intro hx
    exact List.mem_map.2 ⟨(x, t.total x), h.mem_iff.2 ⟨hx, rfl⟩, rfl⟩

theorem WellFormed.coefficient_eq_total (h : t.WellFormed) (x : String) :
    t.coefficient x = t.total x := by
  rw [coefficient]
  cases hl : t.factors.lookup x with
  | none =>
    have hx : x ∉ t.names := by
      intro hx
      obtain ⟨f, hf, rfl⟩ := List.mem_map.1 hx
      have hne := List.lookup_eq_none_iff.1 hl f hf
      simp at hne
    rw [h.mem_names_iff] at hx
    push Not at hx
    exact hx.symm
  | some c =>
    obtain ⟨l, r, hlr, -⟩ := List.lookup_eq_some_iff.1 hl
    have hmem : (x, c) ∈ t.factors := by rw [hlr]; simp
    exact (h.mem_iff.1 hmem).2.symm

end Term

end GroupUnify
