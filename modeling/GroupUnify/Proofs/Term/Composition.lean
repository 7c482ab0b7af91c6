import GroupUnify.Proofs.Term.Group
import GroupUnify.Proofs.Term.Substitution

/-!
# Substitution as a homomorphism, and composition

The value of a result is the value of the term under the valuation of the images. From this one fact come the
coefficients of a result (`coefficient_apply`), the laws of a homomorphism (`apply_add`, `apply_neg`,
`apply_scale`) and composition (`apply_apply_of_composes`), since equal terms are those with equal values. The
terms that are put in may be raw: a coefficient zero adds nothing to a value, and a name that stands twice
adds both its coefficients. A name that is bound twice gets its last term, as in a dictionary (`image_of_last`).

All bindings apply at once. So two substitutions, one after the other, are the one that puts into each name
what the second makes of the image under the first (`Composes`); `Substitution.followedBy` is such a one,
whichever names the two bind.

* `apply_homomorphism`: images, results, laws and composition together.
-/

namespace GroupUnify

variable {a b t : Term} {s r u : Substitution} {x : String} {c : Binding} {k : ℤ}

/-- Values are sums over the factors. -/
theorem Term.eval_eq_sum (v : String → ℤ) (t : Term) :
    t.eval v = (t.factors.map fun f => f.2 * v f.1).sum := by
  unfold Term.eval
  induction t.factors with
  | nil => rfl
  | cons f fs ih => rw [Term.sumAt, ih, List.map_cons, List.sum_cons]

namespace Substitution

/-! ### Images -/

/-- **The last binding of a name decides** what is put in for it. -/
theorem image_of_last {before after : Substitution} (h : c.name ∉ after.map Binding.name) :
    image (before ++ c :: after) c.name = c.term := by
  apply image_of_find?
  rw [find?_append, find?, find?_eq_none_iff.2 h, Option.none_or, if_pos rfl, Option.some_or]

/-! ### The laws of a homomorphism -/

/-- **The coefficients of a result**: each factor of `t` counts the name as often as its image does. -/
theorem coefficient_apply (s : Substitution) (t : Term) (y : String) :
    (s.apply t).coefficient y = (t.factors.map fun f => f.2 * (s.image f.1).total y).sum := by
  rw [(wellFormed_apply s t).coefficient_eq_total, total_apply, Term.eval_eq_sum]

theorem apply_add (s : Substitution) (ha : a.WellFormed) (b : Term) :
    s.apply (a + b) ≈ s.apply a + s.apply b := by
  have hsum := (wellFormed_apply s a).add (s.apply b)
  rw [Term.equiv_iff_eval (wellFormed_apply s _) hsum]
  intro v
  rw [eval_apply, Term.eval_add _ ha.nodup, Term.eval_add _ (wellFormed_apply s a).nodup, eval_apply,
    eval_apply]

theorem apply_neg (s : Substitution) (a : Term) : s.apply (-a) ≈ -s.apply a := by
  rw [Term.equiv_iff_eval (wellFormed_apply s _) (wellFormed_apply s a).neg]
  intro v
  rw [eval_apply, Term.eval_neg, Term.eval_neg, eval_apply]

theorem apply_scale (s : Substitution) (k : ℤ) (a : Term) :
    s.apply (a.scale k) ≈ (s.apply a).scale k := by
  rw [Term.equiv_iff_eval (wellFormed_apply s _) ((wellFormed_apply s a).scale k)]
  intro v
  rw [eval_apply, Term.eval_scale, Term.eval_scale, eval_apply]

/-! ### Composition -/

/-- The substitution `u` binds what `s` or `r` binds: a name of `s` to what `r` makes of its image, and any
other name as `r` does. -/
def Composes (u s r : Substitution) : Prop :=
  ∀ x, u.find? x = if x ∈ s.map Binding.name then some (r.apply (s.image x)) else r.find? x

theorem composes_followedBy (s r : Substitution) : (s.followedBy r).Composes s r := by
  intro x
  have hfind : (s.followedBy r).find? x = ((s.find? x).map r.apply).or (r.find? x) := by
    rw [← find?_instantiate]
    exact find?_append r (s.instantiate r) x
  rw [hfind]
  cases hx : s.find? x with
  | none =>
    rw [if_neg (find?_eq_none_iff.1 hx)]
    rfl
  | some t =>
    have hbound : x ∈ s.map Binding.name := by
      by_contra hfree
      rw [find?_eq_none_iff.2 hfree] at hx
      cases hx
    rw [if_pos hbound, image_of_find? hx]
    rfl

theorem Composes.eval_image (h : u.Composes s r) (v : String → ℤ) (x : String) :
    (u.image x).eval v = (s.image x).eval fun z => (r.image z).eval v := by
  have hx := h x
  split at hx
  · rw [image_of_find? hx, eval_apply]
  · next hfree =>
    -- `s` leaves the name to `r`
    have himage : u.image x = r.image x := by rw [image, hx, image]
    rw [himage, image_of_not_bound hfree, Term.eval_var]

/-- **One substitution after the other is their composition**, on every term. -/
theorem apply_apply_of_composes (h : u.Composes s r) (t : Term) : r.apply (s.apply t) ≈ u.apply t := by
  rw [Term.equiv_iff_eval (wellFormed_apply r _) (wellFormed_apply u t)]
  intro v
  rw [eval_apply, eval_apply, eval_apply]
  exact Term.eval_congr fun x _ => (h.eval_image v x).symm

/-- **Substitution is a homomorphism, and substitutions compose.** The last binding of a name decides, and a
name without binding stays. Results are well-formed, with the coefficients that the images add up to, even if
zeros or repeated names stand in the term or in the terms put in. Sums, inverses and multiples go through it;
the first term of a sum has to be well-formed. To apply `s` and then `r` is to apply any substitution that
composes them, and `s.followedBy r` does. -/
theorem apply_homomorphism (s r : Substitution) (t b : Term) (ha : a.WellFormed) (k : ℤ) :
    ((∀ before c after, s = before ++ c :: after → c.name ∉ after.map Binding.name →
        s.image c.name = c.term) ∧
      ∀ x, x ∉ s.map Binding.name → s.image x = Term.var x) ∧
    ((s.apply t).WellFormed ∧ ∀ y, (s.apply t).coefficient y =
      (t.factors.map fun f => f.2 * (s.image f.1).total y).sum) ∧
    (s.apply (a + b) ≈ s.apply a + s.apply b ∧ s.apply (-a) ≈ -s.apply a ∧
      s.apply (a.scale k) ≈ (s.apply a).scale k) ∧
    (s.followedBy r).Composes s r ∧
    ∀ u : Substitution, u.Composes s r → r.apply (s.apply t) ≈ u.apply t := by
  have hlast : ∀ before c after, s = before ++ c :: after → c.name ∉ after.map Binding.name →
      s.image c.name = c.term := by
    rintro before c after rfl h
    exact image_of_last h
  refine ⟨⟨hlast, fun x hx => image_of_not_bound hx⟩, ⟨wellFormed_apply s t, coefficient_apply s t⟩,
    ⟨apply_add s ha b, apply_neg s a, apply_scale s k a⟩, composes_followedBy s r, ?_⟩
  intro u hu
  exact apply_apply_of_composes hu t

/-- The bindings `x -> 3y`, `y -> x` and, over the first, `x -> x - y + y - y`, on the raw term `2x + 0y - x + 5z`;
then `y -> 3w` and `z -> 0`. -/
theorem apply_homomorphism_raw :
    let s : Substitution := [⟨"x", ⟨[("y", 3)]⟩⟩, ⟨"y", ⟨[("x", 1)]⟩⟩,
      ⟨"x", ⟨[("x", 1), ("y", -1), ("y", 1), ("y", -1)]⟩⟩]
    let r : Substitution := [⟨"y", ⟨[("w", 3)]⟩⟩, ⟨"z", 0⟩]
    let t : Term := ⟨[("x", 2), ("y", 0), ("x", -1), ("z", 5)]⟩
    Term.WellFormed ⟨[("x", 1), ("y", -2)]⟩ ∧
      s.image "x" = ⟨[("x", 1), ("y", -1), ("y", 1), ("y", -1)]⟩ ∧ s.image "z" = Term.var "z" ∧
      (s.apply t).coefficient "y" = [2 * -1, 0 * 0, -1 * -1, 5 * 0].sum ∧
      s.apply (⟨[("x", 1), ("y", -2)]⟩ + t) ≈ s.apply ⟨[("x", 1), ("y", -2)]⟩ + s.apply t ∧
      r.apply (s.apply t) ≈ (s.followedBy r).apply t := by
  intro s r t
  have ha : Term.WellFormed ⟨[("x", 1), ("y", -2)]⟩ := by decide
  obtain ⟨⟨hlast, hfree⟩, ⟨-, hcoefficient⟩, ⟨hadd, -⟩, hcomposes, happly⟩ :=
    apply_homomorphism s r t t ha (-3)
  exact ⟨ha, hlast [s[0], s[1]] s[2] [] rfl (by decide), hfree "z" (by decide), hcoefficient "y", hadd,
    happly _ hcomposes⟩

end Substitution

end GroupUnify
