import GroupUnify.Term.Substitution
import Mathlib.Algebra.Order.Ring.Int
import Mathlib.Data.List.Nodup
import Mathlib.Tactic.Ring

/-!
# Terms as elements of the free group

A valuation of the names by integers gives every term a value. All that the operations do to a term,
seen as a group element, is what they do to its values: they are group homomorphisms
(`eval_add`, `eval_neg`, `eval_scale`, `eval_bind`). The coefficient of one name is the value under the
valuation that counts it (`total_eq_eval`).

* `WellFormed.add`, `wellFormed_bind`: results never repeat a name or keep a coefficient zero.
-/

namespace GroupUnify.Term

variable {v w : String → ℤ} {a b t : Term} {fs gs : List Factor} {x y : String} {c k : ℤ}

/-- The value of a list of factors under a valuation of the names. -/
def sumAt (v : String → ℤ) : List Factor → ℤ
  | [] => 0
  | f :: fs => f.2 * v f.1 + sumAt v fs

/-- The value of a term under a valuation of the names. -/
def eval (v : String → ℤ) (t : Term) : ℤ := sumAt v t.factors

/-- The valuation that counts the name `x`. -/
def indicator (x y : String) : ℤ := if y = x then 1 else 0

theorem sumAt_append (v : String → ℤ) (fs gs : List Factor) :
    sumAt v (fs ++ gs) = sumAt v fs + sumAt v gs := by
  induction fs with
  | nil => simp [sumAt]
  | cons f fs ih => rw [List.cons_append, sumAt, sumAt, ih]; ring

theorem sumAt_map_mul (v : String → ℤ) (k : ℤ) (fs : List Factor) :
    sumAt v (fs.map fun f => (f.1, k * f.2)) = k * sumAt v fs := by
  induction fs with
  | nil => simp [sumAt]
  | cons f fs ih => rw [List.map_cons, sumAt, sumAt, ih]; ring

theorem sumAt_perm (h : fs.Perm gs) : sumAt v fs = sumAt v gs := by
  induction h with
  | nil => rfl
  | cons f _ ih => rw [sumAt, sumAt, ih]
  | swap f g fs => simp only [sumAt]; ring
  | trans _ _ ih ih' => rw [ih, ih']

theorem sumAt_congr (h : ∀ f ∈ fs, v f.1 = w f.1) : sumAt v fs = sumAt w fs := by
  induction fs with
  | nil => rfl
  | cons f fs ih =>
    rw [sumAt, sumAt, h f List.mem_cons_self, ih fun g hg => h g (List.mem_cons_of_mem _ hg)]

theorem totalOf_eq_sumAt (x : String) (fs : List Factor) :
    totalOf x fs = sumAt (indicator x) fs := by
  induction fs with
  | nil => rfl
  | cons f fs ih =>
    rw [totalOf, sumAt, ih, indicator]
    by_cases hf : f.1 = x <;> simp [hf]

/-- **The coefficient of a name is a value.** -/
theorem total_eq_eval (t : Term) (x : String) : t.total x = t.eval (indicator x) :=
  totalOf_eq_sumAt x t.factors

/-- The coefficient of a name among factors that give each name of a list its own. -/
theorem sumAt_indicator_map {xs : List String} (g : String → ℤ) (hxs : xs.Nodup) :
    sumAt (indicator x) (xs.map fun y => (y, g y)) = if x ∈ xs then g x else 0 := by
  induction xs with
  | nil => rfl
  | cons y ys ih =>
    obtain ⟨hy, hys⟩ := List.nodup_cons.1 hxs
    rw [List.map_cons, sumAt, ih hys, indicator]
    by_cases hyx : y = x
    · subst hyx
      simp [hy]
    · simp [hyx, Ne.symm hyx]

theorem eval_congr (h : ∀ x ∈ t.names, v x = w x) : t.eval v = t.eval w :=
  sumAt_congr fun f hf => h f.1 (List.mem_map_of_mem hf)

/-! ### Group operations -/

@[simp] theorem eval_zero (v : String → ℤ) : eval v 0 = 0 := rfl

theorem eval_zero_valuation (t : Term) : t.eval (fun _ => 0) = 0 := by
  rw [eval]
  induction t.factors with
  | nil => rfl
  | cons f fs ih => rw [sumAt, ih]; ring

theorem eval_var (v : String → ℤ) (x : String) : (var x).eval v = v x := by
  simp [eval, var, sumAt]

theorem eval_neg (v : String → ℤ) (t : Term) : (-t).eval v = -t.eval v := by
  have h := sumAt_map_mul v (-1) t.factors
  simp only [Int.neg_mul, one_mul] at h
  exact h

theorem eval_scale (v : String → ℤ) (k : ℤ) (t : Term) : (scale k t).eval v = k * t.eval v := by
  unfold scale
  split
  · next h => rw [h]; simp [eval, zero, sumAt]
  split
  · next h => rw [h, one_mul]
  · exact sumAt_map_mul v k t.factors

theorem sumAt_increase (v : String → ℤ) (x : String) (c : ℤ) (fs : List Factor) :
    sumAt v (increase x c fs) = sumAt v fs + c * v x := by
  induction fs with
  | nil =>
    unfold increase
    split
    · next h => simp [sumAt, h]
    · simp [sumAt]
  | cons f fs ih =>
    obtain ⟨y, d⟩ := f
    unfold increase
    split
    · next hyx =>
      subst hyx
      split
      · next h =>
        -- the factor is dropped, and its value goes with the increase
        have hd : d = -c := by omega
        rw [sumAt, hd]; ring
      · rw [sumAt, sumAt]; ring
    · rw [sumAt, sumAt, ih]; ring

theorem sumAt_foldl_increase (v : String → ℤ) (fs : List Factor) : ∀ kept,
    sumAt v (fs.foldl (fun kept f => increase f.1 f.2 kept) kept) = sumAt v kept + sumAt v fs := by
  induction fs with
  | nil => intro kept; simp [sumAt]
  | cons f fs ih =>
    intro kept
    rw [List.foldl_cons, ih, sumAt_increase, sumAt]
    ring

theorem put_of_not_mem (h : x ∉ fs.map Prod.fst) : put x c fs = fs ++ [(x, c)] := by
  induction fs with
  | nil => rfl
  | cons f fs ih =>
    obtain ⟨y, d⟩ := f
    rw [List.map_cons, List.mem_cons, not_or] at h
    rw [put, if_neg (Ne.symm h.1), ih h.2, List.cons_append]

theorem foldl_put (fs : List Factor) : ∀ kept : List Factor, ((kept ++ fs).map Prod.fst).Nodup →
    fs.foldl (fun kept f => put f.1 f.2 kept) kept = kept ++ fs := by
  induction fs with
  | nil => intro kept _; simp
  | cons f fs ih =>
    intro kept h
    have hf : f.1 ∉ kept.map Prod.fst := by
      intro hmem
      rw [List.map_append, List.map_cons] at h
      exact (List.nodup_append.1 h).2.2 _ hmem _ List.mem_cons_self rfl
    have happ : kept ++ f :: fs = (kept ++ [(f.1, f.2)]) ++ fs := by simp
    rw [happ] at h ⊢
    rw [List.foldl_cons, put_of_not_mem hf, ih _ h]

/-- Factors without a repeated name are what they are collected to. -/
theorem collect_of_nodup (h : (fs.map Prod.fst).Nodup) : collect fs = fs := by
  rw [collect, foldl_put fs [] (by simpa using h), List.nil_append]

theorem factors_add (a b : Term) :
    (a + b).factors =
      b.factors.foldl (fun kept f => increase f.1 f.2 kept) (collect a.factors) := rfl

/-- **Values of a sum** add up if the first term repeats no name. -/
theorem eval_add (v : String → ℤ) (ha : a.names.Nodup) (b : Term) :
    (a + b).eval v = a.eval v + b.eval v := by
  rw [eval, factors_add, sumAt_foldl_increase, collect_of_nodup ha]
  rfl

/-! ### Well-formed results -/

instance (t : Term) : Decidable t.WellFormed :=
  decidable_of_iff (t.names.Nodup ∧ ∀ f ∈ t.factors, f.2 ≠ 0)
    ⟨fun h => ⟨h.1, h.2⟩, fun h => ⟨h.nodup, h.nonzero⟩⟩

theorem wellFormed_zero : WellFormed 0 := ⟨List.nodup_nil, fun _ hf => absurd hf List.not_mem_nil⟩

theorem wellFormed_var (x : String) : (var x).WellFormed :=
  ⟨List.nodup_singleton x, fun f hf => by rw [List.mem_singleton.1 hf]; exact one_ne_zero⟩

theorem names_neg (t : Term) : (-t).names = t.names := by
  change (t.factors.map _).map _ = _
  rw [List.map_map]; rfl

theorem WellFormed.neg (h : t.WellFormed) : (-t).WellFormed := by
  refine ⟨?_, fun f hf => ?_⟩
  · rw [names_neg]; exact h.nodup
  · obtain ⟨g, hg, rfl⟩ := List.mem_map.1 hf
    have := h.nonzero g hg
    simpa using this

theorem WellFormed.scale (h : t.WellFormed) (k : ℤ) : (t.scale k).WellFormed := by
  unfold Term.scale
  split
  · exact wellFormed_zero
  split
  · exact h
  · next hk _ =>
    refine ⟨?_, fun f hf => ?_⟩
    · have hnames : (Term.mk (t.factors.map fun f => (f.1, k * f.2))).names = t.names := by
        rw [names, names, List.map_map]; rfl
      rw [hnames]; exact h.nodup
    · obtain ⟨g, hg, rfl⟩ := List.mem_map.1 hf
      exact mul_ne_zero hk (h.nonzero g hg)

theorem mem_increase {f : Factor} (hf : f ∈ increase x c fs) : f.1 = x ∨ f ∈ fs := by
  induction fs with
  | nil =>
    unfold increase at hf
    split at hf
    · exact absurd hf List.not_mem_nil
    · rw [List.mem_singleton.1 hf]; exact Or.inl rfl
  | cons g fs ih =>
    obtain ⟨y, d⟩ := g
    unfold increase at hf
    split at hf
    · next hyx =>
      split at hf
      · exact Or.inr (List.mem_cons_of_mem _ hf)
      · rcases List.mem_cons.1 hf with rfl | hf
        · exact Or.inl hyx
        · exact Or.inr (List.mem_cons_of_mem _ hf)
    · rcases List.mem_cons.1 hf with rfl | hf
      · exact Or.inr List.mem_cons_self
      · rcases ih hf with h | h
        · exact Or.inl h
        · exact Or.inr (List.mem_cons_of_mem _ h)

theorem wellFormed_cons {f : Factor} :
    WellFormed ⟨f :: fs⟩ ↔ f.1 ∉ fs.map Prod.fst ∧ f.2 ≠ 0 ∧ WellFormed ⟨fs⟩ := by
  constructor
  · rintro ⟨hnodup, hnonzero⟩
    have hnodup' := List.nodup_cons.1 hnodup
    exact ⟨hnodup'.1, hnonzero f List.mem_cons_self, hnodup'.2,
      fun g hg => hnonzero g (List.mem_cons_of_mem _ hg)⟩
  · rintro ⟨hf, hf0, hnodup, hnonzero⟩
    refine ⟨List.nodup_cons.2 ⟨hf, hnodup⟩, fun g hg => ?_⟩
    rcases List.mem_cons.1 hg with rfl | hg
    · exact hf0
    · exact hnonzero g hg

theorem WellFormed.increase (h : WellFormed ⟨fs⟩) (x : String) (c : ℤ) :
    WellFormed ⟨increase x c fs⟩ := by
  induction fs with
  | nil =>
    unfold Term.increase
    split
    · exact wellFormed_zero
    · next hc => exact wellFormed_cons.2 ⟨List.not_mem_nil, hc, wellFormed_zero⟩
  | cons f fs ih =>
    obtain ⟨y, d⟩ := f
    obtain ⟨hy, hd, hfs⟩ := wellFormed_cons.1 h
    unfold Term.increase
    split
    · split
      · exact hfs
      · next hsum => exact wellFormed_cons.2 ⟨hy, hsum, hfs⟩
    · next hyx =>
      refine wellFormed_cons.2 ⟨fun hmem => ?_, hd, ih hfs⟩
      obtain ⟨g, hg, hgy⟩ := List.mem_map.1 hmem
      rcases mem_increase hg with hgx | hg
      · exact hyx (hgy.symm.trans hgx)
      · exact hy (hgy ▸ List.mem_map_of_mem hg)

theorem WellFormed.foldl_increase (gs : List Factor) : ∀ {fs : List Factor}, WellFormed ⟨fs⟩ →
    WellFormed ⟨gs.foldl (fun kept f => Term.increase f.1 f.2 kept) fs⟩ := by
  induction gs with
  | nil => exact fun h => h
  | cons g gs ih => exact fun h => ih (h.increase g.1 g.2)

/-- A sum is well-formed if its first term is. -/
theorem WellFormed.add (ha : a.WellFormed) (b : Term) : (a + b).WellFormed := by
  have hcollect := collect_of_nodup ha.nodup
  have h := ha.foldl_increase b.factors
  rw [← hcollect] at h
  exact h

/-! ### Replacing names -/

theorem bind_eq (t : Term) (f : String → Term) :
    t.bind f = t.factors.foldl (fun sum g => sum + scale g.2 (f g.1)) 0 := rfl

theorem foldl_bind (v : String → ℤ) (f : String → Term) (fs : List Factor) : ∀ {sum : Term},
    sum.WellFormed →
      (fs.foldl (fun sum g => sum + scale g.2 (f g.1)) sum).WellFormed ∧
      (fs.foldl (fun sum g => sum + scale g.2 (f g.1)) sum).eval v =
        sum.eval v + sumAt (fun x => (f x).eval v) fs := by
  induction fs with
  | nil => intro sum h; exact ⟨h, by simp [sumAt]⟩
  | cons g fs ih =>
    intro sum h
    obtain ⟨hwf, heval⟩ := ih (h.add (scale g.2 (f g.1)))
    refine ⟨hwf, ?_⟩
    rw [List.foldl_cons, heval, eval_add v h.nodup, eval_scale, sumAt]
    ring

theorem wellFormed_bind (t : Term) (f : String → Term) : (t.bind f).WellFormed :=
  (foldl_bind (fun _ => 0) f t.factors wellFormed_zero).1

/-- **Values of a term with all names replaced** are values under the replaced valuation. -/
theorem eval_bind (v : String → ℤ) (t : Term) (f : String → Term) :
    (t.bind f).eval v = t.eval fun x => (f x).eval v := by
  rw [bind_eq, (foldl_bind v f t.factors wellFormed_zero).2, eval_zero, zero_add]
  rfl

/-- A sum of pairs replaces each name by itself. -/
theorem ofPairs_eq_bind (pairs : List Factor) : ofPairs pairs = (Term.mk pairs).bind var := rfl

theorem eval_ofPairs (v : String → ℤ) (pairs : List Factor) :
    (ofPairs pairs).eval v = sumAt v pairs := by
  rw [ofPairs_eq_bind, eval_bind]
  exact sumAt_congr fun f _ => eval_var v f.1

theorem wellFormed_ofPairs (pairs : List Factor) : (ofPairs pairs).WellFormed :=
  wellFormed_bind _ _

end GroupUnify.Term
