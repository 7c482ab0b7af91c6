import GroupUnify.Proofs.Term.Equality

/-!
# The stored order of a sum

The factors of a sum are kept in the order in which they come. A factor that is added is at once put into its
place: if its name is there, that factor changes or goes, and else it goes to the end. Over a whole term this
has a closed form (`foldl_increase_eq`). The factors that were there first stay in order, with what the term adds
to each of them and without those that cancel (`raised`); behind them stand the factors of the term with other
names, in its own order (`fresh`). The induction is on the term that is added, and the factors before it are those
of any well-formed term.

* `factors_add_eq`, `factors_add_eq_map`: the factors of a sum, by factors and by names.
* `add_append`: the sum of terms without a common name.
* `bind_of_var`: putting every name back changes nothing.
-/

namespace GroupUnify.Term

variable {a b t : Term} {fs gs : List Factor} {f g : Factor} {x y : String} {c : ℤ}

/-! ### One factor more -/

/-- The factors `fs` with what `gs` adds to each of them, less those that cancel. -/
def raised (fs gs : List Factor) : List Factor :=
  (fs.map fun f => (f.1, f.2 + totalOf f.1 gs)).filter fun f => f.2 ≠ 0

/-- The factors of `gs` with a name that `fs` does not have. -/
def fresh (fs gs : List Factor) : List Factor := gs.filter fun g => g.1 ∉ fs.map Prod.fst

theorem raised_nil (h : ∀ f ∈ fs, f.2 ≠ 0) : raised fs [] = fs := by
  have hmap : fs.map (fun f => (f.1, f.2 + totalOf f.1 [])) = fs := by
    simp [totalOf]
  rw [raised, hmap, List.filter_eq_self]
  exact fun f hf => decide_eq_true (h f hf)

theorem raised_cons (y : String) (c : ℤ) (fs gs : List Factor) :
    raised ((y, c) :: fs) gs =
      (if c + totalOf y gs = 0 then [] else [(y, c + totalOf y gs)]) ++ raised fs gs := by
  rw [raised, List.map_cons, List.filter_cons]
  by_cases h : c + totalOf y gs = 0 <;> simp [h, raised]

theorem totalOf_cons_of_ne (h : y ≠ g.1) : totalOf y (g :: gs) = totalOf y gs := by
  rw [totalOf, if_neg (Ne.symm h), zero_add]

theorem raised_cons_of_not_mem (h : g.1 ∉ fs.map Prod.fst) : raised fs (g :: gs) = raised fs gs := by
  have hmap : fs.map (fun f => (f.1, f.2 + totalOf f.1 (g :: gs))) =
      fs.map fun f => (f.1, f.2 + totalOf f.1 gs) := by
    apply List.map_congr_left
    intro f hf
    rw [totalOf_cons_of_ne]
    exact fun hfg => h (hfg ▸ List.mem_map_of_mem hf)
  rw [raised, hmap, raised]

/-- Whether a factor is added before or among the others, the first factors become the same; a new name comes
behind them. -/
theorem raised_increase (hfs : (fs.map Prod.fst).Nodup) (hg : g.1 ∉ gs.map Prod.fst) (hg0 : g.2 ≠ 0) :
    raised (increase g.1 g.2 fs) gs =
      raised fs (g :: gs) ++ if g.1 ∈ fs.map Prod.fst then [] else [g] := by
  have hzero : totalOf g.1 gs = 0 := totalOf_of_not_mem hg
  have htotal : totalOf g.1 (g :: gs) = g.2 := by rw [totalOf, if_pos rfl, hzero, add_zero]
  induction fs with
  | nil =>
    rw [increase, if_neg hg0, raised_cons, hzero, add_zero, if_neg hg0]
    rfl
  | cons f fs ih =>
    obtain ⟨y, d⟩ := f
    obtain ⟨hy, hfs⟩ : y ∉ fs.map Prod.fst ∧ (fs.map Prod.fst).Nodup := List.nodup_cons.1 hfs
    rw [increase, raised_cons y d fs (g :: gs), List.map_cons]
    by_cases hyg : y = g.1
    · -- the factor keeps its place, or it goes
      subst hyg
      rw [if_pos rfl, htotal, if_pos List.mem_cons_self, List.append_nil, raised_cons_of_not_mem hy]
      split
      · rw [List.nil_append]
      · next hsum => rw [raised_cons, hzero, add_zero, if_neg hsum]
    · rw [if_neg hyg, raised_cons, ih hfs, totalOf_cons_of_ne hyg, List.append_assoc]
      simp only [List.mem_cons, Ne.symm hyg, false_or]

theorem mem_names_increase (hyx : y ≠ x) :
    y ∈ (increase x c fs).map Prod.fst ↔ y ∈ fs.map Prod.fst := by
  induction fs with
  | nil =>
    rw [increase]
    split
    · rfl
    · simp [hyx]
  | cons f fs ih =>
    obtain ⟨z, d⟩ := f
    rw [increase]
    split
    · next hzx =>
      subst hzx
      split <;> simp [hyx]
    · rw [List.map_cons, List.map_cons, List.mem_cons, List.mem_cons, ih]

theorem fresh_increase (hx : x ∉ gs.map Prod.fst) : fresh (increase x c fs) gs = fresh fs gs := by
  apply List.filter_congr
  intro g hg
  have hgx : g.1 ≠ x := by
    rintro rfl
    exact hx (List.mem_map_of_mem hg)
  rw [decide_eq_decide, mem_names_increase hgx]

theorem fresh_cons (g : Factor) (fs gs : List Factor) :
    fresh fs (g :: gs) = (if g.1 ∈ fs.map Prod.fst then [] else [g]) ++ fresh fs gs := by
  rw [fresh, fresh, List.filter_cons]
  by_cases h : g.1 ∈ fs.map Prod.fst <;> simp [h]

/-! ### Sums -/

/-- **Factors added one by one**: the first ones stay in order, and the new names follow in theirs. -/
theorem foldl_increase_eq : ∀ {fs : List Factor}, WellFormed ⟨fs⟩ → WellFormed ⟨gs⟩ →
    gs.foldl (fun kept g => increase g.1 g.2 kept) fs = raised fs gs ++ fresh fs gs := by
  induction gs with
  | nil =>
    intro fs hfs _
    rw [List.foldl_nil, raised_nil hfs.nonzero]
    exact (List.append_nil fs).symm
  | cons g gs ih =>
    intro fs hfs hgs
    obtain ⟨hg, hg0, hgs⟩ := wellFormed_cons.1 hgs
    rw [List.foldl_cons, ih (hfs.increase g.1 g.2) hgs, raised_increase hfs.nodup hg hg0,
      fresh_increase hg, fresh_cons, List.append_assoc]

theorem factors_add_eq (ha : a.WellFormed) (hb : b.WellFormed) :
    (a + b).factors = raised a.factors b.factors ++ fresh a.factors b.factors := by
  rw [factors_add, collect_of_nodup ha.nodup, foldl_increase_eq ha hb]

theorem WellFormed.factors_eq (h : t.WellFormed) :
    t.factors = t.names.map fun x => (x, t.coefficient x) := by
  have hself : ∀ f ∈ t.factors, (f.1, t.coefficient f.1) = f := by
    intro f hf
    rw [h.coefficient_eq_total]
    exact Prod.ext rfl (h.mem_iff.1 hf).2
  rw [names, List.map_map]
  exact ((List.map_congr_left hself).trans (List.map_id t.factors)).symm

/-- **The stored factors of a sum**: the names of `a` in its order, each with the two coefficients together unless
they cancel, then the other names of `b` in its order. -/
theorem factors_add_eq_map (ha : a.WellFormed) (hb : b.WellFormed) :
    (a + b).factors =
      ((a.names.filter fun x => a.coefficient x + b.coefficient x ≠ 0).map fun x =>
        (x, a.coefficient x + b.coefficient x)) ++
      (b.names.filter fun x => x ∉ a.names).map fun x => (x, b.coefficient x) := by
  have hfirst : raised a.factors b.factors =
      (a.names.filter fun x => a.coefficient x + b.coefficient x ≠ 0).map fun x =>
        (x, a.coefficient x + b.coefficient x) := by
    simp only [raised, ha.factors_eq, List.map_map, List.filter_map, hb.coefficient_eq_total]
    rfl
  have hnew : fresh a.factors b.factors =
      (b.names.filter fun x => x ∉ a.names).map fun x => (x, b.coefficient x) := by
    rw [fresh, hb.factors_eq, List.filter_map]
    rfl
  rw [factors_add_eq ha hb, hfirst, hnew]

/-! ### Terms without a common name -/

theorem WellFormed.of_append (h : WellFormed ⟨fs ++ gs⟩) : WellFormed ⟨fs⟩ ∧ WellFormed ⟨gs⟩ := by
  have hnames := h.nodup
  rw [names, List.map_append] at hnames
  obtain ⟨hfs, hgs, -⟩ := List.nodup_append.1 hnames
  exact ⟨⟨hfs, fun f hf => h.nonzero f (List.mem_append_left gs hf)⟩,
    ⟨hgs, fun g hg => h.nonzero g (List.mem_append_right fs hg)⟩⟩

theorem raised_of_apart (hfs : ∀ f ∈ fs, f.2 ≠ 0) (h : ∀ g ∈ gs, g.1 ∉ fs.map Prod.fst) :
    raised fs gs = fs := by
  induction gs with
  | nil => exact raised_nil hfs
  | cons g gs ih =>
    rw [List.forall_mem_cons] at h
    rw [raised_cons_of_not_mem h.1, ih h.2]

/-- **The sum of terms without a common name** has the factors of both, one behind the other. -/
theorem add_append (h : WellFormed ⟨fs ++ gs⟩) : Term.mk fs + ⟨gs⟩ = ⟨fs ++ gs⟩ := by
  obtain ⟨hfs, hgs⟩ := h.of_append
  have hnames := h.nodup
  rw [names, List.map_append] at hnames
  have hapart : ∀ g ∈ gs, g.1 ∉ fs.map Prod.fst := fun g hg hmem =>
    (List.nodup_append.1 hnames).2.2 _ hmem _ (List.mem_map_of_mem hg) rfl
  have hfresh : fresh fs gs = gs := by
    rw [fresh, List.filter_eq_self]
    exact fun g hg => decide_eq_true (hapart g hg)
  apply Term.ext
  rw [factors_add_eq hfs hgs, raised_of_apart hfs.nonzero hapart, hfresh]

theorem scale_single {k : ℤ} (hk : k ≠ 0) (f : Factor) : scale k ⟨[f]⟩ = ⟨[(f.1, k * f.2)]⟩ := by
  rw [scale, if_neg hk]
  split
  · next hone => rw [hone, one_mul]
  · rfl

/-- Factors whose names are put back are added one by one, each behind the others. -/
theorem foldl_var {h : String → Term} : ∀ {fs : List Factor},
    WellFormed ⟨fs ++ gs⟩ → (∀ g ∈ gs, h g.1 = var g.1) →
      gs.foldl (fun sum g => sum + scale g.2 (h g.1)) ⟨fs⟩ = ⟨fs ++ gs⟩ := by
  induction gs with
  | nil =>
    intro fs _ _
    rw [List.foldl_nil, List.append_nil]
  | cons g gs ih =>
    intro fs hwf hvar
    rw [List.append_cons] at hwf ⊢
    rw [List.forall_mem_cons] at hvar
    have hg : g.2 ≠ 0 := hwf.nonzero g (by simp)
    have hsum : Term.mk fs + scale g.2 (h g.1) = ⟨fs ++ [g]⟩ := by
      rw [hvar.1, var, scale_single hg, mul_one]
      exact add_append hwf.of_append.1
    rw [List.foldl_cons, hsum]
    exact ih hwf hvar.2

theorem bind_of_var {h : String → Term} (ht : t.WellFormed) (hvar : ∀ x ∈ t.names, h x = var x) :
    t.bind h = t :=
  foldl_var ht fun _ hg => hvar _ (List.mem_map_of_mem hg)

end GroupUnify.Term
