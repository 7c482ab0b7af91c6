import GroupUnify.Diophantine.Solution
import Mathlib.Algebra.Order.Ring.Int
import Mathlib.Data.Finset.Insert
import Mathlib.Logic.Function.Basic
import Mathlib.Tactic.LinearCombination
import Mathlib.Tactic.Ring

/-!
# Elimination as a change of valuation

Putting the form `e` in place of the unknown `i` gives every unknown the value that it had before under
the valuation in which `i` takes the value of `e` (`value_eliminate`). What the recorded forms mention
is kept as a finite set of **live** indices: those that no round has eliminated.

* `dot_congr`, `dot_update`: a vector sees a valuation only at its non-zero entries.
* `value_eliminate`, `eliminate_faithful`: values after an elimination.
* `Solution.Closed`: the keys are the unknowns that are not live, and forms mention live indices only.
* `Solution.Closed.eliminate`: an elimination keeps this, for one live index less.
-/

namespace GroupUnify.Diophantine

/-! ### Vectors and valuations -/

variable {v : List ℤ} {p q : ℕ → ℤ} {i j k : ℕ}

theorem entry_of_length_le (h : v.length ≤ i) : entry v i = 0 := by
  simp [entry, List.getD_eq_getElem?_getD, List.getElem?_eq_none h]

theorem entry_of_lt (h : i < v.length) : entry v i = v[i] := by
  simp [entry, List.getD_eq_getElem?_getD, List.getElem?_eq_getElem h]

theorem lt_length_of_entry_ne_zero (h : entry v i ≠ 0) : i < v.length := by
  by_contra hi
  exact h (entry_of_length_le (by omega))

theorem entry_append_singleton (v : List ℤ) (x : ℤ) (j : ℕ) :
    entry (v ++ [x]) j = if j = v.length then x else entry v j := by
  simp only [entry, List.getD_eq_getElem?_getD, List.getElem?_append]
  rcases lt_trichotomy j v.length with hj | hj | hj
  · rw [if_pos hj, if_neg (by omega)]
  · subst hj; simp
  · rw [if_neg (by omega), if_neg (by omega), List.getElem?_eq_none (l := v) (by omega),
      List.getElem?_eq_none (by simp; omega)]

/-- A vector sees a valuation only at its non-zero entries. -/
theorem dot_congr : ∀ {v : List ℤ} {p q : ℕ → ℤ}, (∀ j, entry v j ≠ 0 → p j = q j) →
    dot v p = dot v q := by
  intro v
  induction v with
  | nil => intro p q _; rfl
  | cons x xs ih =>
    intro p q h
    have hxs : dot xs (fun j => p (j + 1)) = dot xs (fun j => q (j + 1)) :=
      ih fun j hj => h (j + 1) (by simpa using hj)
    have hx : x * p 0 = x * q 0 := by
      by_cases hx0 : x = 0
      · rw [hx0]; ring
      · rw [h 0 (by simpa using hx0)]
    rw [dot, dot, hxs, hx]

theorem dot_congr_of_lt (h : ∀ j < v.length, p j = q j) : dot v p = dot v q :=
  dot_congr fun j hj => h j (lt_length_of_entry_ne_zero hj)

theorem dot_zero (v : List ℤ) : dot v (fun _ => 0) = 0 := by
  induction v with
  | nil => rfl
  | cons x xs ih => rw [dot, ih]; ring

theorem dot_update (v : List ℤ) (p : ℕ → ℤ) (i : ℕ) (x : ℤ) :
    dot v (Function.update p i x) = dot v p + entry v i * (x - p i) := by
  -- away from `i` the two valuations agree
  have hclear : dot (clear i v) (Function.update p i x) = dot (clear i v) p := by
    apply dot_congr
    intro j hj
    rw [entry_clear] at hj
    rw [Function.update_of_ne]
    rintro rfl
    simp at hj
  rw [dot_clear, dot_clear, Function.update_self] at hclear
  linear_combination hclear

theorem dot_append_singleton (v : List ℤ) (x : ℤ) (p : ℕ → ℤ) :
    dot (v ++ [x]) p = dot v p + x * p v.length := by
  induction v generalizing p with
  | nil => simp [dot]
  | cons y ys ih =>
    rw [List.cons_append, dot, dot, ih, List.length_cons]
    ring

theorem length_addMultiple (a : ℤ) (v w : List ℤ) :
    (addMultiple a v w).length = max v.length w.length := by
  fun_induction addMultiple a v w with
  | case1 w => simp
  | case2 v => simp
  | case3 x v y w ih => simp only [List.length_cons, ih]; omega

/-! ### Forms -/

variable {n : ℕ} {e f : Form} {s : Solution}

theorem Form.value_congr (h : ∀ j, entry f.coefficients j ≠ 0 → p j = q j) :
    f.value p k = f.value q k := by
  rw [value, value, dot_congr h]

theorem Form.substitute_eq (f : Form) (i : ℕ) (e : Form) :
    f.substitute i e =
      if entry f.coefficients i = 0 then f
      else ⟨addMultiple (entry f.coefficients i) (clear i f.coefficients) e.coefficients,
        addMultiple (entry f.coefficients i) f.constants e.constants⟩ := rfl

/-- What a form mentions after a substitution, it or the form put in mentioned before. -/
theorem Form.mentions_substitute (hj : entry (f.substitute i e).coefficients j ≠ 0)
    (he : entry e.coefficients i = 0) :
    j ≠ i ∧ (entry f.coefficients j ≠ 0 ∨ entry e.coefficients j ≠ 0) := by
  refine ⟨?_, ?_⟩
  · rintro rfl
    exact hj (entry_substitute he)
  · by_contra hnone
    push Not at hnone
    apply hj
    rw [substitute_eq]
    split
    · exact hnone.1
    · rw [entry_addMultiple, entry_clear, hnone.1, hnone.2]
      simp

/-- Substitution changes a valuation: the unknown `i` takes the value of `e`. -/
theorem Form.value_substitute_eq (he : entry e.coefficients i = 0) (f : Form) (p : ℕ → ℤ) (k : ℕ) :
    (f.substitute i e).value p k = f.value (Function.update p i (e.value p k)) k := by
  -- `e` does not see the unknown that it stands for, nor does the result
  set p' := Function.update p i (e.value p k) with hp'
  have heval : e.value p' k = e.value p k := by
    apply value_congr
    intro j hj
    rw [hp', Function.update_of_ne]
    rintro rfl
    exact hj he
  have hi : p' i = e.value p' k := by rw [heval, hp', Function.update_self]
  have hsub : (f.substitute i e).value p k = (f.substitute i e).value p' k := by
    apply value_congr
    intro j hj
    rw [hp', Function.update_of_ne (mentions_substitute hj he).1]
  rw [hsub, value_substitute hi]

theorem Form.length_substitute (f : Form) (i : ℕ) (e : Form) :
    (f.substitute i e).coefficients.length ≤ max f.coefficients.length e.coefficients.length ∧
      (f.substitute i e).constants.length ≤ max f.constants.length e.constants.length := by
  rw [substitute_eq]
  split
  · exact ⟨le_max_left _ _, le_max_left _ _⟩
  · simp only [length_addMultiple, clear, List.length_set, le_refl, and_self]

/-! ### Solutions -/

namespace Solution

theorem form?_eq_none_iff : s.form? i = none ↔ i ∉ s.keys := by
  simp only [form?, List.lookup_eq_none_iff, keys, List.mem_map, bne_iff_ne]
  constructor
  · rintro h ⟨f, hf, rfl⟩
    exact h f hf (by simp)
  · intro h f hf hif
    exact h ⟨f, hf, by simpa using hif.symm⟩

theorem mem_of_form? (h : s.form? i = some f) : (i, f) ∈ s := by
  obtain ⟨l, r, rfl, -⟩ := List.lookup_eq_some_iff.1 h
  simp

theorem form?_map (g : Form → Form) (s : Solution) (i : ℕ) :
    form? (s.map fun f => (f.1, g f.2)) i = (s.form? i).map g := by
  induction s with
  | nil => rfl
  | cons f s ih =>
    obtain ⟨j, f⟩ := f
    simp only [form?, List.map_cons, List.lookup_cons] at ih ⊢
    cases i == j with
    | false => exact ih
    | true => rfl

theorem value_of_form? (h : s.form? i = some f) : s.value p k i = f.value p k := by
  rw [value, h]

theorem value_of_not_mem (h : i ∉ s.keys) : s.value p k i = p i := by
  rw [value, form?_eq_none_iff.2 h]

/-- An elimination records its index in front of the others, if it is that of an unknown without a form. -/
theorem keys_eliminate_eq :
    (s.eliminate n i e).keys = if i < n ∧ i ∉ s.keys then i :: s.keys else s.keys := by
  have hrest : keys (s.map fun f => (f.1, f.2.substitute i e)) = s.keys := by
    simp [keys, Function.comp_def]
  unfold eliminate
  split
  · rw [keys, List.map_cons, ← keys, hrest]
  · exact hrest

theorem keys_eliminate : j ∈ (s.eliminate n i e).keys ↔ j ∈ s.keys ∨ j = i ∧ i < n := by
  rw [keys_eliminate_eq]
  split
  · next h =>
    rw [List.mem_cons]
    constructor
    · rintro (hj | hj)
      · exact Or.inr ⟨hj, h.1⟩
      · exact Or.inl hj
    · rintro (hj | hj)
      · exact Or.inr hj
      · exact Or.inl hj.1
  · next h =>
    refine ⟨Or.inl, ?_⟩
    rintro (hj | ⟨rfl, hn⟩)
    · exact hj
    · by_contra hj
      exact h ⟨hn, hj⟩

theorem nodup_keys_eliminate (h : s.keys.Nodup) : (s.eliminate n i e).keys.Nodup := by
  rw [keys_eliminate_eq]
  split
  · next hi => exact List.nodup_cons.2 ⟨hi.2, h⟩
  · exact h

/-- A form after an elimination is the one put in, or one from before with it put in. -/
theorem mem_eliminate {g : ℕ × Form} (hg : g ∈ s.eliminate n i e) :
    g = (i, e) ∨ ∃ f ∈ s, g = (f.1, f.2.substitute i e) := by
  have hmap : g ∈ s.map (fun f => (f.1, f.2.substitute i e)) →
      ∃ f ∈ s, g = (f.1, f.2.substitute i e) := by
    intro h
    obtain ⟨f, hf, rfl⟩ := List.mem_map.1 h
    exact ⟨f, hf, rfl⟩
  unfold eliminate at hg
  split at hg
  · rcases List.mem_cons.1 hg with rfl | hg
    · exact Or.inl rfl
    · exact Or.inr (hmap hg)
  · exact Or.inr (hmap hg)

theorem form?_eliminate_self (hi : i ∉ s.keys) (hin : i < n) :
    (s.eliminate n i e).form? i = some e := by
  rw [eliminate, if_pos ⟨hin, hi⟩, form?, List.lookup_cons_self]

theorem form?_eliminate_of_ne (hji : j ≠ i) :
    (s.eliminate n i e).form? j = (s.form? j).map fun f => f.substitute i e := by
  have hrest := form?_map (fun f => f.substitute i e) s j
  unfold eliminate
  split
  · rw [form?, List.lookup_cons, beq_eq_false_iff_ne.2 hji]
    exact hrest
  · exact hrest

/-- **Values after an elimination** are those from before, with the unknown `i` at the value of `e`. -/
theorem value_eliminate (hi : i ∉ s.keys) (he : entry e.coefficients i = 0) (hj : j < n)
    (p : ℕ → ℤ) (k : ℕ) :
    (s.eliminate n i e).value p k j = s.value (Function.update p i (e.value p k)) k j := by
  by_cases hji : j = i
  · subst hji
    rw [value_of_form? (form?_eliminate_self hi hj), value_of_not_mem hi, Function.update_self]
  · have hform := form?_eliminate_of_ne (n := n) (e := e) (s := s) hji
    cases hf : s.form? j with
    | none =>
      have hj' : j ∉ (s.eliminate n i e).keys := by rw [← form?_eq_none_iff, hform, hf]; rfl
      rw [value_of_not_mem hj', value_of_not_mem (form?_eq_none_iff.1 hf),
        Function.update_of_ne hji]
    | some f =>
      rw [hf] at hform
      rw [value_of_form? hform, value_of_form? hf, Form.value_substitute_eq he]

/-- No form mentions an index that has been eliminated. -/
theorem entry_eliminate (he : entry e.coefficients i = 0) {g : ℕ × Form}
    (hg : g ∈ s.eliminate n i e) : entry g.2.coefficients i = 0 := by
  rcases mem_eliminate hg with rfl | ⟨f, -, rfl⟩
  · exact he
  · exact Form.entry_substitute he

/-- **One elimination is a faithful substitution.** Let `i` have no form yet, and let `e` not mention it. The
index is recorded exactly if it is that of an unknown, with `e` as its form, and no form mentions it any more.
Under every valuation that gives `i` the value of `e` each form keeps its value, whatever the lengths of the
vectors. -/
theorem eliminate_faithful (n : ℕ) (hi : i ∉ s.keys) (he : entry e.coefficients i = 0) :
    (s.eliminate n i e).keys = (if i < n then i :: s.keys else s.keys) ∧
    (i < n → (s.eliminate n i e).form? i = some e) ∧
    (∀ g ∈ s.eliminate n i e, entry g.2.coefficients i = 0) ∧
    ∀ (p : ℕ → ℤ) (k : ℕ), p i = e.value p k → ∀ j f, s.form? j = some f →
      ∃ g, (s.eliminate n i e).form? j = some g ∧ g.value p k = f.value p k := by
  refine ⟨?_, form?_eliminate_self hi, fun g hg => entry_eliminate he hg, ?_⟩
  · rw [keys_eliminate_eq]
    simp only [hi, not_false_eq_true, and_true]
  · intro p k hp j f hf
    -- all forms that were recorded are those of other indices
    have hji : j ≠ i := by
      rintro rfl
      rw [form?_eq_none_iff.2 hi] at hf
      cases hf
    have hform : (s.eliminate n i e).form? j = some (f.substitute i e) := by
      rw [form?_eliminate_of_ne hji, hf]
      rfl
    exact ⟨f.substitute i e, hform, Form.value_substitute hp⟩

/-- The form `2x₀ - 5x₃` with constants 4 and 7 for the unknown 1, put into `3x₁` with constant 1. The form
that is put in is longer in both vectors, and at the second constant the other one has none. -/
theorem eliminate_faithful_longer_form :
    let e : Form := ⟨[2, 0, 0, -5], [4, 7]⟩
    let s : Solution := [(0, ⟨[0, 3], [1]⟩)]
    let p : ℕ → ℤ := fun j => if j = 1 then 4 else 1
    1 ∉ s.keys ∧ entry e.coefficients 1 = 0 ∧ p 1 = e.value p 1 ∧
      (s.eliminate 2 1 e).keys = [1, 0] ∧
      (s.eliminate 2 1 e).form? 0 = some ⟨[6, 0, 0, -15], [13, 21]⟩ ∧
      (⟨[6, 0, 0, -15], [13, 21]⟩ : Form).value p 1 = 3 * 4 + 0 := by
  intro e s p
  have hi : 1 ∉ s.keys := by decide
  have he : entry e.coefficients 1 = 0 := by decide
  have hp : p 1 = e.value p 1 := by decide
  obtain ⟨hkeys, -, -, hvalues⟩ := eliminate_faithful 2 hi he
  obtain ⟨g, hg, hvalue⟩ := hvalues p 1 hp 0 ⟨[0, 3], [1]⟩ rfl
  have hform : (s.eliminate 2 1 e).form? 0 = some ⟨[6, 0, 0, -15], [13, 21]⟩ := by decide
  cases hform.symm.trans hg
  exact ⟨hi, he, hp, hkeys, hform, hvalue⟩

/-! ### Live indices -/

/-- The forms of `s` are closed over the `live` indices of a problem with `n` unknowns. -/
structure Closed (n : ℕ) (live : Finset ℕ) (s : Solution) : Prop where
  keys_iff : ∀ i, i ∈ s.keys ↔ i < n ∧ i ∉ live
  nodup : s.keys.Nodup
  mentions : ∀ f ∈ s, ∀ j, entry f.2.coefficients j ≠ 0 → j ∈ live

variable {live live' : Finset ℕ}

/-- Values are the same under valuations that agree on the live indices. -/
theorem Closed.value_congr (hs : s.Closed n live) (hi : i < n) (h : ∀ j ∈ live, p j = q j) :
    s.value p k i = s.value q k i := by
  cases hf : s.form? i with
  | none =>
    have hik := form?_eq_none_iff.1 hf
    have hlive : i ∈ live := by
      by_contra hl
      exact hik ((hs.keys_iff i).2 ⟨hi, hl⟩)
    rw [value_of_not_mem hik, value_of_not_mem hik, h i hlive]
  | some f =>
    rw [value_of_form? hf, value_of_form? hf]
    exact Form.value_congr fun j hj => h j (hs.mentions _ (mem_of_form? hf) j hj)

/-- **Elimination closes over the rest**: `i` is live no longer, the other live indices are, and what
comes in with `e` is a parameter. -/
theorem Closed.eliminate (hs : s.Closed n live) (hi : i ∈ live)
    (he : ∀ j, entry e.coefficients j ≠ 0 → j ∈ live') (hi' : i ∉ live')
    (hold : ∀ j ∈ live, j ≠ i → j ∈ live') (hnew : ∀ j ∈ live', j ∈ live ∨ n ≤ j) :
    (s.eliminate n i e).Closed n live' := by
  have hei : entry e.coefficients i = 0 := by
    by_contra h
    exact hi' (he i h)
  refine ⟨fun j => ?_, nodup_keys_eliminate hs.nodup, fun g hg j hj => ?_⟩
  · -- an unknown joins the keys exactly when it leaves the live indices; parameters never do
    rw [keys_eliminate, hs.keys_iff]
    constructor
    · rintro (⟨hjn, hjl⟩ | ⟨rfl, hin⟩)
      · refine ⟨hjn, fun hjl' => ?_⟩
        rcases hnew j hjl' with h | h
        · exact hjl h
        · omega
      · exact ⟨hin, hi'⟩
    · rintro ⟨hjn, hjl'⟩
      by_cases hji : j = i
      · exact Or.inr ⟨hji, hji ▸ hjn⟩
      · exact Or.inl ⟨hjn, fun hjl => hjl' (hold j hjl hji)⟩
  · rcases mem_eliminate hg with rfl | ⟨f, hf, rfl⟩
    · exact he j hj
    · obtain ⟨hji, hfj | hej⟩ := Form.mentions_substitute hj hei
      · exact hold j (hs.mentions f hf j hfj) hji
      · exact he j hej

/-- All vectors of coefficients have at most `a` entries and all vectors of constants at most `b`. -/
def Bounded (a b : ℕ) (s : Solution) : Prop :=
  ∀ f ∈ s, f.2.coefficients.length ≤ a ∧ f.2.constants.length ≤ b

theorem Bounded.eliminate {a a' b : ℕ} (hs : s.Bounded a b) (haa : a ≤ a')
    (he : e.coefficients.length ≤ a' ∧ e.constants.length ≤ b) :
    (s.eliminate n i e).Bounded a' b := by
  intro g hg
  rcases mem_eliminate hg with rfl | ⟨f, hf, rfl⟩
  · exact he
  · obtain ⟨h1, h2⟩ := f.2.length_substitute i e
    obtain ⟨hf1, hf2⟩ := hs f hf
    exact ⟨h1.trans (max_le (hf1.trans haa) he.1), h2.trans (max_le hf2 he.2)⟩

end Solution

end GroupUnify.Diophantine
