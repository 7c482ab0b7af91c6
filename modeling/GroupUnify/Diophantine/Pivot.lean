import GroupUnify.Diophantine.Vector

/-!
# The pivot of a vector

The pivot is the first of the non-zero entries with least absolute value.

* `pivot?_spec`: it is an entry, and no entry but zero is smaller.
* `pivot?_invert`: turning the signs of a vector turns the sign of its pivot and nothing else.
-/

namespace GroupUnify.Diophantine

/-- A position of a vector with the entry there. -/
structure Pivot where
  index : Nat
  value : Int
deriving DecidableEq, Repr

/-- Is the entry `x` a better pivot than one with value `best`? -/
def Improves (best x : Int) : Prop := best = 0 ∨ x ≠ 0 ∧ x.natAbs < best.natAbs

instance (best x : Int) : Decidable (Improves best x) := inferInstanceAs (Decidable (_ ∨ _))

/-- The pivot among `best` and the entries, the first of which has position `i`. -/
def pivotFrom (i : Nat) (best : Pivot) : List Int → Pivot
  | [] => best
  | x :: xs => pivotFrom (i + 1) (if Improves best.value x then ⟨i, x⟩ else best) xs

/-- The first of the non-zero entries with least absolute value. If all entries are zero it is the
last one; an empty vector has none. -/
def pivot? : List Int → Option Pivot
  | [] => none
  | x :: xs => some (pivotFrom 1 ⟨0, x⟩ xs)

/-- The pivot is one of the entries, and no non-zero entry is smaller in absolute value. -/
theorem pivotFrom_spec (xs : List Int) : ∀ (i : Nat) (best : Pivot),
    (pivotFrom i best xs).value ∈ best.value :: xs ∧
      ((pivotFrom i best xs).value = 0 → ∀ x ∈ best.value :: xs, x = 0) ∧
      ∀ x ∈ best.value :: xs, x ≠ 0 → (pivotFrom i best xs).value.natAbs ≤ x.natAbs := by
  induction xs with
  | nil => intro i best; simp [pivotFrom]
  | cons y ys ih =>
    intro i best
    obtain ⟨hmem, hzero, hleast⟩ := ih (i + 1) (if Improves best.value y then ⟨i, y⟩ else best)
    simp only [pivotFrom]
    by_cases h : Improves best.value y
    · simp only [h, if_true] at hmem hzero hleast ⊢
      refine ⟨List.mem_cons_of_mem _ hmem, fun h0 => ?_, fun x hx hx0 => ?_⟩
      · have hy := hzero h0 y List.mem_cons_self
        rintro x (_ | ⟨_, hx⟩)
        · rcases h with h | ⟨h, _⟩
          · exact h
          · exact absurd hy h
        · exact hzero h0 x hx
      · rcases List.mem_cons.1 hx with rfl | hx
        · rcases h with h | ⟨hy, hlt⟩
          · exact absurd h hx0
          · exact Nat.le_trans (hleast y List.mem_cons_self hy) (Nat.le_of_lt hlt)
        · exact hleast x hx hx0
    · simp only [h, if_false] at hmem hzero hleast ⊢
      have hb : best.value ≠ 0 := fun hb => h (.inl hb)
      refine ⟨?_, fun h0 => absurd (hzero h0 _ List.mem_cons_self) hb, fun x hx hx0 => ?_⟩
      · rcases List.mem_cons.1 hmem with hm | hm
        · rw [hm]; exact List.mem_cons_self
        · exact List.mem_cons_of_mem _ (List.mem_cons_of_mem _ hm)
      · rcases List.mem_cons.1 hx with rfl | hx
        · exact hleast _ List.mem_cons_self hx0
        · rcases List.mem_cons.1 hx with rfl | hx
          · have : ¬ x.natAbs < best.value.natAbs := fun hlt => h (.inr ⟨hx0, hlt⟩)
            have := hleast _ List.mem_cons_self hb
            omega
          · exact hleast _ (List.mem_cons_of_mem _ hx) hx0

/-- A pivot is an entry; it is zero only if all entries are; none is smaller without being zero. -/
theorem pivot?_spec {v : List Int} {p : Pivot} (h : pivot? v = some p) :
    p.value ∈ v ∧ (p.value = 0 → ∀ x ∈ v, x = 0) ∧
      ∀ x ∈ v, x ≠ 0 → p.value.natAbs ≤ x.natAbs := by
  cases v with
  | nil => simp [pivot?] at h
  | cons x xs =>
    simp only [pivot?, Option.some.injEq] at h
    subst h
    exact pivotFrom_spec xs 1 ⟨0, x⟩

/-- Turning the signs keeps positions and turns the sign of the pivot. -/
theorem pivotFrom_invert (xs : List Int) : ∀ (i : Nat) (best : Pivot),
    pivotFrom i ⟨best.index, -best.value⟩ (invert xs) =
      ⟨(pivotFrom i best xs).index, -(pivotFrom i best xs).value⟩ := by
  induction xs with
  | nil => intro i best; rfl
  | cons x xs ih =>
    intro i best
    have himp : Improves (-best.value) (-x) ↔ Improves best.value x := by
      simp only [Improves, Int.natAbs_neg]
      omega
    simp only [invert, List.map_cons, pivotFrom, himp]
    by_cases h : Improves best.value x
    · simpa only [h, if_true, invert] using ih (i + 1) ⟨i, x⟩
    · simpa only [h, if_false, invert] using ih (i + 1) best

theorem pivot?_invert (v : List Int) :
    pivot? (invert v) = (pivot? v).map fun p => ⟨p.index, -p.value⟩ := by
  cases v with
  | nil => rfl
  | cons x xs => exact congrArg some (pivotFrom_invert xs 1 ⟨0, x⟩)

end GroupUnify.Diophantine
