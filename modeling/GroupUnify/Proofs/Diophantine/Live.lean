import GroupUnify.Proofs.Diophantine.Elimination
import GroupUnify.Proofs.Diophantine.Round
import Mathlib.Data.Finset.Card

/-!
# Live indices along a run

Each reduction eliminates the pivot's unknown and brings in one parameter, so a problem with `n`
unknowns has `n` live indices all along, and `n - 1` after the last round. `State.Tracks` is the
invariant; the three things that can happen to it are a turn of signs (`Tracks.negated`), a reduction
(`Tracks.reduced`) and the end (`Tracks.closed_solved`, `Tracks.bounded_solved`).
-/

namespace GroupUnify.Diophantine

variable {c d : List ℤ} {live : Finset ℕ} {st : State} {p : Pivot} {j k : ℕ}

/-! ### The forms put in -/

theorem entry_map_fdiv (v : List ℤ) (a : ℤ) (j : ℕ) :
    entry (v.map (·.fdiv a)) j = (entry v j).fdiv a :=
  entry_map _ (Int.zero_fdiv a) v j

theorem entry_map_fmod (v : List ℤ) (a : ℤ) (j : ℕ) :
    entry (v.map (·.fmod a)) j = (entry v j).fmod a :=
  entry_map _ (Int.zero_fmod a) v j

/-- The pivot goes into itself once. -/
theorem fdiv_pivot {v : List ℤ} (hp : pivot? v = some p) (hpos : p.value ≠ 0) :
    (entry v p.index).fdiv p.value = 1 := by
  rw [(pivot?_entry hp).1, Int.fdiv_self hpos]

namespace State

theorem carried_eq (st : State) (p : Pivot) :
    st.carried p = ⟨invert (clear p.index (st.coefficients.map (·.fdiv p.value))) ++ [1], []⟩ := by
  rw [carried, clear, clear, List.map_set, Int.zero_fdiv]

theorem length_carried (st : State) (p : Pivot) :
    (st.carried p).coefficients.length = st.coefficients.length + 1 := by
  simp [carried, invert, clear]

/-- The form of a reduction mentions the fresh parameter and what the equations mention beside the
pivot's unknown. -/
theorem entry_carried (st : State) (p : Pivot) (j : ℕ) :
    entry (st.carried p).coefficients j =
      if j = st.coefficients.length then 1
      else if j = p.index then 0 else -(entry st.coefficients j).fdiv p.value := by
  rw [carried_eq]
  simp only [entry_append_singleton, entry_invert, entry_clear, entry_map_fdiv]
  simp only [invert, clear, List.length_map, List.length_set]
  split
  · rfl
  · split <;> simp

/-- The form of a solved unknown mentions what the equations mention beside it. -/
theorem entry_solved (st : State) (i j : ℕ) :
    entry (st.solved i).coefficients j = if j = i then 0 else -entry st.coefficients j := by
  rw [solved, entry_invert, entry_clear]
  split <;> simp

/-! ### The invariant -/

/-- The equations `st`, reached from `c · x = d k`, with their live indices: as many as there are
unknowns, all in range, and nothing else is mentioned in the equations or in the recorded forms. -/
structure Tracks (c d : List ℤ) (live : Finset ℕ) (st : State) : Prop where
  nonzero : ∃ x ∈ st.coefficients, x ≠ 0
  length_constants : st.constants.length = d.length
  le_length : c.length ≤ st.coefficients.length
  live_lt : ∀ j ∈ live, j < st.coefficients.length
  card : live.card = c.length
  mentions : ∀ j, entry st.coefficients j ≠ 0 → j ∈ live
  closed : st.solution.Closed c.length live
  bounded : st.solution.Bounded st.coefficients.length d.length

namespace Tracks

theorem start (hc : ∃ x ∈ c, x ≠ 0) : Tracks c d (Finset.range c.length) ⟨c, d, []⟩ where
  nonzero := hc
  length_constants := rfl
  le_length := le_rfl
  live_lt := fun j hj => Finset.mem_range.1 hj
  card := Finset.card_range _
  mentions := fun j hj => Finset.mem_range.2 (lt_length_of_entry_ne_zero hj)
  closed := ⟨fun i => by simp [Solution.keys], by simp [Solution.keys], by simp⟩
  bounded := by simp [Solution.Bounded]

theorem negated (h : Tracks c d live st) : Tracks c d live st.negated where
  nonzero := by
    obtain ⟨x, hx, hx0⟩ := h.nonzero
    exact ⟨-x, List.mem_map_of_mem hx, by omega⟩
  length_constants := by simpa [State.negated, invert] using h.length_constants
  le_length := by simpa [State.negated, invert] using h.le_length
  live_lt := by simpa [State.negated, invert] using h.live_lt
  card := h.card
  mentions := by
    intro j hj
    rw [State.negated, entry_invert] at hj
    exact h.mentions j (by omega)
  closed := h.closed
  bounded := by simpa [State.negated, invert] using h.bounded

/-- The unknown of a pivot is live. -/
theorem pivot_live (h : Tracks c d live st) (hp : pivot? st.coefficients = some p)
    (hpos : p.value ≠ 0) : p.index ∈ live :=
  h.mentions _ (by rw [(pivot?_entry hp).1]; exact hpos)

theorem pivot_not_mem_keys (h : Tracks c d live st) (hp : pivot? st.coefficients = some p)
    (hpos : p.value ≠ 0) : p.index ∉ st.solution.keys :=
  fun hk => ((h.closed.keys_iff _).1 hk).2 (h.pivot_live hp hpos)

/-- What a quotient of the equations mentions is live. -/
theorem live_of_fdiv (h : Tracks c d live st) {a : ℤ}
    (hj : (entry st.coefficients j).fdiv a ≠ 0) : j ∈ live := by
  apply h.mentions
  intro h0
  rw [h0, Int.zero_fdiv] at hj
  exact hj rfl

theorem length_not_live (h : Tracks c d live st) : st.coefficients.length ∉ live :=
  fun hm => absurd (h.live_lt _ hm) (by omega)

/-- The equations after a reduction mention the fresh parameter, and live indices other than the pivot's: a
remainder is not zero only where the entry is not, and the pivot leaves none. -/
theorem mentions_reduced (h : Tracks c d live st) (hp : pivot? st.coefficients = some p)
    (hj : entry (st.reduced c.length p).coefficients j ≠ 0) :
    j ∈ insert st.coefficients.length (live.erase p.index) := by
  rw [State.reduced, entry_append_singleton, List.length_map] at hj
  split at hj
  · next hjm => rw [hjm]; exact Finset.mem_insert_self _ _
  · rw [entry_map_fmod] at hj
    refine Finset.mem_insert_of_mem (Finset.mem_erase.2 ⟨?_, h.mentions j ?_⟩)
    · rintro rfl
      rw [(pivot?_entry hp).1, Int.fmod_self] at hj
      exact hj rfl
    · intro h0
      rw [h0, Int.zero_fmod] at hj
      exact hj rfl

/-- So does the form of the pivot's unknown. -/
theorem mentions_carried (h : Tracks c d live st)
    (hj : entry (st.carried p).coefficients j ≠ 0) :
    j ∈ insert st.coefficients.length (live.erase p.index) := by
  rw [entry_carried] at hj
  split at hj
  · next hjm => rw [hjm]; exact Finset.mem_insert_self _ _
  split at hj
  · exact absurd rfl hj
  · next hji =>
    exact Finset.mem_insert_of_mem (Finset.mem_erase.2 ⟨hji, h.live_of_fdiv (neg_ne_zero.1 hj)⟩)

/-- **A reduction trades the pivot's unknown for the fresh parameter.** -/
theorem reduced (h : Tracks c d live st) (hp : pivot? st.coefficients = some p)
    (hpos : 1 < p.value) :
    Tracks c d (insert st.coefficients.length (live.erase p.index)) (st.reduced c.length p) := by
  have hlt := (pivot?_entry hp).2
  have hi := h.pivot_live hp (by omega)
  have hlen : (st.reduced c.length p).coefficients.length = st.coefficients.length + 1 := by
    simp [State.reduced]
  have hfresh : st.coefficients.length ∉ live.erase p.index :=
    fun hm => h.length_not_live (Finset.mem_of_mem_erase hm)
  have hold : ∀ j ∈ live, j ≠ p.index →
      j ∈ insert st.coefficients.length (live.erase p.index) :=
    fun j hj hji => Finset.mem_insert_of_mem (Finset.mem_erase.2 ⟨hji, hj⟩)
  refine ⟨⟨p.value, by simp [State.reduced], by omega⟩, h.length_constants,
    by have := h.le_length; omega, ?_, ?_, fun j hj => h.mentions_reduced hp hj, ?_, ?_⟩
  · intro j hj
    rw [hlen]
    rcases Finset.mem_insert.1 hj with rfl | hj
    · omega
    · have := h.live_lt j (Finset.mem_of_mem_erase hj)
      omega
  · rw [Finset.card_insert_of_notMem hfresh, Finset.card_erase_add_one hi, h.card]
  · refine h.closed.eliminate hi (fun j hj => h.mentions_carried hj) ?_ hold (fun j hj => ?_)
    · rw [Finset.mem_insert]
      rintro (him | him)
      · omega
      · exact Finset.notMem_erase _ _ him
    · rcases Finset.mem_insert.1 hj with rfl | hj
      · exact Or.inr h.le_length
      · exact Or.inl (Finset.mem_of_mem_erase hj)
  · rw [hlen]
    exact h.bounded.eliminate (by omega) ⟨by rw [length_carried], Nat.zero_le _⟩

/-- The solution of a run is closed over the live indices but the last pivot's. -/
theorem closed_solved (h : Tracks c d live st) (hp : pivot? st.coefficients = some p)
    (hpos : 0 < p.value) :
    (st.solution.eliminate c.length p.index ((st.quotient p.value).solved p.index)).Closed
      c.length (live.erase p.index) := by
  refine h.closed.eliminate (h.pivot_live hp (by omega)) (fun j hj => ?_)
    (Finset.notMem_erase _ _) (fun j hj hji => Finset.mem_erase.2 ⟨hji, hj⟩)
    (fun j hj => Or.inl (Finset.mem_of_mem_erase hj))
  rw [entry_solved, quotient, entry_map_fdiv] at hj
  split at hj
  · exact absurd rfl hj
  · next hji => exact Finset.mem_erase.2 ⟨hji, h.live_of_fdiv (neg_ne_zero.1 hj)⟩

theorem bounded_solved (h : Tracks c d live st) :
    (st.solution.eliminate c.length p.index ((st.quotient p.value).solved p.index)).Bounded
      st.coefficients.length d.length :=
  h.bounded.eliminate le_rfl
    ⟨by simp [solved, quotient, invert, clear], by simp [solved, quotient, h.length_constants]⟩

end Tracks

end State

end GroupUnify.Diophantine
