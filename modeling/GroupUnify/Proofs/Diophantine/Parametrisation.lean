import GroupUnify.Proofs.Diophantine.Live
import Mathlib.Data.Set.Basic
import Mathlib.Tactic.Linarith

/-!
# The solver parametrises all integer solutions

A recorded solution gives values to the unknowns for each valuation of the live indices. Along a run
the valuations that satisfy the current equations give exactly the solutions of the equations at the
start, each of them once. A round changes valuations and nothing else (`Parametrises.change`):
a reduction moves the pivot's unknown by the floor quotients (`dot_carried`), and at the end that
unknown is what the divided equations say (`dot_solved`).

* `Parametrises`: a family of vectors runs once through the solutions of an equation.
* `Solution.Exact`: what a run tells of the solution it returns.
* `solve_exact`, `exists_unsolvable_of_solve`: what an answer says about the equations.
* `solve_parametrises`: the values of a returned solution, for every constant and without constants.
-/

namespace GroupUnify.Diophantine

open Relation

variable {c d : List ℤ} {live : Finset ℕ} {st next last : State} {p : Pivot} {k n : ℕ}

/-- **The vectors `x p`, for the valuations `p` in `dom`, are exactly the solutions `y` of `c · y = b`,
and each determines its valuation at the `free` indices.** -/
structure Parametrises (c : List ℤ) (b : ℤ) (dom : Set (ℕ → ℤ)) (x : (ℕ → ℤ) → ℕ → ℤ)
    (free : ℕ → Prop) : Prop where
  sound : ∀ p ∈ dom, dot c (x p) = b
  complete : ∀ y, dot c y = b → ∃ p ∈ dom, ∀ i < c.length, x p i = y i
  unique : ∀ p ∈ dom, ∀ q ∈ dom, (∀ i < c.length, x p i = x q i) → ∀ j, free j → p j = q j

/-- A change of valuations `T` that reaches every vector and loses nothing at the free indices. -/
theorem Parametrises.change {b : ℤ} {dom dom' : Set (ℕ → ℤ)} {x x' : (ℕ → ℤ) → ℕ → ℤ}
    {free free' : ℕ → Prop} (h : Parametrises c b dom x free) (T : (ℕ → ℤ) → ℕ → ℤ)
    (hx : ∀ p, ∀ i < c.length, x' p i = x (T p) i)
    (hdom : ∀ p, p ∈ dom' → T p ∈ dom)
    (honto : ∀ p ∈ dom, ∃ q ∈ dom', ∀ i < c.length, x (T q) i = x p i)
    (hfree : ∀ p q, (∀ j, free j → T p j = T q j) → ∀ j, free' j → p j = q j) :
    Parametrises c b dom' x' free' where
  sound := by
    intro p hp
    rw [dot_congr_of_lt (hx p)]
    exact h.sound _ (hdom p hp)
  complete := by
    intro y hy
    obtain ⟨p, hp, hxy⟩ := h.complete y hy
    obtain ⟨q, hq, hqp⟩ := honto p hp
    refine ⟨q, hq, fun i hi => ?_⟩
    rw [hx q i hi, hqp i hi, hxy i hi]
  unique := by
    intro p hp q hq hxx
    apply hfree p q
    apply h.unique _ (hdom p hp) _ (hdom q hq)
    intro i hi
    rw [← hx p i hi, ← hx q i hi, hxx i hi]

namespace State

/-- The valuations that satisfy the equations of a state for right hand side `k`. -/
def solutions (st : State) (k : ℕ) : Set (ℕ → ℤ) :=
  {p | dot st.coefficients p = entry st.constants k}

theorem mem_solutions {q : ℕ → ℤ} :
    q ∈ st.solutions k ↔ dot st.coefficients q = entry st.constants k := Iff.rfl

/-- **The state is faithful**: the solutions of its equations give those of `c · x = d k`, each once. -/
def Faithful (c d : List ℤ) (live : Finset ℕ) (st : State) : Prop :=
  ∀ k, Parametrises c (entry d k) (st.solutions k) (fun p => st.solution.value p k) (· ∈ live)

theorem faithful_start : Faithful c d (Finset.range c.length) ⟨c, d, []⟩ := by
  -- nothing is recorded yet, so a valuation is its own family of values
  intro k
  refine ⟨fun p hp => hp, fun y hy => ⟨y, hy, fun i _ => rfl⟩, fun p _ q _ hpq j hj => ?_⟩
  exact hpq j (Finset.mem_range.1 hj)

theorem Faithful.negated (h : Faithful c d live st) : Faithful c d live st.negated := by
  intro k
  refine (h k).change id (fun p i _ => rfl) (fun p hp => ?_) (fun p hp => ⟨p, ?_, fun i _ => rfl⟩)
    (fun p q hpq => hpq)
  · rw [mem_solutions, State.negated, dot_invert, entry_invert] at hp
    exact neg_injective hp
  · rw [mem_solutions] at hp
    rw [mem_solutions, State.negated, dot_invert, entry_invert, hp]

/-! ### Reduction -/

theorem dot_fdiv_add_dot_fmod (v : List ℤ) (a : ℤ) (q : ℕ → ℤ) :
    a * dot (v.map (·.fdiv a)) q + dot (v.map (·.fmod a)) q = dot v q := by
  induction v generalizing q with
  | nil => simp [dot]
  | cons x xs ih =>
    have hx := Int.mul_fdiv_add_fmod x a
    simp only [List.map_cons, dot, ← ih fun i => q (i + 1)]
    linear_combination q 0 * hx

/-- The value of the form of a reduction: the fresh parameter less the floor quotients of the rest. -/
theorem value_carried (hp : pivot? st.coefficients = some p) (hpos : 1 < p.value) (q : ℕ → ℤ) :
    (st.carried p).value q k =
      q st.coefficients.length - (dot (st.coefficients.map (·.fdiv p.value)) q - q p.index) := by
  have hone := fdiv_pivot hp (by omega)
  rw [carried_eq, Form.value, dot_append_singleton, dot_invert, dot_clear, entry_map_fdiv, hone]
  simp only [invert, clear, List.length_map, List.length_set, entry_nil]
  ring

/-- **Under the change of valuation the old equation says what the reduced one says.** -/
theorem dot_carried (hp : pivot? st.coefficients = some p) (hpos : 1 < p.value) (q : ℕ → ℤ) :
    dot st.coefficients (Function.update q p.index ((st.carried p).value q k)) =
      dot (st.reduced n p).coefficients q := by
  have hdiv := dot_fdiv_add_dot_fmod st.coefficients p.value q
  rw [dot_update, value_carried hp hpos, (pivot?_entry hp).1, reduced, dot_append_singleton,
    List.length_map]
  linear_combination -hdiv

/-- Every valuation below the fresh parameter comes from one in which the parameter makes up for the
quotients. -/
theorem exists_update_carried (hp : pivot? st.coefficients = some p) (hpos : 1 < p.value)
    (k : ℕ) (q : ℕ → ℤ) :
    ∃ q' : ℕ → ℤ, ∀ j < st.coefficients.length,
      Function.update q' p.index ((st.carried p).value q' k) j = q j := by
  have hlt := (pivot?_entry hp).2
  set m := st.coefficients.length with hm
  -- the quotients see only what is below the fresh parameter, so it can make up for any value
  set q' := Function.update q m
    (q p.index + (dot (st.coefficients.map (·.fdiv p.value)) q - q p.index)) with hq'
  have hlow : ∀ j < m, q' j = q j := fun j hj => by
    rw [hq', Function.update_of_ne (by omega)]
  have hquot : dot (st.coefficients.map (·.fdiv p.value)) q' =
      dot (st.coefficients.map (·.fdiv p.value)) q :=
    dot_congr_of_lt fun j hj => hlow j (by simpa using hj)
  have hval : (st.carried p).value q' k = q p.index := by
    rw [value_carried hp hpos, hquot, hlow p.index hlt, ← hm, hq', Function.update_self]
    ring
  refine ⟨q', fun j hj => ?_⟩
  rw [hval]
  by_cases hji : j = p.index
  · rw [hji, Function.update_self]
  · rw [Function.update_of_ne hji, hlow j hj]

theorem eq_of_update_eq {q r : ℕ → ℤ} {i : ℕ} {x y : ℤ}
    (h : ∀ j ∈ live, Function.update q i x j = Function.update r i y j) :
    ∀ j ∈ live.erase i, q j = r j := by
  intro j hj
  obtain ⟨hji, hjl⟩ := Finset.mem_erase.1 hj
  have hj' := h j hjl
  rwa [Function.update_of_ne hji, Function.update_of_ne hji] at hj'

/-- The change of valuation loses nothing: where the results agree on the old live indices, the
valuations agree on the new ones. -/
theorem eq_of_update_carried (ht : Tracks c d live st) (hp : pivot? st.coefficients = some p)
    (hpos : 1 < p.value) {q r : ℕ → ℤ}
    (hqr : ∀ j ∈ live, Function.update q p.index ((st.carried p).value q k) j =
      Function.update r p.index ((st.carried p).value r k) j) :
    ∀ j ∈ insert st.coefficients.length (live.erase p.index), q j = r j := by
  have hrest := eq_of_update_eq hqr
  intro j hj
  rcases Finset.mem_insert.1 hj with rfl | hj
  · -- the quotients agree, so the parameter does
    have hi := hqr p.index (ht.pivot_live hp (by omega))
    rw [Function.update_self, Function.update_self, value_carried hp hpos,
      value_carried hp hpos] at hi
    have hone := fdiv_pivot hp (by omega)
    have hquot : dot (clear p.index (st.coefficients.map (·.fdiv p.value))) q =
        dot (clear p.index (st.coefficients.map (·.fdiv p.value))) r := by
      apply dot_congr
      intro l hl
      rw [entry_clear, entry_map_fdiv] at hl
      split at hl
      · exact absurd rfl hl
      · next hli => exact hrest l (Finset.mem_erase.2 ⟨hli, ht.live_of_fdiv hl⟩)
    rw [dot_clear, dot_clear, entry_map_fdiv, hone] at hquot
    linarith
  · exact hrest j hj

/-- **A reduction stays faithful.** -/
theorem Faithful.reduced (h : Faithful c d live st) (ht : Tracks c d live st)
    (hp : pivot? st.coefficients = some p) (hpos : 1 < p.value) :
    Faithful c d (insert st.coefficients.length (live.erase p.index))
      (st.reduced c.length p) := by
  have hkey := ht.pivot_not_mem_keys hp (by omega)
  have hlt := (pivot?_entry hp).2
  have hself : entry (st.carried p).coefficients p.index = 0 := by
    rw [entry_carried, if_neg (by omega), if_pos rfl]
  intro k
  have hdom : ∀ q, q ∈ (st.reduced c.length p).solutions k ↔
      Function.update q p.index ((st.carried p).value q k) ∈ st.solutions k := by
    intro q
    rw [mem_solutions, mem_solutions, dot_carried hp hpos]
    rfl
  refine (h k).change (fun q => Function.update q p.index ((st.carried p).value q k))
    (fun q j hj => Solution.value_eliminate hkey hself hj q k) (fun q hq => (hdom q).1 hq)
    (fun q hq => ?_) (fun q r hqr => eq_of_update_carried ht hp hpos hqr)
  obtain ⟨q', hq'⟩ := exists_update_carried hp hpos k q
  refine ⟨q', (hdom q').2 ?_, fun j hj => ?_⟩
  · rw [mem_solutions] at hq ⊢
    rw [dot_congr_of_lt hq', hq]
  · exact ht.closed.value_congr hj fun l hl => hq' l (ht.live_lt l hl)

/-! ### The end of a run -/

theorem dvd_entry {v : List ℤ} {a : ℤ} (h : ∀ x ∈ v, a ∣ x) (j : ℕ) : a ∣ entry v j := by
  rcases lt_or_ge j v.length with hj | hj
  · rw [entry_of_lt hj]
    exact h _ (List.getElem_mem hj)
  · rw [entry_of_length_le hj]
    exact dvd_zero a

theorem mul_entry_map_fdiv {v : List ℤ} {a : ℤ} (h : ∀ x ∈ v, a ∣ x) (j : ℕ) :
    a * entry (v.map (·.fdiv a)) j = entry v j := by
  rw [entry_map_fdiv]
  exact Int.mul_fdiv_cancel_of_dvd (dvd_entry h j)

/-- Without remainders the quotients are all there is. -/
theorem mul_dot_map_fdiv {v : List ℤ} {a : ℤ} (h : ∀ x ∈ v, a ∣ x) (q : ℕ → ℤ) :
    a * dot (v.map (·.fdiv a)) q = dot v q := by
  have hrest : dot (v.map (·.fmod a)) q = 0 := by
    rw [← dot_zero (v.map (·.fmod a))]
    apply dot_congr
    intro j hj
    rw [entry_map_fmod] at hj
    exact absurd (Int.fmod_eq_zero_of_dvd (dvd_entry h j)) hj
  have hdiv := dot_fdiv_add_dot_fmod v a q
  rw [hrest, add_zero] at hdiv
  exact hdiv

/-- The value of the last form: what the divided equation leaves for the pivot's unknown. -/
theorem value_solved (hp : pivot? st.coefficients = some p) (hpos : 0 < p.value) (q : ℕ → ℤ) :
    ((st.quotient p.value).solved p.index).value q k =
      entry (st.constants.map (·.fdiv p.value)) k -
        (dot (st.coefficients.map (·.fdiv p.value)) q - q p.index) := by
  have hone := fdiv_pivot hp (by omega)
  rw [solved, quotient, Form.value, dot_invert, dot_clear, entry_map_fdiv, hone]
  ring

/-- **Every valuation satisfies the equation once the pivot's unknown has its value.** -/
theorem dot_solved (hp : pivot? st.coefficients = some p) (hpos : 0 < p.value)
    (hc : ∀ x ∈ st.coefficients, p.value ∣ x) (hd : ∀ y ∈ st.constants, p.value ∣ y)
    (q : ℕ → ℤ) :
    dot st.coefficients (Function.update q p.index
      (((st.quotient p.value).solved p.index).value q k)) = entry st.constants k := by
  have hcq := mul_dot_map_fdiv hc q
  have hdk := mul_entry_map_fdiv hd k
  rw [dot_update, value_solved hp hpos, (pivot?_entry hp).1]
  linear_combination hdk - hcq

end State

/-- What a run tells of the solution it returns for `c · x = d k`: forms closed over the live indices,
one fewer than unknowns, with vectors as short as the equations, and values that are exactly the
solutions. -/
structure Solution.Exact (c d : List ℤ) (live : Finset ℕ) (s : Solution) : Prop where
  closed : s.Closed c.length live
  card : live.card + 1 = c.length
  constants : ∀ f ∈ s, f.2.constants.length ≤ d.length
  parametrises : ∀ k, Parametrises c (entry d k) Set.univ (fun p => s.value p k) (· ∈ live)

theorem State.Faithful.solved (h : State.Faithful c d live st) (ht : State.Tracks c d live st)
    (hp : pivot? st.coefficients = some p) (hpos : 0 < p.value)
    (hc : ∀ x ∈ st.coefficients, p.value ∣ x) (hd : ∀ y ∈ st.constants, p.value ∣ y) :
    (st.solution.eliminate c.length p.index ((st.quotient p.value).solved p.index)).Exact c d
      (live.erase p.index) := by
  have hi := ht.pivot_live hp (by omega)
  have hkey := ht.pivot_not_mem_keys hp (by omega)
  have hself : entry ((st.quotient p.value).solved p.index).coefficients p.index = 0 := by
    rw [State.entry_solved, if_pos rfl]
  refine ⟨ht.closed_solved hp hpos, ?_, fun f hf => (ht.bounded_solved f hf).2, fun k => ?_⟩
  · rw [Finset.card_erase_add_one hi, ht.card]
  refine (h k).change
    (fun q => Function.update q p.index (((st.quotient p.value).solved p.index).value q k))
    (fun q j hj => Solution.value_eliminate hkey hself hj q k)
    (fun q _ => State.dot_solved hp hpos hc hd q) (fun q hq => ?_)
    (fun q r hqr => State.eq_of_update_eq hqr)
  · -- a solution gives the pivot's unknown that value already
    have hval : ((st.quotient p.value).solved p.index).value q k = q p.index := by
      have hcq := State.mul_dot_map_fdiv hc q
      have hdk := State.mul_entry_map_fdiv hd k
      have heq : dot (st.coefficients.map (·.fdiv p.value)) q =
          entry (st.constants.map (·.fdiv p.value)) k := by
        apply mul_left_cancel₀ (show p.value ≠ 0 by omega)
        rw [hcq, hdk, State.mem_solutions.1 hq]
      rw [State.value_solved hp hpos, heq]
      ring
    refine ⟨q, Set.mem_univ q, fun j _ => ?_⟩
    rw [hval, Function.update_eq_self]

/-! ### Whole runs -/

/-- The invariant of a run: its states track the live indices and are faithful. -/
theorem tracks_of_reaches (hc : ∃ x ∈ c, x ≠ 0)
    (h : ReflTransGen (Leads c.length) ⟨c, d, []⟩ last) :
    ∃ live, State.Tracks c d live last ∧ State.Faithful c d live last := by
  induction h with
  | refl => exact ⟨_, .start hc, State.faithful_start⟩
  | tail hreach hlead ih =>
    obtain ⟨live, ht, hf⟩ := ih
    obtain ⟨action, hadv⟩ := hlead
    cases hadv with
    | negate hp hneg => exact ⟨live, ht.negated, hf.negated⟩
    | reduce hp hpos hrest => exact ⟨_, ht.reduced hp hpos, hf.reduced ht hp hpos⟩

theorem solve_reaches (hc : ∃ x ∈ c, x ≠ 0) (d : List ℤ) :
    ∃ last action live, State.Tracks c d live last ∧ State.Faithful c d live last ∧
      Finishes c.length last action (solve c d).answer := by
  obtain ⟨x, hx, hx0⟩ := hc
  obtain ⟨last, action, hreach, hfin⟩ :=
    run_reaches c.length 1 ⟨c, d, []⟩ (List.ne_nil_of_mem hx)
  obtain ⟨live, ht, hf⟩ := tracks_of_reaches ⟨x, hx, hx0⟩ hreach
  exact ⟨last, action, live, ht, hf, hfin⟩

/-- **A returned solution is exact.** -/
theorem solve_exact {s : Solution} (hc : ∃ x ∈ c, x ≠ 0)
    (h : (solve c d).answer = .ok (some s)) : ∃ live, s.Exact c d live := by
  obtain ⟨last, action, live, ht, hf, hfin⟩ := solve_reaches hc d
  rw [h] at hfin
  cases hfin with
  | solved hp hpos hcdiv hddiv => exact ⟨_, hf.solved ht hp hpos hcdiv hddiv⟩

/-- **No solution is missed**: if none is returned, some right hand side has none. -/
theorem exists_unsolvable_of_solve (hc : ∃ x ∈ c, x ≠ 0) (h : (solve c d).answer = .ok none) :
    ∃ k < d.length, ∀ y, dot c y ≠ entry d k := by
  obtain ⟨last, action, live, ht, hf, hfin⟩ := solve_reaches hc d
  rw [h] at hfin
  cases hfin with
  | @unsolvable p hp hpos hcdiv hddiv =>
    obtain ⟨z, hz, hndvd⟩ := hddiv
    obtain ⟨k, hk, rfl⟩ := List.getElem_of_mem hz
    refine ⟨k, by rw [← ht.length_constants]; exact hk, fun y hy => hndvd ?_⟩
    -- a solution comes from a valuation, and at every valuation the pivot divides the left side
    obtain ⟨q, hq, -⟩ := (hf k).complete y hy
    rw [← entry_of_lt hk, ← State.mem_solutions.1 hq, ← State.mul_dot_map_fdiv hcdiv]
    exact dvd_mul_right _ _

/-- Equations with a non-zero coefficient never fail for want of a pivot or by a division. -/
theorem exists_answer_of_solve (hc : ∃ x ∈ c, x ≠ 0) (d : List ℤ) :
    ∃ answer, (solve c d).answer = .ok answer := by
  obtain ⟨last, action, live, ht, hf, hfin⟩ := solve_reaches hc d
  generalize (solve c d).answer = answer at hfin
  cases hfin with
  | @noPivot p hp hzero =>
    obtain ⟨x, hx, hx0⟩ := ht.nonzero
    exact absurd ((pivot?_spec hp).2.1 hzero x hx) hx0
  | unsolvable hp hpos hcdiv hddiv => exact ⟨none, rfl⟩
  | solved hp hpos hcdiv hddiv => exact ⟨_, rfl⟩

/-! ### Values without constants -/

namespace Solution

/-- The value of the unknown `i` under the valuation `p` with all constants left out. -/
def direction (s : Solution) (p : ℕ → ℤ) (i : ℕ) : ℤ :=
  match s.form? i with
  | some f => dot f.coefficients p
  | none => p i

theorem direction_zero (s : Solution) (i : ℕ) : s.direction 0 i = 0 := by
  unfold direction
  split
  · exact dot_zero _
  · rfl

/-- The indices that a solution leaves free: the unknowns, of `n`, without a form, and what the forms
mention. -/
def Free (n : ℕ) (s : Solution) (j : ℕ) : Prop :=
  (j < n ∧ j ∉ s.keys) ∨ ∃ f ∈ s, entry f.2.coefficients j ≠ 0

variable {s : Solution}

/-- Beyond the last right hand side there are no constants. -/
theorem Exact.value_length (h : s.Exact c d live) (p : ℕ → ℤ) :
    s.value p d.length = s.direction p := by
  funext i
  cases hf : s.form? i with
  | none => simp only [value, direction, hf]
  | some f =>
    have hlen := h.constants _ (mem_of_form? hf)
    simp only [value, direction, hf, Form.value]
    rw [entry_of_length_le hlen, add_zero]

theorem Exact.live_of_free (h : s.Exact c d live) {j : ℕ} (hj : s.Free c.length j) : j ∈ live := by
  rcases hj with ⟨hjn, hjk⟩ | ⟨f, hf, hfj⟩
  · by_contra hjl
    exact hjk ((h.closed.keys_iff j).2 ⟨hjn, hjl⟩)
  · exact h.closed.mentions f hf j hfj

end Solution

/-- **A returned solution parametrises all solutions exactly**, for every right hand side and for the
homogeneous equation. -/
theorem solve_parametrises {s : Solution} (hc : ∃ x ∈ c, x ≠ 0)
    (h : (solve c d).answer = .ok (some s)) :
    (∀ k < d.length,
      Parametrises c (entry d k) Set.univ (fun p => s.value p k) (s.Free c.length)) ∧
    Parametrises c 0 Set.univ s.direction (s.Free c.length) := by
  obtain ⟨live, hs⟩ := solve_exact hc h
  have hfree : ∀ k, Parametrises c (entry d k) Set.univ (fun p => s.value p k)
      (s.Free c.length) := by
    intro k
    obtain ⟨hsound, hcomplete, hunique⟩ := hs.parametrises k
    exact ⟨hsound, hcomplete, fun p hp q hq hpq j hj => hunique p hp q hq hpq j (hs.live_of_free hj)⟩
  refine ⟨fun k _ => hfree k, ?_⟩
  -- beyond the last right hand side stands zero
  have hlast := hfree d.length
  rw [entry_of_length_le le_rfl, show (fun p => s.value p d.length) = s.direction from
    funext hs.value_length] at hlast
  exact hlast

/-- The equations `64 x - 41 y = 1` and `64 x - 41 y = 0`. -/
theorem solve_parametrises_two_unknowns :
    ∃ s, (∃ x ∈ [64, -41], x ≠ (0 : ℤ)) ∧ (solve [64, -41] [1, 0]).answer = .ok (some s) ∧
      (∀ k < 2, Parametrises [64, -41] (entry [1, 0] k) Set.univ (fun p => s.value p k)
        (s.Free 2)) ∧
      Parametrises [64, -41] 0 Set.univ s.direction (s.Free 2) := by
  have hc : ∃ x ∈ [64, -41], x ≠ (0 : ℤ) := ⟨64, by simp, by decide⟩
  have h : (solve [64, -41] [1, 0]).answer = .ok (some
      [(0, ⟨[0, 0, 0, 0, 0, 0, -41], [-16, 0]⟩), (1, ⟨[0, 0, 0, 0, 0, 0, -64], [-25, 0]⟩)]) := by
    decide +kernel
  exact ⟨_, hc, h, solve_parametrises hc h⟩

end GroupUnify.Diophantine
