import GroupUnify.Proofs.Diophantine.Round
import Mathlib.Data.Nat.Size
import Mathlib.Tactic.Linarith
import Mathlib.Tactic.Positivity

/-!
# The shape of a run and a logarithmic bound on its rounds

A negative pivot can only be met in the first round: the remainders of a reduction are not negative.
After that every round but the last reduces, and the pivots fall. They fall by more than half every two
rounds, because a pivot stays among the coefficients as that of its parameter: two rounds later its
remainder modulo the pivot in between is there, or that pivot divides it (`two_mul_pivot_lt`).

* `Falling`: positive numbers that fall, by more than half every two places.
* `Records.falling`: the pivots of a run fall, from the first positive one on.
* `Falling.length_le`: there are at most twice as many as the first one has binary digits.
* `solve_rounds`: the shape of every run and the bound.
-/

namespace GroupUnify.Diophantine

variable {n number : ℕ} {c d : List ℤ} {st next : State} {p q : Pivot} {action : Action}
  {rounds : List Round} {answer : Answer} {u v : ℤ} {vs : List ℤ}

/-! ### Falling numbers -/

/-- Positive numbers, each less than the one before and less than half of the one before that. -/
structure Falling (vs : List ℤ) : Prop where
  pos : ∀ v ∈ vs, 0 < v
  decreasing : vs.Pairwise (· > ·)
  halving : ∀ i (h : i + 2 < vs.length), 2 * vs[i + 2] < vs[i]

namespace Falling

theorem singleton (hv : 0 < v) : Falling [v] := by
  refine ⟨fun w hw => ?_, List.pairwise_singleton _ _, fun i h => ?_⟩
  · rw [List.mem_singleton.1 hw]; exact hv
  · simp at h

/-- A number in front has to be compared with the next two only. -/
theorem cons (h : Falling (v :: vs)) (huv : v < u) (hhalf : ∀ w ∈ vs.head?, 2 * w < u) :
    Falling (u :: v :: vs) := by
  have hv := h.pos v List.mem_cons_self
  refine ⟨?_, ?_, ?_⟩
  · intro w hw
    rcases List.mem_cons.1 hw with rfl | hw
    · omega
    · exact h.pos w hw
  · refine List.pairwise_cons.2 ⟨fun w hw => ?_, h.decreasing⟩
    rcases List.mem_cons.1 hw with rfl | hw
    · exact huv
    · have := (List.pairwise_cons.1 h.decreasing).1 w hw
      omega
  · intro i hi
    rcases i with _ | i
    · cases vs with
      | nil => simp at hi
      | cons w ws => exact hhalf w rfl
    · exact h.halving i (by simp only [List.length_cons] at hi ⊢; omega)

/-- Every second number is less by one more power of two. -/
theorem pow_mul_le (h : Falling (v :: vs)) : ∀ k (hk : 2 * k < (v :: vs).length),
    (2 : ℤ) ^ k * (v :: vs)[2 * k] ≤ v := by
  intro k
  induction k with
  | zero => intro _; simp
  | succ k ih =>
    intro hk
    have hhalf := h.halving (2 * k) (by omega)
    have hprev := ih (by omega)
    have hpow : (0 : ℤ) < 2 ^ k := by positivity
    calc (2 : ℤ) ^ (k + 1) * (v :: vs)[2 * (k + 1)]
        = 2 ^ k * (2 * (v :: vs)[2 * k + 2]) := by rw [pow_succ, mul_assoc]; rfl
      _ ≤ 2 ^ k * (v :: vs)[2 * k] := by gcongr
      _ ≤ v := hprev

/-- **There are at most twice as many falling numbers as the first has binary digits.** -/
theorem length_le (h : Falling (v :: vs)) {b : ℕ} (hv : v < 2 ^ b) :
    (v :: vs).length ≤ 2 * b := by
  by_contra hlong
  -- the number at place `2 b` would be too small to be positive
  have hk : 2 * b < (v :: vs).length := by omega
  have hle := h.pow_mul_le b hk
  have hpos := h.pos _ (List.getElem_mem hk)
  have hpow : (0 : ℤ) < 2 ^ b := by positivity
  have : (2 : ℤ) ^ b * 1 ≤ 2 ^ b * (v :: vs)[2 * b] := by gcongr; omega
  omega

end Falling

/-! ### What a round does to the pivot -/

/-- After a turn of signs the pivot is positive. -/
theorem pivot?_negated (hp : pivot? st.coefficients = some p) :
    pivot? st.negated.coefficients = some ⟨p.index, -p.value⟩ := by
  rw [State.negated, pivot?_invert, hp, Option.map_some]

/-- With a positive pivot a round that goes on is a reduction, and the pivot falls. -/
theorem pivot_of_advances (hp : pivot? st.coefficients = some p) (hpos : 0 < p.value)
    (h : Advances n action st next) :
    action = .reduce ∧ p.value ∈ next.coefficients ∧
      ∃ q, pivot? next.coefficients = some q ∧ 0 < q.value ∧ q.value < p.value := by
  rcases cases_of_advances hp h with ⟨-, hneg, -⟩ | ⟨rfl, hone, hrest, rfl⟩
  · omega
  have hmem : p.value ∈ (st.reduced n p).coefficients := by simp [State.reduced]
  obtain ⟨q, hq⟩ := exists_pivot? (List.ne_nil_of_mem hmem)
  have hall : (st.coefficients.all fun x => x.fmod p.value == 0) = false := by
    rw [Bool.eq_false_iff, Ne, all_fmod_iff]
    push Not
    exact hrest
  have hlt := natAbs_pivot_remainders (by omega) hall hq
  have hne : q.value ≠ 0 := by
    intro h0
    have := (pivot?_spec hq).2.1 h0 p.value hmem
    omega
  exact ⟨rfl, hmem, q, hq, by omega, by omega⟩

theorem fmod_of_lt {u k : ℤ} (hk : 0 < k) (hu : k < u) :
    u.fmod k = 0 ∧ 2 * k ≤ u ∨ 0 < u.fmod k ∧ u.fmod k + k ≤ u := by
  have hlo := Int.fmod_nonneg_of_pos u hk
  have hhi := Int.fmod_lt_of_pos u hk
  have hdiv := Int.mul_fdiv_add_fmod u k
  set z := u.fdiv k
  -- without a remainder the quotient is two at least, else one at least
  rcases hlo.eq_or_lt with h0 | hpos
  · left
    refine ⟨h0.symm, ?_⟩
    have hz : 2 ≤ z := by
      by_contra hz
      have : k * z ≤ k * 1 := by gcongr; omega
      omega
    nlinarith
  · right
    refine ⟨hpos, ?_⟩
    have hz : 1 ≤ z := by
      by_contra hz
      have : k * z ≤ k * 0 := by gcongr; omega
      omega
    nlinarith

/-- **Two rounds halve.** The pivot after a reduction is less than half of every entry before it that is
greater than the pivot before it. -/
theorem two_mul_pivot_lt (hp : pivot? st.coefficients = some p) (hpos : 0 < p.value)
    (h : Advances n action st next) (hq : pivot? next.coefficients = some q)
    (hu : u ∈ st.coefficients) (hpu : p.value < u) : 2 * q.value < u := by
  obtain ⟨-, -, q', hq', hqpos, hqp⟩ := pivot_of_advances hp hpos h
  rw [hq] at hq'
  cases hq'
  rcases fmod_of_lt hpos hpu with ⟨-, hle⟩ | ⟨hrem, hle⟩
  · omega
  · rcases cases_of_advances hp h with ⟨-, hneg, -⟩ | ⟨-, -, -, rfl⟩
    · omega
    -- the remainder of `u` is among the new entries, so the new pivot is not greater
    have hmem : u.fmod p.value ∈ (st.reduced n p).coefficients :=
      List.mem_append_left _ (List.mem_map_of_mem hu)
    have := (pivot?_spec hq).2.2 _ hmem (by omega)
    omega

/-! ### Runs -/

/-- The pivots of rounds. -/
def pivots (rounds : List Round) : List ℤ := rounds.map fun r => r.pivot.value

/-- Rounds are numbered one by one. -/
theorem Records.numbers (h : Records n number st rounds answer) :
    rounds.map Round.number = List.range' number rounds.length := by
  induction h with
  | finish hp hfin => rfl
  | advance hp hadv later ih => rw [List.map_cons, List.length_cons, List.range'_succ, ih]

/-- The first pivot is that of the first state. -/
theorem Records.head_pivots (h : Records n number st rounds answer)
    (hp : pivot? st.coefficients = some p) : ∃ ws, pivots rounds = p.value :: ws := by
  cases h with
  | finish hp' hfin =>
    rw [hp] at hp'
    cases hp'
    exact ⟨_, rfl⟩
  | advance hp' hadv later =>
    rw [hp] at hp'
    cases hp'
    exact ⟨_, rfl⟩

/-- A negative pivot turns the signs, and the run goes on. -/
theorem Records.of_neg (h : Records n number st rounds answer)
    (hp : pivot? st.coefficients = some p) (hneg : p.value < 0) :
    ∃ later, rounds = ⟨number, .negate, p, st.coefficients, st.constants⟩ :: later ∧
      Records n (number + 1) st.negated later answer := by
  cases h with
  | finish hp' hfin =>
    have := nonneg_of_finishes hp hfin
    omega
  | advance hp' hadv later =>
    rw [hp] at hp'
    cases hp'
    rcases cases_of_advances hp hadv with ⟨rfl, -, rfl⟩ | ⟨-, hone, -, -⟩
    · exact ⟨_, rfl, later⟩
    · omega

/-- **The pivots of a run fall** from a positive one on, also after an entry that is greater than it. -/
theorem Records.falling (h : Records n number st rounds answer) : ∀ {p : Pivot},
    pivot? st.coefficients = some p → 0 < p.value →
      Falling (pivots rounds) ∧
        ∀ u ∈ st.coefficients, p.value < u → Falling (u :: pivots rounds) := by
  induction h with
  | @finish number st p' action answer hp' hfin =>
    intro p hp hpos
    rw [hp'] at hp
    cases hp
    have hone : Falling (pivots [⟨number, action, p', st.coefficients, st.constants⟩]) :=
      .singleton hpos
    exact ⟨hone, fun u _ hpu => hone.cons hpu (by simp)⟩
  | @advance number st next p' action rounds answer hp' hadv later ih =>
    intro p hp hpos
    rw [hp'] at hp
    cases hp
    obtain ⟨-, hmem, q, hq, hqpos, hqp⟩ := pivot_of_advances hp' hpos hadv
    -- the old pivot is an entry greater than the new one
    have hfall : Falling (p'.value :: pivots rounds) := (ih hq hqpos).2 p'.value hmem hqp
    refine ⟨hfall, fun u hu hpu => hfall.cons hpu fun w hw => ?_⟩
    obtain ⟨ws, hws⟩ := later.head_pivots hq
    rw [hws, List.head?_cons, Option.mem_some_iff] at hw
    rw [← hw]
    exact two_mul_pivot_lt hp' hpos hadv hq hu hpu

/-- A round with a result. -/
def Action.IsFinal (action : Action) : Prop :=
  action = .eliminate ∨ action = .divide ∨ action = .fail

theorem isFinal_of_finishes (h : Finishes n st action answer) : action.IsFinal := by
  cases h with
  | noPivot hp hzero => exact Or.inr (Or.inr rfl)
  | unsolvable hp hpos hc hd => exact Or.inr (Or.inr rfl)
  | solved hp hpos hc hd =>
    split
    · exact Or.inl rfl
    · exact Or.inr (Or.inl rfl)

/-- From a positive pivot on, rounds reduce until there is a result. -/
theorem Records.reductions (h : Records n number st rounds answer) : ∀ {p : Pivot},
    pivot? st.coefficients = some p → 0 < p.value →
      ∃ reductions last, rounds = reductions ++ [last] ∧
        (∀ r ∈ reductions, r.action = .reduce) ∧ last.action.IsFinal := by
  induction h with
  | finish hp' hfin =>
    intro p hp hpos
    exact ⟨[], _, rfl, fun r hr => absurd hr List.not_mem_nil, isFinal_of_finishes hfin⟩
  | advance hp' hadv later ih =>
    intro p hp hpos
    obtain ⟨haction, -, q, hq, hqpos, -⟩ := pivot_of_advances hp hpos hadv
    obtain ⟨reductions, last, rfl, hred, hlast⟩ := ih hq hqpos
    refine ⟨_ :: reductions, last, rfl, fun r hr => ?_, hlast⟩
    rcases List.mem_cons.1 hr with rfl | hr
    · exact haction
    · exact hred r hr

/-- The greatest absolute value of an entry. -/
def height (v : List ℤ) : ℕ := (v.map Int.natAbs).foldr max 0

theorem natAbs_le_height {v : List ℤ} {x : ℤ} (hx : x ∈ v) : x.natAbs ≤ height v := by
  induction v with
  | nil => exact absurd hx List.not_mem_nil
  | cons y v ih =>
    have hy : height (y :: v) = max y.natAbs (height v) := rfl
    rcases List.mem_cons.1 hx with rfl | hx
    · omega
    · have := ih hx
      omega

/-- The rounds of a run: at most one turn of signs, then `reductions`, then a `last` round with the
result; the pivots fall from the first reduction on. -/
structure Shape (turns reductions : List Round) (last : Round) : Prop where
  length_le : turns.length ≤ 1
  negates : ∀ r ∈ turns, r.action = .negate
  reduces : ∀ r ∈ reductions, r.action = .reduce
  ends : last.action.IsFinal
  falling : Falling (pivots (reductions ++ [last]))

/-- The rounds from a positive pivot on, and their number. -/
theorem Records.shape (h : Records n number st rounds answer)
    (hp : pivot? st.coefficients = some p) (hpos : 0 < p.value) {b : ℕ} (hb : p.value < 2 ^ b) :
    ∃ reductions last, rounds = reductions ++ [last] ∧ Shape [] reductions last ∧
      reductions.length + 1 ≤ 2 * b := by
  obtain ⟨reductions, last, rfl, hred, hlast⟩ := h.reductions hp hpos
  have hfall := (h.falling hp hpos).1
  refine ⟨reductions, last, rfl,
    ⟨Nat.zero_le _, fun r hr => absurd hr List.not_mem_nil, hred, hlast, hfall⟩, ?_⟩
  obtain ⟨ws, hws⟩ := h.head_pivots hp
  have hlen : (pivots (reductions ++ [last])).length = reductions.length + 1 := by
    simp [pivots]
  rw [← hlen, hws]
  rw [hws] at hfall
  exact hfall.length_le hb

/-- **The shape of every run, and a logarithmic bound on its reductions.** -/
theorem solve_rounds (hc : ∃ x ∈ c, x ≠ 0) (d : List ℤ) :
    ∃ turns reductions last, (solve c d).rounds = turns ++ reductions ++ [last] ∧
      Shape turns reductions last ∧
      (solve c d).rounds.map Round.number = List.range' 1 (solve c d).rounds.length ∧
      reductions.length ≤ 2 * Nat.size (height c) + 2 := by
  obtain ⟨x, hx, hx0⟩ := hc
  have hrec : Records c.length 1 ⟨c, d, []⟩ (solve c d).rounds (solve c d).answer :=
    run_records c.length 1 ⟨c, d, []⟩ (List.ne_nil_of_mem hx)
  have hnum := hrec.numbers
  obtain ⟨p, hp⟩ := exists_pivot? (List.ne_nil_of_mem hx)
  obtain ⟨hmem, hzero, -⟩ := pivot?_spec hp
  have hp0 : p.value ≠ 0 := fun h0 => hx0 (hzero h0 x hx)
  have hsize : p.value.natAbs < 2 ^ Nat.size (height c) :=
    lt_of_le_of_lt (natAbs_le_height hmem) (Nat.lt_size_self _)
  have hsize' : (p.value.natAbs : ℤ) < 2 ^ Nat.size (height c) := by exact_mod_cast hsize
  generalize (solve c d).rounds = rounds at hrec hnum ⊢
  rcases lt_or_gt_of_ne hp0 with hneg | hpos
  · -- the pivot is positive once the signs are turned
    obtain ⟨later, rfl, hlater⟩ := hrec.of_neg hp hneg
    obtain ⟨reductions, last, rfl, hshape, hlen⟩ :=
      hlater.shape (pivot?_negated hp) (b := Nat.size (height c)) (by simpa using hneg)
        (by simp only; omega)
    refine ⟨[_], reductions, last, rfl,
      ⟨le_rfl, fun r hr => ?_, hshape.reduces, hshape.ends, hshape.falling⟩, hnum, by omega⟩
    rw [List.mem_singleton.1 hr]
  · obtain ⟨reductions, last, rfl, hshape, hlen⟩ :=
      hrec.shape hp hpos (b := Nat.size (height c)) (by omega)
    exact ⟨[], reductions, last, rfl, hshape, hnum, by omega⟩

/-- The equation `64 x - 41 y = 1`, whose first pivot is negative. -/
theorem solve_rounds_negative_pivot :
    (∃ x ∈ [64, -41], x ≠ (0 : ℤ)) ∧
      ∃ turns reductions last, (solve [64, -41] [1]).rounds = turns ++ reductions ++ [last] ∧
        Shape turns reductions last ∧
        (solve [64, -41] [1]).rounds.map Round.number =
          List.range' 1 (solve [64, -41] [1]).rounds.length ∧
        reductions.length ≤ 2 * Nat.size 64 + 2 := by
  have hc : ∃ x ∈ [64, -41], x ≠ (0 : ℤ) := ⟨64, by simp, by decide⟩
  exact ⟨hc, solve_rounds hc [1]⟩

end GroupUnify.Diophantine
