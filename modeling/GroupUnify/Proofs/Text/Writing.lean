import GroupUnify.Proofs.Text.Digits
import Mathlib.Tactic.Common

/-!
# What can be written

Whatever is written from numbers is written exactly if all of them fit, and is refused for want of a
decimal form otherwise (`Decimal.Writes`). The relation goes through everything that texts are put
together with, so each printer has one lemma: its text, and the numbers that have to fit.
-/

namespace GroupUnify.Decimal

variable {α β : Type} {a : α} {b : β} {r : Except Error α} {P Q : Prop}

/-- The outcome is `a` if `P` holds, and else the refusal of a number that is too long. -/
structure Writes (r : Except Error α) (a : α) (P : Prop) : Prop where
  ok : P → r = .ok a
  refused : ¬ P → r = .error .unwritable

theorem writes_format (n : ℤ) : Writes (format n) (toString n) (Fits n) :=
  ⟨fun h => if_pos h, fun h => if_neg h⟩

namespace Writes

theorem pure (a : α) : Writes (.ok a) a True := ⟨fun _ => rfl, fun h => absurd trivial h⟩

theorem congr (h : Writes r a P) (hPQ : P ↔ Q) : Writes r a Q := ⟨fun hQ => h.ok (hPQ.2 hQ),
  fun hQ => h.refused fun hP => hQ (hPQ.1 hP)⟩

theorem map (h : Writes r a P) (f : α → β) : Writes (r.map f) (f a) P :=
  ⟨fun hP => by rw [h.ok hP]; rfl, fun hP => by rw [h.refused hP]; rfl⟩

/-- **Two writings, one after the other**: the numbers of both have to fit. -/
theorem bind {f : α → Except Error β} (h : Writes r a P) (hf : Writes (f a) b Q) :
    Writes (r >>= f) b (P ∧ Q) := by
  constructor
  · rintro ⟨hP, hQ⟩
    rw [h.ok hP]
    exact hf.ok hQ
  · intro hPQ
    by_cases hP : P
    · rw [h.ok hP]
      exact hf.refused fun hQ => hPQ ⟨hP, hQ⟩
    · rw [h.refused hP]
      rfl

/-- A text that is put together from the one of `r`. -/
theorem bind_pure (h : Writes r a P) (f : α → β) : Writes (r >>= fun a => Except.ok (f a)) (f a) P :=
  (h.bind (pure (f a))).congr (by rw [and_true])

end Writes

theorem writes_mapM {ι : Type} {f : ι → Except Error α} {g : ι → α} {P : ι → Prop} (is : List ι)
    (h : ∀ i ∈ is, Writes (f i) (g i) (P i)) :
    Writes (is.mapM f) (is.map g) (∀ i ∈ is, P i) := by
  induction is with
  | nil => exact (Writes.pure []).congr (by simp)
  | cons i is ih =>
    obtain ⟨hi, his⟩ := List.forall_mem_cons.1 h
    rw [List.mapM_cons]
    exact (hi.bind ((ih his).bind_pure (g i :: ·))).congr List.forall_mem_cons.symm

end GroupUnify.Decimal
