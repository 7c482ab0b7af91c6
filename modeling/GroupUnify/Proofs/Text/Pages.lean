import GroupUnify.Page
import GroupUnify.Proofs.Text.Writing

/-!
# Pages that are printed whole

A page whose pieces are written from numbers is printed whole exactly if all of them fit; otherwise it
stops for want of a decimal form (`Page.Prints`). Pages are put together piece by piece and one behind the
other, and so are their texts and the conditions under which they are printed.
-/

namespace GroupUnify.Page

variable {ε : Type} {cause : ε} {p q : Page ε} {s t : String} {P Q : Prop}

/-- The page prints `s` if `P` holds, and else it stops with `cause`. -/
structure Prints (cause : ε) (p : Page ε) (s : String) (P : Prop) : Prop where
  whole : P → p.failure? = none ∧ p.written = s
  stops : ¬ P → p.failure? = some cause

namespace Prints

theorem nil (cause : ε) : Prints cause [] "" True := ⟨fun _ => ⟨rfl, rfl⟩, fun h => absurd trivial h⟩

theorem congr (h : Prints cause p s P) (hPQ : P ↔ Q) : Prints cause p s Q :=
  ⟨fun hQ => h.whole (hPQ.2 hQ), fun hQ => h.stops fun hP => hQ (hPQ.1 hP)⟩

/-- **Two pages, one behind the other.** -/
theorem append (h : Prints cause p s P) (h' : Prints cause q t Q) :
    Prints cause (p ++ q) (s ++ t) (P ∧ Q) := by
  constructor
  · rintro ⟨hP, hQ⟩
    obtain ⟨hp, hs⟩ := h.whole hP
    obtain ⟨hq, ht⟩ := h'.whole hQ
    rw [failure?_append, written_append, hp, hq, if_pos rfl, hs, ht]
    exact ⟨rfl, rfl⟩
  · intro hPQ
    by_cases hP : P
    · rw [failure?_append, (h.whole hP).1, h'.stops fun hQ => hPQ ⟨hP, hQ⟩, Option.none_or]
    · rw [failure?_append, h.stops hP, Option.some_or]

theorem text (cause : ε) (s : String) : Prints cause [.ok s] s True :=
  ⟨fun _ => ⟨rfl, String.append_empty⟩, fun h => absurd trivial h⟩

/-- A text in front of a page. -/
theorem cons_text (s : String) (h : Prints cause q t Q) : Prints cause (.ok s :: q) (s ++ t) Q :=
  ((text cause s).append h).congr (by rw [true_and])

theorem flatMap {ι : Type} {f : ι → Page ε} {g : ι → String} {P : ι → Prop} (is : List ι)
    (h : ∀ i ∈ is, Prints cause (f i) (g i) (P i)) :
    Prints cause (is.flatMap f) (String.join (is.map g)) (∀ i ∈ is, P i) := by
  induction is with
  | nil => exact (nil cause).congr (by simp)
  | cons i is ih =>
    obtain ⟨hi, his⟩ := List.forall_mem_cons.1 h
    rw [List.flatMap_cons, List.map_cons, String.join_cons]
    exact (hi.append (ih his)).congr List.forall_mem_cons.symm

end Prints

/-- A piece that is written from numbers. -/
theorem prints_of_writes {r : Except Decimal.Error String} (h : Decimal.Writes r s P) :
    Prints .unwritable [r] s P :=
  ⟨fun hP => by rw [h.ok hP]; exact ⟨rfl, String.append_empty⟩, fun hP => by rw [h.refused hP]; rfl⟩

end GroupUnify.Page
