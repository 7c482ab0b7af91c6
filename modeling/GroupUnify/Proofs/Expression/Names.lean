import GroupUnify.Proofs.Expression.Parsing

/-!
# The names of a text

A name gets into an equation in one way only: as an identifier of the text that the reader of primaries
let pass, so it is not reserved. A phrase may stand inside others, hence the proof is by induction on the
derivation. Summing up loses names that cancel and adds none.

* `Expression.namedBy_of_derives`: the names of a phrase are identifiers among its tokens.
* `Equation.names_of_parse`: the names of an equation that is read from a text.
-/

namespace GroupUnify

open Token Grammar

variable {x : String} {e a b : Expression} {ts us : List Token} {k : Kind} {text : String}

namespace Expression

/-- The names in an expression, in the order in which they stand there. -/
def names : Expression → List String
  | .zero => []
  | .name x => [x]
  | .multiple _ e => e.names
  | .neg e => e.names
  | .add a b => a.names ++ b.names
  | .sub a b => a.names ++ b.names

theorem coefficient_of_not_mem (h : x ∉ e.names) : e.coefficient x = 0 := by
  induction e with
  | zero => rfl
  | name y =>
    have hne : y ≠ x := fun hyx => h (List.mem_singleton.2 hyx.symm)
    rw [coefficient, if_neg hne]
  | multiple k e ih => rw [coefficient, ih h, mul_zero]
  | neg e ih => rw [coefficient, ih h, neg_zero]
  | add a b iha ihb =>
    rw [names, List.mem_append, not_or] at h
    rw [coefficient, iha h.1, ihb h.2, add_zero]
  | sub a b iha ihb =>
    rw [names, List.mem_append, not_or] at h
    rw [coefficient, iha h.1, ihb h.2, sub_zero]

/-- Summing up adds no names. -/
theorem mem_names_of_toTerm (h : x ∈ e.toTerm.names) : x ∈ e.names := by
  by_contra hx
  rw [e.wellFormed_toTerm.mem_names_iff, total_toTerm] at h
  exact h (coefficient_of_not_mem hx)

/-- The names of the expression are identifiers among the tokens, and none is reserved. -/
def NamedBy (ts : List Token) (e : Expression) : Prop :=
  ∀ x ∈ e.names, Parameter.isReserved x = false ∧ .identifier x ∈ ts

theorem NamedBy.mono (h : NamedBy ts e) (hsubset : ts ⊆ us) : NamedBy us e :=
  fun x hx => ⟨(h x hx).1, hsubset (h x hx).2⟩

/-- Two phrases with a symbol between them. -/
theorem NamedBy.around (ha : NamedBy ts a) (hb : NamedBy us b) (t : Token) :
    ∀ x ∈ a.names ++ b.names, Parameter.isReserved x = false ∧ .identifier x ∈ ts ++ t :: us := by
  intro x hx
  rcases List.mem_append.1 hx with hx | hx
  · exact ha.mono (List.subset_append_left ts _) x hx
  · obtain ⟨hfree, hmem⟩ := hb x hx
    exact ⟨hfree, List.mem_append_right _ (List.mem_cons_of_mem t hmem)⟩

/-- **The names of a phrase are identifiers among its tokens, and none is reserved.** -/
theorem namedBy_of_derives (h : Derives k ts e) : NamedBy ts e := by
  induction h with
  | name free =>
    intro x hx
    rw [List.mem_singleton.1 hx]
    exact ⟨free, List.mem_singleton_self _⟩
  | zero => exact fun x hx => absurd hx List.not_mem_nil
  | group inner ih =>
    intro x hx
    obtain ⟨hfree, hmem⟩ := ih x hx
    exact ⟨hfree, List.mem_cons_of_mem _ (List.mem_append_left _ hmem)⟩
  | primary p ih => exact ih
  | multiple nonzero p ih => exact ih.mono (List.subset_cons_self _ _)
  | factor f ih => exact ih
  | neg f ih => exact ih.mono (List.subset_cons_self _ _)
  | summand s ih => exact ih
  | add left right ihl ihr => exact ihl.around ihr _
  | sub left right ihl ihr => exact ihl.around ihr _

end Expression

namespace Equation

variable {e : Equation}

/-- **The names of an equation are identifiers of its text, and none is reserved.** -/
theorem names_of_parse [CallStack] (h : parse text = .ok e) (hx : x ∈ e.left.names ∨ x ∈ e.right.names) :
    Parameter.isReserved x = false ∧ .identifier x ∈ ofString text := by
  rcases cases_of_parse text with
    ⟨a, b, hread, left, right, htokens, hleft, hright⟩ | ⟨cause, hread, -⟩
  · rw [hread] at h
    cases h
    rw [htokens]
    apply (Expression.namedBy_of_derives hleft).around (Expression.namedBy_of_derives hright)
    rw [List.mem_append]
    exact hx.imp Expression.mem_names_of_toTerm Expression.mem_names_of_toTerm
  · rw [hread] at h
    cases h

end Equation

end GroupUnify
