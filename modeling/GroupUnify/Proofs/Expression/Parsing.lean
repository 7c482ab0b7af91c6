import GroupUnify.Equation
import GroupUnify.Proofs.Expression.Reading
import GroupUnify.Proofs.Term.Equality

/-!
# A text is an equation exactly if the grammar says so

An expression keeps its meaning when it is summed up as a term: the coefficients of the term are those
that one computes from the expression directly, over the integers (`coefficient_toTerm`). With what the
readers are known to do, this settles what becomes of a text (`Equation.parse_decides`).
-/

namespace GroupUnify

open Token Grammar

namespace Expression

theorem wellFormed_toTerm (e : Expression) : e.toTerm.WellFormed := by
  induction e with
  | zero => exact Term.wellFormed_zero
  | name x => exact Term.wellFormed_var x
  | multiple k e ih => exact ih.scale k
  | neg e ih => exact ih.neg
  | add a b iha ihb => exact iha.add b.toTerm
  | sub a b iha ihb => exact iha.add (-b.toTerm)

theorem total_toTerm (e : Expression) (y : String) : e.toTerm.total y = e.coefficient y := by
  rw [Term.total_eq_eval]
  induction e with
  | zero => rfl
  | name x => exact Term.eval_var _ x
  | multiple k e ih => rw [toTerm, Term.eval_scale, ih, coefficient]
  | neg e ih => rw [toTerm, Term.eval_neg, ih, coefficient]
  | add a b iha ihb => rw [toTerm, Term.eval_add _ a.wellFormed_toTerm.nodup, iha, ihb, coefficient]
  | sub a b iha ihb =>
    rw [toTerm, Term.eval_add _ a.wellFormed_toTerm.nodup, Term.eval_neg, iha, ihb, coefficient,
      Int.sub_eq_add_neg]

/-- **The term that an expression stands for has the coefficients of the expression.** -/
theorem coefficient_toTerm (e : Expression) (y : String) :
    e.toTerm.coefficient y = e.coefficient y := by
  rw [e.wellFormed_toTerm.coefficient_eq_total, total_toTerm]

end Expression

namespace Equation

variable {text : String} {a b : Expression} {cause : ParseError}

theorem parse_of_pairOfTokens [CallStack] (h : Expression.pairOfTokens (ofString text) = .ok (a, b)) :
    parse text = .ok ⟨a.toTerm, b.toTerm⟩ := by
  rw [parse, h]
  rfl

theorem parse_eq_error_iff [CallStack] :
    parse text = .error cause ↔ Expression.pairOfTokens (ofString text) = .error cause := by
  rw [parse]
  cases Expression.pairOfTokens (ofString text) <;> simp [Except.map]

/-- **What becomes of a text**: its tokens are an equation, or the refusal is right about the limit that
it blames. -/
theorem cases_of_parse [CallStack] (text : String) :
    (∃ a b, parse text = .ok ⟨a.toTerm, b.toTerm⟩ ∧ IsEquation (ofString text) a b) ∨
      ∃ cause, parse text = .error cause ∧
        cause.Justified CallStack.levels (ofString text) := by
  rcases Expression.cases_of_pairOfTokens (ofString text) with
    ⟨a, b, hread, h⟩ | ⟨cause, hread, justified⟩
  · exact Or.inl ⟨a, b, parse_of_pairOfTokens hread, h⟩
  · exact Or.inr ⟨cause, parse_eq_error_iff.2 hread, justified⟩

/-- **Terms that are read are well-formed.** -/
theorem wellFormed_of_parse [CallStack] {e : Equation} (h : parse text = .ok e) :
    e.left.WellFormed ∧ e.right.WellFormed := by
  rcases cases_of_parse text with ⟨a, b, hread, -⟩ | ⟨cause, hread, -⟩
  · rw [hread] at h
    cases h
    exact ⟨a.wellFormed_toTerm, b.wellFormed_toTerm⟩
  · rw [hread] at h
    cases h

theorem parse_ne_tooDeep [CallStack] (h : Shallow CallStack.levels (ofString text)) :
    parse text ≠ .error .tooDeep := by
  intro hparse
  rcases cases_of_parse text with ⟨a, b, hread, -⟩ | ⟨cause, hread, justified⟩
  · rw [hread] at hparse
    cases hparse
  · rw [hread] at hparse
    cases hparse
    exact justified h

/-- Whatever expressions a derivation gives, they are the ones that are read. -/
theorem parse_of_isEquation [CallStack] (h : IsEquation (ofString text) a b)
    (hshort : ∀ t ∈ ofString text, t.Short) (hdeep : parse text ≠ .error .tooDeep) :
    parse text = .ok ⟨a.toTerm, b.toTerm⟩ := by
  rw [Ne, parse_eq_error_iff] at hdeep
  exact parse_of_pairOfTokens (Expression.pairOfTokens_of_isEquation h hshort hdeep)

/-- **Reading decides the grammar and keeps the meaning.** Let a text have no number that is too long.
The guard against deep nesting does not trip if fewer than `CallStack.levels` parentheses are ever open,
whatever call stack there is. Whenever it does not trip, the text is read exactly if its tokens are an
equation of the grammar, the sides are then well-formed terms with the coefficients that any derivation
gives them, and every other text is refused. -/
theorem parse_decides [CallStack] (text : String) (hshort : ∀ t ∈ ofString text, t.Short) :
    (Shallow CallStack.levels (ofString text) → parse text ≠ .error .tooDeep) ∧
    (parse text ≠ .error .tooDeep →
      ((∃ e, parse text = .ok e) ↔ ∃ a b, IsEquation (ofString text) a b) ∧
      (∀ a b, IsEquation (ofString text) a b →
        ∃ e, parse text = .ok e ∧ e.left.WellFormed ∧ e.right.WellFormed ∧
          ∀ y, e.left.coefficient y = a.coefficient y ∧ e.right.coefficient y = b.coefficient y) ∧
      ((¬ ∃ a b, IsEquation (ofString text) a b) →
        ∃ cause, parse text = .error cause ∧ ∀ digits, cause ≠ .tooLong digits)) := by
  refine ⟨parse_ne_tooDeep, fun hdeep => ⟨⟨?_, ?_⟩, fun a b h => ?_, fun hnone => ?_⟩⟩
  · rintro ⟨e, he⟩
    rcases cases_of_parse text with ⟨a, b, -, h⟩ | ⟨cause, hread, -⟩
    · exact ⟨a, b, h⟩
    · rw [hread] at he
      cases he
  · rintro ⟨a, b, h⟩
    exact ⟨_, parse_of_isEquation h hshort hdeep⟩
  · exact ⟨_, parse_of_isEquation h hshort hdeep, a.wellFormed_toTerm, b.wellFormed_toTerm,
      fun y => ⟨a.coefficient_toTerm y, b.coefficient_toTerm y⟩⟩
  · rcases cases_of_parse text with ⟨a, b, -, h⟩ | ⟨cause, hread, justified⟩
    · exact absurd ⟨a, b, h⟩ hnone
    · refine ⟨cause, hread, ?_⟩
      -- a refusal for its length would show a number that is too long
      rintro digits rfl
      exact justified.2 (hshort _ justified.1)

/-- A number may start with `0`, and a multiple by zero of a name is the identity. -/
theorem parse_decides_leading_zero :
    (∀ t ∈ ofString "2(x - y) = 00z", t.Short) ∧
    Shallow CallStack.levels (ofString "2(x - y) = 00z") ∧
    parse "2(x - y) = 00z" ≠ .error .tooDeep ∧
    ∃ e, parse "2(x - y) = 00z" = .ok e ∧
      e.left.coefficient "y" = -2 ∧ e.right.coefficient "z" = 0 := by
  have hshort : ∀ t ∈ ofString "2(x - y) = 00z", t.Short := by decide +kernel
  have hshallow : Shallow CallStack.levels (ofString "2(x - y) = 00z") := by decide +kernel
  have htokens : ofString "2(x - y) = 00z" =
      [.number ['2'], opening, .identifier "x", .symbol '-', .identifier "y", closing] ++
        .symbol '=' :: [.number ['0', '0'], .identifier "z"] := by decide +kernel
  have hx : Derives .primary [.identifier "x"] (.name "x") := .name (by decide +kernel)
  have hy : Derives .primary [.identifier "y"] (.name "y") := .name (by decide +kernel)
  have hz : Derives .primary [.identifier "z"] (.name "z") := .name (by decide +kernel)
  have hgroup : Derives .primary [opening, .identifier "x", .symbol '-', .identifier "y", closing]
      (.sub (.name "x") (.name "y")) := .group (.sub (.summand (.factor (.primary hx))) (.primary hy))
  have hequation : IsEquation (ofString "2(x - y) = 00z")
      (.multiple 2 (.sub (.name "x") (.name "y"))) (.multiple 0 (.name "z")) :=
    ⟨_, _, htokens, .summand (.factor (.multiple (by decide) hgroup)),
      .summand (.factor (.multiple (by decide) hz))⟩
  obtain ⟨hguard, hdecides⟩ := parse_decides "2(x - y) = 00z" hshort
  have hdeep := hguard hshallow
  obtain ⟨e, he, -, -, hcoefficient⟩ := (hdecides hdeep).2.1 _ _ hequation
  refine ⟨hshort, hshallow, hdeep, e, he, ?_, ?_⟩
  · rw [(hcoefficient "y").1]
    decide
  · rw [(hcoefficient "z").2]
    decide

end Equation

end GroupUnify
