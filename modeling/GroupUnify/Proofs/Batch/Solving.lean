import GroupUnify.Batch
import GroupUnify.Proofs.Expression.Parsing
import GroupUnify.Proofs.Unification.Instances

/-!
# Solving a text

A text that is read gives two well-formed terms, so the searches do what they are known to do: a unifier is
found, the matcher is right if there is one, and a check of the two finds nothing (`ofText_of_parse`). So
the errors of reports are those of the reader, and nothing else goes wrong (`ofText_sound`).
-/

namespace GroupUnify

variable {text : String} {e : Equation} {cause : ParseError}

namespace Solved

/-- A check finds nothing wrong with a unifier that unifies and a matcher that matches. -/
theorem checkError_eq_empty {σ : Substitution} {answer : Option Substitution}
    (hσ : σ.Unifies e.left e.right) (hanswer : ∀ μ, answer = some μ → μ.Matches e.left e.right) :
    checkError e (some σ) answer = "" := by
  have hmatcher : (answer.any fun μ => !decide (μ.Matches e.left e.right)) = false := by
    cases answer with
    | none => rfl
    | some μ => simp [hanswer μ rfl]
  have hunifier : ((some σ).any fun σ => !decide (σ.Unifies e.left e.right)) = false := by
    simp [hσ]
  simp only [checkError, hunifier, hmatcher]
  rfl

theorem ofText_of_parse_error [CallStack] (s : Settings) (h : Equation.parse text = .error cause) :
    ofText s text = ⟨⟨text, none, none, none, cause.message⟩, []⟩ := by
  rw [ofText, h]

/-- **A text that is read is solved**: the searches give right answers, and the report has no error,
whether they are checked or not. -/
theorem ofText_of_parse [CallStack] (s : Settings) (h : Equation.parse text = .ok e) :
    ∃ σ answer, (findUnifier e.left e.right).answer = .ok (some σ) ∧
      (findMatcher e.left e.right).answer = .ok answer ∧
      σ.Unifies e.left e.right ∧ (∀ μ, answer = some μ → μ.Matches e.left e.right) ∧
      ofText s text = ⟨⟨text, some e, some σ, answer, ""⟩,
        searchPage s.verbose "Unify" e (findUnifier e.left e.right) ++
          searchPage s.verbose "Match" e (findMatcher e.left e.right)⟩ := by
  obtain ⟨hleft, hright⟩ := Equation.wellFormed_of_parse h
  obtain ⟨σ, hσ⟩ := exists_findUnifier hleft e.right
  obtain ⟨answer, hanswer⟩ := exists_answer_of_findMatcher hleft e.right
  have hunifies : σ.Unifies e.left e.right := (unifies_iff_matches hleft e.right σ).2
    (matches_of_findMatcher (hleft.add (-e.right)) Term.wellFormed_zero hσ)
  have hmatches : ∀ μ, answer = some μ → μ.Matches e.left e.right := by
    rintro μ rfl
    exact matches_of_findMatcher hleft hright hanswer
  refine ⟨σ, answer, hσ, hanswer, hunifies, hmatches, ?_⟩
  rw [ofText, h]
  simp only [ofEquation, hσ, hanswer, checkError_eq_empty hunifies hmatches, ite_self]

theorem searchPage_quiet {search : Search} {answer : Option Substitution} (what : String)
    (h : search.answer = .ok answer) : searchPage false what e search = [] := by
  simp [searchPage, h]

/-- No message of the reader starts like that of a failed check. -/
theorem checkFailed_isPrefixOf_message (cause : ParseError) :
    Report.checkFailed.toList.isPrefixOf cause.message.toList = false := by
  cases cause <;> simp [Report.checkFailed, ParseError.message, List.isPrefixOf]

/-- No message of the reader is that of an equation that the solver refuses. -/
theorem message_ne_badProblem (cause : ParseError) (refusal : Diophantine.Error) :
    cause.message ≠ badProblem refusal := by
  intro h
  have hhead := congrArg (fun s => s.toList.head?) h
  cases cause <;> simp [ParseError.message, badProblem] at hhead

/-- **Solving a text never fails inside.** A text that is not read has a report with the reader's message
and nothing else. For a text that is read the solver refuses nothing, a unifier is found, it unifies, and
the matcher matches if there is one; the report, checked or not, holds them and no error. Without progress
to print nothing is printed on the way. So no text leads to a report of a refusal or of a failed check. -/
theorem ofText_sound [CallStack] (s : Settings) (text : String) :
    (∀ cause, Equation.parse text = .error cause →
      ofText s text = ⟨⟨text, none, none, none, cause.message⟩, []⟩) ∧
    (∀ e, Equation.parse text = .ok e →
      ∃ σ answer, (findUnifier e.left e.right).answer = .ok (some σ) ∧
        (findMatcher e.left e.right).answer = .ok answer ∧
        σ.Unifies e.left e.right ∧ (∀ μ, answer = some μ → μ.Matches e.left e.right) ∧
        (ofText s text).report = ⟨text, some e, some σ, answer, ""⟩) ∧
    (s.verbose = false → (ofText s text).progress = []) ∧
    (ofText s text).report.isUnsound = false ∧
    ∀ refusal, (ofText s text).report.error ≠ badProblem refusal := by
  refine ⟨fun cause h => ofText_of_parse_error s h, fun e h => ?_, ?_⟩
  · obtain ⟨σ, answer, hσ, hanswer, hunifies, hmatches, hsolved⟩ := ofText_of_parse s h
    exact ⟨σ, answer, hσ, hanswer, hunifies, hmatches, by rw [hsolved]⟩
  cases h : Equation.parse text with
  | error cause =>
    rw [ofText_of_parse_error s h]
    exact ⟨fun _ => rfl, checkFailed_isPrefixOf_message cause, message_ne_badProblem cause⟩
  | ok e =>
    obtain ⟨σ, answer, hσ, hanswer, -, -, hsolved⟩ := ofText_of_parse s h
    rw [hsolved]
    refine ⟨fun hverbose => ?_, rfl, fun refusal => ?_⟩
    · rw [hverbose, searchPage_quiet _ hσ, searchPage_quiet _ hanswer, List.nil_append]
    · simp [badProblem]

end Solved

end GroupUnify
