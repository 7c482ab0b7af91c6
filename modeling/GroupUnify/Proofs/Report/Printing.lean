import GroupUnify.Proofs.Expression.RoundTrip
import GroupUnify.Proofs.Text.Pages
import GroupUnify.Report.Printer

/-!
# The texts of answers and reports

A substitution has a text exactly if all coefficients in it fit (`Substitution.writes_format`). A report
is printed whole exactly if all coefficients fit that it prints (`Report.prints_page`): those of its
answers are not printed beside an error, and nothing is printed of an equation that could not be read.
-/

namespace GroupUnify

namespace Binding

/-- The text of a binding. -/
def text (b : Binding) : String := b.name ++ " -> " ++ Term.text b.term.canonical.factors

theorem writes_format (b : Binding) : Decimal.Writes b.format b.text b.term.Fits :=
  (Term.writes_format b.term).bind_pure (b.name ++ " -> " ++ ·)

end Binding

namespace Substitution

/-- All coefficients have a decimal form. -/
def Fits (s : Substitution) : Prop := ∀ b ∈ s, b.term.Fits

instance (s : Substitution) : Decidable s.Fits := inferInstanceAs (Decidable (∀ b ∈ s, _))

/-- The text of a substitution. -/
def text (s : Substitution) : String := "[" ++ ", ".intercalate (s.map Binding.text) ++ "]"

/-- **A substitution has a text exactly if its coefficients fit.** -/
theorem writes_format (s : Substitution) : Decimal.Writes s.format s.text s.Fits :=
  (Decimal.writes_mapM s fun b _ => b.writes_format).bind_pure fun texts =>
    "[" ++ ", ".intercalate texts ++ "]"

/-- The text of a substitution, or of its absence. -/
def answerText : Option Substitution → String
  | none => "no solution"
  | some s => s.text

theorem writes_formatAnswer (answer : Option Substitution) :
    Decimal.Writes (formatAnswer answer) (answerText answer) (∀ s ∈ answer, s.Fits) := by
  cases answer with
  | none => exact (Decimal.Writes.pure _).congr (by simp)
  | some s => exact s.writes_format.congr (by simp)

end Substitution

theorem Equation.fits_canonical (e : Equation) : e.canonical.Fits ↔ e.Fits :=
  and_congr Term.fits_canonical Term.fits_canonical

/-- A piece of output that is written from numbers. -/
theorem Page.prints_piece {r : Except Decimal.Error String} {s : String} {P : Prop}
    (h : Decimal.Writes r s P) : Prints (.decimal .unwritable) [Failure.piece r] s P :=
  ⟨fun hP => by rw [h.ok hP]; exact ⟨rfl, String.append_empty⟩, fun hP => by rw [h.refused hP]; rfl⟩

namespace Report

variable {r : Report}

/-- All coefficients have a decimal form. -/
structure Fits (r : Report) : Prop where
  equation : ∀ e ∈ r.equation, e.Fits
  unifier : ∀ s ∈ r.unifier, s.Fits
  matcher : ∀ s ∈ r.matcher, s.Fits

theorem fits_iff : r.Fits ↔
    (∀ e ∈ r.equation, e.Fits) ∧ (∀ s ∈ r.unifier, s.Fits) ∧ ∀ s ∈ r.matcher, s.Fits :=
  ⟨fun h => ⟨h.equation, h.unifier, h.matcher⟩, fun h => ⟨h.1, h.2.1, h.2.2⟩⟩

instance (r : Report) : Decidable r.Fits := decidable_of_iff' _ fits_iff

/-- All coefficients that are printed have a decimal form. -/
def Printable (r : Report) : Prop := ∀ e ∈ r.equation, e.Fits ∧
  (r.error.isEmpty = true → (∀ s ∈ r.unifier, s.Fits) ∧ ∀ s ∈ r.matcher, s.Fits)

/-- The text of a report. -/
def text (r : Report) : String :=
  match r.equation with
  | none => "Parse error: " ++ r.error ++ "  (in " ++ Text.quoted r.source ++ ")\n"
  | some e =>
    "Problem:   " ++ e.canonical.text ++ "\n" ++
      (if r.error.isEmpty then
        "Unifier:   " ++ Substitution.answerText r.unifier ++ "\n" ++
          ("Matcher:   " ++ Substitution.answerText r.matcher ++ "\n")
      else "Error:     " ++ r.error ++ "\n") ++ "\n"

theorem prints_labelled (label : String) {t : Except Decimal.Error String} {s : String} {P : Prop}
    (h : Decimal.Writes t s P) :
    Page.Prints (.decimal .unwritable) [labelled label t] (label ++ s ++ "\n") P :=
  Page.prints_piece (h.map fun t => label ++ t ++ "\n")

/-- **A report is printed whole exactly if the coefficients fit that it prints.** -/
theorem prints_page (r : Report) :
    Page.Prints (.decimal .unwritable) r.page r.text r.Printable := by
  cases hequation : r.equation with
  | none =>
    have hprintable : r.Printable ↔ True := by simp [Printable, hequation]
    rw [page, text, hequation]
    exact (Page.Prints.text _ _).congr hprintable.symm
  | some e =>
    have hproblem := prints_labelled "Problem:   "
      (e.canonical.writes_format.congr e.fits_canonical)
    rw [page, text, hequation]
    by_cases herror : r.error.isEmpty = true
    · have hanswers :=
        (prints_labelled "Unifier:   " (Substitution.writes_formatAnswer r.unifier)).append
          (prints_labelled "Matcher:   " (Substitution.writes_formatAnswer r.matcher))
      have h := (hproblem.append hanswers).append (.text _ "\n")
      simp only [herror]
      exact h.congr (by simp [Printable, hequation, herror])
    · have h := (hproblem.append (prints_labelled "Error:     " (.pure r.error))).append (.text _ "\n")
      simp only [herror]
      exact h.congr (by simp [Printable, hequation, herror])

end Report

end GroupUnify
