import GroupUnify.Proofs.Term.Equality
import GroupUnify.Proofs.Text.Writing
import GroupUnify.Proofs.Token.Scanning
import GroupUnify.Term.Printer

/-!
# Terms as texts, and their tokens

A term has a text exactly if all its coefficients fit (`writes_format`). Each factor is printed as a sign
and, behind it, the size of the coefficient and the name; the first factor has no sign if it is positive.
When the names are identifiers, the text is scanned as one expects (`scan_text`): the digits of a
coefficient end where the name starts, and the name ends where the next separator starts.
-/

namespace GroupUnify.Term

open Token Text

variable {t : Term} {f : Factor} {fs : List Factor} {x : String} {rest : List Char}

/-- All coefficients have a decimal form. -/
def Fits (t : Term) : Prop := ∀ f ∈ t.factors, Decimal.Fits f.2

instance (t : Term) : Decidable t.Fits := inferInstanceAs (Decidable (∀ f ∈ t.factors, _))

/-! ### The text -/

/-- The factor of the name `x` with a coefficient of size `k`, without its sign. -/
def unsignedText (x : String) (k : ℕ) : String := if k = 1 then x else toString k ++ x

/-- A factor after the first one, with its separator. -/
def laterText (f : Factor) : String :=
  (if f.2 < 0 then " - " else " + ") ++ unsignedText f.1 f.2.natAbs

/-- The factors after the first one. -/
def restText : List Factor → String
  | [] => ""
  | f :: fs => laterText f ++ restText fs

/-- The text of factors in the order given. -/
def text : List Factor → String
  | [] => "0"
  | f :: fs => (if f.2 < 0 then "-" else "") ++ unsignedText f.1 f.2.natAbs ++ restText fs

theorem writes_formatFactor (x : String) (c : ℤ) :
    Decimal.Writes (formatFactor x c) ((if c < 0 then "-" else "") ++ unsignedText x c.natAbs)
      (Decimal.Fits c) := by
  by_cases hsmall : c.natAbs = 1
  · -- no number is written, and the coefficient fits
    have hfits : Decimal.Fits c := Decimal.fits_of_natAbs_lt (by omega)
    refine ⟨fun _ => ?_, fun h => absurd hfits h⟩
    rcases Int.natAbs_eq_iff.1 hsmall with rfl | rfl
    · simp [formatFactor, unsignedText]
    · simp [formatFactor, unsignedText]
  · have htext : toString c ++ x = (if c < 0 then "-" else "") ++ unsignedText x c.natAbs := by
      rw [Decimal.toString_eq, unsignedText, if_neg hsmall, String.append_assoc]
    rw [formatFactor, if_neg (by omega), if_neg (by omega), ← htext]
    exact (Decimal.writes_format c).bind_pure (· ++ x)

theorem writes_formatLater (f : Factor) :
    Decimal.Writes (formatLater f) (laterText f) (Decimal.Fits f.2) := by
  rw [formatLater, laterText]
  split
  · next hneg =>
    have h := (writes_formatFactor f.1 (-f.2)).bind_pure (" - " ++ ·)
    rw [if_neg (by omega), Int.natAbs_neg, String.empty_append] at h
    exact h.congr Decimal.fits_neg
  · next hneg =>
    have h := (writes_formatFactor f.1 f.2).bind_pure (" + " ++ ·)
    rw [if_neg hneg, String.empty_append] at h
    exact h

theorem writes_formatRest (fs : List Factor) :
    Decimal.Writes (formatRest fs) (restText fs) (∀ f ∈ fs, Decimal.Fits f.2) := by
  induction fs with
  | nil => exact (Decimal.Writes.pure "").congr (by simp)
  | cons f fs ih =>
    exact ((writes_formatLater f).bind (ih.bind_pure (laterText f ++ ·))).congr (by simp)

theorem writes_formatFactors (fs : List Factor) :
    Decimal.Writes (formatFactors fs) (text fs) (∀ f ∈ fs, Decimal.Fits f.2) := by
  cases fs with
  | nil => exact (Decimal.Writes.pure "0").congr (by simp)
  | cons f fs =>
    exact ((writes_formatFactor f.1 f.2).bind ((writes_formatRest fs).bind_pure (_ ++ ·))).congr
      (by simp)

theorem fits_canonical : t.canonical.Fits ↔ t.Fits :=
  forall_congr' fun _ => by rw [canonical, List.mem_mergeSort]

/-- **A term has a text exactly if its coefficients fit.** -/
theorem writes_format (t : Term) : Decimal.Writes t.format (text t.canonical.factors) t.Fits :=
  (writes_formatFactors t.canonical.factors).congr fits_canonical

/-! ### The tokens -/

/-- The tokens of a factor with a coefficient of size `k`, without its sign. -/
def unsignedTokens (x : String) (k : ℕ) : List Token :=
  if k = 1 then [.identifier x] else [.number (Decimal.digits k), .identifier x]

/-- The sign between a factor and the one before it. -/
def separator (f : Factor) : Char := if f.2 < 0 then '-' else '+'

/-- The tokens of a factor after the first one. -/
def laterTokens (f : Factor) : List Token :=
  .symbol (separator f) :: unsignedTokens f.1 f.2.natAbs

/-- The tokens of factors in the order given. -/
def tokens : List Factor → List Token
  | [] => [.number ['0']]
  | f :: fs =>
    (if f.2 < 0 then [.symbol '-'] else []) ++ unsignedTokens f.1 f.2.natAbs ++
      fs.flatMap laterTokens

theorem cases_of_mem_unsignedTokens {t : Token} {k : ℕ} (ht : t ∈ unsignedTokens x k) :
    t = .identifier x ∨ t = .number (Decimal.digits k) := by
  rw [unsignedTokens] at ht
  split at ht
  · exact Or.inl (List.mem_singleton.1 ht)
  · simpa [or_comm] using ht

/-- **The tokens of a term**: the number zero, signs, names and the sizes of coefficients. -/
theorem cases_of_mem_tokens {t : Token} (ht : t ∈ tokens fs) :
    t = .number ['0'] ∨ t = .symbol '-' ∨ t = .symbol '+' ∨
      ∃ f ∈ fs, t = .identifier f.1 ∨ t = .number (Decimal.digits f.2.natAbs) := by
  cases fs with
  | nil => exact Or.inl (List.mem_singleton.1 ht)
  | cons f fs =>
    rw [tokens, List.mem_append, List.mem_append, List.mem_flatMap] at ht
    rcases ht with (hsign | hfirst) | ⟨g, hg, hlater⟩
    · split at hsign
      · exact Or.inr (Or.inl (List.mem_singleton.1 hsign))
      · exact absurd hsign List.not_mem_nil
    · exact Or.inr (Or.inr (Or.inr ⟨f, List.mem_cons_self, cases_of_mem_unsignedTokens hfirst⟩))
    · rw [laterTokens, List.mem_cons, separator] at hlater
      rcases hlater with rfl | hlater
      · split <;> simp
      · exact Or.inr (Or.inr (Or.inr ⟨g, List.mem_cons_of_mem f hg,
          cases_of_mem_unsignedTokens hlater⟩))

/-- A name does not start with a digit, so the digits before it end there. -/
theorem halts_identifier (hx : IsIdentifier x) (cs : List Char) :
    Halts Decimal.isDigit (x.toList ++ cs) := by
  obtain ⟨c, ds, hcs, hc, -⟩ := hx
  rw [hcs, List.cons_append, halts_cons]
  by_contra hdigit
  rw [Bool.not_eq_false] at hdigit
  rw [isLetter_eq_false_of_isDigit hdigit] at hc
  cases hc

theorem scan_unsignedText (hx : IsIdentifier x) (k : ℕ) (hrest : Halts isWordCharacter rest) :
    scan ((unsignedText x k).toList ++ rest) = unsignedTokens x k ++ scan rest := by
  rw [unsignedText, unsignedTokens]
  split
  · exact scan_identifier hx hrest
  · rw [String.toList_append, Decimal.toList_toString, List.append_assoc,
      scan_digits (halts_identifier hx rest), scan_identifier hx hrest]
    rfl

theorem toList_laterText (f : Factor) :
    (laterText f).toList = ' ' :: separator f :: ' ' :: (unsignedText f.1 f.2.natAbs).toList := by
  rw [laterText, String.toList_append, separator]
  split <;> rfl

theorem scan_separator (f : Factor) (cs : List Char) :
    scan (' ' :: separator f :: ' ' :: cs) = .symbol (separator f) :: scan cs := by
  have hsign : separator f ∈ signs := by
    unfold separator
    split <;> decide
  rw [scan_space, scan_sign hsign, scan_space]

/-- What is printed behind a factor starts with a blank, if anything is. -/
theorem halts_restText (fs : List Factor) (hrest : Halts isWordCharacter rest) :
    Halts isWordCharacter ((restText fs).toList ++ rest) := by
  cases fs with
  | nil => exact hrest
  | cons f fs =>
    rw [restText, String.toList_append, toList_laterText]
    exact halts_cons.2 (by decide +kernel)

theorem scan_restText (hfs : ∀ f ∈ fs, IsIdentifier f.1) (hrest : Halts isWordCharacter rest) :
    scan ((restText fs).toList ++ rest) = fs.flatMap laterTokens ++ scan rest := by
  induction fs with
  | nil => rfl
  | cons f fs ih =>
    obtain ⟨hf, hfs⟩ := List.forall_mem_cons.1 hfs
    rw [restText, String.toList_append, toList_laterText, List.append_assoc, List.cons_append,
      List.cons_append, List.cons_append, scan_separator,
      scan_unsignedText hf _ (halts_restText fs hrest), ih hfs, List.flatMap_cons, laterTokens,
      List.append_assoc, List.cons_append]

/-- **The text of factors is scanned as their tokens**, and scanning goes on behind it. -/
theorem scan_text (hfs : ∀ f ∈ fs, IsIdentifier f.1) (hrest : Halts isWordCharacter rest) :
    scan ((text fs).toList ++ rest) = tokens fs ++ scan rest := by
  cases fs with
  | nil => exact scan_digits (n := 0) (halts_isDigit hrest)
  | cons f fs =>
    obtain ⟨hf, hfs⟩ := List.forall_mem_cons.1 hfs
    have hunsigned := scan_unsignedText hf f.2.natAbs (halts_restText fs hrest)
    rw [scan_restText hfs hrest] at hunsigned
    rw [text, tokens, String.toList_append, String.toList_append, List.append_assoc,
      List.append_assoc, List.append_assoc, List.append_assoc]
    split
    · change scan ('-' :: ((unsignedText f.1 f.2.natAbs).toList ++ ((restText fs).toList ++ rest))) = _
      rw [scan_sign (by decide), hunsigned]
      rfl
    · exact hunsigned

end GroupUnify.Term
