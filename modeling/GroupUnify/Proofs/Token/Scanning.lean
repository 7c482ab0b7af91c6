import GroupUnify.Proofs.Text.Characters
import GroupUnify.Proofs.Text.Digits
import GroupUnify.Token

/-!
# Texts that are scanned as given tokens

Scanning goes from token to token: at each place the first character says which kind of token starts
there, and the token ends where its run of characters ends. So the text of a token is scanned as that token
if what follows it does not go on with its run, and blanks are passed over.
-/

namespace GroupUnify.Token

open Text

variable {c : Char} {cs ds rest : List Char} {x : String} {n : ℕ}

/-- A name that is scanned as one token: a letter, followed by letters and numeric characters. -/
def IsIdentifier (x : String) : Prop :=
  ∃ c cs, x.toList = c :: cs ∧ isLetter c = true ∧ ∀ d ∈ cs, isWordCharacter d = true

instance (x : String) : Decidable (IsIdentifier x) :=
  decidable_of_iff ((x.toList.head?.any isLetter && x.toList.tail.all isWordCharacter) = true) <| by
    cases h : x.toList <;> simp [IsIdentifier, h]

theorem isWordCharacter_of_isDigit (h : Decimal.isDigit c = true) : isWordCharacter c = true := by
  have hnumeric : numericRanges.contains c.toNat = true :=
    numericRanges.contains_iff.2 ⟨(0x30, 0x39), by decide +kernel, Decimal.toNat_of_isDigit h⟩
  rw [isWordCharacter, isNumeric, hnumeric, Bool.or_true]

/-- A text that does not go on as an identifier does not go on as a number. -/
theorem halts_isDigit (h : Halts isWordCharacter cs) : Halts Decimal.isDigit cs := by
  intro c hc
  by_contra hdigit
  rw [Bool.not_eq_false] at hdigit
  have hword := isWordCharacter_of_isDigit hdigit
  rw [h c hc] at hword
  cases hword

theorem scan_nil : scan [] = [] := by rw [scan]

theorem scan_blank (hc : isBlank c = true) : scan (c :: cs) = scan cs := by rw [scan, if_pos hc]

theorem scan_symbol (hblank : isBlank c = false) (hletter : isLetter c = false)
    (hdigit : Decimal.isDigit c = false) : scan (c :: cs) = .symbol c :: scan cs := by
  rw [scan, if_neg (by simp [hblank]), if_neg (by simp [hletter]), if_neg (by simp [hdigit])]

theorem scan_space (cs : List Char) : scan (' ' :: cs) = scan cs := scan_blank (by decide +kernel)

/-- The signs that are written between names and numbers. -/
def signs : List Char := ['+', '-', '=', '>', ',', '(', ')', '[', ']']

theorem scan_sign (hc : c ∈ signs) (cs : List Char) : scan (c :: cs) = .symbol c :: scan cs := by
  have hplain : signs.all (fun c => !isBlank c && !isLetter c && !Decimal.isDigit c) = true := by
    decide +kernel
  have hc := List.all_eq_true.1 hplain c hc
  obtain ⟨⟨hblank, hletter⟩, hdigit⟩ : (isBlank c = false ∧ isLetter c = false) ∧
      Decimal.isDigit c = false := by simpa using hc
  exact scan_symbol hblank hletter hdigit

/-- **An identifier is scanned as one token.** -/
theorem scan_identifier (hx : IsIdentifier x) (hrest : Halts isWordCharacter rest) :
    scan (x.toList ++ rest) = .identifier x :: scan rest := by
  obtain ⟨c, cs, hcs, hc, hword⟩ := hx
  rw [hcs, List.cons_append, scan, if_neg (by simp [isBlank_eq_false_of_isLetter hc]), if_pos hc,
    takeWhile_run hword hrest, dropWhile_run hword hrest, ← hcs, String.ofList_toList]

/-- **A run of digits is scanned as one token.** -/
theorem scan_number (hne : ds ≠ []) (hds : ∀ d ∈ ds, Decimal.isDigit d = true)
    (hrest : Halts Decimal.isDigit rest) : scan (ds ++ rest) = .number ds :: scan rest := by
  obtain ⟨c, cs, rfl⟩ := List.exists_cons_of_ne_nil hne
  obtain ⟨hc, hrun⟩ := List.forall_mem_cons.1 hds
  rw [List.cons_append, scan, if_neg (by simp [isBlank_eq_false_of_isDigit hc]),
    if_neg (by simp [isLetter_eq_false_of_isDigit hc]), if_pos hc, takeWhile_run hrun hrest,
    dropWhile_run hrun hrest]

theorem scan_digits (hrest : Halts Decimal.isDigit rest) :
    scan (Decimal.digits n ++ rest) = .number (Decimal.digits n) :: scan rest :=
  scan_number (Decimal.digits_ne_nil n) (fun _ => Decimal.isDigit_of_mem_digits) hrest

end GroupUnify.Token
