import GroupUnify.Proofs.Expression.Parsing
import GroupUnify.Proofs.Term.Order
import GroupUnify.Proofs.Term.Printing

/-!
# What is printed is read back

The tokens of a printed term are a sum of the grammar, and its expression adds the factors up one by one,
in the order in which they are printed (`derives_ofFactors`). Since no name comes twice, each factor that
is added goes to the end: the term that is read has the printed factors in the printed order
(`toTerm_ofFactors`), which is the canonical one (`Equation.parse_format`).
-/

namespace GroupUnify

open Token Grammar Term

variable {t : Term} {f : Factor} {fs : List Factor} {x : String} {k : ℕ}

namespace Term

/-- A term whose text is meant to be read again: its names are identifiers that are not reserved. -/
structure Readable (t : Term) : Prop where
  wellFormed : t.WellFormed
  identifiers : ∀ x ∈ t.names, IsIdentifier x
  free : ∀ x ∈ t.names, Parameter.isReserved x = false
  fits : t.Fits

instance (t : Term) : Decidable t.Readable :=
  decidable_of_iff (t.WellFormed ∧ (∀ x ∈ t.names, IsIdentifier x) ∧
    (∀ x ∈ t.names, Parameter.isReserved x = false) ∧ t.Fits)
    ⟨fun ⟨hwf, hidentifiers, hfree, hfits⟩ => ⟨hwf, hidentifiers, hfree, hfits⟩,
      fun h => ⟨h.wellFormed, h.identifiers, h.free, h.fits⟩⟩

theorem mem_names_canonical : x ∈ t.canonical.names ↔ x ∈ t.names :=
  ((List.mergeSort_perm t.factors Factor.le).map Prod.fst).mem_iff

theorem Readable.canonical (h : t.Readable) : t.canonical.Readable where
  wellFormed := h.wellFormed.canonical
  identifiers := fun x hx => h.identifiers x (mem_names_canonical.1 hx)
  free := fun x hx => h.free x (mem_names_canonical.1 hx)
  fits := fits_canonical.2 h.fits

end Term

namespace Expression

/-! ### The expression of a printed term -/

/-- The name `x` with a coefficient of size `k`. -/
def unsigned (x : String) (k : ℕ) : Expression :=
  if k = 1 then .name x else .multiple k (.name x)

/-- The first factor of a term. -/
def first (f : Factor) : Expression :=
  if f.2 < 0 then .neg (unsigned f.1 f.2.natAbs) else unsigned f.1 f.2.natAbs

/-- One more factor behind an expression. -/
def join (e : Expression) (f : Factor) : Expression :=
  if f.2 < 0 then .sub e (unsigned f.1 f.2.natAbs) else .add e (unsigned f.1 f.2.natAbs)

/-- What the text of the factors says. -/
def ofFactors : List Factor → Expression
  | [] => .zero
  | f :: fs => fs.foldl join (first f)

theorem derives_unsigned (hx : Parameter.isReserved x = false) (hk : k ≠ 0) :
    Derives .factor (unsignedTokens x k) (unsigned x k) := by
  rw [unsignedTokens, unsigned]
  split
  · exact .primary (.name hx)
  · have h := Derives.multiple (Decimal.digits_ne_zero hk) (.name hx)
    rw [Decimal.value_digits] at h
    exact h

theorem derives_join {ts : List Token} {e : Expression} (he : Derives .sum ts e)
    (hx : Parameter.isReserved f.1 = false) (hf : f.2 ≠ 0) :
    Derives .sum (ts ++ laterTokens f) (join e f) := by
  have hfactor := derives_unsigned hx (Int.natAbs_ne_zero.2 hf)
  rw [laterTokens, separator, join]
  split
  · exact .sub he hfactor
  · exact .add he (.factor hfactor)

theorem derives_foldl : ∀ {ts : List Token} {e : Expression}, Derives .sum ts e →
    (∀ f ∈ fs, Parameter.isReserved f.1 = false) → (∀ f ∈ fs, f.2 ≠ 0) →
      Derives .sum (ts ++ fs.flatMap laterTokens) (fs.foldl join e) := by
  -- a sum grows to the right, so what is derived already varies in the induction
  induction fs with
  | nil =>
    intro ts e he _ _
    rw [List.flatMap_nil, List.append_nil]
    exact he
  | cons f fs ih =>
    intro ts e he hfree hnonzero
    rw [List.forall_mem_cons] at hfree hnonzero
    rw [List.flatMap_cons, ← List.append_assoc]
    exact ih (derives_join he hfree.1 hnonzero.1) hfree.2 hnonzero.2

/-- **The tokens of a printed term are a sum** of its factors. -/
theorem derives_ofFactors (hfree : ∀ f ∈ fs, Parameter.isReserved f.1 = false)
    (hnonzero : ∀ f ∈ fs, f.2 ≠ 0) : Derives .sum (tokens fs) (ofFactors fs) := by
  cases fs with
  | nil => exact .summand (.factor (.primary .zero))
  | cons f fs =>
    rw [List.forall_mem_cons] at hfree hnonzero
    have hfactor := derives_unsigned hfree.1 (Int.natAbs_ne_zero.2 hnonzero.1)
    refine derives_foldl ?_ hfree.2 hnonzero.2
    rw [first]
    split
    · exact .summand (.neg hfactor)
    · exact .summand (.factor hfactor)

/-! ### The term that it stands for -/

theorem toTerm_unsigned (x : String) (hk : k ≠ 0) : (unsigned x k).toTerm = ⟨[(x, k)]⟩ := by
  rw [unsigned]
  split
  · next hone => rw [hone]; rfl
  · next hone => rw [toTerm, toTerm, var, scale_single (by omega), mul_one]

theorem toTerm_first (hf : f.2 ≠ 0) : (first f).toTerm = ⟨[f]⟩ := by
  have hunsigned := toTerm_unsigned f.1 (Int.natAbs_ne_zero.2 hf)
  rw [first]
  split
  · next hneg =>
    rw [toTerm, hunsigned]
    exact congrArg (fun c => Term.mk [(f.1, c)]) (by omega)
  · next hneg =>
    rw [hunsigned]
    exact congrArg (fun c => Term.mk [(f.1, c)]) (by omega)

theorem toTerm_join (e : Expression) (hf : f.2 ≠ 0) : (join e f).toTerm = e.toTerm + ⟨[f]⟩ := by
  rw [← toTerm_first hf, join, first]
  split <;> rfl

theorem toTerm_foldl : ∀ {gs : List Factor} {e : Expression}, e.toTerm = ⟨gs⟩ →
    WellFormed ⟨gs ++ fs⟩ → (fs.foldl join e).toTerm = ⟨gs ++ fs⟩ := by
  induction fs with
  | nil =>
    intro gs e he _
    rw [List.append_nil]
    exact he
  | cons f fs ih =>
    intro gs e he h
    have hf : f.2 ≠ 0 := h.nonzero f (by simp)
    rw [← List.singleton_append, ← List.append_assoc] at h ⊢
    refine ih ?_ h
    rw [toTerm_join e hf, he]
    exact add_append h.of_append.1

/-- **The expression of the factors stands for the term with these factors**, in their order. -/
theorem toTerm_ofFactors (h : WellFormed ⟨fs⟩) : (ofFactors fs).toTerm = ⟨fs⟩ := by
  cases fs with
  | nil => rfl
  | cons f fs => exact toTerm_foldl (toTerm_first (h.nonzero f List.mem_cons_self)) h

end Expression

/-! ### Reading it back -/

namespace Term

theorem short_of_mem_tokens (h : ∀ f ∈ fs, Decimal.Fits f.2) : ∀ t ∈ tokens fs, t.Short := by
  intro t ht
  rcases cases_of_mem_tokens ht with rfl | rfl | rfl | ⟨f, hf, rfl | rfl⟩
  · change 1 ≤ Decimal.digitLimit
    decide
  · trivial
  · trivial
  · trivial
  · exact Decimal.fits_iff.1 (h f hf)

theorem opening_not_mem_tokens (fs : List Factor) : opening ∉ tokens fs := by
  intro hmem
  rcases cases_of_mem_tokens hmem with h | h | h | ⟨f, -, h | h⟩ <;> cases h

namespace Readable

theorem scan_text (h : t.Readable) {rest : List Char} (hrest : Text.Halts isWordCharacter rest) :
    scan ((text t.factors).toList ++ rest) = tokens t.factors ++ scan rest :=
  Term.scan_text (fun _ hf => h.identifiers _ (List.mem_map_of_mem hf)) hrest

theorem derives (h : t.Readable) : Derives .sum (tokens t.factors) (Expression.ofFactors t.factors) :=
  Expression.derives_ofFactors (fun _ hf => h.free _ (List.mem_map_of_mem hf)) h.wellFormed.nonzero

theorem toTerm (h : t.Readable) : (Expression.ofFactors t.factors).toTerm = t :=
  Expression.toTerm_ofFactors h.wellFormed

/-- **The text of the factors of a readable term is read as this term.** -/
theorem parse_text [CallStack] (h : t.Readable) : Term.parse (text t.factors) = .ok t := by
  have htokens : ofString (text t.factors) = tokens t.factors := by
    have hscan := h.scan_text (Text.halts_nil _)
    rw [List.append_nil, scan_nil, List.append_nil] at hscan
    exact hscan
  have hshallow : Shallow CallStack.levels (tokens t.factors) :=
    Shallow.of_not_mem (opening_not_mem_tokens _) CallStack.levels_pos
  rw [Term.parse, htokens, Expression.ofTokens_of_derives h.derives (short_of_mem_tokens h.fits)
    (Expression.ofTokens_ne_tooDeep hshallow)]
  exact congrArg Except.ok h.toTerm

end Readable

end Term

namespace Equation

/-- The text of an equation. -/
def text (e : Equation) : String :=
  Term.text e.left.canonical.factors ++ " = " ++ Term.text e.right.canonical.factors

/-- All coefficients have a decimal form. -/
def Fits (e : Equation) : Prop := e.left.Fits ∧ e.right.Fits

instance (e : Equation) : Decidable e.Fits := inferInstanceAs (Decidable (_ ∧ _))

/-- **An equation has a text exactly if its coefficients fit.** -/
theorem writes_format (e : Equation) : Decimal.Writes e.format e.text e.Fits :=
  (Term.writes_format e.left).bind ((Term.writes_format e.right).bind_pure (_ ++ " = " ++ ·))

theorem text_canonical (e : Equation) : e.canonical.text = e.text := by
  rw [text, canonical, canonical_canonical, canonical_canonical]
  rfl

theorem scan_equals (cs : List Char) : scan (' ' :: '=' :: ' ' :: cs) = .symbol '=' :: scan cs := by
  rw [scan_space, scan_sign (by decide), scan_space]

theorem ofString_text {e : Equation} (hleft : e.left.Readable) (hright : e.right.Readable) :
    ofString e.text =
      tokens e.left.canonical.factors ++ .symbol '=' :: tokens e.right.canonical.factors := by
  have hr := hright.canonical.scan_text (Text.halts_nil _)
  rw [List.append_nil, scan_nil, List.append_nil] at hr
  -- the name before the sign ends at the blank
  have hhalts : Text.Halts isWordCharacter
      (' ' :: '=' :: ' ' :: (Term.text e.right.canonical.factors).toList) :=
    Text.halts_cons.2 (by decide +kernel)
  have hl := hleft.canonical.scan_text hhalts
  rw [scan_equals, hr] at hl
  rw [ofString, text, String.toList_append, String.toList_append, List.append_assoc]
  exact hl

/-- **A printed equation is read as its canonical form.** -/
theorem parse_text [CallStack] {e : Equation} (hleft : e.left.Readable) (hright : e.right.Readable) :
    Equation.parse e.text = .ok e.canonical := by
  have htokens := ofString_text hleft hright
  have hequation : IsEquation (ofString e.text) (Expression.ofFactors e.left.canonical.factors)
      (Expression.ofFactors e.right.canonical.factors) :=
    ⟨_, _, htokens, hleft.canonical.derives, hright.canonical.derives⟩
  have hshort : ∀ t ∈ ofString e.text, t.Short := by
    intro t ht
    rw [htokens, List.mem_append, List.mem_cons] at ht
    rcases ht with ht | rfl | ht
    · exact short_of_mem_tokens hleft.canonical.fits t ht
    · trivial
    · exact short_of_mem_tokens hright.canonical.fits t ht
  have hshallow : Shallow CallStack.levels (ofString e.text) := by
    refine Shallow.of_not_mem (fun hmem => ?_) CallStack.levels_pos
    rw [htokens, List.mem_append, List.mem_cons] at hmem
    rcases hmem with hmem | hmem | hmem
    · exact opening_not_mem_tokens _ hmem
    · cases hmem
    · exact opening_not_mem_tokens _ hmem
  rw [parse_of_isEquation hequation hshort (parse_ne_tooDeep hshallow), hleft.canonical.toTerm,
    hright.canonical.toTerm]
  rfl

/-- **Printing and then reading puts in canonical order** and changes nothing else, for terms and for both
sides of equations. -/
theorem parse_format [CallStack] {e : Equation} (ht : t.Readable) (hleft : e.left.Readable)
    (hright : e.right.Readable) :
    (∃ text, t.format = .ok text ∧ Term.parse text = .ok t.canonical) ∧
      ∃ text, e.canonical.format = .ok text ∧ Equation.parse text = .ok e.canonical := by
  refine ⟨⟨_, (Term.writes_format t).ok ht.fits, ht.canonical.parse_text⟩, ?_⟩
  have hfits : e.canonical.Fits := ⟨hleft.canonical.fits, hright.canonical.fits⟩
  refine ⟨_, (writes_format e.canonical).ok hfits, ?_⟩
  rw [text_canonical]
  exact parse_text hleft hright

/-- The term `y2 - x + 30é`, in another order, and the equation `-12x + ab2 = 0`. Digits stand before names
and in them. -/
theorem parse_format_digits_in_names :
    Term.Readable ⟨[("é", 30), ("y2", 1), ("x", -1)]⟩ ∧ Term.Readable ⟨[("x", -12), ("ab2", 1)]⟩ ∧
      Term.Readable 0 ∧
      (∃ text, Term.format ⟨[("é", 30), ("y2", 1), ("x", -1)]⟩ = .ok text ∧
        Term.parse text = .ok ⟨[("x", -1), ("y2", 1), ("é", 30)]⟩) ∧
      ∃ text, (canonical ⟨⟨[("x", -12), ("ab2", 1)]⟩, 0⟩).format = .ok text ∧
        Equation.parse text = .ok ⟨⟨[("ab2", 1), ("x", -12)]⟩, 0⟩ := by
  have ht : Term.Readable ⟨[("é", 30), ("y2", 1), ("x", -1)]⟩ := by decide +kernel
  have hleft : Term.Readable ⟨[("x", -12), ("ab2", 1)]⟩ := by decide +kernel
  have hright : Term.Readable 0 := by decide +kernel
  have hcanonical : Term.canonical ⟨[("é", 30), ("y2", 1), ("x", -1)]⟩ =
      ⟨[("x", -1), ("y2", 1), ("é", 30)]⟩ :=
    canonical_eq_of_pairwise (by decide) (by decide +kernel)
  have hsorted : Term.canonical ⟨[("x", -12), ("ab2", 1)]⟩ = ⟨[("ab2", 1), ("x", -12)]⟩ :=
    canonical_eq_of_pairwise (by decide) (by decide +kernel)
  have hzero : Term.canonical 0 = 0 := canonical_eq_of_pairwise (by decide) List.Pairwise.nil
  have hboth : canonical ⟨⟨[("x", -12), ("ab2", 1)]⟩, 0⟩ = ⟨⟨[("ab2", 1), ("x", -12)]⟩, 0⟩ :=
    congrArg₂ Equation.mk hsorted hzero
  obtain ⟨hterm, hequation⟩ := parse_format (e := ⟨⟨[("x", -12), ("ab2", 1)]⟩, 0⟩) ht hleft hright
  rw [hcanonical] at hterm
  rw [hboth] at hequation ⊢
  exact ⟨ht, hleft, hright, hterm, hequation⟩

end Equation

end GroupUnify
