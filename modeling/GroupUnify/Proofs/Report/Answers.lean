import GroupUnify.Proofs.Report.Printing

/-!
# Answers are known by their texts

Two answers with the same text are equal: both are the absence of a substitution, or they bind the same names
in the same order to equal terms (`formatAnswer_determines`). Names of parameters may stand in them, so a text
cannot be shown to be unambiguous by reading it again as a term of the user. But it is scanned as the tokens of
its parts, and tokens leave no choice: in front of whatever follows, the tokens of one factor are no others'
(`Term.eq_of_laterTokens`), a sum goes on as long as signs follow (`Term.eq_of_flatMap_laterTokens`), and so up
to whole substitutions (`Substitution.canonical_eq_of_tokens`).

Only the order of the factors is lost in a text. Zeros and repeated names in a term are printed like any other
factors, so the terms need not be well-formed.
-/

namespace GroupUnify

open Token Text

/-! ### Terms -/

namespace Term

variable {a b t : Term} {f g : Factor} {fs gs : List Factor} {x y : String} {k m : ℕ} {c : Char}
  {rest rest' : List Token}

/-- A term whose text shows where names end: they are identifiers. All its coefficients have a decimal form. -/
structure Legible (t : Term) : Prop where
  identifiers : ∀ x ∈ t.names, IsIdentifier x
  fits : t.Fits

instance (t : Term) : Decidable t.Legible :=
  decidable_of_iff ((∀ x ∈ t.names, IsIdentifier x) ∧ t.Fits)
    ⟨fun ⟨hidentifiers, hfits⟩ => ⟨hidentifiers, hfits⟩, fun h => ⟨h.identifiers, h.fits⟩⟩

theorem Legible.scan_text (h : t.Legible) {rest : List Char} (hrest : Halts isWordCharacter rest) :
    scan ((text t.canonical.factors).toList ++ rest) = tokens t.canonical.factors ++ scan rest := by
  refine Term.scan_text (fun f hf => h.identifiers f.1 ?_) hrest
  exact mem_names_canonical.1 (List.mem_map_of_mem hf)

/-- The tokens do not go on with a sum: a comma or a bracket follows, if anything does. -/
def Closes (rest : List Token) : Prop := ∀ t ∈ rest.head?, t = .symbol ',' ∨ t = .symbol ']'

theorem closes_nil : Closes [] := by simp [Closes]

theorem closes_cons {t : Token} : Closes (t :: rest) ↔ t = .symbol ',' ∨ t = .symbol ']' := by
  simp [Closes]

theorem Closes.ne_separator (h : Closes (.symbol (separator f) :: rest)) : False := by
  rw [closes_cons, separator] at h
  split at h <;> simp at h

/-- A factor starts with a name or a number. -/
theorem unsignedTokens_ne_symbol (x : String) (k : ℕ) :
    unsignedTokens x k ++ rest ≠ .symbol c :: rest' := by
  unfold unsignedTokens
  split <;> simp

/-- A factor that starts with a number goes on with its name. -/
theorem eq_of_number {ds : List Char} (h : .number ds :: rest = unsignedTokens x k ++ rest') :
    rest = .identifier x :: rest' := by
  unfold unsignedTokens at h
  split at h
  · simp at h
  · exact (List.cons.inj h).2

theorem eq_of_unsignedTokens (h : unsignedTokens x k ++ rest = unsignedTokens y m ++ rest') :
    x = y ∧ k = m ∧ rest = rest' := by
  unfold unsignedTokens at h
  split at h
  · next hk =>
    split at h
    · next hm =>
      simp only [List.singleton_append, List.cons.injEq, identifier.injEq] at h
      exact ⟨h.1, hk.trans hm.symm, h.2⟩
    · simp at h
  · next hk =>
    split at h
    · simp at h
    · next hm =>
      simp only [List.cons_append, List.nil_append, List.cons.injEq, number.injEq,
        identifier.injEq] at h
      obtain ⟨hdigits, hname, hrest⟩ := h
      have hvalue := congrArg Decimal.value hdigits
      rw [Decimal.value_digits, Decimal.value_digits] at hvalue
      exact ⟨hname, hvalue, hrest⟩

theorem eq_of_sign (hname : f.1 = g.1) (hsign : f.2 < 0 ↔ g.2 < 0) (hsize : f.2.natAbs = g.2.natAbs) :
    f = g :=
  Prod.ext hname (by omega)

theorem separator_eq_iff : separator f = separator g ↔ (f.2 < 0 ↔ g.2 < 0) := by
  unfold separator
  by_cases hf : f.2 < 0 <;> by_cases hg : g.2 < 0 <;> simp [hf, hg]

/-- **The tokens of a factor are no other factor's**, whatever follows. -/
theorem eq_of_laterTokens (h : laterTokens f ++ rest = laterTokens g ++ rest') : f = g ∧ rest = rest' := by
  unfold laterTokens at h
  rw [List.cons_append, List.cons_append, List.cons.injEq, symbol.injEq] at h
  obtain ⟨hsign, hunsigned⟩ := h
  obtain ⟨hname, hsize, hrest⟩ := eq_of_unsignedTokens hunsigned
  exact ⟨eq_of_sign hname (separator_eq_iff.1 hsign) hsize, hrest⟩

theorem eq_of_flatMap_laterTokens (hrest : Closes rest) (hrest' : Closes rest') : ∀ {gs : List Factor},
    fs.flatMap laterTokens ++ rest = gs.flatMap laterTokens ++ rest' → fs = gs ∧ rest = rest' := by
  induction fs with
  | nil =>
    intro gs h
    cases gs with
    | nil => exact ⟨rfl, h⟩
    | cons g gs =>
      rw [List.flatMap_nil, List.nil_append] at h
      rw [h] at hrest
      exact absurd hrest Closes.ne_separator
  | cons f fs ih =>
    intro gs h
    cases gs with
    | nil =>
      rw [List.flatMap_nil, List.nil_append] at h
      rw [← h] at hrest'
      exact absurd hrest' Closes.ne_separator
    | cons g gs =>
      rw [List.flatMap_cons, List.flatMap_cons, List.append_assoc, List.append_assoc] at h
      obtain ⟨rfl, htail⟩ := eq_of_laterTokens h
      obtain ⟨rfl, hrests⟩ := ih htail
      exact ⟨rfl, hrests⟩

theorem tokens_of_neg (hf : f.2 < 0) (fs : List Factor) (rest : List Token) : tokens (f :: fs) ++ rest =
    .symbol '-' :: (unsignedTokens f.1 f.2.natAbs ++ (fs.flatMap laterTokens ++ rest)) := by
  rw [tokens, if_pos hf, List.append_assoc, List.append_assoc, List.singleton_append]

theorem tokens_of_not_neg (hf : ¬ f.2 < 0) (fs : List Factor) (rest : List Token) :
    tokens (f :: fs) ++ rest =
      unsignedTokens f.1 f.2.natAbs ++ (fs.flatMap laterTokens ++ rest) := by
  rw [tokens, if_neg hf, List.nil_append, List.append_assoc]

/-- The identity is written with a number behind which no name follows, and no other term is. -/
theorem tokens_nil_ne (hrest : Closes rest) : tokens [] ++ rest ≠ tokens (f :: fs) ++ rest' := by
  intro h
  rw [tokens, List.singleton_append] at h
  by_cases hf : f.2 < 0
  · rw [tokens_of_neg hf] at h
    exact absurd (List.cons.inj h).1 (by simp)
  · rw [tokens_of_not_neg hf] at h
    rw [eq_of_number h, closes_cons] at hrest
    simp at hrest

/-- **The tokens of factors are those of no others**, if the sum ends there. -/
theorem eq_of_tokens (hrest : Closes rest) (hrest' : Closes rest')
    (h : tokens fs ++ rest = tokens gs ++ rest') : fs = gs ∧ rest = rest' := by
  cases fs with
  | nil =>
    cases gs with
    | nil => exact ⟨rfl, (List.cons.inj h).2⟩
    | cons g gs => exact absurd h (tokens_nil_ne hrest)
  | cons f fs =>
    cases gs with
    | nil => exact absurd h.symm (tokens_nil_ne hrest')
    | cons g gs =>
      have hfactors : (f.2 < 0 ↔ g.2 < 0) →
          unsignedTokens f.1 f.2.natAbs ++ (fs.flatMap laterTokens ++ rest) =
            unsignedTokens g.1 g.2.natAbs ++ (gs.flatMap laterTokens ++ rest') →
          f :: fs = g :: gs ∧ rest = rest' := by
        intro hsign hunsigned
        obtain ⟨hname, hsize, htail⟩ := eq_of_unsignedTokens hunsigned
        obtain ⟨rfl, hrests⟩ := eq_of_flatMap_laterTokens hrest hrest' htail
        exact ⟨by rw [eq_of_sign hname hsign hsize], hrests⟩
      -- with a minus sign in front of one of them only, it would stand for a name or a number
      by_cases hf : f.2 < 0
      · by_cases hg : g.2 < 0
        · rw [tokens_of_neg hf, tokens_of_neg hg] at h
          exact hfactors (iff_of_true hf hg) (List.cons.inj h).2
        · rw [tokens_of_neg hf, tokens_of_not_neg hg] at h
          exact absurd h.symm (unsignedTokens_ne_symbol _ _)
      · by_cases hg : g.2 < 0
        · rw [tokens_of_not_neg hf, tokens_of_neg hg] at h
          exact absurd h (unsignedTokens_ne_symbol _ _)
        · rw [tokens_of_not_neg hf, tokens_of_not_neg hg] at h
          exact hfactors (iff_of_false hf hg) h

/-- **Terms are known by their texts.** -/
theorem text_eq_iff (ha : a.Legible) (hb : b.Legible) :
    text a.canonical.factors = text b.canonical.factors ↔ a ≈ b := by
  constructor
  · intro h
    have hscan := ha.scan_text (halts_nil _)
    rw [h, hb.scan_text (halts_nil _), scan_nil] at hscan
    obtain ⟨hfactors, -⟩ := eq_of_tokens closes_nil closes_nil hscan
    exact Term.ext hfactors.symm
  · intro h
    exact congrArg (fun t : Term => text t.factors) h

end Term

/-! ### Bindings and substitutions -/

namespace Binding

variable {b c : Binding} {rest rest' : List Token}

/-- A binding whose text shows where names end. -/
structure Legible (b : Binding) : Prop where
  name : IsIdentifier b.name
  term : b.term.Legible

instance (b : Binding) : Decidable b.Legible :=
  decidable_of_iff (IsIdentifier b.name ∧ b.term.Legible)
    ⟨fun ⟨hname, hterm⟩ => ⟨hname, hterm⟩, fun h => ⟨h.name, h.term⟩⟩

/-- The bindings put equal terms in for the same name. -/
def Same (b c : Binding) : Prop := b.name = c.name ∧ b.term ≈ c.term

theorem Same.text_eq (h : b.Same c) : b.text = c.text := by
  have hterm : b.term.canonical = c.term.canonical := h.2
  rw [text, text, h.1, hterm]

/-- The tokens of a binding. -/
def tokens (b : Binding) : List Token :=
  .identifier b.name :: .symbol '-' :: .symbol '>' :: Term.tokens b.term.canonical.factors

theorem scan_arrow (cs : List Char) :
    scan (' ' :: '-' :: '>' :: ' ' :: cs) = .symbol '-' :: .symbol '>' :: scan cs := by
  rw [scan_space, scan_sign (by decide), scan_sign (by decide), scan_space]

theorem Legible.scan_text (h : b.Legible) {rest : List Char} (hrest : Halts isWordCharacter rest) :
    scan (b.text.toList ++ rest) = b.tokens ++ scan rest := by
  have htext : b.text.toList ++ rest = b.name.toList ++ (' ' :: '-' :: '>' :: ' ' ::
      ((Term.text b.term.canonical.factors).toList ++ rest)) := by
    rw [text, String.toList_append, String.toList_append, List.append_assoc, List.append_assoc]
    rfl
  rw [htext, scan_identifier h.name (halts_cons.2 (by decide +kernel)), scan_arrow,
    h.term.scan_text hrest]
  rfl

theorem same_of_tokens (hrest : Term.Closes rest) (hrest' : Term.Closes rest')
    (h : b.tokens ++ rest = c.tokens ++ rest') : b.Same c ∧ rest = rest' := by
  simp only [tokens, List.cons_append, List.cons.injEq, identifier.injEq, true_and] at h
  obtain ⟨hname, hterm⟩ := h
  obtain ⟨hfactors, hrests⟩ := Term.eq_of_tokens hrest hrest' hterm
  exact ⟨⟨hname, Term.ext hfactors⟩, hrests⟩

end Binding

namespace Substitution

variable {s r : Substitution} {o p : Option Substitution} {a b : Term} {c : Binding}

/-- A substitution whose text shows where names end. -/
def Legible (s : Substitution) : Prop := ∀ b ∈ s, b.Legible

instance (s : Substitution) : Decidable s.Legible := inferInstanceAs (Decidable (∀ b ∈ s, b.Legible))

theorem Legible.fits (h : s.Legible) : s.Fits := fun b hb => (h b hb).term.fits

/-- The substitutions bind the same names in the same order to equal terms. -/
def Same (s r : Substitution) : Prop := List.Forall₂ Binding.Same s r

/-- The text behind the first binding. -/
def restText (s : Substitution) : List Char := s.flatMap fun b => ',' :: ' ' :: b.text.toList

/-- The tokens behind the first binding. -/
def restTokens (s : Substitution) : List Token := s.flatMap fun b => .symbol ',' :: b.tokens

/-- The tokens behind the opening bracket. -/
def tokens : Substitution → List Token
  | [] => [.symbol ']']
  | b :: s => b.tokens ++ (restTokens s ++ [.symbol ']'])

theorem toList_intercalate_text (b : Binding) (s : Substitution) :
    (", ".intercalate ((b :: s).map Binding.text)).toList = b.text.toList ++ restText s := by
  induction s generalizing b with
  | nil => simp [restText]
  | cons c s ih =>
    rw [List.map_cons, List.map_cons, String.intercalate_cons_cons, ← List.map_cons,
      String.toList_append, String.toList_append, ih, List.append_assoc]
    rfl

/-- Behind a binding a comma or the closing bracket follows. -/
theorem halts_restText (s : Substitution) : Halts isWordCharacter (restText s ++ [']']) := by
  cases s with
  | nil => exact halts_cons.2 (by decide +kernel)
  | cons b s => exact halts_cons.2 (by decide +kernel)

theorem closes_restTokens (s : Substitution) : Term.Closes (restTokens s ++ [.symbol ']']) := by
  cases s with
  | nil => exact Term.closes_cons.2 (Or.inr rfl)
  | cons b s => exact Term.closes_cons.2 (Or.inl rfl)

theorem Legible.scan_restText (h : s.Legible) :
    scan (restText s ++ [']']) = restTokens s ++ [.symbol ']'] := by
  induction s with
  | nil =>
    have hbracket := scan_sign (c := ']') (by decide) []
    rw [scan_nil] at hbracket
    exact hbracket
  | cons b s ih =>
    obtain ⟨hb, hs⟩ := List.forall_mem_cons.1 h
    have htext : restText (b :: s) ++ [']'] =
        ',' :: ' ' :: (b.text.toList ++ (restText s ++ [']'])) := by
      simp [restText]
    rw [htext, scan_sign (by decide), scan_space, hb.scan_text (halts_restText s), ih hs]
    simp [restTokens]

theorem same_of_restTokens : ∀ {r : Substitution},
    restTokens s ++ [.symbol ']'] = restTokens r ++ [.symbol ']'] → s.Same r := by
  induction s with
  | nil =>
    intro r h
    cases r with
    | nil => exact .nil
    | cons c r => simp [restTokens] at h
  | cons b s ih =>
    intro r h
    cases r with
    | nil => simp [restTokens] at h
    | cons c r =>
      have hcons : ∀ b s, restTokens (b :: s) ++ [.symbol ']'] =
          .symbol ',' :: (b.tokens ++ (restTokens s ++ [.symbol ']'])) := by
        intro b s
        simp [restTokens]
      rw [hcons, hcons] at h
      obtain ⟨hbinding, htail⟩ := Binding.same_of_tokens (closes_restTokens s) (closes_restTokens r)
        (List.cons.inj h).2
      exact .cons hbinding (ih htail)

/-- **The text of a substitution is scanned as its tokens.** -/
theorem Legible.ofString_text (h : s.Legible) : ofString s.text = .symbol '[' :: s.tokens := by
  cases s with
  | nil => decide +kernel
  | cons b s =>
    obtain ⟨hb, hs⟩ := List.forall_mem_cons.1 h
    have htext : (text (b :: s)).toList = '[' :: (b.text.toList ++ (restText s ++ [']'])) := by
      rw [text, String.toList_append, String.toList_append, toList_intercalate_text,
        List.append_assoc, List.append_assoc]
      rfl
    rw [ofString, htext, scan_sign (by decide), hb.scan_text (halts_restText s), scan_restText hs, tokens]

theorem same_of_tokens (h : s.tokens = r.tokens) : s.Same r := by
  cases s with
  | nil =>
    cases r with
    | nil => exact .nil
    | cons c r => simp [tokens, Binding.tokens] at h
  | cons b s =>
    cases r with
    | nil => simp [tokens, Binding.tokens] at h
    | cons c r =>
      obtain ⟨hbinding, htail⟩ := Binding.same_of_tokens (closes_restTokens s) (closes_restTokens r) h
      exact .cons hbinding (same_of_restTokens htail)

theorem Same.text_eq (h : s.Same r) : s.text = r.text := by
  have htexts : s.map Binding.text = r.map Binding.text := by
    induction h with
    | nil => rfl
    | cons hbinding _ ih => rw [List.map_cons, List.map_cons, hbinding.text_eq, ih]
  rw [text, text, htexts]

/-- **Substitutions are known by their texts.** -/
theorem text_eq_iff (hs : s.Legible) (hr : r.Legible) : s.text = r.text ↔ s.Same r := by
  constructor
  · intro h
    have htokens := hs.ofString_text
    rw [h, hr.ofString_text] at htokens
    exact same_of_tokens (List.cons.inj htokens).2.symm
  · exact Same.text_eq

/-- Whether there is an answer shows in its first token. -/
theorem Legible.text_ne (h : s.Legible) : s.text ≠ "no solution" := by
  intro htext
  have htokens := h.ofString_text
  have hno : ofString "no solution" = [.identifier "no", .identifier "solution"] := by decide +kernel
  rw [htext, hno] at htokens
  simp at htokens

/-- **Answers are known by their texts.** -/
theorem answerText_eq_iff (ho : ∀ s ∈ o, s.Legible) (hp : ∀ s ∈ p, s.Legible) :
    answerText o = answerText p ↔ Option.Rel Same o p := by
  cases o with
  | none =>
    cases p with
    | none => exact iff_of_true rfl .none
    | some r => exact iff_of_false (fun h => (hp r rfl).text_ne h.symm) (by rintro ⟨⟩)
  | some s =>
    cases p with
    | none => exact iff_of_false (ho s rfl).text_ne (by rintro ⟨⟩)
    | some r =>
      rw [Option.rel_some_some]
      exact text_eq_iff (ho s rfl) (hp r rfl)

/-- **Printed answers determine the answers.** If names are identifiers and all coefficients have a decimal
form, both answers have a text, and the texts are the same exactly if both say that there is no substitution,
or both bind the same names in the same order to equal terms. So it is for two terms. -/
theorem formatAnswer_determines (ho : ∀ s ∈ o, s.Legible) (hp : ∀ s ∈ p, s.Legible) (ha : a.Legible)
    (hb : b.Legible) :
    (∃ u v, formatAnswer o = .ok u ∧ formatAnswer p = .ok v ∧ (u = v ↔ Option.Rel Same o p)) ∧
      ∃ u v, a.format = .ok u ∧ b.format = .ok v ∧ (u = v ↔ a ≈ b) := by
  have hofits : ∀ s ∈ o, s.Fits := fun s hs => (ho s hs).fits
  have hpfits : ∀ s ∈ p, s.Fits := fun s hs => (hp s hs).fits
  refine ⟨⟨_, _, (writes_formatAnswer o).ok hofits, (writes_formatAnswer p).ok hpfits, ?_⟩,
    ⟨_, _, (Term.writes_format a).ok ha.fits, (Term.writes_format b).ok hb.fits, ?_⟩⟩
  · exact answerText_eq_iff ho hp
  · exact Term.text_eq_iff ha hb

/-- The order of factors does not show: both texts are `[x -> -b2 + 2g1, y -> 0]`. The terms `12x1` and `x1 + 2x1`,
a raw one, are written `12x1` and `x1 + 2x1`. -/
theorem formatAnswer_determines_reordered :
    let s : Substitution := [⟨"x", ⟨[("g1", 2), ("b2", -1)]⟩⟩, ⟨"y", 0⟩]
    let r : Substitution := [⟨"x", ⟨[("b2", -1), ("g1", 2)]⟩⟩, ⟨"y", 0⟩]
    s.Legible ∧ r.Legible ∧ Term.Legible ⟨[("x1", 12)]⟩ ∧ Term.Legible ⟨[("x1", 1), ("x1", 2)]⟩ ∧
      (∃ u, formatAnswer (some s) = .ok u ∧ formatAnswer (some r) = .ok u) ∧
      ∃ u v, Term.format ⟨[("x1", 12)]⟩ = .ok u ∧ Term.format ⟨[("x1", 1), ("x1", 2)]⟩ = .ok v ∧
        u ≠ v := by
  intro s r
  have hs : s.Legible := by decide +kernel
  have hr : r.Legible := by decide +kernel
  have ha : Term.Legible ⟨[("x1", 12)]⟩ := by decide +kernel
  have hb : Term.Legible ⟨[("x1", 1), ("x1", 2)]⟩ := by decide +kernel
  obtain ⟨⟨u, v, hu, hv, hanswers⟩, ⟨u', v', hu', hv', hterms⟩⟩ :=
    formatAnswer_determines (o := some s) (p := some r) (by rintro _ ⟨⟩; exact hs)
      (by rintro _ ⟨⟩; exact hr) ha hb
  have hsame : s.Same r :=
    .cons ⟨rfl, Term.equiv_iff_perm.2 (by decide)⟩ (.cons ⟨rfl, Setoid.refl _⟩ .nil)
  have huv : u = v := hanswers.2 (.some hsame)
  have hdiffer : ¬ (⟨[("x1", 12)]⟩ : Term) ≈ ⟨[("x1", 1), ("x1", 2)]⟩ := by
    intro h
    exact absurd (Term.equiv_iff_perm.1 h) (by decide)
  exact ⟨hs, hr, ha, hb, ⟨u, hu, huv ▸ hv⟩, u', v', hu', hv', fun h => hdiffer (hterms.1 h)⟩

end Substitution

end GroupUnify
