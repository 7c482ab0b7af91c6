import GroupUnify.Proofs.Token.Scanning
import Mathlib.Data.List.TakeWhile

/-!
# How a text splits into tokens

A text splits into tokens if these stand in it one behind the other, each of one of the three forms and as
long as its run of characters goes, with nothing but blanks around them (`Splits`). The scanner finds such a
splitting, and there is no other: where blanks end, the first character says which form starts, and the token
ends where it cannot go on (`scan_eq_iff`).

What is claimed of the scanner is then shown of splittings, by induction on them. Nothing but blanks is lost
(`Splits.flatMap_text`). Each token has its place in the text, and the text before and the text behind it split
into the tokens before and behind (`Splits.exists_place`). The gaps between the tokens may be any blanks
(`splits_spaced`): a blank continues no token.

* `ofString_lossless`: the three together.
-/

namespace GroupUnify.Token

open Text

variable {t : Token} {ts l r : List Token} {c d : Char} {cs ds rest before after gap : List Char}

/-! ### Forms of tokens -/

/-- The token is an identifier, a number with at least one digit, or a symbol that starts neither. -/
def Formed : Token → Prop
  | .identifier x => IsIdentifier x
  | .number ds => ds ≠ [] ∧ ∀ d ∈ ds, Decimal.isDigit d = true
  | .symbol c => isBlank c = false ∧ isLetter c = false ∧ Decimal.isDigit c = false

/-- Does the token go on if `c` follows? -/
def continuesWith : Token → Char → Bool
  | .identifier _, c => isWordCharacter c
  | .number _, c => Decimal.isDigit c
  | .symbol _, _ => false

theorem isBlank_eq_false_of_isWordCharacter (h : isWordCharacter c = true) : isBlank c = false := by
  rw [isWordCharacter, Bool.or_eq_true] at h
  rcases h with hletter | hnumeric
  · exact isBlank_eq_false_of_isLetter hletter
  · exact Ranges.Apart.not_contains (r := numericRanges) (by decide +kernel) hnumeric

/-- No token goes on with a blank. -/
theorem continuesWith_eq_false_of_isBlank (t : Token) (hc : isBlank c = true) :
    t.continuesWith c = false := by
  by_contra hcontinues
  rw [Bool.not_eq_false] at hcontinues
  have hfalse : isBlank c = false := by
    cases t with
    | identifier x => exact isBlank_eq_false_of_isWordCharacter hcontinues
    | number ds => exact isBlank_eq_false_of_isDigit hcontinues
    | symbol s => cases hcontinues
  rw [hc] at hfalse
  cases hfalse

/-- Only a symbol ends in front of a digit. -/
theorem exists_symbol_of_not_continuesWith (hd : Decimal.isDigit d = true)
    (h : t.continuesWith d = false) : ∃ c, t = .symbol c := by
  cases t with
  | identifier x =>
    have hword := isWordCharacter_of_isDigit hd
    rw [continuesWith, hword] at h
    cases h
  | number ds =>
    rw [continuesWith, hd] at h
    cases h
  | symbol c => exact ⟨c, rfl⟩

theorem Formed.not_blank (ht : t.Formed) : ∀ c ∈ t.text.toList, isBlank c = false := by
  intro c hc
  cases t with
  | identifier x =>
    obtain ⟨first, run, hx, hfirst, hrun⟩ := ht
    rw [text, hx, List.mem_cons] at hc
    rcases hc with rfl | hc
    · exact isBlank_eq_false_of_isLetter hfirst
    · exact isBlank_eq_false_of_isWordCharacter (hrun c hc)
  | number ds =>
    rw [text, String.toList_ofList] at hc
    exact isBlank_eq_false_of_isDigit (ht.2 c hc)
  | symbol s =>
    rw [text, String.toList_singleton, List.mem_singleton] at hc
    rw [hc]
    exact ht.1

theorem Formed.toList_ne_nil (ht : t.Formed) : t.text.toList ≠ [] := by
  cases t with
  | identifier x =>
    obtain ⟨first, run, hx, -⟩ := ht
    rw [text, hx]
    exact List.cons_ne_nil _ _
  | number ds =>
    rw [text, String.toList_ofList]
    exact ht.1
  | symbol s =>
    rw [text, String.toList_singleton]
    exact List.cons_ne_nil _ _

/-- **A token is scanned first** if what follows it does not continue it. -/
theorem scan_of_formed (ht : t.Formed) (hrest : Halts t.continuesWith rest) :
    scan (t.text.toList ++ rest) = t :: scan rest := by
  cases t with
  | identifier x => exact scan_identifier ht hrest
  | number ds =>
    rw [text, String.toList_ofList]
    exact scan_number ht.1 ht.2 hrest
  | symbol s =>
    rw [text, String.toList_singleton]
    exact scan_symbol ht.1 ht.2.1 ht.2.2

/-! ### Splittings -/

/-- The text splits into the tokens: blanks separate them, and each is as long as it can be. -/
inductive Splits : List Char → List Token → Prop
  | nil : Splits [] []
  | blank {c : Char} {cs : List Char} {ts : List Token} (hc : isBlank c = true) (h : Splits cs ts) :
      Splits (c :: cs) ts
  | token {t : Token} {rest : List Char} {ts : List Token} (ht : t.Formed)
      (hrest : Halts t.continuesWith rest) (h : Splits rest ts) :
      Splits (t.text.toList ++ rest) (t :: ts)

theorem splits_scan (cs : List Char) : Splits cs (scan cs) := by
  induction cs using scan.induct with
  | case1 =>
    rw [scan_nil]
    exact .nil
  | case2 c cs hblank ih =>
    rw [scan_blank hblank]
    exact .blank hblank ih
  | case3 c cs hblank hletter ih =>
    set run := cs.takeWhile isWordCharacter with hrun
    have htext : c :: cs = (identifier (String.ofList (c :: run))).text.toList ++
        cs.dropWhile isWordCharacter := by
      rw [text, String.toList_ofList, List.cons_append, hrun, List.takeWhile_append_dropWhile]
    have hformed : (identifier (String.ofList (c :: run))).Formed :=
      ⟨c, run, String.toList_ofList, hletter, fun d hd => List.mem_takeWhile_imp hd⟩
    rw [scan, if_neg hblank, if_pos hletter, htext]
    exact .token hformed (halts_dropWhile _ _) ih
  | case4 c cs hblank hletter hdigit ih =>
    set run := cs.takeWhile Decimal.isDigit with hrun
    have htext : c :: cs = (number (c :: run)).text.toList ++ cs.dropWhile Decimal.isDigit := by
      rw [text, String.toList_ofList, List.cons_append, hrun, List.takeWhile_append_dropWhile]
    have hformed : (number (c :: run)).Formed :=
      ⟨List.cons_ne_nil _ _, List.forall_mem_cons.2 ⟨hdigit, fun d hd => List.mem_takeWhile_imp hd⟩⟩
    rw [scan, if_neg hblank, if_neg hletter, if_pos hdigit, htext]
    exact .token hformed (halts_dropWhile _ _) ih
  | case5 c cs hblank hletter hdigit ih =>
    rw [Bool.not_eq_true] at hblank hletter hdigit
    rw [scan_symbol hblank hletter hdigit]
    have htext : c :: cs = (symbol c).text.toList ++ cs := by
      rw [text, String.toList_singleton, List.singleton_append]
    have hformed : (symbol c).Formed := ⟨hblank, hletter, hdigit⟩
    rw [htext]
    exact .token hformed (fun _ _ => rfl) ih

theorem Splits.scan (h : Splits cs ts) : scan cs = ts := by
  induction h with
  | nil => exact scan_nil
  | blank hc _ ih => rw [scan_blank hc, ih]
  | token ht hrest _ ih => rw [scan_of_formed ht hrest, ih]

/-- **The scanner finds the only splitting.** -/
theorem scan_eq_iff : Token.scan cs = ts ↔ Splits cs ts :=
  ⟨fun h => h ▸ splits_scan cs, Splits.scan⟩

namespace Splits

theorem formed (h : Splits cs ts) : ∀ t ∈ ts, t.Formed := by
  induction h with
  | nil => exact fun t ht => absurd ht List.not_mem_nil
  | blank _ _ ih => exact ih
  | token ht _ _ ih => exact List.forall_mem_cons.2 ⟨ht, ih⟩

/-- **Nothing but blanks is lost**, and all else keeps its order. -/
theorem flatMap_text (h : Splits cs ts) :
    (ts.flatMap fun t => t.text.toList) = cs.filter fun c => !isBlank c := by
  induction h with
  | nil => rfl
  | blank hc _ ih => rw [ih, List.filter_cons_of_neg (by simp [hc])]
  | @token t rest ts ht _ _ ih =>
    have hkept : ∀ c ∈ t.text.toList, (!isBlank c) = true := fun c hc => by
      rw [ht.not_blank c hc]
      rfl
    rw [List.flatMap_cons, ih, List.filter_append, List.filter_eq_self.2 hkept]

end Splits

/-- Between the two parts of a text stands a token of one of the three forms, as long as it can be: it does
not go on behind its end, and a number starts where its digits do. -/
structure Maximal (before : List Char) (t : Token) (after : List Char) : Prop where
  formed : t.Formed
  ends : Halts t.continuesWith after
  starts : ∀ ds, t = .number ds → Halts Decimal.isDigit before.reverse

/-- A number that comes after the token `u` starts with the first of its digits. -/
theorem Maximal.behind {u : Token} (h : Maximal before t after) (hu : u.Formed)
    (hends : Halts u.continuesWith (before ++ t.text.toList ++ after)) :
    Maximal (u.text.toList ++ before) t after := by
  refine ⟨h.formed, h.ends, ?_⟩
  rintro ds rfl
  have hstarts := h.starts ds rfl
  rw [List.reverse_append]
  cases before with
  | cons c cs => exact hstarts.append_of_ne_nil (by simp) _
  | nil =>
    -- the digits follow `u` at once, so `u` is a symbol
    obtain ⟨d, ds, rfl⟩ := List.exists_cons_of_ne_nil h.formed.1
    rw [text, String.toList_ofList] at hends
    obtain ⟨s, rfl⟩ := exists_symbol_of_not_continuesWith (h.formed.2 d List.mem_cons_self)
      (halts_cons.1 hends)
    rw [text, String.toList_singleton]
    exact halts_cons.2 hu.2.2

/-- **Each token has its place in the text.** -/
theorem Splits.exists_place (h : Splits cs ts) : ∀ {l}, ts = l ++ t :: r →
    ∃ before after, cs = before ++ t.text.toList ++ after ∧ Splits before l ∧ Splits after r ∧
      Maximal before t after := by
  induction h with
  | nil =>
    intro l heq
    exact absurd heq (by simp)
  | @blank c cs ts hc _ ih =>
    intro l heq
    obtain ⟨before, after, rfl, hbefore, hafter, hmaximal⟩ := ih heq
    refine ⟨c :: before, after, rfl, .blank hc hbefore, hafter, hmaximal.formed, hmaximal.ends, ?_⟩
    intro ds hds
    have hdigit : Decimal.isDigit c = false := by
      by_contra hdigit
      rw [isBlank_eq_false_of_isDigit (by simpa using hdigit)] at hc
      cases hc
    rw [List.reverse_cons]
    exact (hmaximal.starts ds hds).append (halts_cons.2 hdigit)
  | @token u rest ts hu hrest hsplits ih =>
    intro l heq
    cases l with
    | nil =>
      obtain ⟨rfl, rfl⟩ := List.cons.inj heq
      exact ⟨[], rest, rfl, .nil, hsplits, hu, hrest, fun _ _ => halts_nil _⟩
    | cons v l =>
      obtain ⟨rfl, htail⟩ := List.cons.inj heq
      obtain ⟨before, after, rfl, hbefore, hafter, hmaximal⟩ := ih htail
      refine ⟨u.text.toList ++ before, after, by simp, .token hu ?_ hbefore, hafter, hmaximal.behind hu hrest⟩
      rw [List.append_assoc] at hrest
      exact hrest.of_append

/-! ### Gaps -/

/-- The string holds blanks only. -/
def IsGap (s : String) : Prop := ∀ c ∈ s.toList, isBlank c = true

instance (s : String) : Decidable (IsGap s) :=
  decidable_of_iff (s.toList.all isBlank = true) List.all_eq_true

/-- The tokens one behind the other, each with the gap that follows it, behind a first gap. -/
def spaced (gap : String) (ps : List (Token × String)) : String :=
  gap ++ String.join (ps.map fun p => p.1.text ++ p.2)

theorem Splits.of_gap (hgap : ∀ c ∈ gap, isBlank c = true) (h : Splits cs ts) :
    Splits (gap ++ cs) ts := by
  induction gap with
  | nil => exact h
  | cons c gap ih =>
    obtain ⟨hc, hgap⟩ := List.forall_mem_cons.1 hgap
    exact .blank hc (ih hgap)

/-- **Tokens with gaps between them split again**; behind the last one there may be no gap. -/
theorem splits_spaced {ps : List (Token × String)} (hformed : ∀ p ∈ ps, p.1.Formed)
    (hgaps : ∀ p ∈ ps, IsGap p.2) (hbetween : ∀ p ∈ ps.dropLast, p.2 ≠ "") :
    Splits (ps.flatMap fun p => p.1.text.toList ++ p.2.toList) (ps.map Prod.fst) := by
  induction ps with
  | nil => exact .nil
  | cons p ps ih =>
    obtain ⟨hp, hformed⟩ := List.forall_mem_cons.1 hformed
    obtain ⟨hgap, hgaps⟩ := List.forall_mem_cons.1 hgaps
    have hp2 : Halts p.1.continuesWith p.2.toList := by
      intro c hc
      exact continuesWith_eq_false_of_isBlank p.1 (hgap c (List.mem_of_mem_head? hc))
    rw [List.flatMap_cons, List.map_cons, List.append_assoc]
    cases ps with
    | nil =>
      rw [List.flatMap_nil, List.append_nil]
      exact .token hp hp2 (by simpa using Splits.nil.of_gap hgap)
    | cons q ps =>
      -- a further token follows, so the gap is not empty and starts with a blank
      rw [List.dropLast_cons_of_ne_nil (List.cons_ne_nil q ps), List.forall_mem_cons] at hbetween
      have hne : p.2.toList ≠ [] := fun hnil => hbetween.1 (String.toList_eq_nil_iff.1 hnil)
      exact .token hp (hp2.append_of_ne_nil hne _) ((ih hformed hgaps hbetween.2).of_gap hgap)

/-- **Scanning loses nothing but blanks, and blanks only separate.** The texts of the tokens make up the
text without its blanks. Each token is not empty and has its place in the text, with the tokens before it and
behind it being those of the text there; it is as long as it can be. With any gaps between the tokens, and
with or without gaps at both ends, the same tokens are scanned again. -/
theorem ofString_lossless (s : String) :
    String.join ((ofString s).map text) = String.ofList (s.toList.filter fun c => !isBlank c) ∧
    (∀ l t r, ofString s = l ++ t :: r → t.text ≠ "" ∧ ∃ before after,
      s = before ++ t.text ++ after ∧ ofString before = l ∧ ofString after = r ∧
        Maximal before.toList t after.toList) ∧
    ∀ (gap : String) (ps : List (Token × String)), ps.map Prod.fst = ofString s → IsGap gap →
      (∀ p ∈ ps, IsGap p.2) → (∀ p ∈ ps.dropLast, p.2 ≠ "") → ofString (spaced gap ps) = ofString s := by
  have hsplits : Splits s.toList (ofString s) := splits_scan s.toList
  refine ⟨?_, fun l t r heq => ?_, fun gap ps hps hgap hgaps hbetween => ?_⟩
  · have htexts := hsplits.flatMap_text
    rw [← htexts, ← String.toList_inj, String.toList_ofList, String.toList_join, List.flatMap_map]
  · obtain ⟨before, after, hs, hbefore, hafter, hmaximal⟩ := hsplits.exists_place heq
    have hne : t.text ≠ "" := by
      intro hempty
      exact hmaximal.formed.toList_ne_nil (by rw [hempty]; rfl)
    refine ⟨hne, String.ofList before, String.ofList after, ?_, ?_, ?_, ?_⟩
    · rw [← String.toList_inj, hs]
      simp
    · rw [ofString, String.toList_ofList, hbefore.scan]
    · rw [ofString, String.toList_ofList, hafter.scan]
    · rw [String.toList_ofList, String.toList_ofList]
      exact hmaximal
  · have hformed : ∀ p ∈ ps, p.1.Formed := by
      intro p hp
      have hmem : p.1 ∈ ofString s := hps ▸ List.mem_map_of_mem hp
      exact hsplits.formed p.1 hmem
    have hrest := (splits_spaced hformed hgaps hbetween).of_gap hgap
    have htext : (spaced gap ps).toList =
        gap.toList ++ ps.flatMap fun p => p.1.text.toList ++ p.2.toList := by
      rw [spaced, String.toList_append, String.toList_join, List.flatMap_map]
      simp
    rw [← hps, ofString, htext, hrest.scan]

/-- The sign `½` goes on with a name, but does not start a number. Without the blanks `2` would go on with the
name. -/
theorem ofString_lossless_fraction :
    ofString "x½ 2½-3y" =
        [.identifier "x½", .number ['2'], .symbol '½', .symbol '-', .number ['3'], .identifier "y"] ∧
      String.join ((ofString "x½ 2½-3y").map text) = "x½2½-3y" ∧
      (∃ before after, "x½ 2½-3y" = before ++ "3" ++ after ∧
        ofString before = [.identifier "x½", .number ['2'], .symbol '½', .symbol '-'] ∧
        ofString after = [.identifier "y"] ∧
        Maximal before.toList (.number ['3']) after.toList) ∧
      ofString "\nx½\t 2 ½ - 3 y " = ofString "x½ 2½-3y" := by
  have htokens : ofString "x½ 2½-3y" =
      [.identifier "x½", .number ['2'], .symbol '½', .symbol '-', .number ['3'], .identifier "y"] := by
    decide +kernel
  obtain ⟨hjoin, hplace, hspaced⟩ := ofString_lossless "x½ 2½-3y"
  obtain ⟨-, hthree⟩ := hplace [.identifier "x½", .number ['2'], .symbol '½', .symbol '-'] (.number ['3'])
    [.identifier "y"] htokens
  have hagain := hspaced "\n" [(.identifier "x½", "\t "), (.number ['2'], " "), (.symbol '½', " "),
    (.symbol '-', " "), (.number ['3'], " "), (.identifier "y", " ")] htokens.symm (by decide +kernel)
    (by decide +kernel) (by decide)
  exact ⟨htokens, hjoin.trans (by decide +kernel), hthree, hagain⟩

end GroupUnify.Token
