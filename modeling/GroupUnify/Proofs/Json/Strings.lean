import GroupUnify.Json.Printer
import GroupUnify.Json.Reader
import GroupUnify.Proofs.Text.HexDigits

/-!
# JSON strings are read back

A character is written as itself, as a backslash and a letter, or by its UTF-16 code units
(`form_escape`). No form has a closing mark that is not behind a backslash, so a string ends where it was
meant to (`splitString_escape`), and each form stands for its character (`unescape_escape`). A code unit
of a character that has one is no half of a pair, and the two of any other are the two halves of one.
-/

namespace GroupUnify.Json

variable {c : Char} {cs rest : List Char} {u : ℕ}

/-- How the character `c` may be written in a string. -/
inductive Form (c : Char) : List Char → Prop
  | letter {l : Char} (h : escapedLetter? l = some c) : Form c ['\\', l]
  | plain (hquote : c ≠ '"') (hslash : c ≠ '\\') (hblank : ¬ c < ' ') : Form c [c]
  | unit (h : c.toNat < 0x10000) : Form c (escapeUnit c.toNat)
  | pair (h : 0x10000 ≤ c.toNat) :
      Form c (escapeUnit (0xd800 + (c.toNat - 0x10000) / 0x400) ++
        escapeUnit (0xdc00 + (c.toNat - 0x10000) % 0x400))

theorem form_escape (c : Char) : Form c (escape c) := by
  rw [escape]
  split
  · next h => exact .letter (by rw [h]; rfl)
  · next hquote =>
    split
    · next h => exact .letter (by rw [h]; rfl)
    · next hslash =>
      split
      · next h => exact .letter (by rw [h]; rfl)
      split
      · next h => exact .letter (by rw [h]; rfl)
      split
      · next h => exact .letter (by rw [h]; rfl)
      split
      · next h => exact .letter (by rw [h]; rfl)
      split
      · next h => exact .letter (by rw [h]; rfl)
      split
      · next h => exact .plain hquote hslash (Char.not_lt.2 h.1)
      split
      · next h => exact .unit h
      · next h => exact .pair (Nat.le_of_not_lt h)

/-! ### Where a string ends -/

/-- What is put in front of the text up to the closing mark. -/
def before (cs : List Char) (p : List Char × List Char) : List Char × List Char := (cs ++ p.1, p.2)

theorem splitString_backslash (c : Char) (cs : List Char) :
    splitString ('\\' :: c :: cs) = (splitString cs).map (before ['\\', c]) := by
  rw [splitString.eq_3, if_neg (by decide), if_pos rfl]
  cases splitString cs <;> rfl

theorem splitString_mark (rest : List Char) : splitString ('"' :: rest) = .ok ([], rest) := by
  rw [splitString.eq_def]
  simp only [if_pos]

theorem splitString_plain (hquote : c ≠ '"') (hslash : c ≠ '\\') (cs : List Char) :
    splitString (c :: cs) = (splitString cs).map (before [c]) := by
  rw [splitString.eq_def]
  simp only [if_neg hquote, if_neg hslash]
  cases splitString cs <;> rfl

theorem map_before_before (cs ds : List Char) (r : Except ReadError (List Char × List Char)) :
    (r.map (before ds)).map (before cs) = r.map (before (cs ++ ds)) := by
  cases r with
  | error cause => rfl
  | ok p => simp [Except.map, before, List.append_assoc]

theorem splitString_hexDigits (k n : ℕ) (cs : List Char) :
    splitString (Text.hexDigits k n ++ cs) = (splitString cs).map (before (Text.hexDigits k n)) := by
  have hdigit : ∀ d < 16, Text.hexDigit d ≠ '"' ∧ Text.hexDigit d ≠ '\\' := by decide
  induction k generalizing n cs with
  | zero => cases h : splitString cs <;> simp [Text.hexDigits, Except.map, before, h]
  | succ k ih =>
    obtain ⟨hquote, hslash⟩ := hdigit (n % 16) (Nat.mod_lt n (by decide))
    rw [Text.hexDigits, List.append_assoc, ih, List.singleton_append,
      splitString_plain hquote hslash, map_before_before]

theorem splitString_escapeUnit (u : ℕ) (cs : List Char) :
    splitString (escapeUnit u ++ cs) = (splitString cs).map (before (escapeUnit u)) := by
  rw [escapeUnit, List.cons_append, List.cons_append, splitString_backslash, splitString_hexDigits,
    map_before_before]
  rfl

theorem splitString_form (h : Form c cs) (rest : List Char) :
    splitString (cs ++ rest) = (splitString rest).map (before cs) := by
  cases h with
  | letter hl => exact splitString_backslash _ rest
  | plain hquote hslash _ => exact splitString_plain hquote hslash rest
  | unit _ => exact splitString_escapeUnit _ rest
  | pair _ =>
    rw [List.append_assoc, splitString_escapeUnit, splitString_escapeUnit, map_before_before]

/-- **A string ends at its own closing mark.** -/
theorem splitString_escape (cs rest : List Char) :
    splitString (cs.flatMap escape ++ '"' :: rest) = .ok (cs.flatMap escape, rest) := by
  induction cs with
  | nil => exact splitString_mark rest
  | cons c cs ih =>
    rw [List.flatMap_cons, List.append_assoc, splitString_form (form_escape c), ih]
    rfl

/-! ### What its characters stand for -/

theorem readUnit_hexDigits (hu : u < 0x10000) (rest : List Char) :
    readUnit (Text.hexDigits 4 u ++ rest) = .ok (u, rest) := by
  have hvalue : Text.hexValue? 0 (Text.hexDigits 4 u) = some u := by
    rw [Text.hexValue?_hexDigits, Nat.mul_zero, Nat.zero_add]
    exact congrArg some (Nat.mod_eq_of_lt hu)
  simp only [Text.hexDigits, List.nil_append, List.cons_append] at hvalue ⊢
  rw [readUnit, hvalue]

/-- The code units of halves of pairs are no characters, and there are no characters beyond those that
pairs can stand for. -/
theorem toNat_cases (c : Char) : c.toNat < 0xd800 ∨ 0xdfff < c.toNat ∧ c.toNat < 0x110000 := c.valid

theorem readEscapedUnit_unit (hc : c.toNat < 0x10000) (rest : List Char) :
    readEscapedUnit (Text.hexDigits 4 c.toNat ++ rest) = .ok (c, rest) := by
  have hcases := toNat_cases c
  rw [readEscapedUnit, readUnit_hexDigits hc]
  change (if _ then _ else if _ then _ else _) = _
  rw [if_neg (by omega), if_neg (by omega), Char.ofNat_toNat]
  rfl

theorem readLowHalf?_escapeUnit (hlo : 0xdc00 ≤ u) (hhi : u ≤ 0xdfff) (rest : List Char) :
    readLowHalf? (escapeUnit u ++ rest) = some (u, rest) := by
  rw [escapeUnit, List.cons_append, List.cons_append, readLowHalf?,
    readUnit_hexDigits (by omega)]
  dsimp only
  rw [if_pos ⟨hlo, hhi⟩]

theorem readEscapedUnit_halves {v : ℕ} (hu : 0xd800 ≤ u ∧ u ≤ 0xdbff) (hv : 0xdc00 ≤ v ∧ v ≤ 0xdfff)
    (rest : List Char) :
    readEscapedUnit (Text.hexDigits 4 u ++ (escapeUnit v ++ rest)) =
      .ok (Char.ofNat (0x10000 + (u - 0xd800) * 0x400 + (v - 0xdc00)), rest) := by
  simp only [readEscapedUnit, readUnit_hexDigits (show u < 0x10000 by omega), bind, Except.bind,
    if_pos hu, readLowHalf?_escapeUnit hv.1 hv.2, pure, Except.pure]

theorem readEscapedUnit_pair (hc : 0x10000 ≤ c.toNat) (rest : List Char) :
    readEscapedUnit (Text.hexDigits 4 (0xd800 + (c.toNat - 0x10000) / 0x400) ++
      (escapeUnit (0xdc00 + (c.toNat - 0x10000) % 0x400) ++ rest)) = .ok (c, rest) := by
  have hcases := toNat_cases c
  -- the two halves hold ten bits each
  have hsum : 0x10000 + (0xd800 + (c.toNat - 0x10000) / 0x400 - 0xd800) * 0x400 +
      (0xdc00 + (c.toNat - 0x10000) % 0x400 - 0xdc00) = c.toNat := by omega
  rw [readEscapedUnit_halves (by omega) (by omega), hsum, Char.ofNat_toNat]

/-- One character in front of the characters of a string. -/
theorem unescape_form (h : Form c cs) (fuel : ℕ) (rest : List Char) :
    unescape (fuel + 1) (cs ++ rest) = (unescape fuel rest).map (c :: ·) := by
  cases h with
  | @letter l hl =>
    have hu : l ≠ 'u' := by
      rintro rfl
      cases hl
    rw [List.cons_append, List.singleton_append, unescape.eq_4 _ _ _ _ hu, if_pos rfl, hl]
    cases unescape fuel rest <;> rfl
  | plain hquote hslash hblank =>
    rw [List.singleton_append, unescape.eq_def]
    simp only [if_neg hslash, if_neg hblank]
    cases unescape fuel rest <;> rfl
  | unit hc =>
    rw [escapeUnit, List.cons_append, List.cons_append, unescape.eq_3, if_pos rfl,
      readEscapedUnit_unit hc]
    cases h : unescape fuel rest <;> simp [h, bind, Except.bind, Except.map, pure, Except.pure]
  | pair hc =>
    rw [List.append_assoc, escapeUnit, List.cons_append, List.cons_append, unescape.eq_3, if_pos rfl,
      readEscapedUnit_pair hc]
    cases h : unescape fuel rest <;> simp [h, bind, Except.bind, Except.map, pure, Except.pure]

theorem length_form_pos (h : Form c cs) : 0 < cs.length := by
  cases h <;> simp [escapeUnit]

/-- The characters of a string are read back; a step for each character is enough. -/
theorem unescape_escape (cs : List Char) : ∀ fuel, (cs.flatMap escape).length ≤ fuel →
    unescape fuel (cs.flatMap escape) = .ok cs := by
  induction cs with
  | nil => intro fuel _; exact unescape.eq_1 fuel
  | cons c cs ih =>
    intro fuel hfuel
    have hform := form_escape c
    have hpos := length_form_pos hform
    rw [List.flatMap_cons, List.length_append] at hfuel
    obtain ⟨fuel, rfl⟩ : ∃ n, fuel = n + 1 := ⟨fuel - 1, by omega⟩
    rw [List.flatMap_cons, unescape_form hform, ih fuel (by omega)]
    rfl

/-- **A string is read back**, behind its opening mark. -/
theorem readString_escape (s : String) (rest : List Char) :
    readString (s.toList.flatMap escape ++ '"' :: rest) = .ok (s, rest) := by
  rw [readString, splitString_escape]
  change (unescape _ _ >>= fun cs => Except.ok (String.ofList cs, rest)) = _
  rw [unescape_escape _ _ le_rfl]
  change Except.ok (String.ofList s.toList, rest) = _
  rw [String.ofList_toList]

end GroupUnify.Json
