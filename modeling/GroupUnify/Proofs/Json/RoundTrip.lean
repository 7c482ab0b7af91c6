import GroupUnify.Proofs.Json.Strings
import GroupUnify.Proofs.Json.Text
import GroupUnify.Proofs.Text.Characters

/-!
# What is printed as JSON is read back

A value without real numbers is read back from its text, and what follows the text is left
(`reads_of_within`): its integers have to fit, its containers must not nest too deep, and what follows must
not go on as a number. The indentation is blank, so the reader passes over it, and it makes the text long
enough to be the fuel.
-/

namespace GroupUnify.Json

variable {c : Char} {cs rest : List Char} {d fuel level n : ℕ} {v : Json} {vs : List Json}
  {fs : List (String × Json)}

/-- The value has no real number in it, and its containers nest at most `d` deep. -/
inductive Within : ℕ → Json → Prop
  | null {d : ℕ} : Within d .null
  | bool {d : ℕ} (b : Bool) : Within d (.bool b)
  | integer {d : ℕ} (n : ℤ) : Within d (.integer n)
  | string {d : ℕ} (s : String) : Within d (.string s)
  | array {d : ℕ} {vs : List Json} (h : ∀ v ∈ vs, Within d v) : Within (d + 1) (.array vs)
  | object {d : ℕ} {fs : List (String × Json)} (h : ∀ f ∈ fs, Within d f.2) :
      Within (d + 1) (.object fs)

/-! ### Numbers -/

/-- May a number go on with this character? -/
def continuesNumber (c : Char) : Bool := Decimal.isDigit c || c == '.' || c == 'e' || c == 'E'

/-- The text does not go on as a number. -/
abbrev Ends (rest : List Char) : Prop := Text.Halts continuesNumber rest

theorem Ends.halts_isDigit (h : Ends rest) : Text.Halts Decimal.isDigit rest := by
  intro c hc
  have hend := h c hc
  simp only [continuesNumber, Bool.or_eq_false_iff] at hend
  exact hend.1.1.1

/-- The first digit is no `0` behind which a number would end, unless the number is zero. -/
theorem takeWhole_digits (n : ℕ) (h : Ends rest) :
    takeWhole (Decimal.digits n ++ rest) = (Decimal.digits n, rest) := by
  by_cases hn : n = 0
  · rw [hn, Decimal.digits_zero]
    rfl
  · have hhead := Decimal.head_digits hn
    obtain ⟨c, cs, hcs, hdigits⟩ := Decimal.exists_digits_eq n
    rw [hcs] at hhead ⊢
    rw [takeWhole.eq_2, Text.takeWhile_run hdigits h.halts_isDigit,
      Text.dropWhile_run hdigits h.halts_isDigit]
    rintro cs' hzero
    cases hzero
    exact hhead rfl

theorem takeFraction_of_ends (h : Ends rest) : takeFraction rest = ([], rest) := by
  rw [takeFraction.eq_2]
  rintro cs rfl
  cases h '.' rfl

theorem takeExponent_of_ends (h : Ends rest) : takeExponent rest = ([], rest) := by
  cases rest with
  | nil => rfl
  | cons c cs =>
    have hc : ¬ (c = 'e' ∨ c = 'E') := by
      rintro (rfl | rfl) <;> cases h _ rfl
    rw [takeExponent, if_neg hc]

theorem integerOf_digits (negative : Bool) (h : (Decimal.digits n).length ≤ Decimal.digitLimit) :
    integerOf negative (Decimal.digits n) = .ok (.integer (if negative then -n else n)) := by
  rw [integerOf, if_neg (Nat.not_lt.2 h), Decimal.value_digits]

theorem readNumber_digits (negative : Bool) (h : (Decimal.digits n).length ≤ Decimal.digitLimit)
    (hends : Ends rest) : readNumber negative (Decimal.digits n ++ rest) =
      .ok (.integer (if negative then -n else n), rest) := by
  rw [readNumber, takeWhole_digits n hends]
  dsimp only
  rw [if_neg (Decimal.digits_ne_nil n), takeFraction_of_ends hends]
  dsimp only
  rw [takeExponent_of_ends hends]
  dsimp only
  rw [if_pos ⟨rfl, rfl⟩, integerOf_digits negative h]
  rfl

/-! ### Values without values in them -/

theorem readValue_null (d fuel : ℕ) (rest : List Char) :
    readValue d (fuel + 1) ("null".toList ++ rest) = .ok (.null, rest) := rfl

theorem readValue_bool (d fuel : ℕ) (b : Bool) (rest : List Char) :
    readValue d (fuel + 1) ((if b then "true" else "false").toList ++ rest) = .ok (.bool b, rest) := by
  cases b <;> rfl

theorem readValue_string (d fuel : ℕ) (s : String) (rest : List Char) :
    readValue d (fuel + 1) ((quoted s).toList ++ rest) = .ok (.string s, rest) := by
  rw [quoted, String.toList_ofList, List.cons_append, List.cons_append, List.append_assoc, readValue,
    if_pos rfl, List.singleton_append, readString_escape]
  rfl

/-- No number starts with a character that leads to something else than a number. -/
theorem exists_digits_ne (n : ℕ) : ∃ c cs, Decimal.digits n = c :: cs ∧
    ∀ k, Decimal.isDigit k = false → c ≠ k := by
  obtain ⟨c, cs, hcs, hdigits⟩ := Decimal.exists_digits_eq n
  refine ⟨c, cs, hcs, ?_⟩
  rintro k hk rfl
  rw [hdigits c List.mem_cons_self] at hk
  cases hk

theorem readValue_digits (d fuel n : ℕ) (rest : List Char) :
    readValue d (fuel + 1) (Decimal.digits n ++ rest) =
      readNumber false (Decimal.digits n ++ rest) := by
  obtain ⟨c, cs, hcs, hne⟩ := exists_digits_ne n
  rw [hcs, List.cons_append, readValue, if_neg (hne _ rfl), if_neg (hne _ rfl), if_neg (hne _ rfl),
    if_neg (hne _ rfl), if_neg (hne _ rfl), if_neg (hne _ rfl), if_neg (hne _ rfl),
    if_neg (hne _ rfl), if_neg (hne _ rfl)]

theorem readValue_minus_digits (d fuel n : ℕ) (rest : List Char) :
    readValue d (fuel + 1) ('-' :: (Decimal.digits n ++ rest)) =
      readNumber true (Decimal.digits n ++ rest) := by
  obtain ⟨c, cs, hcs, hne⟩ := exists_digits_ne n
  have hword : "Infinity".toList.isPrefixOf (c :: (cs ++ rest)) = false := by
    have hletters : "Infinity".toList = ['I', 'n', 'f', 'i', 'n', 'i', 't', 'y'] := by decide
    rw [hletters, List.isPrefixOf_cons_cons, beq_eq_false_iff_ne.2 (hne 'I' rfl).symm, Bool.false_and]
  rw [hcs, List.cons_append, readValue, if_neg (by decide), if_neg (by decide), if_neg (by decide),
    if_neg (by decide), if_neg (by decide), if_neg (by decide), if_neg (by decide),
    if_neg (by decide), if_pos rfl, hword, if_neg Bool.false_ne_true]

theorem readValue_integer (d fuel : ℕ) {n : ℤ} (hn : Decimal.Fits n) (hends : Ends rest) :
    readValue d (fuel + 1) ((toString n).toList ++ rest) = .ok (.integer n, rest) := by
  have hread := fun negative => readNumber_digits negative (Decimal.fits_iff.1 hn) hends
  rw [Decimal.toString_eq, String.toList_append, Decimal.toList_toString]
  split
  · next h =>
    have hvalue : -(n.natAbs : ℤ) = n := by omega
    refine (readValue_minus_digits d fuel n.natAbs rest).trans ?_
    rw [hread true, if_pos rfl, hvalue]
  · next h =>
    have hvalue : (n.natAbs : ℤ) = n := by omega
    refine (readValue_digits d fuel n.natAbs rest).trans ?_
    rw [hread false, if_neg Bool.false_ne_true, hvalue]

/-! ### Arrays and objects -/

/-- The reader takes the value off the front of a text that starts with it at an indentation level. -/
def Reads (d level : ℕ) (v : Json) : Prop := ∀ fuel rest, (text level v).length ≤ fuel → Ends rest →
  readValue d fuel ((text level v).toList ++ rest) = .ok (v, rest)

theorem toList_lineBreak (level : ℕ) :
    (lineBreak level).toList = '\n' :: List.replicate (2 * level) ' ' := String.toList_ofList

theorem skipBlanks_lineBreak (level : ℕ) (h : Text.Halts isBlank rest) :
    skipBlanks ((lineBreak level).toList ++ rest) = rest := by
  refine Text.dropWhile_run (fun c hc => ?_) h
  rw [toList_lineBreak, List.mem_cons] at hc
  rcases hc with rfl | hc
  · rfl
  · rw [List.eq_of_mem_replicate hc]
    rfl

theorem exists_quoted_eq (s : String) : ∃ cs, (quoted s).toList = '"' :: cs := by
  rw [quoted, String.toList_ofList]
  exact ⟨_, rfl⟩

/-- No value starts with a blank or with what closes an array. -/
theorem exists_text_eq (h : Within d v) (level : ℕ) :
    ∃ c cs, (text level v).toList = c :: cs ∧ isBlank c = false ∧ c ≠ ']' := by
  cases h with
  | null => exact ⟨'n', "ull".toList, by rw [text]; decide, rfl, by decide⟩
  | bool b =>
    cases b with
    | false => exact ⟨'f', "alse".toList, by rw [text]; decide, rfl, by decide⟩
    | true => exact ⟨'t', "rue".toList, by rw [text]; decide, rfl, by decide⟩
  | integer n =>
    obtain ⟨c, cs, hcs, hne⟩ := exists_digits_ne n.natAbs
    rw [text, Decimal.toString_eq, String.toList_append, Decimal.toList_toString]
    split
    · exact ⟨'-', _, rfl, rfl, by decide⟩
    · refine ⟨c, cs, hcs, ?_, hne _ rfl⟩
      simp [isBlank, hne ' ' rfl, hne '\t' rfl, hne '\n' rfl, hne '\r' rfl]
  | string s =>
    obtain ⟨cs, hcs⟩ := exists_quoted_eq s
    exact ⟨'"', cs, by rw [text, hcs], rfl, by decide⟩
  | @array _ vs _ =>
    cases vs with
    | nil => exact ⟨'[', [']'], by rw [text]; decide, rfl, by decide⟩
    | cons v vs =>
      simp only [text, String.toList_append]
      exact ⟨'[', _, rfl, rfl, by decide⟩
  | @object _ fs _ =>
    cases fs with
    | nil => exact ⟨'\x7b', ['\x7d'], by rw [text]; decide, rfl, by decide⟩
    | cons f fs =>
      obtain ⟨key, v⟩ := f
      simp only [text, String.toList_append]
      exact ⟨'\x7b', _, rfl, rfl, by decide⟩

theorem halts_text (h : Within d v) (level : ℕ) (rest : List Char) :
    Text.Halts isBlank ((text level v).toList ++ rest) := by
  obtain ⟨c, cs, hcs, hblank, -⟩ := exists_text_eq h level
  rw [hcs, List.cons_append, Text.halts_cons]
  exact hblank

theorem halts_quoted (s : String) (rest : List Char) :
    Text.Halts isBlank ((quoted s).toList ++ rest) := by
  obtain ⟨cs, hcs⟩ := exists_quoted_eq s
  rw [hcs, List.cons_append, Text.halts_cons]
  rfl

theorem ends_lineBreak (level : ℕ) (cs : List Char) : Ends ((lineBreak level).toList ++ cs) := by
  rw [toList_lineBreak, List.cons_append, Ends, Text.halts_cons]
  rfl

theorem ends_comma (cs : List Char) : Ends (",".toList ++ cs) := Text.halts_cons.2 rfl

/-- What is behind an item ends it. -/
theorem ends_itemsText (level k : ℕ) (vs : List Json) (cs : List Char) :
    Ends ((itemsText level vs).toList ++ ((lineBreak k).toList ++ cs)) := by
  cases vs with
  | nil =>
    rw [itemsText, String.toList_empty, List.nil_append]
    exact ends_lineBreak k cs
  | cons v vs =>
    simp only [itemsText, String.toList_append, List.append_assoc]
    exact ends_comma _

/-- What is behind the value of a field ends it. -/
theorem ends_fieldsText (level k : ℕ) (fs : List (String × Json)) (cs : List Char) :
    Ends ((fieldsText level fs).toList ++ ((lineBreak k).toList ++ cs)) := by
  cases fs with
  | nil =>
    rw [fieldsText, String.toList_empty, List.nil_append]
    exact ends_lineBreak k cs
  | cons f fs =>
    obtain ⟨key, v⟩ := f
    simp only [fieldsText, String.toList_append, List.append_assoc]
    exact ends_comma _

theorem readItems_last {mid : List Char} (hread : readValue d fuel cs = .ok (v, mid))
    (hmid : skipBlanks mid = ']' :: rest) : readItems d (fuel + 1) cs = .ok ([v], rest) := by
  rw [readItems, hread]
  simp only [bind, Except.bind, hmid]
  rfl

theorem readItems_next {mid next : List Char} (hread : readValue d fuel cs = .ok (v, mid))
    (hmid : skipBlanks mid = ',' :: next)
    (hnext : readItems d fuel (skipBlanks next) = .ok (vs, rest)) :
    readItems d (fuel + 1) cs = .ok (v :: vs, rest) := by
  rw [readItems, hread]
  simp only [bind, Except.bind, hmid, hnext]
  rfl

/-- **The items of an array**, up to the bracket that closes it. -/
theorem readItems_text (k : ℕ) (rest : List Char) :
    ∀ v fuel, (∀ w ∈ v :: vs, Within d w ∧ Reads d level w) →
      (text level v ++ itemsText level vs).length < fuel →
      readItems d fuel ((text level v).toList ++
        ((itemsText level vs).toList ++ ((lineBreak k).toList ++ ']' :: rest))) =
        .ok (v :: vs, rest) := by
  -- each item takes one step of the fuel, and its comma alone is as long as that
  induction vs with
  | nil =>
    intro v fuel hvs hfuel
    rw [String.length_append] at hfuel
    obtain ⟨fuel, rfl⟩ : ∃ n, fuel = n + 1 := ⟨fuel - 1, by omega⟩
    obtain ⟨-, hread⟩ := hvs v List.mem_cons_self
    refine readItems_last (hread fuel _ (by omega) (ends_itemsText level k [] _)) ?_
    rw [itemsText, String.toList_empty, List.nil_append]
    exact skipBlanks_lineBreak k (Text.halts_cons.2 rfl)
  | cons w ws ih =>
    intro v fuel hvs hfuel
    simp only [itemsText, String.length_append] at hfuel
    have hcomma : ",".length = 1 := rfl
    obtain ⟨fuel, rfl⟩ : ∃ n, fuel = n + 1 := ⟨fuel - 1, by omega⟩
    obtain ⟨⟨-, hread⟩, hws⟩ := List.forall_mem_cons.1 hvs
    have hmid : skipBlanks ((itemsText level (w :: ws)).toList ++ ((lineBreak k).toList ++ ']' :: rest)) =
        ',' :: ((lineBreak level).toList ++ ((text level w).toList ++
          ((itemsText level ws).toList ++ ((lineBreak k).toList ++ ']' :: rest)))) := by
      simp only [itemsText, String.toList_append, List.append_assoc]
      rfl
    refine readItems_next (hread fuel _ (by omega) (ends_itemsText level k (w :: ws) _)) hmid ?_
    rw [skipBlanks_lineBreak level (halts_text (hws w List.mem_cons_self).1 level _)]
    exact ih w fuel hws (by rw [String.length_append]; omega)

theorem readFields_last {key : String} {mid : List Char}
    (hhead : skipBlanks cs = cs) (hread : readValue d fuel cs = .ok (v, mid))
    (hmid : skipBlanks mid = '\x7d' :: rest) :
    readFields d (fuel + 1) ((quoted key).toList ++ (": ".toList ++ cs)) = .ok ([(key, v)], rest) := by
  rw [quoted, String.toList_ofList, List.cons_append, List.cons_append, List.append_assoc, readFields,
    List.singleton_append, readString_escape]
  have hcolon : skipBlanks (": ".toList ++ cs) = ':' :: ' ' :: cs := rfl
  have hblank : skipBlanks (' ' :: cs) = cs := hhead
  simp only [bind, Except.bind, hcolon, hblank, hread, hmid]
  rfl

theorem readFields_next {key : String} {mid next : List Char}
    (hhead : skipBlanks cs = cs) (hread : readValue d fuel cs = .ok (v, mid))
    (hmid : skipBlanks mid = ',' :: next)
    (hnext : readFields d fuel (skipBlanks next) = .ok (fs, rest)) :
    readFields d (fuel + 1) ((quoted key).toList ++ (": ".toList ++ cs)) =
      .ok ((key, v) :: fs, rest) := by
  rw [quoted, String.toList_ofList, List.cons_append, List.cons_append, List.append_assoc, readFields,
    List.singleton_append, readString_escape]
  have hcolon : skipBlanks (": ".toList ++ cs) = ':' :: ' ' :: cs := rfl
  have hblank : skipBlanks (' ' :: cs) = cs := hhead
  simp only [bind, Except.bind, hcolon, hblank, hread, hmid, hnext]
  rfl

/-- **The fields of an object**, up to the brace that closes it. -/
theorem readFields_text (k : ℕ) (rest : List Char) :
    ∀ key v fuel, (∀ f ∈ (key, v) :: fs, Within d f.2 ∧ Reads d level f.2) →
      (text level v ++ fieldsText level fs).length < fuel →
      readFields d fuel ((quoted key).toList ++ (": ".toList ++ ((text level v).toList ++
        ((fieldsText level fs).toList ++ ((lineBreak k).toList ++ '\x7d' :: rest))))) =
        .ok ((key, v) :: fs, rest) := by
  induction fs with
  | nil =>
    intro key v fuel hfs hfuel
    rw [String.length_append] at hfuel
    obtain ⟨fuel, rfl⟩ : ∃ n, fuel = n + 1 := ⟨fuel - 1, by omega⟩
    obtain ⟨hv, hread⟩ : Within d v ∧ Reads d level v := hfs (key, v) List.mem_cons_self
    refine readFields_last (halts_text hv level _).dropWhile
      (hread fuel _ (by omega) (ends_fieldsText level k [] _)) ?_
    rw [fieldsText, String.toList_empty, List.nil_append]
    exact skipBlanks_lineBreak k (Text.halts_cons.2 rfl)
  | cons f fs ih =>
    intro key v fuel hfs hfuel
    obtain ⟨name, w⟩ := f
    simp only [fieldsText, String.length_append] at hfuel
    have hcomma : ",".length = 1 := rfl
    obtain ⟨fuel, rfl⟩ : ∃ n, fuel = n + 1 := ⟨fuel - 1, by omega⟩
    obtain ⟨hv, hread⟩ : Within d v ∧ Reads d level v := hfs (key, v) List.mem_cons_self
    have hws := fun f hf => hfs f (List.mem_cons_of_mem _ hf)
    have hmid : skipBlanks ((fieldsText level ((name, w) :: fs)).toList ++
          ((lineBreak k).toList ++ '\x7d' :: rest)) =
        ',' :: ((lineBreak level).toList ++ ((quoted name).toList ++ (": ".toList ++
          ((text level w).toList ++ ((fieldsText level fs).toList ++
            ((lineBreak k).toList ++ '\x7d' :: rest)))))) := by
      simp only [fieldsText, String.toList_append, List.append_assoc]
      rfl
    refine readFields_next (halts_text hv level _).dropWhile
      (hread fuel _ (by omega) (ends_fieldsText level k ((name, w) :: fs) _)) hmid ?_
    rw [skipBlanks_lineBreak level (halts_quoted name _)]
    exact ih name w fuel hws (by rw [String.length_append]; omega)

theorem readValue_array (hopen : skipBlanks cs = c :: rest) (hc : c ≠ ']') {left : List Char}
    (hitems : readItems d fuel (c :: rest) = .ok (vs, left)) :
    readValue (d + 1) (fuel + 1) ('[' :: cs) = .ok (.array vs, left) := by
  rw [readValue, if_neg (by decide), if_pos rfl, if_neg (Nat.succ_ne_zero d), hopen]
  split
  · next h => exact absurd (List.cons.inj h).1 hc
  · rw [Nat.add_sub_cancel, hitems]
    rfl

theorem readValue_object (hopen : skipBlanks cs = c :: rest) (hc : c ≠ '\x7d') {left : List Char}
    (hfields : readFields d fuel (c :: rest) = .ok (fs, left)) :
    readValue (d + 1) (fuel + 1) ('\x7b' :: cs) = .ok (.object fs, left) := by
  rw [readValue, if_neg (by decide), if_neg (by decide), if_pos rfl, if_neg (Nat.succ_ne_zero d),
    hopen]
  split
  · next h => exact absurd (List.cons.inj h).1 hc
  · rw [Nat.add_sub_cancel, hfields]
    rfl

/-- Some fuel is left for every value. -/
theorem reads_of_succ (h : Within d v) (level : ℕ) (hread : ∀ fuel rest, Ends rest →
    readValue d (fuel + 1) ((text level v).toList ++ rest) = .ok (v, rest)) : Reads d level v := by
  intro fuel rest hfuel hends
  obtain ⟨c, cs, hcs, -⟩ := exists_text_eq h level
  rw [← String.length_toList, hcs, List.length_cons] at hfuel
  obtain ⟨fuel, rfl⟩ : ∃ n, fuel = n + 1 := ⟨fuel - 1, by omega⟩
  exact hread fuel rest hends

/-- An array is read if its items are. -/
theorem reads_array (h : ∀ v ∈ vs, Within d v ∧ ∀ level, Reads d level v) (level : ℕ) :
    Reads (d + 1) level (.array vs) := by
  intro fuel rest hfuel hends
  cases vs with
  | nil =>
    refine reads_of_succ (.array fun _ h => absurd h List.not_mem_nil) level (fun _ _ _ => ?_) fuel rest
      hfuel hends
    rw [text]
    rfl
  | cons v vs =>
    simp only [text, String.length_append] at hfuel
    have hbrackets : "[".length = 1 ∧ "]".length = 1 := ⟨rfl, rfl⟩
    obtain ⟨fuel, rfl⟩ : ∃ n, fuel = n + 1 := ⟨fuel - 1, by omega⟩
    have hitems := readItems_text level rest v fuel (fun w hw => ⟨(h w hw).1, (h w hw).2 (level + 1)⟩)
      (by rw [String.length_append]; omega)
    have hfirst := (h v List.mem_cons_self).1
    obtain ⟨c, cs, hcs, -, hc⟩ := exists_text_eq hfirst (level + 1)
    have hopen := skipBlanks_lineBreak (level + 1) (halts_text hfirst (level + 1)
      ((itemsText (level + 1) vs).toList ++ ((lineBreak level).toList ++ ']' :: rest)))
    simp only [text, String.toList_append, List.append_assoc]
    rw [hcs, List.cons_append] at hitems
    refine readValue_array (hopen.trans ?_) hc hitems
    rw [hcs, List.cons_append]

/-- An object is read if the values of its fields are. -/
theorem reads_object (h : ∀ f ∈ fs, Within d f.2 ∧ ∀ level, Reads d level f.2) (level : ℕ) :
    Reads (d + 1) level (.object fs) := by
  intro fuel rest hfuel hends
  cases fs with
  | nil =>
    refine reads_of_succ (.object fun _ h => absurd h List.not_mem_nil) level (fun _ _ _ => ?_) fuel rest
      hfuel hends
    rw [text]
    rfl
  | cons f fs =>
    obtain ⟨key, v⟩ := f
    simp only [text, String.length_append] at hfuel
    have hbraces : "\x7b".length = 1 ∧ "\x7d".length = 1 := ⟨rfl, rfl⟩
    obtain ⟨fuel, rfl⟩ : ∃ n, fuel = n + 1 := ⟨fuel - 1, by omega⟩
    have hfields := readFields_text level rest key v fuel
      (fun f hf => ⟨(h f hf).1, (h f hf).2 (level + 1)⟩) (by rw [String.length_append]; omega)
    have hopen := skipBlanks_lineBreak (level + 1) (halts_quoted key (": ".toList ++
      ((text (level + 1) v).toList ++ ((fieldsText (level + 1) fs).toList ++
        ((lineBreak level).toList ++ '\x7d' :: rest)))))
    simp only [text, String.toList_append, List.append_assoc]
    obtain ⟨cs, hcs⟩ := exists_quoted_eq key
    rw [hcs, List.cons_append] at hfields hopen
    rw [hcs]
    exact readValue_object hopen (by decide) hfields

/-- **A value is read back from its text.** -/
theorem reads_of_within (h : Within d v) (hfits : v.Fits) : ∀ level, Reads d level v := by
  induction h with
  | null =>
    refine fun level => reads_of_succ .null level fun fuel rest _ => ?_
    rw [text]
    exact readValue_null _ fuel rest
  | bool b =>
    refine fun level => reads_of_succ (.bool b) level fun fuel rest _ => ?_
    rw [text]
    exact readValue_bool _ fuel b rest
  | integer n =>
    refine fun level => reads_of_succ (.integer n) level fun fuel rest hends => ?_
    rw [text]
    rw [Fits] at hfits
    exact readValue_integer _ fuel hfits hends
  | string s =>
    refine fun level => reads_of_succ (.string s) level fun fuel rest _ => ?_
    rw [text]
    exact readValue_string _ fuel s rest
  | array h ih =>
    rw [Fits, itemsFit_iff] at hfits
    exact reads_array fun v hv => ⟨h v hv, ih v hv (hfits v hv)⟩
  | object h ih =>
    rw [Fits, fieldsFit_iff] at hfits
    exact reads_object fun f hf => ⟨h f hf, ih f hf (hfits f hf)⟩

/-- **A text of one value holds this value.** -/
theorem ofString_text (h : Within nestingLimit v) (hfits : v.Fits) : ofString (text 0 v) = .ok v := by
  have hblank : skipBlanks (text 0 v).toList = (text 0 v).toList := by
    have := halts_text h 0 []
    rw [List.append_nil] at this
    exact this.dropWhile
  have hread := reads_of_within h hfits 0 ((text 0 v).toList.length + 1) []
    (by rw [String.length_toList]; omega) (Text.halts_nil _)
  rw [List.append_nil] at hread
  rw [ofString]
  simp only [hblank, hread, bind, Except.bind]
  rfl

end GroupUnify.Json
