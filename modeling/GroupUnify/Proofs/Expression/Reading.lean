import GroupUnify.Proofs.Expression.Limits

/-!
# The readers read the grammar

A reader either takes a phrase of its kind off the front of the tokens, or refuses them, and a refusal
that blames a limit is right about it (`Settles`). Conversely a phrase of short numbers is taken and
what follows it is left, unless the call stack is full (`read_of_derives`). A sum is the one phrase
that may go on, so what is said of it is that reading goes on behind it; the loop over `+` and `-` is
proved by this.

Each reader has one frame less than its caller. The frames that the sum around a phrase has taken before the
phrase is read (`Kind.entered`) make this up, so that the levels of parentheses that there are frames for
fall by one at a parenthesis and nowhere else.

* `settles_read`: what reading a phrase comes to, with any number of frames.
* `read_sum_of_derives`: a sum is read whole if neither `+` nor `-` follows.
* `cases_of_ofTokens`, `ofTokens_of_derives`: the same for whole token lists.
* `cases_of_pairOfTokens`, `pairOfTokens_of_isEquation`: the same for equations.
-/

namespace GroupUnify

open Token Grammar

variable {depth depth' frames fuel : ℕ} {k k' : Kind} {t : Token} {ts us used rest : List Token}
  {cause : ParseError}

/-- The frames that have been taken since a sum was begun when a phrase of this kind is read in it. A sum in
parentheses is begun itself. -/
def Grammar.Kind.entered : Kind → ℕ
  | .sum => 0
  | .summand => 1
  | .factor => 2
  | .primary => 3

namespace ParseError

/-- If the reason is a limit of the reader, then the tokens do exceed it. -/
def Justified (depth : ℕ) (ts : List Token) : ParseError → Prop
  | .tooDeep => ¬ Shallow depth ts
  | .tooLong digits => .number digits ∈ ts ∧ ¬ Short (.number digits)
  | _ => True

theorem Justified.mono (h : cause.Justified depth ts) (hsubset : ts ⊆ us)
    (hshallow : Shallow depth' us → Shallow depth ts) : cause.Justified depth' us := by
  cases cause with
  | tooDeep => exact fun hus => h (hshallow hus)
  | tooLong digits => exact ⟨hsubset h.1, h.2⟩
  | _ => trivial

end ParseError

namespace Expression

variable {e left : Expression} {summand factor : Reader}
  {outcome : Except ParseError (Expression × List Token)}

/-- What reading a phrase of kind `k` may come to. -/
inductive Settles (depth : ℕ) (k : Kind) (ts : List Token) :
    Except ParseError (Expression × List Token) → Prop
  | phrase {used rest : List Token} {e : Expression} (front : ts = used ++ rest)
      (derives : Derives k used e) : Settles depth k ts (.ok (e, rest))
  | refusal {cause : ParseError} (justified : cause.Justified depth ts) :
      Settles depth k ts (.error cause)

namespace Settles

/-- A phrase of one kind as one of another. -/
theorem mono (h : Settles depth k ts outcome)
    (hk : ∀ {us : List Token} {e : Expression}, Derives k us e → Derives k' us e) :
    Settles depth k' ts outcome := by
  cases h with
  | phrase front derives => exact .phrase front (hk derives)
  | refusal justified => exact .refusal justified

/-- What is right about few levels is right about fewer. -/
theorem of_le (h : Settles depth k ts outcome) (hle : depth' ≤ depth) :
    Settles depth' k ts outcome := by
  cases h with
  | phrase front derives => exact .phrase front derives
  | refusal justified => exact .refusal (justified.mono (List.Subset.refl ts) fun h => h.mono hle)

/-- **Reading on**: a phrase somewhere in the tokens `us`, and what is done with the rest. -/
theorem bind (h : Settles depth k ts outcome)
    (next : Expression → List Token → Except ParseError (Expression × List Token)) (hsubset : ts ⊆ us)
    (hshallow : Shallow depth' us → Shallow depth ts)
    (hnext : ∀ {used rest : List Token} {e : Expression}, ts = used ++ rest → Derives k used e →
      Settles depth' k' us (next e rest)) :
    Settles depth' k' us (outcome.bind fun p => next p.1 p.2) := by
  cases h with
  | phrase front derives => exact hnext front derives
  | refusal justified => exact .refusal (justified.mono hsubset hshallow)

/-- No reader makes tokens, so what is done with the rest matters for rests that are no longer. -/
theorem bind_congr {f g : Expression × List Token → Except ParseError (Expression × List Token)}
    (h : Settles depth k ts outcome)
    (hfg : ∀ e rest, rest.length ≤ ts.length → f (e, rest) = g (e, rest)) :
    outcome.bind f = outcome.bind g := by
  cases h with
  | @phrase used rest e front derives =>
    refine hfg e rest ?_
    rw [front, List.length_append]
    omega
  | refusal justified => rfl

end Settles

/-! ### The loop of a sum -/

/-- A sum does not go on with these tokens. -/
def Stops (ts : List Token) : Prop :=
  ts.head? ≠ some (.symbol '+') ∧ ts.head? ≠ some (.symbol '-')

theorem readMore_plus (summand factor : Reader) (fuel : ℕ) (left : Expression) (ts : List Token) :
    readMore summand factor (fuel + 1) left (.symbol '+' :: ts) =
      (summand ts).bind fun p => readMore summand factor fuel (.add left p.1) p.2 := rfl

theorem readMore_minus (summand factor : Reader) (fuel : ℕ) (left : Expression) (ts : List Token) :
    readMore summand factor (fuel + 1) left (.symbol '-' :: ts) =
      (factor ts).bind fun p => readMore summand factor fuel (.sub left p.1) p.2 := rfl

theorem readMore_of_stops (summand factor : Reader) (fuel : ℕ) (left : Expression) (h : Stops ts) :
    readMore summand factor fuel left ts = .ok (left, ts) := by
  obtain ⟨hplus, hminus⟩ := h
  unfold readMore
  split
  · exact absurd rfl hplus
  · exact absurd rfl hminus
  · rfl

theorem plus_or_minus_or_stops (ts : List Token) :
    (∃ rest, ts = .symbol '+' :: rest) ∨ (∃ rest, ts = .symbol '-' :: rest) ∨ Stops ts := by
  rcases ts with _ | ⟨t, ts⟩
  · exact Or.inr (Or.inr ⟨by simp, by simp⟩)
  by_cases hplus : t = .symbol '+'
  · exact Or.inl ⟨ts, by rw [hplus]⟩
  by_cases hminus : t = .symbol '-'
  · exact Or.inr (Or.inl ⟨ts, by rw [hminus]⟩)
  · exact Or.inr (Or.inr ⟨by simpa using hplus, by simpa using hminus⟩)

/-! ### What the readers come to -/

/-- The next operand behind the tokens `used` of a sum, and reading on behind it. -/
theorem settles_operand {c : Char} {combine : Expression → Expression}
    (hright : Settles depth k ts outcome) (hused : Token.Balanced used) (hopen : c ≠ '(')
    (hclose : c ≠ ')')
    (hmore : ∀ {us : List Token} {right : Expression} (rest : List Token), Derives k us right →
      Settles depth .sum ((used ++ .symbol c :: us) ++ rest)
        (readMore summand factor fuel (combine right) rest)) :
    Settles depth .sum (used ++ .symbol c :: ts)
      (outcome.bind fun p => readMore summand factor fuel (combine p.1) p.2) := by
  refine hright.bind (fun right rest => readMore summand factor fuel (combine right) rest)
    (List.subset_append_of_subset_right used (List.subset_cons_self _ ts))
    (fun h => (h.of_append hused).of_cons (by simpa using hopen) (by simpa using hclose))
    fun {us rest right} front derives => ?_
  have hsum := hmore rest derives
  rw [List.append_assoc, List.cons_append, ← front] at hsum
  exact hsum

theorem settles_readPrimary {sum : Reader} (hsum : ∀ ts, Settles depth .sum ts (sum ts))
    (ts : List Token) : Settles (depth + 1) .primary ts (readPrimary sum ts) := by
  rcases ts with _ | ⟨x | digits | c, ts⟩
  · exact .refusal trivial
  · rw [readPrimary]
    by_cases hx : Parameter.isReserved x = true
    · rw [if_pos hx]
      exact .refusal trivial
    · rw [if_neg hx]
      exact .phrase rfl (.name (by simpa using hx))
  · rw [readPrimary]
    by_cases hd : digits = ['0']
    · rw [if_pos hd, hd]
      exact .phrase rfl .zero
    · rw [if_neg hd]
      exact .refusal trivial
  · rw [readPrimary]
    by_cases hc : c = '('
    · subst hc
      rw [if_pos rfl]
      -- what stands in parentheses is read within narrower limits
      refine (hsum ts).bind (fun e rest => (expect ')' rest).bind fun rest => .ok (e, rest))
        (List.subset_cons_self _ _) Shallow.of_opening fun {used rest e} front derives => ?_
      rcases rest with _ | ⟨t, rest⟩
      · exact .refusal trivial
      by_cases ht : t = closing
      · subst ht
        refine .phrase ?_ (.group derives)
        rw [front]
        simp
      · rw [expect, if_neg ht]
        exact .refusal trivial
    · rw [if_neg hc]
      exact .refusal trivial

theorem settles_readFactor {primary : Reader}
    (hprimary : ∀ ts, Settles depth .primary ts (primary ts)) (ts : List Token) :
    Settles depth .factor ts (readFactor primary ts) := by
  unfold readFactor
  split
  · next digits rest =>
    by_cases hd : digits = ['0']
    · rw [if_pos hd]
      exact (hprimary _).mono .primary
    rw [if_neg hd]
    by_cases hlong : Decimal.digitLimit < digits.length
    · rw [if_pos hlong]
      exact .refusal ⟨List.mem_cons_self, Nat.not_le.2 hlong⟩
    · rw [if_neg hlong]
      refine (hprimary rest).bind (fun e rest => .ok (.multiple (Decimal.value digits) e, rest))
        (List.subset_cons_self _ _) (fun h => h.of_cons (by simp) (by simp)) fun front derives => ?_
      exact .phrase (by rw [front]; rfl) (.multiple hd derives)
  · exact (hprimary ts).mono .primary

theorem settles_readSummand (hfactor : ∀ ts, Settles depth .factor ts (factor ts)) (ts : List Token) :
    Settles depth .summand ts (readSummand factor ts) := by
  unfold readSummand
  split
  · next rest =>
    refine (hfactor rest).bind (fun e rest => .ok (.neg e, rest))
      (List.subset_cons_self _ _) (fun h => h.of_cons (by decide) (by decide)) fun front derives => ?_
    exact .phrase (by rw [front]; rfl) (.neg derives)
  · exact (hfactor ts).mono .factor

section Sums

variable (hsummand : ∀ ts, Settles depth .summand ts (summand ts))
  (hfactor : ∀ ts, Settles depth .factor ts (factor ts))

include hsummand hfactor

/-- Reading on behind the tokens `used` of a sum comes to a sum that starts with them. -/
theorem settles_readMore : ∀ (fuel : ℕ) {left : Expression} {used : List Token} (ts : List Token),
    Derives .sum used left →
      Settles depth .sum (used ++ ts) (readMore summand factor fuel left ts) := by
  intro fuel
  -- the sum read so far grows by an operand in each round, so it varies in the induction
  induction fuel with
  | zero =>
    intro left used ts hleft
    exact .phrase rfl hleft
  | succ fuel ih =>
    intro left used ts hleft
    have hused := balanced_of_derives hleft
    rcases plus_or_minus_or_stops ts with ⟨ts, rfl⟩ | ⟨ts, rfl⟩ | hstops
    · rw [readMore_plus]
      exact settles_operand (hsummand ts) hused (by decide) (by decide)
        fun rest derives => ih rest (.add hleft derives)
    · rw [readMore_minus]
      exact settles_operand (hfactor ts) hused (by decide) (by decide)
        fun rest derives => ih rest (.sub hleft derives)
    · rw [readMore_of_stops _ _ _ left hstops]
      exact .phrase rfl hleft

theorem settles_readSum (ts : List Token) :
    Settles depth .sum ts (readSum summand factor ts) := by
  -- the first summand is a sum already, and the loop goes on behind it
  refine (hsummand ts).bind (fun left rest => readMore summand factor rest.length left rest)
    (List.Subset.refl ts) id fun {used rest left} front derives => ?_
  rw [front]
  exact settles_readMore hsummand hfactor rest.length rest (.summand derives)

end Sums

/-- **What reading a phrase comes to**, with any number of frames. -/
theorem settles_read : ∀ (frames : ℕ) (k : Kind) (ts : List Token),
    Settles ((frames + k.entered) / 4) k ts (read frames k ts) := by
  intro frames
  -- one frame less leaves as many levels to the readers called by a sum, a summand and a factor, and one
  -- level less to the sum that a primary calls
  induction frames with
  | zero =>
    intro k ts
    have hlevels : (0 + k.entered) / 4 = 0 := by cases k <;> rfl
    rw [hlevels]
    exact .refusal fun hshallow => absurd hshallow.pos (Nat.lt_irrefl 0)
  | succ frames ih =>
    intro k ts
    cases k with
    | primary =>
      refine (settles_readPrimary (ih .sum) ts).of_le ?_
      simp only [Kind.entered]
      omega
    | factor =>
      refine (settles_readFactor (ih .primary) ts).of_le ?_
      simp only [Kind.entered]
      omega
    | summand =>
      refine (settles_readSummand (ih .factor) ts).of_le ?_
      simp only [Kind.entered]
      omega
    | sum =>
      have hfactor : ∀ ts, Settles ((frames + 1) / 4) .factor ts (read frames .factor ts) :=
        fun ts => (ih .factor ts).of_le (Nat.div_le_div_right (Nat.le_succ _))
      exact settles_readSum (ih .summand) hfactor ts

/-! ### Every phrase is read -/

/-- What is to be done behind a phrase, with the tokens `rest` left: a sum may go on. -/
def resume (frames : ℕ) (e : Expression) (rest : List Token) :
    Kind → Except ParseError (Expression × List Token)
  | .sum => readMore (read (frames - 1) .summand) (read (frames - 1) .factor) rest.length e rest
  | _ => .ok (e, rest)

/-- More rounds of the loop than there are tokens make no difference. -/
theorem readMore_congr (hsummand : ∀ ts, Settles depth .summand ts (summand ts))
    (hfactor : ∀ ts, Settles depth' .factor ts (factor ts)) :
    ∀ (fuel fuel' : ℕ) (left : Expression) (ts : List Token), ts.length ≤ fuel → ts.length ≤ fuel' →
      readMore summand factor fuel left ts = readMore summand factor fuel' left ts := by
  intro fuel
  induction fuel with
  | zero =>
    intro fuel' left ts hts _
    have hnil := List.eq_nil_of_length_eq_zero (Nat.le_zero.1 hts)
    subst hnil
    cases fuel' <;> rfl
  | succ fuel ih =>
    intro fuel' left ts hts hts'
    rcases plus_or_minus_or_stops ts with ⟨ts, rfl⟩ | ⟨ts, rfl⟩ | hstops
    · rw [List.length_cons] at hts hts'
      obtain ⟨fuel', rfl⟩ : ∃ n, fuel' = n + 1 := ⟨fuel' - 1, by omega⟩
      rw [readMore_plus, readMore_plus]
      exact (hsummand ts).bind_congr fun right rest hrest =>
        ih fuel' _ rest (by omega) (by omega)
    · rw [List.length_cons] at hts hts'
      obtain ⟨fuel', rfl⟩ : ∃ n, fuel' = n + 1 := ⟨fuel' - 1, by omega⟩
      rw [readMore_minus, readMore_minus]
      exact (hfactor ts).bind_congr fun right rest hrest =>
        ih fuel' _ rest (by omega) (by omega)
    · rw [readMore_of_stops _ _ _ left hstops, readMore_of_stops _ _ _ left hstops]

theorem readMore_eq_resume (left : Expression) (rest : List Token) (hfuel : rest.length ≤ fuel) :
    readMore (read frames .summand) (read frames .factor) fuel left rest =
      resume (frames + 1) left rest .sum :=
  readMore_congr (settles_read frames .summand) (settles_read frames .factor) _ _ left rest hfuel
    le_rfl

/-- A primary starts with a name, the number `0` or a parenthesis. -/
theorem head_of_primary (h : Derives .primary ts e) :
    (∃ x us, ts = .identifier x :: us) ∨ (∃ us, ts = .number ['0'] :: us) ∨
      ∃ us, ts = opening :: us := by
  cases h with
  | name free => exact Or.inl ⟨_, _, rfl⟩
  | zero => exact Or.inr (Or.inl ⟨_, rfl⟩)
  | group inner => exact Or.inr (Or.inr ⟨_, rfl⟩)

theorem readFactor_of_primary (primary : Reader) (h : Derives .primary ts e) (rest : List Token) :
    readFactor primary (ts ++ rest) = primary (ts ++ rest) := by
  rcases head_of_primary h with ⟨x, us, rfl⟩ | ⟨us, rfl⟩ | ⟨us, rfl⟩ <;> rfl

theorem readSummand_of_factor (factor : Reader) (h : Derives .factor ts e) (rest : List Token) :
    readSummand factor (ts ++ rest) = factor (ts ++ rest) := by
  cases h with
  | primary p => rcases head_of_primary p with ⟨x, us, rfl⟩ | ⟨us, rfl⟩ | ⟨us, rfl⟩ <;> rfl
  | multiple nonzero p => rfl

/-- A reader that has not given up has found a frame. -/
theorem exists_frame (h : read frames k ts ≠ .error .tooDeep) : ∃ n, frames = n + 1 := by
  cases frames with
  | zero => exact absurd rfl h
  | succ n => exact ⟨n, rfl⟩

theorem ne_error_of_bind {ε α β : Type} {cause : ε} {x : Except ε α} {f : α → Except ε β}
    (h : x.bind f ≠ .error cause) : x ≠ .error cause := by
  rintro rfl
  exact h rfl

/-- **Every phrase of short numbers is read** and what follows it is left, unless the call stack is
full. -/
theorem read_of_derives (h : Derives k ts e) : ∀ (frames : ℕ) (rest : List Token),
    (∀ t ∈ ts, t.Short) → read frames k (ts ++ rest) ≠ .error .tooDeep →
      read frames k (ts ++ rest) = resume frames e rest k := by
  induction h with
  | @name x free =>
    intro frames rest _ hdeep
    obtain ⟨n, rfl⟩ := exists_frame hdeep
    change readPrimary (read n .sum) (.identifier x :: rest) = _
    rw [readPrimary, if_neg (by simp [free])]
    rfl
  | zero =>
    intro frames rest _ hdeep
    obtain ⟨n, rfl⟩ := exists_frame hdeep
    rfl
  | @group ts e inner ih =>
    intro frames rest hshort hdeep
    obtain ⟨n, rfl⟩ := exists_frame hdeep
    change (read n .sum (ts ++ [closing] ++ rest)).bind _ ≠ _ at hdeep
    change (read n .sum (ts ++ [closing] ++ rest)).bind _ = _
    rw [List.append_assoc, List.singleton_append] at hdeep ⊢
    have hsum := ih n (closing :: rest) (fun t ht => hshort t (by simp [ht]))
      (ne_error_of_bind hdeep)
    have hstops : Stops (closing :: rest) := ⟨by simp, by simp⟩
    rw [hsum, resume, readMore_of_stops _ _ _ _ hstops]
    rfl
  | @primary ts e p ih =>
    intro frames rest hshort hdeep
    obtain ⟨n, rfl⟩ := exists_frame hdeep
    change readFactor (read n .primary) (ts ++ rest) ≠ _ at hdeep
    change readFactor (read n .primary) (ts ++ rest) = _
    -- a primary does not start with a number other than `0`, so no factor is split off
    rw [readFactor_of_primary _ p] at hdeep ⊢
    exact ih n rest hshort hdeep
  | @multiple digits ts e nonzero p ih =>
    intro frames rest hshort hdeep
    obtain ⟨n, rfl⟩ := exists_frame hdeep
    have hdigits : digits.length ≤ Decimal.digitLimit := hshort _ List.mem_cons_self
    change readFactor (read n .primary) (.number digits :: (ts ++ rest)) ≠ _ at hdeep
    change readFactor (read n .primary) (.number digits :: (ts ++ rest)) = _
    rw [readFactor, if_neg nonzero, if_neg (by omega)] at hdeep ⊢
    rw [ih n rest (fun t ht => hshort t (by simp [ht])) (ne_error_of_bind hdeep)]
    rfl
  | @factor ts e f ih =>
    intro frames rest hshort hdeep
    obtain ⟨n, rfl⟩ := exists_frame hdeep
    change readSummand (read n .factor) (ts ++ rest) ≠ _ at hdeep
    change readSummand (read n .factor) (ts ++ rest) = _
    rw [readSummand_of_factor _ f] at hdeep ⊢
    exact ih n rest hshort hdeep
  | @neg ts e f ih =>
    intro frames rest hshort hdeep
    obtain ⟨n, rfl⟩ := exists_frame hdeep
    have hfactor := ih n rest (fun t ht => hshort t (by simp [ht])) (ne_error_of_bind hdeep)
    change (read n .factor (ts ++ rest)).bind _ = _
    rw [hfactor]
    rfl
  | @summand ts e s ih =>
    intro frames rest hshort hdeep
    obtain ⟨n, rfl⟩ := exists_frame hdeep
    have hsummand := ih n rest hshort (ne_error_of_bind hdeep)
    change (read n .summand (ts ++ rest)).bind _ = _
    rw [hsummand]
    rfl
  | @add ts us a b left right ihl ihr =>
    intro frames rest hshort hdeep
    obtain ⟨n, rfl⟩ := exists_frame hdeep
    rw [List.append_assoc, List.cons_append] at hdeep ⊢
    -- the left part is read and leaves the loop at `+`, with fuel for all that follows
    have hsum := ihl (n + 1) (.symbol '+' :: (us ++ rest)) (fun t ht => hshort t (by simp [ht])) hdeep
    rw [hsum, resume, List.length_cons, readMore_plus, Nat.add_sub_cancel] at hdeep ⊢
    have hsummand := ihr n rest (fun t ht => hshort t (by simp [ht])) (ne_error_of_bind hdeep)
    rw [hsummand]
    exact readMore_eq_resume _ rest (by rw [List.length_append]; omega)
  | @sub ts us a b left right ihl ihr =>
    intro frames rest hshort hdeep
    obtain ⟨n, rfl⟩ := exists_frame hdeep
    rw [List.append_assoc, List.cons_append] at hdeep ⊢
    have hsum := ihl (n + 1) (.symbol '-' :: (us ++ rest)) (fun t ht => hshort t (by simp [ht])) hdeep
    rw [hsum, resume, List.length_cons, readMore_minus, Nat.add_sub_cancel] at hdeep ⊢
    have hfactor := ihr n rest (fun t ht => hshort t (by simp [ht])) (ne_error_of_bind hdeep)
    rw [hfactor]
    exact readMore_eq_resume _ rest (by rw [List.length_append]; omega)

/-- **A sum is read whole** if neither `+` nor `-` follows. -/
theorem read_sum_of_derives (h : Derives .sum ts e) (hshort : ∀ t ∈ ts, t.Short) (hrest : Stops rest)
    (hdeep : read frames .sum (ts ++ rest) ≠ .error .tooDeep) :
    read frames .sum (ts ++ rest) = .ok (e, rest) := by
  rw [read_of_derives h frames rest hshort hdeep, resume, readMore_of_stops _ _ _ _ hrest]

/-! ### Whole token lists -/

variable [CallStack]

/-- **What reading a whole token list comes to**: it is a sum, or the refusal is right about the limit
that it blames. -/
theorem cases_of_ofTokens (ts : List Token) :
    (∃ e, ofTokens ts = .ok e ∧ Derives .sum ts e) ∨
      ∃ cause, ofTokens ts = .error cause ∧ cause.Justified CallStack.levels ts := by
  have hsettles := settles_read CallStack.frames .sum ts
  rw [ofTokens]
  generalize read CallStack.frames .sum ts = outcome at hsettles ⊢
  cases hsettles with
  | refusal justified => exact Or.inr ⟨_, rfl, justified⟩
  | @phrase used rest e front derives =>
    obtain _ | ⟨t, rest⟩ := rest
    · rw [List.append_nil] at front
      exact Or.inl ⟨e, rfl, front ▸ derives⟩
    · exact Or.inr ⟨.unexpected t, rfl, trivial⟩

theorem ofTokens_ne_tooDeep (h : Shallow CallStack.levels ts) : ofTokens ts ≠ .error .tooDeep := by
  intro hread
  rcases cases_of_ofTokens ts with ⟨e, he, -⟩ | ⟨cause, hcause, justified⟩
  · rw [he] at hread
    cases hread
  · rw [hcause] at hread
    cases hread
    exact justified h

/-- **Every sum of short numbers is read**, unless the call stack is full. -/
theorem ofTokens_of_derives (h : Derives .sum ts e) (hshort : ∀ t ∈ ts, t.Short)
    (hdeep : ofTokens ts ≠ .error .tooDeep) : ofTokens ts = .ok e := by
  rw [ofTokens, ← List.append_nil ts] at hdeep ⊢
  rw [read_sum_of_derives h hshort ⟨by simp, by simp⟩ (ne_error_of_bind hdeep)]
  rfl

/-- The right side of an equation is read like a whole token list. -/
theorem pairOfTokens_eq (ts : List Token) :
    pairOfTokens ts = (read CallStack.frames .sum ts).bind fun p =>
      (expect '=' p.2).bind fun us => (ofTokens us).bind fun b => .ok (p.1, b) := by
  have hright : ∀ (a : Expression) (us : List Token),
      ((read CallStack.frames .sum us).bind fun q => (finish q.2).bind fun _ => .ok (a, q.1)) =
        (ofTokens us).bind fun b => .ok (a, b) := by
    intro a us
    rw [ofTokens]
    cases read CallStack.frames .sum us with
    | error cause => rfl
    | ok q =>
      obtain ⟨b, rest⟩ := q
      cases rest <;> rfl
  simp only [← hright]
  rfl

/-- **What reading an equation comes to**: the tokens are one, or the refusal is right about the limit
that it blames. -/
theorem cases_of_pairOfTokens (ts : List Token) :
    (∃ a b, pairOfTokens ts = .ok (a, b) ∧ IsEquation ts a b) ∨
      ∃ cause, pairOfTokens ts = .error cause ∧ cause.Justified CallStack.levels ts := by
  have hsettles := settles_read CallStack.frames .sum ts
  rw [pairOfTokens_eq]
  generalize read CallStack.frames .sum ts = outcome at hsettles ⊢
  cases hsettles with
  | refusal justified => exact Or.inr ⟨_, rfl, justified⟩
  | @phrase left rest a front lefts =>
    change (∃ a' b, (expect '=' rest).bind _ = _ ∧ _) ∨ ∃ cause, (expect '=' rest).bind _ = _ ∧ _
    obtain _ | ⟨t, us⟩ := rest
    · exact Or.inr ⟨.endOfInput, rfl, trivial⟩
    by_cases ht : t = .symbol '='
    case neg =>
      rw [expect, if_neg ht]
      exact Or.inr ⟨.expected '=' t, rfl, trivial⟩
    subst ht
    change (∃ a' b, (ofTokens us).bind _ = _ ∧ _) ∨ ∃ cause, (ofTokens us).bind _ = _ ∧ _
    rcases cases_of_ofTokens us with ⟨b, hright, rights⟩ | ⟨cause, hright, justified⟩ <;> rw [hright]
    · exact Or.inl ⟨a, b, rfl, left, us, front, lefts, rights⟩
    · refine Or.inr ⟨cause, rfl, justified.mono ?_ fun h => ?_⟩
      · rw [front]
        exact List.subset_append_of_subset_right left (List.subset_cons_self _ us)
      · rw [front] at h
        exact (h.of_append (balanced_of_derives lefts)).of_cons (by decide) (by decide)

/-- **Every equation with short numbers is read**, unless the call stack is full. -/
theorem pairOfTokens_of_isEquation {a b : Expression} (h : IsEquation ts a b)
    (hshort : ∀ t ∈ ts, t.Short) (hdeep : pairOfTokens ts ≠ .error .tooDeep) :
    pairOfTokens ts = .ok (a, b) := by
  obtain ⟨left, right, rfl, lefts, rights⟩ := h
  rw [pairOfTokens_eq] at hdeep ⊢
  have hleft := read_sum_of_derives lefts (fun t ht => hshort t (by simp [ht]))
    ⟨by simp, by simp⟩ (ne_error_of_bind hdeep)
  rw [hleft] at hdeep ⊢
  -- the left side stops at `=`, which is then taken off
  change (ofTokens right).bind _ ≠ _ at hdeep
  change (ofTokens right).bind _ = _
  rw [ofTokens_of_derives rights (fun t ht => hshort t (by simp [ht])) (ne_error_of_bind hdeep)]
  rfl

end Expression

end GroupUnify
