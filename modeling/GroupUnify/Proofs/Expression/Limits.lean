import GroupUnify.Expression.Grammar
import GroupUnify.Expression.Reader
import Mathlib.Data.List.Infix
import Mathlib.Tactic.Common

/-!
# Texts within the limits of the reader

The reader refuses a number with too many digits (`Short`), and gives up if the call stack is full. The
stack is never full while few parentheses are open (`Shallow`); how many may be follows from the frames that
one level takes (`CallStack.levels`). Neither limit is part of the grammar. A phrase closes what it opens
(`balanced_of_derives`), so what follows a phrase in shallow tokens is as shallow as they are, and what
stands in parentheses is shallower by one level (`Shallow.of_opening`).
-/

namespace GroupUnify

/-- If fewer parentheses than this are open, then there are frames for all readers: a level takes four of
them at most. -/
def CallStack.levels [CallStack] : ℕ := frames / 4

theorem CallStack.levels_pos [CallStack] : 0 < levels := Nat.div_pos enough (by decide)

namespace Token

variable {depth depth' : ℕ} {t : Token} {ts us : List Token}

/-- The token that opens a group. -/
abbrev opening : Token := .symbol '('

/-- The token that closes a group. -/
abbrev closing : Token := .symbol ')'

/-- A number has at most `Decimal.digitLimit` digits. Other tokens may have any length. -/
def Short : Token → Prop
  | .number digits => digits.length ≤ Decimal.digitLimit
  | _ => True

instance : DecidablePred Short
  | .number digits => inferInstanceAs (Decidable (digits.length ≤ Decimal.digitLimit))
  | .identifier _ => .isTrue trivial
  | .symbol _ => .isTrue trivial

/-- As many parentheses are closed as are opened. -/
def Balanced (ts : List Token) : Prop := ts.count opening = ts.count closing

/-- At no place in the tokens are `depth` parentheses open. -/
def Shallow (depth : ℕ) (ts : List Token) : Prop :=
  ∀ before, before <+: ts → before.count opening < before.count closing + depth

instance (depth : ℕ) (ts : List Token) : Decidable (Shallow depth ts) :=
  decidable_of_iff (∀ before ∈ ts.inits, before.count opening < before.count closing + depth)
    ⟨fun h before hb => h before ((List.mem_inits _ _).2 hb),
      fun h before hb => h before ((List.mem_inits _ _).1 hb)⟩

namespace Shallow

theorem pos (h : Shallow depth ts) : 0 < depth := by
  have := h [] List.nil_prefix
  simpa using this

theorem mono (h : Shallow depth ts) (hle : depth ≤ depth') : Shallow depth' ts :=
  fun before hb => (h before hb).trans_le (Nat.add_le_add_left hle _)

/-- Tokens that open few parentheses are shallow, wherever these are closed. -/
theorem of_count_lt (h : ts.count opening < depth) : Shallow depth ts := by
  intro before hb
  have hcount := hb.sublist.count_le opening
  omega

theorem of_not_mem (h : opening ∉ ts) (hdepth : 0 < depth) : Shallow depth ts :=
  of_count_lt (by rwa [List.count_eq_zero_of_not_mem h])

/-- What follows balanced tokens is as shallow as the whole. -/
theorem of_append (h : Shallow depth (ts ++ us)) (hts : Balanced ts) : Shallow depth us := by
  intro before hb
  have hcount := h (ts ++ before) ((List.prefix_append_right_inj ts).2 hb)
  rw [Balanced] at hts
  simp only [List.count_append] at hcount
  omega

theorem of_cons (h : Shallow depth (t :: ts)) (hopen : t ≠ opening) (hclose : t ≠ closing) :
    Shallow depth ts := by
  have hone : Balanced [t] := by
    rw [Balanced, List.count_singleton, List.count_singleton]
    simp [hopen, hclose]
  have hts : Shallow depth ([t] ++ ts) := h
  exact hts.of_append hone

/-- Behind a parenthesis that opens there is one level less. -/
theorem of_opening (h : Shallow (depth + 1) (opening :: ts)) : Shallow depth ts := by
  intro before hb
  have hcount := h (opening :: before) ((List.cons_prefix_cons).2 ⟨rfl, hb⟩)
  rw [List.count_cons_self, List.count_cons_of_ne (by decide)] at hcount
  omega

end Shallow

end Token

namespace Grammar

open Token

/-- **A phrase closes what it opens.** -/
theorem balanced_of_derives {k : Kind} {ts : List Token} {e : Expression} (h : Derives k ts e) :
    Token.Balanced ts := by
  unfold Token.Balanced
  induction h with
  | name free => simp
  | zero => simp
  | group inner ih => simp [List.count_append, ih]
  | primary p ih => exact ih
  | multiple nonzero p ih => simpa [List.count_cons] using ih
  | factor f ih => exact ih
  | neg f ih => simpa [List.count_cons] using ih
  | summand s ih => exact ih
  | add left right ihl ihr => simp [List.count_append, ihl, ihr]
  | sub left right ihl ihr => simp [List.count_append, ihl, ihr]

end Grammar

end GroupUnify
