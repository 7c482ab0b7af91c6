/-!
# Pages: output whose pieces may fail

What the program prints is a list of pieces in order. A piece is a text or the reason why it
cannot be written. Printing goes on up to the first piece that fails:

* `Page.written`: the text that comes out.
* `Page.failure?`: the reason why printing stopped, if it did.
* `Page.written_append`, `Page.failure?_append`: both, for two pages one after the other.
-/

namespace GroupUnify

/-- Pieces of output in order; `ε` is the type of reasons for which a piece fails. -/
abbrev Page (ε : Type) := List (Except ε String)

namespace Page

variable {ε : Type}

/-- The text of all pieces before the first one that fails. -/
def written : Page ε → String
  | [] => ""
  | .ok s :: rest => s ++ written rest
  | .error _ :: _ => ""

/-- The reason of the first piece that fails. -/
def failure? : Page ε → Option ε
  | [] => none
  | .ok _ :: rest => failure? rest
  | .error e :: _ => some e

theorem failure?_append (p q : Page ε) :
    failure? (p ++ q) = (failure? p).or (failure? q) := by
  induction p with
  | nil => rfl
  | cons piece rest ih => cases piece <;> simp [failure?, ih]

/-- A page is printed after another one only if that one is printed whole. -/
theorem written_append (p q : Page ε) :
    written (p ++ q) = if failure? p = none then written p ++ written q else written p := by
  induction p with
  | nil => simp [written, failure?]
  | cons piece rest ih =>
    cases piece with
    | error e => simp [written, failure?]
    | ok s =>
      by_cases h : failure? rest = none <;> simp [written, failure?, ih, h, String.append_assoc]

end Page

end GroupUnify
