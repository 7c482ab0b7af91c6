import GroupUnify.Json.Printer
import GroupUnify.Proofs.Text.Pages

/-!
# The text of a JSON value

A value is printed whole exactly if all its integers fit (`prints_page`). The text is then that of the
value at its indentation level, with the items of an array and the fields of an object one to a line.
-/

namespace GroupUnify.Json

mutual

/-- All integers in a value have a decimal form. -/
def Fits : Json → Prop
  | .integer n => Decimal.Fits n
  | .array vs => ItemsFit vs
  | .object fs => FieldsFit fs
  | _ => True

/-- All integers in items have a decimal form. -/
def ItemsFit : List Json → Prop
  | [] => True
  | v :: vs => Fits v ∧ ItemsFit vs

/-- All integers in fields have a decimal form. -/
def FieldsFit : List (String × Json) → Prop
  | [] => True
  | (_, v) :: fs => Fits v ∧ FieldsFit fs

end

theorem itemsFit_iff {vs : List Json} : ItemsFit vs ↔ ∀ v ∈ vs, v.Fits := by
  induction vs with
  | nil => simp [ItemsFit]
  | cons v vs ih => rw [ItemsFit, ih, List.forall_mem_cons]

theorem fieldsFit_iff {fs : List (String × Json)} : FieldsFit fs ↔ ∀ f ∈ fs, f.2.Fits := by
  induction fs with
  | nil => simp [FieldsFit]
  | cons f fs ih => rw [FieldsFit, ih, List.forall_mem_cons]

mutual

/-- The text of a value at an indentation level. -/
def text (level : ℕ) : Json → String
  | .null => "null"
  | .bool b => if b then "true" else "false"
  | .integer n => toString n
  | .real literal => literal
  | .string s => quoted s
  | .array [] => "[]"
  | .array (v :: vs) =>
    "[" ++ lineBreak (level + 1) ++ text (level + 1) v ++ itemsText (level + 1) vs ++
      (lineBreak level ++ "]")
  | .object [] => "\x7b\x7d"
  | .object ((key, v) :: fs) =>
    "\x7b" ++ lineBreak (level + 1) ++ quoted key ++ ": " ++ text (level + 1) v ++
      fieldsText (level + 1) fs ++ (lineBreak level ++ "\x7d")

/-- The text of the items after the first one. -/
def itemsText (level : ℕ) : List Json → String
  | [] => ""
  | v :: vs => "," ++ lineBreak level ++ text level v ++ itemsText level vs

/-- The text of the fields after the first one. -/
def fieldsText (level : ℕ) : List (String × Json) → String
  | [] => ""
  | (key, v) :: fs =>
    "," ++ lineBreak level ++ quoted key ++ ": " ++ text level v ++ fieldsText level fs

end

mutual

/-- **The pieces of a value** print its text behind what leads to it. -/
theorem prints_pieces (level : ℕ) (lead : String) :
    ∀ v : Json, Page.Prints .unwritable (pieces level lead v) (lead ++ text level v) v.Fits
  | .null => .text _ _
  | .bool _ => .text _ _
  | .integer n => Page.prints_of_writes ((Decimal.writes_format n).map (lead ++ ·))
  | .real _ => .text _ _
  | .string _ => .text _ _
  | .array [] => .text _ _
  | .array (v :: vs) => by
    have hitems := prints_itemPieces (level + 1) vs
    have hfirst := prints_pieces (level + 1) ("[" ++ lineBreak (level + 1)) v
    have h := ((hfirst.append hitems).append (.text _ (lineBreak level ++ "]"))).cons_text lead
    simp only [and_true] at h
    exact h
  | .object [] => .text _ _
  | .object ((key, v) :: fs) => by
    have hfields := prints_fieldPieces (level + 1) fs
    have hfirst := (prints_pieces (level + 1) "" v).cons_text
      (lead ++ "\x7b" ++ lineBreak (level + 1) ++ quoted key ++ ": ")
    have h := (hfirst.append hfields).append (.text _ (lineBreak level ++ "\x7d"))
    simp only [and_true, String.empty_append, String.append_assoc] at h
    rw [pieces, text]
    simp only [String.append_assoc]
    exact h

theorem prints_itemPieces (level : ℕ) :
    ∀ vs : List Json, Page.Prints .unwritable (itemPieces level vs) (itemsText level vs) (ItemsFit vs)
  | [] => .nil _
  | v :: vs => (prints_pieces level ("," ++ lineBreak level) v).append (prints_itemPieces level vs)

theorem prints_fieldPieces (level : ℕ) : ∀ fs : List (String × Json),
    Page.Prints .unwritable (fieldPieces level fs) (fieldsText level fs) (FieldsFit fs)
  | [] => .nil _
  | (key, v) :: fs => by
    have hfields := prints_fieldPieces level fs
    have hfirst := (prints_pieces level "" v).cons_text
      ("," ++ lineBreak level ++ quoted key ++ ": ")
    have h := hfirst.append hfields
    rw [String.empty_append] at h
    exact h

end

/-- **A value is printed whole exactly if its integers fit.** -/
theorem prints_page (v : Json) : Page.Prints .unwritable v.page (text 0 v) v.Fits := by
  have h := prints_pieces 0 "" v
  rw [String.empty_append] at h
  exact h

end GroupUnify.Json
