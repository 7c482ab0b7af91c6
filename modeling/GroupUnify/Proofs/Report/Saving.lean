import GroupUnify.Proofs.Json.RoundTrip
import GroupUnify.Proofs.Report.Printing
import GroupUnify.Report.Saved

/-!
# Saved reports load back unchanged

A report is read back from its JSON (`ofJson_toJson`), part by part: a term from its pairs, a binding
from its two fields, an answer from its bindings. The JSON has no real numbers in it and few containers
in each other (`within_toJson`), so it is also read back from its text. Only the numbers may be in the
way: a file is written exactly if all coefficients fit (`prints_file`), and what is written loads as the
very reports that were saved (`load_file`).
-/

namespace GroupUnify

variable {rs : List Report} {d : ℕ}

namespace Report

/-! ### Reading the JSON of a report -/

theorem mapM_eq_ok {α : Type} {encode : α → Json} {decode : Json → Except LoadError α} (as : List α)
    (h : ∀ a ∈ as, decode (encode a) = .ok a) : (as.map encode).mapM decode = .ok as := by
  induction as with
  | nil => rfl
  | cons a as ih =>
    obtain ⟨ha, has⟩ := List.forall_mem_cons.1 h
    rw [List.map_cons, List.mapM_cons, ha, ih has]
    rfl

theorem termOf_termToJson (t : Term) : termOf (termToJson t) = .ok t := by
  have hfactors : (t.factors.map fun f => Json.array [.string f.1, .integer f.2]).mapM factorOf =
      .ok t.factors := mapM_eq_ok t.factors fun _ _ => rfl
  rw [termOf, termToJson, elements]
  simp only [bind, Except.bind, hfactors]
  rfl

theorem equationOf_equationToJson (e : Equation) : equationOf (equationToJson e) = .ok e := by
  have hleft : field "left" (equationToJson e) = .ok (termToJson e.left) := by
    simp [field, equationToJson, Json.field?]
  have hright : field "right" (equationToJson e) = .ok (termToJson e.right) := by
    simp [field, equationToJson, Json.field?]
  rw [equationOf, hleft, hright]
  simp only [bind, Except.bind, termOf_termToJson]
  rfl

theorem bindingOf_bindingToJson (b : Binding) : bindingOf (bindingToJson b) = .ok b := by
  have hname : field "variable" (bindingToJson b) = .ok (.string b.name) := by
    simp [field, bindingToJson, Json.field?]
  have hterm : field "term" (bindingToJson b) = .ok (termToJson b.term) := by
    simp [field, bindingToJson, Json.field?]
  rw [bindingOf, hname, hterm]
  simp only [bind, Except.bind, termOf_termToJson]
  rfl

/-- An answer without bindings is told from no answer. -/
theorem answerOf_answerToJson (answer : Option Substitution) :
    answerOf (answerToJson answer) = .ok answer := by
  cases answer with
  | none => rfl
  | some s =>
    have hbindings := mapM_eq_ok s fun b _ => bindingOf_bindingToJson b
    rw [answerToJson, answerOf, elements]
    · simp only [bind, Except.bind, hbindings]
      rfl
    · rintro ⟨⟩

/-- **A report is read back from its JSON.** -/
theorem ofJson_toJson (r : Report) : ofJson (toJson r) = .ok r := by
  obtain ⟨source, equation, unifier, matcher, error⟩ := r
  cases equation with
  | none =>
    simp [toJson, ofJson, field, Json.field?, stringOf, answerOf_answerToJson, bind, Except.bind, pure,
      Except.pure]
  | some e =>
    have hequation := equationOf_equationToJson e
    rw [equationToJson] at hequation
    simp [toJson, ofJson, field, Json.field?, stringOf, answerOf_answerToJson, equationToJson, hequation,
      bind, Except.bind, pure, Except.pure, Functor.map, Except.map]

/-! ### The text of a file -/

theorem fits_termToJson (t : Term) : (termToJson t).Fits ↔ t.Fits := by
  rw [termToJson, Json.Fits, Json.itemsFit_iff, List.forall_mem_map]
  simp [Term.Fits, Json.Fits, Json.ItemsFit]

theorem fits_equationToJson (e : Equation) : (equationToJson e).Fits ↔ e.Fits := by
  simp [equationToJson, Equation.Fits, Json.Fits, Json.FieldsFit, fits_termToJson]

theorem fits_answerToJson (answer : Option Substitution) :
    (answerToJson answer).Fits ↔ ∀ s ∈ answer, s.Fits := by
  cases answer with
  | none => simp [answerToJson, Json.Fits]
  | some s =>
    simp [answerToJson, bindingToJson, Substitution.Fits, Json.Fits, Json.FieldsFit, Json.itemsFit_iff,
      fits_termToJson]

theorem fits_toJson (r : Report) : (toJson r).Fits ↔ r.Fits := by
  rw [fits_iff, ← fits_answerToJson, ← fits_answerToJson]
  obtain ⟨source, equation, unifier, matcher, error⟩ := r
  cases equation with
  | none => simp [toJson, Json.Fits, Json.FieldsFit]
  | some e => simp [toJson, Json.Fits, Json.FieldsFit, fits_equationToJson]

/-- **A file is written exactly if all coefficients of its reports fit.** -/
theorem prints_file (rs : List Report) :
    Page.Prints .unwritable (file rs) (Json.text 0 (.array (rs.map toJson))) (∀ r ∈ rs, r.Fits) :=
  (Json.prints_page _).congr (by simp [Json.Fits, Json.itemsFit_iff, fits_toJson])

theorem within_termToJson (t : Term) : Json.Within (d + 2) (termToJson t) := by
  refine .array fun v hv => ?_
  obtain ⟨f, -, rfl⟩ := List.mem_map.1 hv
  refine .array fun v hv => ?_
  simp only [List.mem_cons, List.not_mem_nil, or_false] at hv
  rcases hv with rfl | rfl
  · exact .string f.1
  · exact .integer f.2

theorem within_equationToJson (e : Equation) : Json.Within (d + 3) (equationToJson e) := by
  refine .object fun f hf => ?_
  simp only [List.mem_cons, List.not_mem_nil, or_false] at hf
  rcases hf with rfl | rfl
  · exact within_termToJson e.left
  · exact within_termToJson e.right

theorem within_answerToJson (answer : Option Substitution) :
    Json.Within (d + 4) (answerToJson answer) := by
  cases answer with
  | none => exact .null
  | some s =>
    refine .array fun v hv => ?_
    obtain ⟨b, -, rfl⟩ := List.mem_map.1 hv
    refine .object fun f hf => ?_
    simp only [List.mem_cons, List.not_mem_nil, or_false] at hf
    rcases hf with rfl | rfl
    · exact .string b.name
    · exact within_termToJson b.term

/-- A report has containers five deep: itself, an answer, a binding, its term and a factor. -/
theorem within_toJson (r : Report) : Json.Within (d + 5) (toJson r) := by
  refine .object fun f hf => ?_
  simp only [List.mem_cons, List.not_mem_nil, or_false] at hf
  rcases hf with rfl | rfl | rfl | rfl | rfl
  · exact .string r.source
  · cases r.equation with
    | none => exact .null
    | some e => exact within_equationToJson e
  · exact within_answerToJson r.unifier
  · exact within_answerToJson r.matcher
  · exact .string r.error

/-- **What is written loads as what was saved.** -/
theorem load_written (h : ∀ r ∈ rs, r.Fits) : load (file rs).written = .ok rs := by
  have hfits : (Json.array (rs.map toJson)).Fits := by
    simpa [Json.Fits, Json.itemsFit_iff, fits_toJson] using h
  have hwithin : Json.Within Json.nestingLimit (.array (rs.map toJson)) := by
    refine .array (d := 984 + 5) fun v hv => ?_
    obtain ⟨r, -, rfl⟩ := List.mem_map.1 hv
    exact within_toJson r
  rw [load, ((prints_file rs).whole h).2, Json.ofString_text hwithin hfits]
  exact mapM_eq_ok rs fun r _ => ofJson_toJson r

/-- **Saved reports load back unchanged**, and saving them again gives the same file. -/
theorem load_file (rs : List Report) (h : ∀ r ∈ rs, r.Fits) :
    (file rs).failure? = none ∧ load (file rs).written = .ok rs ∧
      ∀ loaded, load (file rs).written = .ok loaded →
        (file loaded).failure? = none ∧ (file loaded).written = (file rs).written := by
  have hwhole := ((prints_file rs).whole h).1
  have hload := load_written h
  refine ⟨hwhole, hload, fun loaded hloaded => ?_⟩
  rw [hload] at hloaded
  cases hloaded
  exact ⟨hwhole, rfl⟩

/-- Characters that are escaped in each of the ways there are, factors in no order with a zero and a repeated
name, and an answer without bindings beside no answer. -/
theorem load_file_escapes :
    ∃ r r' : Report,
      r = ⟨"\"\\\n\x00é😀", some ⟨⟨[("x", 0), ("y", -3), ("y", 2 ^ 70)]⟩, 0⟩, some [], none, "~"⟩ ∧
      r' = ⟨"", none, none, some [⟨"", ⟨[("😀", -1)]⟩⟩], "\x7f"⟩ ∧
      (∀ q ∈ [r, r'], q.Fits) ∧ (file [r, r']).failure? = none ∧
      load (file [r, r']).written = .ok [r, r'] := by
  refine ⟨_, _, rfl, rfl, ?_⟩
  have hfits : Fits ⟨"\"\\\n\x00é😀", some ⟨⟨[("x", 0), ("y", -3), ("y", 2 ^ 70)]⟩, 0⟩, some [],
      none, "~"⟩ := by decide +kernel
  have hfits' : Fits ⟨"", none, none, some [⟨"", ⟨[("😀", -1)]⟩⟩], "\x7f"⟩ := by decide +kernel
  have h := List.forall_mem_cons.2 ⟨hfits, List.forall_mem_singleton.2 hfits'⟩
  obtain ⟨hwhole, hload, -⟩ := load_file _ h
  exact ⟨h, hwhole, hload⟩

end Report

end GroupUnify
