import GroupUnify.Proofs.Expression.Parsing
import GroupUnify.Proofs.Term.Substitution
import GroupUnify.Register

/-!
# Programs keep terms well-formed

Every instruction makes a well-formed term of well-formed registers, or fails: `yields_eval` has one case for
each instruction. Texts and lists of pairs may be anything, since reading sums up and so does
`Term.ofPairs`; of a substitution only the term that it is applied to counts. A register that is not filled
with the term of its instruction holds the identity, so the registers stay well-formed through any program
(`WellFormed.fillAll`, `wellFormed_stored_runFrom`).

* `program_wellFormed`: every register of every program.
-/

namespace GroupUnify

namespace Register

variable {α β : Type} {P : α → Prop} {Q : β → Prop} {x : Except Failure α}
  {registers : List Term} {t : Term}

/-- If `x` has a value, the value satisfies `P`. -/
def Yields (P : α → Prop) (x : Except Failure α) : Prop := ∀ a, x = .ok a → P a

namespace Yields

theorem ok {a : α} (h : P a) : Yields P (.ok a) := by
  intro b hb
  cases hb
  exact h

theorem error (cause : Failure) : Yields P (.error cause) := by
  intro b hb
  cases hb

theorem bind {f : α → Except Failure β} (hx : Yields P x) (hf : ∀ a, P a → Yields Q (f a)) :
    Yields Q (x >>= f) := by
  cases x with
  | error cause => exact error cause
  | ok a => exact hf a (hx a rfl)

/-- What is not asked of a value cannot be wrong. -/
theorem of_true (x : Except Failure α) : Yields (fun _ => True) x := fun _ _ => trivial

end Yields

/-! ### Instructions -/

/-- All registers hold well-formed terms. -/
def WellFormed (registers : List Term) : Prop := ∀ t ∈ registers, t.WellFormed

theorem wellFormed_nil : WellFormed [] := fun _ ht => absurd ht List.not_mem_nil

theorem WellFormed.append (h : WellFormed registers) (ht : t.WellFormed) :
    WellFormed (registers ++ [t]) := by
  intro u hu
  rcases List.mem_append.1 hu with hu | hu
  · exact h u hu
  · rw [List.mem_singleton.1 hu]
    exact ht

theorem yields_get (h : WellFormed registers) (a : ℤ) : Yields Term.WellFormed (get registers a) := by
  unfold get
  cases a with
  | ofNat i =>
    simp only
    split
    · next t ht => exact .ok (h t (List.mem_of_getElem? ht))
    · exact .error _
  | negSucc k =>
    simp only
    split
    · next t ht => exact .ok (h t (List.mem_reverse.1 (List.mem_of_getElem? ht)))
    · exact .error _

theorem yields_parse [CallStack] (text : String) :
    Yields Term.WellFormed ((Term.parse text).mapError .parse) := by
  rw [Term.parse]
  cases Expression.ofTokens (Token.ofString text) with
  | error cause => exact .error _
  | ok e => exact .ok e.wellFormed_toTerm

/-- Whatever a search finds, applied to a term it makes a well-formed one. -/
theorem yields_applied (search : Search) (t : Term) : Yields Term.WellFormed (applied search t) := by
  unfold applied
  split
  · exact .error _
  · exact .ok Term.wellFormed_zero
  · next s _ => exact .ok (Substitution.wellFormed_apply s t)

/-- **An instruction makes a well-formed term of well-formed registers.** -/
theorem yields_eval [CallStack] (h : WellFormed registers) (i : Instruction) :
    Yields Term.WellFormed (eval registers i) := by
  cases i with
  | zero => exact .ok Term.wellFormed_zero
  | var x => exact .ok (Term.wellFormed_var x)
  | parse text => exact yields_parse text
  | reparse a =>
    -- whatever text the register has, what is read from it is well-formed
    refine (yields_get h a).bind fun t _ => ?_
    refine (Yields.of_true _).bind fun text _ => ?_
    exact yields_parse text
  | ofPairs pairs => exact .ok (Term.wellFormed_ofPairs pairs)
  | scale k a =>
    refine (yields_get h a).bind fun t ht => ?_
    exact .ok (ht.scale k)
  | neg a =>
    refine (yields_get h a).bind fun t ht => ?_
    exact .ok ht.neg
  | add a b =>
    refine (yields_get h a).bind fun t ht => ?_
    refine (yields_get h b).bind fun u _ => ?_
    exact .ok (ht.add u)
  | canonical a =>
    refine (yields_get h a).bind fun t ht => ?_
    exact .ok ht.canonical
  | substitute given a =>
    refine (Yields.of_true _).bind fun s _ => ?_
    refine (yields_get h a).bind fun t _ => ?_
    exact .ok (Substitution.wellFormed_apply s t)
  | unify a b =>
    refine (yields_get h a).bind fun t _ => ?_
    refine (yields_get h b).bind fun u _ => ?_
    exact yields_applied _ t
  | «match» a b =>
    refine (yields_get h a).bind fun t _ => ?_
    refine (yields_get h b).bind fun u _ => ?_
    exact yields_applied _ t

/-! ### Programs -/

/-- The registers after an instruction: the new one holds its term, or the identity if it fails. -/
def fill [CallStack] (registers : List Term) (i : Instruction) : List Term :=
  registers ++ [(eval registers i).toOption.getD 0]

/-- The registers after a program. -/
def fillAll [CallStack] (registers : List Term) (program : List Instruction) : List Term :=
  program.foldl fill registers

theorem Yields.getD_zero {x : Except Failure Term} (hx : Yields Term.WellFormed x) :
    (x.toOption.getD 0).WellFormed := by
  cases x with
  | error cause => exact Term.wellFormed_zero
  | ok t => exact hx t rfl

theorem WellFormed.fill [CallStack] (h : WellFormed registers) (i : Instruction) :
    WellFormed (fill registers i) :=
  h.append (yields_eval h i).getD_zero

theorem WellFormed.fillAll [CallStack] (program : List Instruction) :
    ∀ {registers : List Term}, WellFormed registers → WellFormed (fillAll registers program) := by
  induction program with
  | nil => exact fun h => h
  | cons i rest ih => exact fun h => ih (h.fill i)

/-- A term that has no text is not kept; what is kept instead is well-formed too. -/
theorem wellFormed_stored_result [CallStack] (h : WellFormed registers) (i : Instruction) :
    (stored (result registers i)).WellFormed := by
  have hresult : Yields (fun r : Term × String => r.1.WellFormed) (result registers i) :=
    (yields_eval h i).bind fun t ht => (Yields.of_true _).bind fun text _ => .ok ht
  unfold stored
  split
  · next t text hr => exact hresult _ hr
  · exact Term.wellFormed_zero

theorem wellFormed_stored_runFrom [CallStack] (program : List Instruction) : ∀ {registers : List Term},
    WellFormed registers → ∀ r ∈ runFrom registers program, (stored r).WellFormed := by
  induction program with
  | nil => exact fun _ r hr => absurd hr List.not_mem_nil
  | cons i rest ih =>
    intro registers h r hr
    have hi := wellFormed_stored_result h i
    rcases List.mem_cons.1 hr with rfl | hr
    · exact hi
    · exact ih (h.append hi) r hr

/-- **Every register of every program holds a well-formed term**: no coefficient is zero and no name stands
twice. This is so if each register takes the term of its instruction, the identity standing for a failure,
and also if a term without a text counts as a failure. -/
theorem program_wellFormed [CallStack] (program : List Instruction) :
    (∀ t ∈ fillAll [] program, (∀ f ∈ t.factors, f.2 ≠ 0) ∧ t.names.Nodup) ∧
      ∀ r ∈ run program, (∀ f ∈ (stored r).factors, f.2 ≠ 0) ∧ (stored r).names.Nodup := by
  refine ⟨fun t ht => ?_, fun r hr => ?_⟩
  · have hwf := wellFormed_nil.fillAll program t ht
    exact ⟨hwf.nonzero, hwf.nodup⟩
  · have hwf := wellFormed_stored_runFrom program wellFormed_nil r hr
    exact ⟨hwf.nonzero, hwf.nodup⟩

end Register

end GroupUnify
