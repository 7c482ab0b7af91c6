import GroupUnify.CommandLine.Session
import GroupUnify.Proofs.Batch.Completion

/-!
# Interrupted batches

A batch does its lines one by one, and an interrupt that comes when a line is asked for finds the lines
before it done. One more line in front adds the same report and the same output to the batch that is
interrupted as to the one that is not (`Batch.ofLines_cons`), so by induction on the lines the batch that is
interrupted is the batch over the lines read so far, with a notice behind its output
(`Batch.interrupted_eq`). The notice is printed exactly if the output before it is printed whole, and what is
saved are the reports, which know nothing of it (`Session.ending_behind`).

* `Session.ending_interrupted`: what is left of a batch that is interrupted.
-/

namespace GroupUnify

variable {s : Settings} {lines : List String} {k : ℕ} {cause : Failure}

namespace Batch

/-! ### Line by line -/

/-- **One more line in front**: a blank one adds nothing, and any other its report and what is printed for
it. -/
theorem ofLines_cons [CallStack] (s : Settings) (line : String) (rest : List String) :
    ofLines s (line :: rest) =
      if (Text.trim line).isEmpty then ofLines s rest
      else
        let solved := Solved.ofText s (Text.trim line)
        ⟨solved.report :: (ofLines s rest).reports, solved.page s ++ (ofLines s rest).page⟩ := by
  by_cases hblank : (Text.trim line).isEmpty = true
  · have hproblems : problems (line :: rest) = problems rest := by simp [problems, hblank]
    rw [if_pos hblank, ofLines, hproblems]
    rfl
  · have hproblems : problems (line :: rest) = Text.trim line :: problems rest := by
      simp [problems, hblank]
    rw [if_neg hblank, ofLines, hproblems]
    rfl

/-- **An interrupt leaves the batch over the lines read so far**, and a notice behind its output. A batch that
ends before line `k` is asked for is not interrupted. -/
theorem interrupted_eq [CallStack] (s : Settings) (lines : List String) (k : ℕ) :
    interrupted s lines k =
      ⟨(ofLines s (lines.take k)).reports,
        (ofLines s (lines.take k)).page ++ if k ≤ lines.length then interruptNotice else []⟩ := by
  induction lines generalizing k with
  | nil => cases k <;> rfl
  | cons line rest ih =>
    cases k with
    | zero => rfl
    | succ k =>
      rw [interrupted, ih k, List.take_succ_cons, ofLines_cons]
      simp only [List.length_cons, Nat.add_le_add_iff_right]
      split
      · rfl
      · simp only [Solved.page, List.append_assoc]

/-! ### What is printed behind a batch -/

/-- A text that is printed behind a batch comes out if nothing failed before it, and changes nothing else. -/
theorem outcome_behind (b : Batch) (text : String) (save : Bool) :
    outcome ⟨b.reports, b.page ++ [.ok text]⟩ save =
      { b.outcome save with
        printed := (b.outcome save).printed ++ if b.page.failure? = none then text else "" } := by
  have hfailure : Page.failure? (b.page ++ [.ok text]) = b.page.failure? := by
    rw [Page.failure?_append]
    exact Option.or_none
  have hwritten : Page.written (b.page ++ [.ok text]) =
      b.page.written ++ if b.page.failure? = none then text else "" := by
    rw [Page.written_append]
    split
    · exact congrArg (b.page.written ++ ·) String.append_empty
    · exact String.append_empty.symm
  rw [outcome, outcome, hfailure, hwritten]
  cases b.page.failure? with
  | some cause => rfl
  | none => cases save <;> rfl

/-- A run that saves nothing fails exactly while its lines are done. -/
theorem failure_run_unsaved [CallStack] (s : Settings) (lines : List String) :
    (run s lines false).failure = (ofLines s lines).page.failure? := by
  rw [run, outcome]
  cases (ofLines s lines).page.failure? <;> rfl

end Batch

namespace CommandLine.Session

variable {σ ε : Type} [Files σ ε] {b : Batch}

/-! ### What a batch leaves -/

theorem ending_behind (store : σ) (save : Option String) (b : Batch) (text : String) :
    ending store save ⟨b.reports, b.page ++ [.ok text]⟩ =
      { ending store save b with
        printed := (ending store save b).printed ++
          if b.page.failure? = none then text else "" } := by
  cases hsave : path? save with
  | none => rw [ending_unsaved hsave, ending_unsaved hsave, Batch.outcome_behind]; rfl
  | some path =>
    cases hcreate : Files.create store path with
    | error fault =>
      rw [ending_refused hsave hcreate, ending_refused hsave hcreate, Batch.outcome_behind]; rfl
    | ok written => rw [ending_saved hsave hcreate, ending_saved hsave hcreate, Batch.outcome_behind]; rfl

/-- **A batch that fails while its lines are done** is not saved, whatever the path. -/
theorem ending_of_failure (store : σ) (save : Option String)
    (h : b.page.failure? = some cause) :
    ending store save b = ⟨b.page.written, store, .error (.answer cause)⟩ := by
  have houtcome : ∀ save, b.outcome save = ⟨b.reports, b.page.written, none, some cause⟩ := by
    intro save
    rw [Batch.outcome, h]
  cases hsave : path? save with
  | none => rw [ending_unsaved hsave, houtcome]; rfl
  | some path =>
    cases hcreate : Files.create store path with
    | error fault => rw [ending_refused hsave hcreate, houtcome]; rfl
    | ok written => rw [ending_saved hsave hcreate, houtcome]; rfl

/-- **An interrupted batch is the batch over the lines read so far**, with or without a path to save it at. It
gives the same reports, or fails for the same reason, and leaves the same files. If these lines are done
without a failure, then its output is theirs and the notice behind it, also if saving them fails. If one of
them fails there is no notice, and nothing is saved. -/
theorem ending_interrupted [CallStack] (s : Settings) (hk : k ≤ lines.length) (store : σ)
    (save : Option String) :
    let whole := ending store save (Batch.ofLines s (lines.take k))
    let stopped := ending store save (Batch.interrupted s lines k)
    stopped.result = whole.result ∧ stopped.store = whole.store ∧
    ((Batch.run s (lines.take k) false).failure = none →
      stopped.printed = whole.printed ++ "\nInterrupted.\n") ∧
    ∀ cause, (Batch.run s (lines.take k) false).failure = some cause →
      stopped.printed = whole.printed ∧ whole.result = .error (.answer cause) ∧ whole.store = store := by
  intro whole stopped
  have hstopped : stopped = { whole with
      printed := whole.printed ++
        if (Batch.ofLines s (lines.take k)).page.failure? = none then "\nInterrupted.\n" else "" } := by
    have hinterrupted := Batch.interrupted_eq s lines k
    rw [if_pos hk] at hinterrupted
    change ending store save (Batch.interrupted s lines k) = _
    rw [hinterrupted]
    exact ending_behind store save _ _
  rw [Batch.failure_run_unsaved, hstopped]
  refine ⟨rfl, rfl, fun hnone => ?_, fun cause hcause => ?_⟩
  · simp only [hnone, if_true]
  · have hwhole : whole = _ := ending_of_failure store save hcause
    simp only [hcause, reduceCtorEq, if_false, String.append_empty, true_and]
    rw [hwhole]
    exact ⟨rfl, rfl⟩

/-- Three lines, of which one is blank and one cannot be read, are done before the interrupt; they are saved,
or at a path without folder they are not. The coefficient of another line is too long to be printed, so that
no interrupt comes to the line behind it. -/
theorem ending_interrupted_three_ways :
    let lines := ["x = y", "", "2 = x", "y = z"]
    let long := [productText (10 ^ 2200) (10 ^ 2200), "x = y"]
    (3 ≤ lines.length ∧ (Batch.run {} (lines.take 3) false).failure = none ∧
      ∀ save, (ending FileStore.system save (Batch.interrupted {} lines 3)).printed =
        (ending FileStore.system save (Batch.ofLines {} ["x = y", "", "2 = x"])).printed ++
          "\nInterrupted.\n") ∧
    (ending FileStore.system (some "r.json") (Batch.interrupted {} lines 3)).result.toOption.map List.length =
      some 2 ∧
    (ending FileStore.system (some "no/r.json") (Batch.interrupted {} lines 3)).result =
      .error (.path "no/r.json" .noSuchFile) ∧
    1 ≤ long.length ∧
    (ending FileStore.system (some "r.json") (Batch.interrupted {} long 1)).result =
      .error (.answer (.decimal .unwritable)) := by
  intro lines long
  have hlines : 3 ≤ lines.length := by decide
  have hlong : 1 ≤ long.length := by decide
  have hdone : (Batch.run {} (lines.take 3) false).failure = none := by decide +kernel
  have hnotice := fun save => (ending_interrupted {} hlines FileStore.system save).2.2.1 hdone
  have hsaved := (ending_interrupted {} hlines FileStore.system (some "r.json")).1
  have hrefused := (ending_interrupted {} hlines FileStore.system (some "no/r.json")).1
  -- the product of the two numbers of 2201 digits is not printed
  have hproblem : productText (10 ^ 2200) (10 ^ 2200) ∈ Batch.problems (long.take 1) :=
    Batch.productText_mem_problems List.mem_cons_self
  have hfits : Decimal.Fits (10 ^ 2200 : ℕ) := by decide +kernel
  have hproduct : ¬ Decimal.Fits ((10 ^ 2200 : ℕ) * (10 ^ 2200 : ℕ)) := by decide +kernel
  have hnonzero : 10 ^ 2200 ≠ 0 := by decide +kernel
  have hstops : (Batch.run {} (long.take 1) false).failure = some (.decimal .unwritable) :=
    Batch.stops_at_product hnonzero hnonzero hfits hfits (by decide) hproduct hproblem (.inl rfl)
  obtain ⟨hresult, -, -, hfailed⟩ := ending_interrupted {} hlong FileStore.system (some "r.json")
  refine ⟨⟨hlines, hdone, hnotice⟩, ?_, ?_, hlong, hresult.trans (hfailed _ hstops).2.1⟩
  · rw [hsaved]
    decide +kernel
  · rw [hrefused]
    decide +kernel

end CommandLine.Session

end GroupUnify
