import GroupUnify.CommandLine.Session
import GroupUnify.Proofs.Batch.Completion
import GroupUnify.Proofs.CommandLine.Arguments
import GroupUnify.Proofs.CommandLine.Files

/-!
# Reloading prints what the session printed

Two ways lead from a text to its printed report: at once, and through a file. A session that solves and
saves without a failure has written all its reports (`Session.solve_of_saved`), the file is read at the path
at which it was written, and what is read are the reports themselves, so that their text is the same
(`Session.load_of_read`). In between stand the arguments of the second session, which have to name the same
path.

* `Session.reload_prints`: a session that saves, then one that loads.
-/

namespace GroupUnify

variable {s : Settings} {source : String}

/-- Without the progress of the solver a problem prints its report. -/
theorem Solved.text_of_silent [CallStack] (hverbose : s.verbose = false) (hquiet : s.quiet = false) :
    Solved.text s source = (Solved.ofText s source).report.text := by
  have hprogress : Solved.progressText s source = "" := by
    rw [progressText, hverbose]
    cases Equation.parse source with
    | error cause => rfl
    | ok e => exact String.append_empty
  rw [Solved.text, hprogress, hquiet, String.empty_append]
  rfl

theorem Batch.length_problems (lines : List String) :
    (problems lines).length = lines.countP fun line => !(Text.trim line).isEmpty := by
  rw [problems, ← List.countP_eq_length_filter, List.countP_map]
  rfl

namespace CommandLine.Session

variable {σ ε : Type} [Files σ ε] {o : Options} {store : σ} {input header path text : String}
  {lines : List String} {reports : List Report} {arguments : List String} {check : Bool}

/-- What a session prints before its reports, and the lines that it solves, if it solves any. -/
def task (store : σ) (input : String) : Work → Option (String × List String)
  | .input => some ("", Text.lines input)
  | .file path => (Files.read store path).toOption.map fun text => ("", Text.lines text)
  | .problems set => some (heading set, set.problems)
  | .reports _ => none

/-- The text of the reports on the lines that are not blank. -/
def reportsText [CallStack] (check : Bool) (lines : List String) : String :=
  String.join ((Batch.problems lines).map fun source =>
    (Solved.ofText ⟨false, false, check⟩ source).report.text)

/-- A session that does not fail and has no reports to load solves the lines of its task. -/
theorem exists_task [CallStack] (hwork : ∀ saved, work o ≠ .reports saved)
    (hrun : (run o store input).failure = none) :
    ∃ header lines, task store input (work o) = some (header, lines) ∧
      run o store input = solve o store header lines := by
  rw [run] at hrun ⊢
  cases h : work o with
  | input => exact ⟨_, _, rfl, rfl⟩
  | problems set => exact ⟨_, _, rfl, rfl⟩
  | reports saved => exact absurd h (hwork saved)
  | file given =>
    rw [h] at hrun
    cases hread : Files.read store given with
    | error cause =>
      simp only [hread] at hrun
      cases hrun
    | ok text =>
      refine ⟨"", Text.lines text, ?_, ?_⟩
      · rw [task, hread]
        rfl
      · simp only [hread]

/-! ### Saving -/

theorem failure_of_resultOf {outcome : Batch.Outcome}
    (h : (resultOf outcome : Except (SessionFault ε) (List Report)) = .ok reports) :
    outcome.failure = none := by
  rw [resultOf] at h
  split at h
  · cases h
  · assumption

/-- A batch that is given a path and does not fail was written there. -/
theorem exists_written_of_ending {batch : Batch} (hsave : path? o.save = some path)
    (h : (ending store o.save batch).result = .ok reports) :
    ∃ written, Files.create store path = .ok written ∧ (batch.outcome true).failure = none := by
  cases hcreate : Files.create store path with
  | error fault =>
    rw [ending_refused hsave hcreate] at h
    cases hresult : resultOf (batch.outcome false) <;> rw [hresult] at h <;> cases h
  | ok written =>
    rw [ending_saved hsave hcreate] at h
    exact ⟨written, rfl, failure_of_resultOf h⟩

theorem solve_of_failure_eq_none [CallStack] (h : (solve o store header lines).failure = none) :
    let batch := Batch.ofLines ⟨o.trace, o.quiet, o.check⟩ lines
    (∃ reports, (ending store o.save batch).result = .ok reports) ∧
      solve o store header lines = ⟨header ++ (ending store o.save batch).printed ++ closing o batch,
        (ending store o.save batch).store, none⟩ := by
  intro batch
  simp only [solve] at h ⊢
  cases hresult : (ending store o.save batch).result with
  | error cause =>
    rw [hresult] at h
    cases h
  | ok reports => exact ⟨⟨reports, rfl⟩, rfl⟩

/-- **A session that saves without a failure** has printed all reports and left all of them in the file. -/
theorem solve_of_saved [CallStack] (hsave : path? o.save = some path)
    (h : (solve o store header lines).failure = none) :
    ∃ written, Files.create store path = .ok written ∧
      (∀ source ∈ Batch.problems lines, Solved.Writable ⟨o.trace, o.quiet, o.check⟩ true source) ∧
      solve o store header lines =
        ⟨header ++ String.join ((Batch.problems lines).map
            (Solved.text ⟨o.trace, o.quiet, o.check⟩)) ++
            closing o (Batch.ofLines ⟨o.trace, o.quiet, o.check⟩ lines),
          written (Report.file ((Batch.problems lines).map fun source =>
            (Solved.ofText ⟨o.trace, o.quiet, o.check⟩ source).report)).written, none⟩ := by
  obtain ⟨⟨reports, hresult⟩, hsolve⟩ := solve_of_failure_eq_none h
  obtain ⟨written, hcreate, hfailure⟩ := exists_written_of_ending hsave hresult
  have hwritable := (Batch.failure_run_eq_none_iff _ lines true).1 hfailure
  obtain ⟨-, hreports, hprinted, hsaved⟩ := Batch.run_of_writable hwritable
  rw [if_pos rfl, hreports] at hsaved
  refine ⟨written, hcreate, hwritable, ?_⟩
  rw [hsolve, ending_saved hsave hcreate, ← hprinted]
  change Session.mk _ ((((Batch.run _ lines true).saved).map _).getD _) _ = _
  rw [hsaved]
  rfl

theorem closing_of_saved (hsave : path? o.save = some path) (hquiet : o.quiet = false) (b : Batch) :
    closing o b = if b.reports.isEmpty then "" else "Reports saved to " ++ path ++ "\n" := by
  rw [closing, hquiet, hsave]
  exact String.empty_append

/-! ### Loading -/

theorem path?_of_ne_empty (hpath : path ≠ "") : path? (some path) = some path := by
  simp [path?, hpath]

theorem run_load [CallStack] (hpath : path ≠ "") (store : σ) (input : String) :
    run { source := some (.load (some path)) } store input = load store path := by
  have hwork : work { source := some (.load (some path)) } = .reports path := by
    simp only [work, path?_of_ne_empty hpath]
    rfl
  rw [run, hwork]

/-- **A session that loads** prints the texts of the reports that it reads. -/
theorem load_of_read (hread : Files.read store path = .ok text) (hload : Report.load text = .ok reports)
    (hprintable : ∀ r ∈ reports, r.Printable) :
    load store path = ⟨s!"Loaded {reports.length} reports from {path}\n" ++
      String.join (reports.map Report.text), store, none⟩ := by
  have hpages := Page.Prints.flatMap reports fun r _ => r.prints_page
  obtain ⟨hwhole, hwritten⟩ :=
    (hpages.cons_text s!"Loaded {reports.length} reports from {path}\n").whole hprintable
  simp only [load, hread, hload, hwhole, hwritten]
  rfl

/-- The reports of a batch that was saved are loaded, one for each line that is not blank. -/
theorem load_of_saved [CallStack]
    (hread : Files.read store path = .ok (Report.file ((Batch.problems lines).map fun source =>
      (Solved.ofText ⟨false, false, check⟩ source).report)).written)
    (hwritable : ∀ source ∈ Batch.problems lines, Solved.Writable ⟨false, false, check⟩ true source) :
    load store path =
      ⟨"Loaded " ++ toString (lines.countP fun line => !(Text.trim line).isEmpty) ++
        " reports from " ++ path ++ "\n" ++ reportsText check lines, store, none⟩ := by
  set reports := (Batch.problems lines).map fun source =>
    (Solved.ofText ⟨false, false, check⟩ source).report with hreports
  have hfits : ∀ r ∈ reports, r.Fits := by
    intro r hr
    obtain ⟨source, hsource, rfl⟩ := List.mem_map.1 hr
    exact (hwritable source hsource).saved rfl
  have hprintable : ∀ r ∈ reports, r.Printable := by
    intro r hr
    obtain ⟨source, hsource, rfl⟩ := List.mem_map.1 hr
    exact (Solved.printable_report_iff _ source).2 (hfits _ hr)
  have hjoin : String.join (reports.map Report.text) = reportsText check lines := by
    rw [hreports, List.map_map]
    rfl
  have hcount : reports.length = lines.countP fun line => !(Text.trim line).isEmpty := by
    rw [hreports, List.length_map, Batch.length_problems]
  rw [load_of_read hread (Report.load_written hfits) hprintable, hjoin, hcount]
  rfl

/-! ### Both sessions -/

/-- **Reloading prints what the session printed**, whatever the files are. Let a session save at a path that
is not empty and that gives back what is written there; it may check its answers, but it neither prints
progress nor leaves reports out. If it does not fail, it has printed the heading of a problem set if there is
one, then the reports, then where they were saved if there are any. The one argument `--load=` with the path
then makes a session that does not fail either. It prints how many lines were not blank, and then the same
reports. -/
theorem reload_prints [CallStack] (hargs : Request.parse arguments = .ok (.run o))
    (hsave : o.save = some path) (hpath : path ≠ "") (hback : Files.GivesBack store path)
    (htrace : o.trace = false) (hquiet : o.quiet = false) (hwork : ∀ saved, work o ≠ .reports saved)
    (hrun : (run o store input).failure = none) :
    ∃ header lines, task store input (work o) = some (header, lines) ∧
      (run o store input).printed = header ++ reportsText o.check lines ++
        (if Batch.problems lines = [] then "" else "Reports saved to " ++ path ++ "\n") ∧
      ∃ o', Request.parse ["--load=" ++ path] = .ok (.run o') ∧
        ∀ later, (run o' (run o store input).store later).failure = none ∧
          (run o' (run o store input).store later).printed =
            "Loaded " ++ toString (lines.countP fun line => !(Text.trim line).isEmpty) ++
              " reports from " ++ path ++ "\n" ++ reportsText o.check lines := by
  obtain ⟨header, lines, htask, hsolve⟩ := exists_task hwork hrun
  have hgiven : path? o.save = some path := by
    rw [hsave]
    exact path?_of_ne_empty hpath
  rw [hsolve] at hrun ⊢
  obtain ⟨written, hcreate, hwritable, hsession⟩ := solve_of_saved hgiven hrun
  rw [htrace, hquiet] at hwritable hsession
  have htexts : String.join ((Batch.problems lines).map (Solved.text ⟨false, false, o.check⟩)) =
      reportsText o.check lines :=
    congrArg String.join (List.map_congr_left fun source _ => Solved.text_of_silent rfl rfl)
  have hload := load_of_saved (hback written _ hcreate) hwritable
  -- two dashes would not be read as a path again, but they are no path of the first session either
  have hdashes : path ≠ "--" := by
    rintro rfl
    exact Request.save_ne_dashes hargs hsave
  rw [hsession, htexts, closing_of_saved hgiven hquiet]
  refine ⟨header, lines, htask, ?_, _, Request.parse_load hdashes, fun later => ?_⟩
  · simp only [Batch.ofLines, List.isEmpty_iff, List.map_eq_nil_iff]
  · rw [run_load hpath, hload]
    exact ⟨rfl, rfl⟩

/-- A line that is solved, a blank one, and one that cannot be read: two reports are saved and loaded. -/
theorem reload_prints_two_reports :
    Request.parse ["--save=r.json", "--check"] = .ok (.run { save := some "r.json", check := true }) ∧
    Files.GivesBack FileStore.system "r.json" ∧
    (run { save := some "r.json", check := true } FileStore.system "x = y\n\n2 = x").failure = none ∧
    ∃ o', Request.parse ["--load=r.json"] = .ok (.run o') ∧
      ∀ later, (run o' (run { save := some "r.json", check := true } FileStore.system
          "x = y\n\n2 = x").store later).printed =
        "Loaded 2 reports from r.json\n" ++ reportsText true ["x = y", "", "2 = x"] := by
  have hargs : Request.parse ["--save=r.json", "--check"] =
      .ok (.run { save := some "r.json", check := true }) := by decide +kernel
  have hcreate : FileStore.system.create "r.json" = .ok ["r.json"] := by decide +kernel
  have hback : Files.GivesBack FileStore.system "r.json" :=
    (FileStore.givesBack_iff hcreate).2 (by decide +kernel)
  have hrun : (run { save := some "r.json", check := true } FileStore.system "x = y\n\n2 = x").failure =
      none := by decide +kernel
  have hlines : Text.lines "x = y\n\n2 = x" = ["x = y", "", "2 = x"] := by decide +kernel
  have hcount : ["x = y", "", "2 = x"].countP (fun line => !(Text.trim line).isEmpty) = 2 := by
    decide +kernel
  obtain ⟨header, lines, htask, -, o', hload, hprints⟩ :=
    reload_prints hargs rfl (by decide) hback rfl rfl (by rintro saved ⟨⟩) hrun
  have htask' : task FileStore.system "x = y\n\n2 = x" .input = some ("", ["x = y", "", "2 = x"]) := by
    rw [task, hlines]
  cases htask'.symm.trans htask
  refine ⟨hargs, hback, hrun, o', hload, fun later => ?_⟩
  rw [(hprints later).2, hcount]
  rfl

/-- **Two names of files are not reloaded**: the null device loses what is saved, and two dashes after `=` are
no value. Both sessions that save run to their end. -/
theorem not_reloaded :
    (∃ o o', Request.parse ["--save=/dev/null"] = .ok (.run o) ∧
      (run o FileStore.system "").failure = none ∧
      Request.parse ["--load=/dev/null"] = .ok (.run o') ∧
      (run o' (run o FileStore.system "").store "").failure ≠ none) ∧
    ∃ o o', Request.parse ["--save=--"] = .ok (.run o) ∧
      (run o FileStore.system "").failure = none ∧ Request.parse ["--load=--"] = .ok (.run o') ∧
      (run o' (run o FileStore.system "").store "").printed ≠ "Loaded 0 reports from --\n" := by
  constructor
  · exact ⟨{ save := some "/dev/null" }, { source := some (.load (some "/dev/null")) },
      by decide +kernel, by decide +kernel, by decide +kernel, by decide +kernel⟩
  · exact ⟨{}, { source := some (.load none) },
      by decide +kernel, by decide +kernel, by decide +kernel, by decide +kernel⟩

end CommandLine.Session

end GroupUnify
