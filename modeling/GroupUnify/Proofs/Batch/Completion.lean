import GroupUnify.Proofs.Batch.Solving
import GroupUnify.Proofs.Report.Saving

/-!
# When a batch runs to its end

Only a number that is too long to be printed or saved stops a batch (`Batch.run_completes`). Otherwise
each problem has the report of its text alone, whatever the other lines hold, and the saved file loads as
these reports. A text need not hold such a number to stop a batch: the multiple of a multiple is read, and
its coefficient is the product of the two (`Batch.stops_at_product`).

* `Solved.prints_page`: what is printed for one problem, and which numbers have to fit.
* `Batch.failure_run_eq_none_iff_alone`: a batch fails exactly if one of its lines fails alone.
-/

namespace GroupUnify

/-! ### Rounds -/

/-- The text of a list of numbers. -/
def Decimal.listText (ns : List ℤ) : String := "[" ++ ", ".intercalate (ns.map toString) ++ "]"

theorem Decimal.writes_formatList (ns : List ℤ) :
    Decimal.Writes (Decimal.formatList ns) (Decimal.listText ns) (∀ n ∈ ns, Decimal.Fits n) :=
  (Decimal.writes_mapM ns fun n _ => Decimal.writes_format n).bind_pure fun texts =>
    "[" ++ ", ".intercalate texts ++ "]"

namespace Diophantine.Round

/-- All numbers of a round have a decimal form. -/
structure Fits (r : Round) : Prop where
  pivot : Decimal.Fits r.pivot.value
  coefficients : ∀ n ∈ r.coefficients, Decimal.Fits n
  constants : ∀ n ∈ r.constants, Decimal.Fits n

/-- The line of a round. -/
def text (r : Round) : String :=
  s!"  round {r.number}: [{r.action.name}] x{r.pivot.index} pivot={r.pivot.value} c={
    Decimal.listText r.coefficients} d={Decimal.listText r.constants}\n"

theorem writes_format (r : Round) : Decimal.Writes r.format r.text r.Fits := by
  have h : Decimal.Writes r.format r.text (Decimal.Fits r.pivot.value ∧
      (∀ n ∈ r.coefficients, Decimal.Fits n) ∧ ∀ n ∈ r.constants, Decimal.Fits n) :=
    (Decimal.writes_format r.pivot.value).bind
      ((Decimal.writes_formatList r.coefficients).bind
        ((Decimal.writes_formatList r.constants).bind_pure fun constants =>
          s!"  round {r.number}: [{r.action.name}] x{r.pivot.index} pivot={r.pivot.value} c={
            Decimal.listText r.coefficients} d={constants}\n"))
  exact h.congr ⟨fun h => ⟨h.1, h.2.1, h.2.2⟩, fun h => ⟨h.1, h.2, h.3⟩⟩

theorem prints_page (rounds : List Round) :
    Page.Prints (.decimal .unwritable) (page rounds) (String.join (rounds.map text))
      (∀ r ∈ rounds, r.Fits) := by
  rw [page, List.map_eq_flatMap]
  exact Page.Prints.flatMap rounds fun r _ => Page.prints_piece r.writes_format

end Diophantine.Round

variable {s : Settings} {source : String} {lines : List String} {save : Bool} {e : Equation}

/-! ### What is printed for a text -/

namespace Solved

/-- All numbers of a search have a decimal form: those of its heading and of its rounds. -/
structure SearchFits (e : Equation) (search : Search) : Prop where
  heading : e.Fits
  rounds : ∀ r ∈ search.rounds, r.Fits

/-- The text of a search. -/
def searchText (verbose : Bool) (what : String) (e : Equation) (search : Search) : String :=
  if verbose then
    "--- " ++ what ++ " " ++ e.text ++ " ---\n" ++
      String.join (search.rounds.map Diophantine.Round.text)
  else ""

theorem prints_searchPage {search : Search} {answer : Option Substitution} (verbose : Bool)
    (what : String) (e : Equation) (h : search.answer = .ok answer) :
    Page.Prints (.decimal .unwritable) (searchPage verbose what e search)
      (searchText verbose what e search) (verbose = true → SearchFits e search) := by
  cases verbose with
  | false =>
    rw [searchPage_quiet what h]
    exact (Page.Prints.nil _).congr (by simp)
  | true =>
    have hheading := Page.prints_piece
      (e.writes_format.map fun name => "--- " ++ what ++ " " ++ name ++ " ---\n")
    have hpage := hheading.append (Diophantine.Round.prints_page search.rounds)
    rw [searchPage, h, searchText, if_pos rfl, if_pos rfl, List.append_nil]
    exact hpage.congr ⟨fun h _ => ⟨h.1, h.2⟩, fun h => ⟨(h rfl).heading, (h rfl).rounds⟩⟩

/-- What is printed for a solved text. -/
def page (s : Settings) (p : Solved) : Page Failure :=
  p.progress ++ if s.quiet then [] else p.report.page

/-- All numbers that are printed for a problem have a decimal form: with progress those of its two
searches, and unless reports are left out those of its report. -/
structure Printable [CallStack] (s : Settings) (source : String) : Prop where
  progress : s.verbose = true → ∀ e, Equation.parse source = .ok e →
    SearchFits e (findUnifier e.left e.right) ∧ SearchFits e (findMatcher e.left e.right)
  report : s.quiet = false → (ofText s source).report.Fits

/-- The text of the progress on a problem. -/
def progressText [CallStack] (s : Settings) (source : String) : String :=
  match Equation.parse source with
  | .error _ => ""
  | .ok e =>
    searchText s.verbose "Unify" e (findUnifier e.left e.right) ++
      searchText s.verbose "Match" e (findMatcher e.left e.right)

/-- What is printed for a problem. -/
def text [CallStack] (s : Settings) (source : String) : String :=
  progressText s source ++ if s.quiet then "" else (ofText s source).report.text

theorem prints_progress [CallStack] (s : Settings) (source : String) :
    Page.Prints (.decimal .unwritable) (ofText s source).progress (progressText s source)
      (s.verbose = true → ∀ e, Equation.parse source = .ok e →
        SearchFits e (findUnifier e.left e.right) ∧ SearchFits e (findMatcher e.left e.right)) := by
  cases h : Equation.parse source with
  | error cause =>
    rw [ofText_of_parse_error s h, progressText, h]
    exact (Page.Prints.nil _).congr (by simp)
  | ok e =>
    obtain ⟨σ, answer, hσ, hanswer, -, -, hsolved⟩ := ofText_of_parse s h
    have hpage := (prints_searchPage s.verbose "Unify" e hσ).append
      (prints_searchPage s.verbose "Match" e hanswer)
    rw [hsolved, progressText, h]
    refine hpage.congr ⟨?_, fun h => ⟨fun hv => (h hv e rfl).1, fun hv => (h hv e rfl).2⟩⟩
    rintro ⟨hunify, hmatch⟩ hv _ ⟨⟩
    exact ⟨hunify hv, hmatch hv⟩

/-- The report of a text has an error only if there is no equation, so all of it is printed. -/
theorem printable_report_iff [CallStack] (s : Settings) (source : String) :
    (ofText s source).report.Printable ↔ (ofText s source).report.Fits := by
  rw [Report.Printable, Report.fits_iff]
  cases h : Equation.parse source with
  | error cause => rw [ofText_of_parse_error s h]; simp
  | ok e =>
    obtain ⟨σ, answer, -, -, -, -, hsolved⟩ := ofText_of_parse s h
    rw [hsolved]
    simp

/-- **A problem is printed whole exactly if the numbers fit that are printed for it.** -/
theorem prints_page [CallStack] (s : Settings) (source : String) :
    Page.Prints (.decimal .unwritable) ((ofText s source).page s) (text s source)
      (Printable s source) := by
  have hreport : Page.Prints (.decimal .unwritable)
      (if s.quiet then [] else (ofText s source).report.page)
      (if s.quiet then "" else (ofText s source).report.text)
      (s.quiet = false → (ofText s source).report.Fits) := by
    cases s.quiet with
    | true => exact (Page.Prints.nil _).congr (by simp)
    | false =>
      exact ((ofText s source).report.prints_page.congr (printable_report_iff s source)).congr (by simp)
  exact ((prints_progress s source).append hreport).congr
    ⟨fun h => ⟨h.1, h.2⟩, fun h => ⟨h.progress, h.report⟩⟩

/-- All numbers that are written for a problem have a decimal form: those that are printed, and those that
are saved. -/
structure Writable [CallStack] (s : Settings) (save : Bool) (source : String) : Prop where
  printable : Printable s source
  saved : save = true → (ofText s source).report.Fits

end Solved

/-! ### Batches -/

namespace Batch

/-- **A batch is printed whole exactly if each of its problems is.** -/
theorem prints_page [CallStack] (s : Settings) (lines : List String) :
    Page.Prints (.decimal .unwritable) (ofLines s lines).page
      (String.join ((problems lines).map (Solved.text s)))
      (∀ source ∈ problems lines, Solved.Printable s source) := by
  have h := Page.Prints.flatMap (problems lines) fun source _ => Solved.prints_page s source
  rw [ofLines, List.flatMap_map]
  exact h

/-- What comes of the batch over `lines`. -/
abbrev run [CallStack] (s : Settings) (lines : List String) (save : Bool) : Outcome :=
  (ofLines s lines).outcome save

theorem run_of_printed [CallStack] (h : (ofLines s lines).page.failure? = none) :
    run s lines save = ⟨(ofLines s lines).reports, (ofLines s lines).page.written,
      if save then some (Report.file (ofLines s lines).reports).written else none,
      if save then (Report.file (ofLines s lines).reports).failure?.map .decimal else none⟩ := by
  rw [run, outcome, h]
  cases save <;> rfl

theorem failure_run_of_stopped [CallStack] {cause : Failure}
    (h : (ofLines s lines).page.failure? = some cause) : (run s lines save).failure = some cause := by
  rw [run, outcome, h]

theorem prints_file [CallStack] (s : Settings) (lines : List String) :
    Page.Prints .unwritable (Report.file (ofLines s lines).reports)
      (Json.text 0 (.array ((ofLines s lines).reports.map Report.toJson)))
      (∀ source ∈ problems lines, (Solved.ofText s source).report.Fits) :=
  (Report.prints_file _).congr (by simp [ofLines])

theorem run_of_writable [CallStack] (h : ∀ source ∈ problems lines, Solved.Writable s save source) :
    (run s lines save).failure = none ∧
      (run s lines save).reports = (problems lines).map (fun source => (Solved.ofText s source).report) ∧
      (run s lines save).printed = String.join ((problems lines).map (Solved.text s)) ∧
      (run s lines save).saved =
        if save then some (Report.file (run s lines save).reports).written else none := by
  obtain ⟨hpage, hprinted⟩ := (prints_page s lines).whole fun source hs => (h source hs).printable
  rw [run_of_printed hpage]
  refine ⟨?_, ?_, hprinted, rfl⟩
  · cases save with
    | false => rfl
    | true =>
      have hfile := ((prints_file s lines).whole fun source hs => (h source hs).saved rfl).1
      simp [hfile]
  · simp [ofLines]

theorem failure_run_of_not_writable [CallStack]
    (h : ¬ ∀ source ∈ problems lines, Solved.Writable s save source) :
    (run s lines save).failure = some (.decimal .unwritable) := by
  by_cases hprint : ∀ source ∈ problems lines, Solved.Printable s source
  · -- so the file is at fault
    have hsave : save = true := by
      by_contra hquiet
      exact h fun source hs => ⟨hprint source hs, fun hsave => absurd hsave hquiet⟩
    have hfile : ¬ ∀ source ∈ problems lines, (Solved.ofText s source).report.Fits :=
      fun hfits => h fun source hs => ⟨hprint source hs, fun _ => hfits source hs⟩
    rw [run_of_printed ((prints_page s lines).whole hprint).1, hsave, if_pos rfl, if_pos rfl,
      (prints_file s lines).stops hfile]
    rfl
  · exact failure_run_of_stopped ((prints_page s lines).stops hprint)

theorem failure_run_eq_none_iff [CallStack] (s : Settings) (lines : List String) (save : Bool) :
    (run s lines save).failure = none ↔ ∀ source ∈ problems lines, Solved.Writable s save source := by
  refine ⟨fun hnone => ?_, fun h => (run_of_writable h).1⟩
  by_contra h
  rw [failure_run_of_not_writable h] at hnone
  cases hnone

/-- **A batch fails exactly if one of its lines makes a batch fail alone.** -/
theorem failure_run_eq_none_iff_alone [CallStack] (s : Settings) (lines : List String) (save : Bool) :
    (run s lines save).failure = none ↔ ∀ line ∈ lines, (run s [line] save).failure = none := by
  simp only [failure_run_eq_none_iff, problems, List.mem_filter, List.mem_map, List.mem_singleton]
  grind

/-- **Only a number that is too long stops a batch.** It runs to its end exactly if all numbers fit that are
to be printed or saved, and it fails for no other reason. If it runs to its end, the lines that are not
blank have the reports of their texts alone, one each and in order, what is printed is what is printed for
each of them, and the saved file loads as the reports. -/
theorem run_completes [CallStack] (s : Settings) (lines : List String) (save : Bool) :
    ((run s lines save).failure = none ↔ ∀ source ∈ problems lines, Solved.Writable s save source) ∧
    (∀ cause, (run s lines save).failure = some cause → cause = .decimal .unwritable) ∧
    ((run s lines save).failure = none →
      (run s lines save).reports = (problems lines).map (fun source => (Solved.ofText s source).report) ∧
      (run s lines save).printed = String.join ((problems lines).map (Solved.text s)) ∧
      (save = true → ∃ file, (run s lines save).saved = some file ∧
        Report.load file = .ok (run s lines save).reports)) := by
  have hiff := failure_run_eq_none_iff s lines save
  refine ⟨hiff, fun cause hcause => ?_, fun hnone => ?_⟩
  · have hnot : ¬ ∀ source ∈ problems lines, Solved.Writable s save source := by
      intro h
      rw [hiff.2 h] at hcause
      cases hcause
    rw [failure_run_of_not_writable hnot, Option.some.injEq] at hcause
    exact hcause.symm
  · have hwritable := hiff.1 hnone
    obtain ⟨-, hreports, hprinted, hsaved⟩ := run_of_writable hwritable
    refine ⟨hreports, hprinted, fun hsave => ?_⟩
    rw [hsaved, if_pos hsave]
    refine ⟨_, rfl, Report.load_written fun r hr => ?_⟩
    rw [hreports] at hr
    obtain ⟨source, hs, rfl⟩ := List.mem_map.1 hr
    exact (hwritable source hs).saved hsave

end Batch

/-! ### Multiples of multiples -/

/-- The equation between `n` times `k` times a name and the identity. -/
def productText (n k : ℕ) : String := toString n ++ "(" ++ toString k ++ "x) = 0"

theorem ofString_productText (n k : ℕ) : Token.ofString (productText n k) =
    [.number (Decimal.digits n), .symbol '(', .number (Decimal.digits k), .identifier "x", .symbol ')',
      .symbol '=', .number ['0']] := by
  have hx : Token.IsIdentifier "x" := by decide +kernel
  have hname : Token.scan ("x".toList ++ ')' :: " = 0".toList) = _ :=
    Token.scan_identifier hx (Text.halts_cons.2 (by decide +kernel))
  have hmultiple : Token.scan (Decimal.digits k ++ ("x".toList ++ ')' :: " = 0".toList)) = _ :=
    Token.scan_digits (Text.halts_cons.2 (show Decimal.isDigit 'x' = false by decide))
  have hzero := Token.scan_digits (n := 0) (Text.halts_nil _)
  rw [List.append_nil, Decimal.digits_zero, Token.scan_nil] at hzero
  have hright : Token.scan " = 0".toList = [.symbol '=', .number ['0']] :=
    (Equation.scan_equals ['0']).trans (by rw [hzero])
  have htext : (productText n k).toList =
      Decimal.digits n ++ '(' :: (Decimal.digits k ++ ("x".toList ++ ')' :: " = 0".toList)) := by
    simp only [productText, String.toList_append, Decimal.toList_toString, List.append_assoc]
    rfl
  rw [Token.ofString, htext, Token.scan_digits (Text.halts_cons.2 (by decide)),
    Token.scan_sign (by decide), hmultiple, hname, Token.scan_sign (by decide), hright]

/-- **Coefficients are multiplied on reading.** -/
theorem parse_productText [CallStack] {n k : ℕ} (hn : n ≠ 0) (hk : k ≠ 0) (hnfits : Decimal.Fits n)
    (hkfits : Decimal.Fits k) (hlevels : 1 < CallStack.levels) :
    Equation.parse (productText n k) = .ok ⟨⟨[("x", n * k)]⟩, 0⟩ := by
  have htokens := ofString_productText n k
  have hinner : Grammar.Derives .primary [.identifier "x"] (.name "x") := .name (by decide)
  have hleft := Grammar.Derives.multiple (Decimal.digits_ne_zero hn)
    (.group (.summand (.factor (.multiple (Decimal.digits_ne_zero hk) hinner))))
  rw [Decimal.value_digits, Decimal.value_digits] at hleft
  have hequation : Grammar.IsEquation (Token.ofString (productText n k))
      (.multiple n (.multiple k (.name "x"))) .zero :=
    ⟨_, [.number ['0']], htokens, .summand (.factor hleft), .summand (.factor (.primary .zero))⟩
  have hshort : ∀ t ∈ Token.ofString (productText n k), t.Short := by
    rw [htokens]
    simpa [Token.Short, Decimal.digitLimit] using
      And.intro (Decimal.fits_iff.1 hnfits) (Decimal.fits_iff.1 hkfits)
  have hshallow : Token.Shallow CallStack.levels (Token.ofString (productText n k)) := by
    refine .of_count_lt ?_
    rw [htokens]
    simpa using hlevels
  have hterm : (Expression.multiple n (.multiple k (.name "x"))).toTerm = ⟨[("x", n * k)]⟩ := by
    rw [Expression.toTerm, Expression.toTerm, Expression.toTerm, Term.var,
      Term.scale_single (by omega), Term.scale_single (by omega), mul_one]
  rw [Equation.parse_of_isEquation hequation hshort (Equation.parse_ne_tooDeep hshallow), hterm]
  rfl

theorem Solved.not_fits_product [CallStack] {n k : ℕ} (s : Settings) (hn : n ≠ 0) (hk : k ≠ 0)
    (hnfits : Decimal.Fits n) (hkfits : Decimal.Fits k) (hlevels : 1 < CallStack.levels)
    (hproduct : ¬ Decimal.Fits (n * k)) :
    ¬ (ofText s (productText n k)).report.Fits := by
  obtain ⟨σ, answer, -, -, -, -, hsolved⟩ :=
    ofText_of_parse s (parse_productText hn hk hnfits hkfits hlevels)
  rw [hsolved]
  intro hfits
  exact hproduct ((hfits.equation _ rfl).1 _ List.mem_cons_self)

theorem Text.trim_eq_self {s : String} (hstart : Halts isBlank s.toList)
    (hend : Halts isBlank s.toList.reverse) : trim s = s := by
  rw [trim, hstart.dropWhile, hend.dropWhile, List.reverse_reverse, String.ofList_toList]

namespace Batch

theorem problems_eq_self (h : ∀ line ∈ lines, Text.trim line = line ∧ line ≠ "") :
    problems lines = lines := by
  have htrim : lines.map Text.trim = lines.map id := List.map_congr_left fun line hl => (h line hl).1
  rw [problems, htrim, List.map_id, List.filter_eq_self]
  intro line hl
  simp [(h line hl).2]

theorem trim_productText (n k : ℕ) : Text.trim (productText n k) = productText n k := by
  obtain ⟨c, cs, hcs, hdigits⟩ := Decimal.exists_digits_eq n
  apply Text.trim_eq_self
  · simp only [productText, String.toList_append, Decimal.toList_toString, hcs]
    exact Text.halts_cons.2 (Text.isBlank_eq_false_of_isDigit (hdigits c List.mem_cons_self))
  · simp only [productText, String.toList_append, List.reverse_append]
    exact Text.halts_cons.2 (show Text.isBlank '0' = false by decide +kernel)

theorem productText_ne_empty (n k : ℕ) : productText n k ≠ "" := by
  simp [productText]

theorem productText_mem_problems {n k : ℕ} (h : productText n k ∈ lines) :
    productText n k ∈ problems lines := by
  rw [problems, List.mem_filter, List.mem_map]
  exact ⟨⟨_, h, trim_productText n k⟩, by simp [productText_ne_empty]⟩

/-- **A product of two numbers that can be read may stop a batch**, since it is too long to be printed or
saved. -/
theorem stops_at_product [CallStack] {n k : ℕ} (hn : n ≠ 0) (hk : k ≠ 0) (hnfits : Decimal.Fits n)
    (hkfits : Decimal.Fits k) (hlevels : 1 < CallStack.levels) (hproduct : ¬ Decimal.Fits (n * k))
    (hmem : productText n k ∈ problems lines) (hwritten : s.quiet = false ∨ save = true) :
    (run s lines save).failure = some (.decimal .unwritable) := by
  have hreport := Solved.not_fits_product s hn hk hnfits hkfits hlevels hproduct
  refine failure_run_of_not_writable fun h => ?_
  rcases hwritten with hquiet | hsave
  · exact hreport ((h _ hmem).printable.report hquiet)
  · exact hreport ((h _ hmem).saved hsave)

/-- Two numbers with 2201 digits each, and a line behind them that is never come to. -/
theorem stops_at_power :
    problems [productText (10 ^ 2200) (10 ^ 2200), "x = y"] =
      [productText (10 ^ 2200) (10 ^ 2200), "x = y"] ∧
    (run {} [productText (10 ^ 2200) (10 ^ 2200), "x = y"] false).failure =
      some (.decimal .unwritable) := by
  have hproblems : problems [productText (10 ^ 2200) (10 ^ 2200), "x = y"] =
      [productText (10 ^ 2200) (10 ^ 2200), "x = y"] := by
    apply problems_eq_self
    simp only [List.forall_mem_cons]
    exact ⟨⟨trim_productText _ _, productText_ne_empty _ _⟩, ⟨by decide +kernel, by decide⟩,
      fun _ h => absurd h List.not_mem_nil⟩
  have hnonzero : 10 ^ 2200 ≠ 0 := by decide +kernel
  have hfits : Decimal.Fits (10 ^ 2200 : ℕ) := by decide +kernel
  have hproduct : ¬ Decimal.Fits ((10 ^ 2200 : ℕ) * (10 ^ 2200 : ℕ)) := by decide +kernel
  have hmem : productText (10 ^ 2200) (10 ^ 2200) ∈
      problems [productText (10 ^ 2200) (10 ^ 2200), "x = y"] := by
    rw [hproblems]
    exact List.mem_cons_self
  exact ⟨hproblems, stops_at_product hnonzero hnonzero hfits hfits (by decide) hproduct hmem (.inl rfl)⟩

end Batch

end GroupUnify
