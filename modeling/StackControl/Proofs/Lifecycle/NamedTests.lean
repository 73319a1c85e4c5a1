import StackControl.Lifecycle.Managed
import StackControl.Proofs.CommandLine
import StackControl.Proofs.Lifecycle.Site
import StackControl.Proofs.Procedure.Realisation

/-!
# Running the tests of named files

The tests of named files are run one file after the other.  A file that fails does not keep the next
one from being run, and only a run that has no exit code ends the series.  Of the failures one line
is written, and the first of their exit codes is passed on.
-/

namespace StackControl.Lifecycle

open Procedure (Answerer Exchange run_bind_run trace_bind_run)

variable {σ : Type} {answerer : Answerer Call Call.Answer σ} {config : Config} {line : CommandLine}
  {files : List String} {codes : List Int} {s : σ}

/-- The run of the tests of a file: the file is one more argument of the command. -/
def testRun (line : CommandLine) (file : String) (answer : Except Runner.Error Int) :
    Exchange Call Call.Answer :=
  ⟨.runner (.run ⟨line.program, line.arguments ++ [file]⟩), answer⟩

@[simp] theorem testRun_inj {line line' : CommandLine} {file : String}
    {answer answer' : Except Runner.Error Int} :
    testRun line file answer = testRun line' file answer' ↔ line = line' ∧ answer = answer' := by
  refine ⟨fun h => ?_, fun ⟨hline, hanswer⟩ => hline ▸ hanswer ▸ rfl⟩
  obtain ⟨hcall, hanswer⟩ := Sigma.mk.inj h
  have hcommand := Runner.Request.run.inj (Call.runner.inj hcall)
  obtain ⟨hprogram, harguments⟩ := CommandLine.mk.inj hcommand
  refine ⟨?_, eq_of_heq hanswer⟩
  obtain ⟨program, arguments⟩ := line
  obtain ⟨program', arguments'⟩ := line'
  exact CommandLine.mk.injEq .. ▸ ⟨hprogram, List.append_cancel_right harguments⟩

/-- The runs of the tests of files that end with these exit codes. -/
def testRuns (line : CommandLine) (files : List String) (codes : List Int) :
    List (Exchange Call Call.Answer) :=
  List.zipWith (fun file code => testRun line file (.ok code)) files codes

/-- The files whose exit code is not zero, in order. -/
def failedFiles (files : List String) (codes : List Int) : List String :=
  ((files.zip codes).filter (·.2 ≠ 0)).map Prod.fst

/-- The line that tells which of the files failed. -/
def failureLine (files failed : List String) : String :=
  toString failed.length ++ " of " ++ toString files.length ++ " test file(s) failed: " ++
    ", ".intercalate failed

/-! ## The series of runs -/

/-- How a series of runs goes: every file has an exit code, or a run fails and is the last. -/
inductive Series (line : CommandLine) (files : List String) :
    List (Exchange Call Call.Answer) → Except Error (List (String × Int)) → Prop
  | complete {codes : List Int} (hcodes : codes.length = files.length) :
      Series line files (testRuns line files codes) (.ok ((files.zip codes).filter (·.2 ≠ 0)))
  | stopped {ran later : List String} {file : String} {codes : List Int} (e : Runner.Error)
      (hfiles : files = ran ++ file :: later) (hcodes : codes.length = ran.length) :
      Series line files (testRuns line ran codes ++ [testRun line file (.error e)])
        (.error (.runner e))

/-- One more file in front, whose run has an exit code. -/
theorem Series.cons {exchanges : List (Exchange Call Call.Answer)}
    {result : Except Error (List (String × Int))} (h : Series line files exchanges result)
    (file : String) (code : Int) :
    Series line (file :: files) (testRun line file (.ok code) :: exchanges)
      (result.map fun failures => if code != 0 then (file, code) :: failures else failures) := by
  cases h with
  | @complete codes hcodes =>
      have hmore : (code :: codes).length = (file :: files).length := by simp [hcodes]
      have hseries : Series line (file :: files) _ _ := .complete hmore
      by_cases hcode : code = 0
      · simpa [hcode, testRuns, Except.map] using hseries
      · simpa [hcode, testRuns, Except.map] using hseries
  | @stopped ran later last codes e hfiles hcodes =>
      have hmore : (code :: codes).length = (file :: ran).length := by simp [hcodes]
      exact .stopped e (by rw [hfiles, List.cons_append]) hmore

theorem run_runner (request : Runner.Request) (s : σ) :
    Procedure.run answerer (Flow.runner request).run s =
      ((answerer (.runner request) s).1.mapError .runner, (answerer (.runner request) s).2) :=
  Procedure.run_map ..

theorem trace_runner (request : Runner.Request) (s : σ) :
    Procedure.trace answerer (Flow.runner request).run s =
      [⟨.runner request, (answerer (.runner request) s).1⟩] := rfl

theorem series_runEach (answerer : Answerer Call Call.Answer σ) (line : CommandLine)
    (files : List String) (s : σ) :
    Series line files (Procedure.trace answerer (runEach line files).run s)
      (Procedure.run answerer (runEach line files).run s).1 := by
  induction files generalizing s with
  | nil => exact @Series.complete line [] [] rfl
  | cons file rest ih =>
      rw [runEach, trace_bind_run, run_bind_run, run_runner, trace_runner]
      rcases hanswer : answerer (.runner (.run (line.append [file]))) s with ⟨e | code, after⟩
      · exact @Series.stopped line (file :: rest) [] rest file [] e rfl rfl
      · have hmore := (ih after).cons file code
        dsimp only [Except.mapError]
        rw [trace_bind_run, run_bind_run]
        rcases hrest : Procedure.run answerer (runEach line rest).run after with
          ⟨e | failures, later⟩
        · rw [hrest] at hmore
          rw [List.append_nil]
          exact hmore
        · rw [hrest] at hmore
          show Series line (file :: rest) (_ :: (_ ++ [])) _
          rw [List.append_nil]
          exact hmore

/-! ## The report of the failures -/

/-- What follows the series: nothing is said of a series without failures. -/
def concludeSeries (files : List String) : List (String × Int) → Flow Outcome
  | [] => return .exit 0
  | (file, code) :: others => do
    Flow.complain (failureLine files (file :: others.map (·.1)))
    return .exit code

theorem runTests_of_named (hline : CommandLine.parse? config.testFileCommand = some line)
    (hfiles : files ≠ []) :
    (runTests config files).run = (runEach line files >>= concludeSeries files).run := by
  have hnamed : files.isEmpty = false := by simpa using hfiles
  have hconclude : concludeSeries files = fun
      | [] => return .exit 0
      | (file, code) :: others => do
        Flow.complain (failureLine files (file :: others.map (·.1)))
        return .exit code := by
    funext failures
    rcases failures with _ | ⟨⟨file, code⟩, others⟩ <;> rfl
  rw [hconclude]
  simp only [runTests, hnamed, runNamedTests, Flow.commandLine, Runner.commandLine, hline]
  rfl

/-- The exit code that is passed on is the first that is not zero. -/
theorem find?_codes (hcodes : codes.length = files.length) :
    codes.find? (· ≠ 0) = ((files.zip codes).filter (·.2 ≠ 0)).head?.map Prod.snd := by
  have hsnd : (files.zip codes).map Prod.snd = codes := List.map_snd_zip (Nat.le_of_eq hcodes)
  calc
    codes.find? (· ≠ 0) = ((files.zip codes).map Prod.snd).find? (· ≠ 0) := by rw [hsnd]
    _ = ((files.zip codes).find? (·.2 ≠ 0)).map Prod.snd := List.find?_map ..
    _ = ((files.zip codes).filter (·.2 ≠ 0)).head?.map Prod.snd := by rw [List.head?_filter]

theorem concludeSeries_cons (files : List String) (file : String) (code : Int)
    (others : List (String × Int)) :
    (concludeSeries files ((file, code) :: others)).run =
      .ask (.print .stderr (failureLine files (file :: others.map Prod.fst))) fun
        | .ok () => .done (.ok (.exit code))
        | .error e => .done (.error (.output e)) := by
  refine congrArg (Procedure.ask _) (funext ?_)
  rintro (_ | _) <;> rfl

/-- The line is written, and nothing is passed on before it is. -/
theorem run_concludeSeries_cons (files : List String) (file : String) (code : Int)
    (others : List (String × Int)) (s : σ) :
    (Procedure.run answerer (concludeSeries files ((file, code) :: others)).run s).1 =
      match (answerer (.print .stderr (failureLine files (file :: others.map Prod.fst))) s).1 with
      | .ok () => .ok (.exit code)
      | .error e => .error (.output e) := by
  rw [concludeSeries_cons, Procedure.run_ask]
  cases (answerer (.print .stderr (failureLine files (file :: others.map Prod.fst))) s).1 <;> rfl

theorem trace_concludeSeries_cons (files : List String) (file : String) (code : Int)
    (others : List (String × Int)) (s : σ) :
    Procedure.trace answerer (concludeSeries files ((file, code) :: others)).run s =
      [⟨.print .stderr (failureLine files (file :: others.map Prod.fst)),
        (answerer (.print .stderr (failureLine files (file :: others.map Prod.fst))) s).1⟩] := by
  rw [concludeSeries_cons, Procedure.trace_ask]
  cases (answerer (.print .stderr (failureLine files (file :: others.map Prod.fst))) s).1 <;> rfl

/-- With exit codes for all files: nothing is written when they are all zero, and otherwise the line
that is written goes before the first code that is not zero. -/
theorem concludeSeries_of_codes (answerer : Answerer Call Call.Answer σ)
    (hcodes : codes.length = files.length) (s : σ) :
    let conclusion := (concludeSeries files ((files.zip codes).filter (·.2 ≠ 0))).run
    let report := Procedure.trace answerer conclusion s
    let result := (Procedure.run answerer conclusion s).1
    (result = .ok (.exit 0) ↔ ∀ code ∈ codes, code = 0) ∧
      ((∀ code ∈ codes, code = 0) → report = []) ∧
      ∀ code, codes.find? (· ≠ 0) = some code → ∃ answer,
        report = [⟨.print .stderr (failureLine files (failedFiles files codes)), answer⟩] ∧
          (answer = .ok () → result = .ok (.exit code)) ∧
          ∀ e, answer = .error e → result = .error (.output e) := by
  intro conclusion report result
  have hallZero : (∀ code ∈ codes, code = 0) ↔ codes.find? (· ≠ 0) = none := by simp
  have hnonzero : ∀ failure ∈ (files.zip codes).filter (·.2 ≠ 0), failure.2 ≠ 0 :=
    fun _ hfailure => of_decide_eq_true (List.mem_filter.mp hfailure).2
  rw [hallZero, find?_codes hcodes]
  subst report result conclusion
  unfold failedFiles
  generalize (files.zip codes).filter (·.2 ≠ 0) = failures at hnonzero ⊢
  rcases failures with _ | ⟨⟨file, code⟩, others⟩
  · exact ⟨iff_of_true rfl rfl, fun _ => rfl, nofun⟩
  · have hcode : code ≠ 0 := hnonzero _ List.mem_cons_self
    rw [run_concludeSeries_cons, trace_concludeSeries_cons]
    refine ⟨iff_of_false ?_ nofun, nofun, ?_⟩
    · split
      · simpa using hcode
      · simp
    · rintro _ ⟨⟩
      exact ⟨_, rfl, fun hwritten => by rw [hwritten], fun e hbroken => by rw [hbroken]⟩

/-- The tests of named files are run one after the other, each with its file as one argument behind
the words of the command.  When every run has an exit code, nothing is written and zero is passed on
if all codes are zero; otherwise one line tells which files failed, and once it is written the first
code that is not zero is passed on.  A run that fails is the last, and its error is returned. -/
theorem named_tests_pass_first_failure (answerer : Answerer Call Call.Answer σ) (config : Config)
    (files : List String) (s : σ)
    (hcommand : ∃ c ∈ config.testFileCommand.toList, Text.isBlank c = false) (hfiles : files ≠ []) :
    let exchanges := Procedure.trace answerer (runTests config files).run s
    let result := (Procedure.run answerer (runTests config files).run s).1
    ∃ line : CommandLine,
      (line.program :: line.arguments).map String.toList =
          Text.words config.testFileCommand.toList ∧
        ((∃ codes report, codes.length = files.length ∧
            exchanges = testRuns line files codes ++ report ∧
            (result = .ok (.exit 0) ↔ ∀ code ∈ codes, code = 0) ∧
            ((∀ code ∈ codes, code = 0) → report = []) ∧
            ∀ code, codes.find? (· ≠ 0) = some code → ∃ answer,
              report = [⟨.print .stderr (failureLine files (failedFiles files codes)), answer⟩] ∧
                (answer = .ok () → result = .ok (.exit code)) ∧
                ∀ e, answer = .error e → result = .error (.output e)) ∨
          ∃ ran file later codes e, files = ran ++ file :: later ∧ codes.length = ran.length ∧
            exchanges = testRuns line ran codes ++ [testRun line file (.error e)] ∧
            result = .error (.runner e)) := by
  intro exchanges result
  obtain ⟨line, hline⟩ := CommandLine.exists_parse?_iff.mpr hcommand
  have hexchanges : exchanges =
      Procedure.trace answerer (runEach line files >>= concludeSeries files).run s :=
    congrArg (Procedure.trace answerer · s) (runTests_of_named hline hfiles)
  have hresult : result =
      (Procedure.run answerer (runEach line files >>= concludeSeries files).run s).1 :=
    congrArg (fun p => (Procedure.run answerer p s).1) (runTests_of_named hline hfiles)
  have hseries := series_runEach answerer line files s
  rw [trace_bind_run] at hexchanges
  rw [run_bind_run] at hresult
  refine ⟨line, CommandLine.words_of_parse? hline, ?_⟩
  generalize Procedure.trace answerer (runEach line files).run s = runs at hexchanges hseries
  generalize Procedure.run answerer (runEach line files).run s = ending at *
  rcases ending with ⟨outcome, after⟩
  cases hseries with
  | @complete codes hcodes =>
      have hconclusion := concludeSeries_of_codes answerer hcodes after
      dsimp only at hconclusion hresult
      rw [← hresult] at hconclusion
      exact .inl ⟨codes, _, hcodes, hexchanges, hconclusion⟩
  | @stopped ran later file codes e hsplit hcodes =>
      rw [List.append_nil] at hexchanges
      exact .inr ⟨ran, file, later, codes, e, hsplit, hcodes, hexchanges, hresult⟩

/-- Others with whom the runs end with these codes, one after the other, and lines are written or
not. -/
def endingWith (written : Except Errno Unit) : Answerer Call Call.Answer (List Int)
  | .runner _, codes => (.ok (codes.headD 0), codes.tail)
  | .print _ _, codes => (written, codes)
  | call, codes =>
    ((Site.engineAlone (fun _ => .error (.missingContainerId "")) call ()).1, codes)

/-- A file is named twice, and another has no name.  The last failure is not what is passed on. -/
theorem repeated_file_passes_first_failure :
    (∃ c ∈ ({} : Config).testFileCommand.toList, Text.isBlank c = false) ∧
      ["a b", "", "a b"] ≠ [] ∧
      ∃ line : CommandLine,
        (line.program :: line.arguments).map String.toList =
            Text.words ({} : Config).testFileCommand.toList ∧
          Procedure.trace (endingWith (.ok ())) (runTests {} ["a b", "", "a b"]).run [2, 0, 5] =
            [testRun line "a b" (.ok 2), testRun line "" (.ok 0), testRun line "a b" (.ok 5),
              ⟨.print .stderr "2 of 3 test file(s) failed: a b, a b", .ok ()⟩] ∧
          (Procedure.run (endingWith (.ok ())) (runTests {} ["a b", "", "a b"]).run [2, 0, 5]).1 =
            .ok (.exit 2) := by
  have hcommand : ∃ c ∈ ({} : Config).testFileCommand.toList, Text.isBlank c = false :=
    ⟨'p', by decide +kernel, by decide +kernel⟩
  have hfiles : ["a b", "", "a b"] ≠ [] := by simp
  have hline : CommandLine.parse? ({} : Config).testFileCommand =
      some ⟨"python3", ["-m", "unittest", "-v"]⟩ := by
    decide +kernel
  have htrace : Procedure.trace (endingWith (.ok ())) (runTests {} ["a b", "", "a b"]).run
      [2, 0, 5] =
      [testRun ⟨"python3", ["-m", "unittest", "-v"]⟩ "a b" (.ok 2),
        testRun ⟨"python3", ["-m", "unittest", "-v"]⟩ "" (.ok 0),
        testRun ⟨"python3", ["-m", "unittest", "-v"]⟩ "a b" (.ok 5),
        ⟨.print .stderr "2 of 3 test file(s) failed: a b, a b", .ok ()⟩] := by
    rw [runTests_of_named hline hfiles]
    rfl
  obtain ⟨line, hwords, hgoes⟩ := named_tests_pass_first_failure (endingWith (.ok ())) {}
    ["a b", "", "a b"] [2, 0, 5] hcommand hfiles
  refine ⟨hcommand, hfiles, line, hwords, ?_⟩
  rw [htrace] at hgoes ⊢
  rcases hgoes with ⟨codes, report, hcodes, hgoes, -, -, hfirst⟩ |
    ⟨_, file, _, _, e, _, _, hgoes, -⟩
  · match codes, hcodes with
    | [_, _, _], _ =>
      simp only [testRuns, List.zipWith_cons_cons, List.zipWith_nil_left, List.cons_append,
        List.nil_append, List.cons.injEq, testRun_inj, Except.ok.injEq] at hgoes
      obtain ⟨⟨rfl, rfl⟩, ⟨-, rfl⟩, ⟨-, rfl⟩, rfl⟩ := hgoes
      obtain ⟨answer, hreport, hwritten, -⟩ := hfirst 2 rfl
      have hanswer : Except.ok () = answer :=
        eq_of_heq (Sigma.mk.inj (List.cons.inj hreport).1).2
      exact ⟨rfl, hwritten hanswer.symm⟩
  · have hlast := congrArg List.getLast? hgoes
    simp [testRun] at hlast

/-- The line cannot be written: its failure is returned, and the exit code of the tests is lost. -/
theorem muted_failure_has_no_exit_code :
    (∃ c ∈ ({} : Config).testFileCommand.toList, Text.isBlank c = false) ∧
      ["a"] ≠ [] ∧
      (∀ request codes, ∃ code,
        (endingWith (.error .brokenPipe) (.runner request) codes).1 = .ok code) ∧
      (Procedure.run (endingWith (.error .brokenPipe)) (runTests {} ["a"]).run [3]).1 ≠
        .ok (.exit 3) := by
  have hline : CommandLine.parse? ({} : Config).testFileCommand =
      some ⟨"python3", ["-m", "unittest", "-v"]⟩ := by
    decide +kernel
  refine ⟨⟨'p', by decide +kernel, by decide +kernel⟩, by simp, fun _ _ => ⟨_, rfl⟩, ?_⟩
  rw [runTests_of_named hline (by simp)]
  exact nofun

end StackControl.Lifecycle
