import SchemeStyle.Command.Outcome
import SchemeStyle.Proofs.Pool
import SchemeStyle.Proofs.Report.Numbers
import SchemeStyle.Proofs.Report.Rendering

/-!
# What a command reports

A command that lints files answers in three ways at once: by its exit status, by what it writes to
the standard output, and by what it writes to the standard error. The three are computed apart, the
status along the run, the messages about files that were not read from their results, and the report
from the diagnostics. They tell the same story all the same, as long as the log is not asked for and
there is a run to tell of (`Command.run_of_style`).

The form of the report and the number of jobs have no part in it. That the option for the form may
be put in front of any command line, and does nothing but to turn on that form, is a fact about the
reading of arguments (`Command.ofArguments_json_cons`).
-/

namespace SchemeStyle

variable {env : Environment} {style : Style} {texts : List String} {a : Arguments}

/-! ### Texts with something in them -/

theorem unlines_eq_empty_iff (lines : List String) : unlines lines = "" ↔ lines = [] := by
  cases lines with
  | nil => simp [unlines]
  | cons line lines => simp [unlines, String.append_eq_empty_iff]

/-! ### The report of a run -/

/-- What is said about a file that was not read to its end. -/
def FileResult.complaint? (r : FileResult) : Option String :=
  r.error?.map fun e ↦ s!"{r.path}: {e.message}"

/-- What is written about some diagnostics: the report and a newline, or nothing. -/
def rendering (json : Bool) (ds : List Diagnostic) : String :=
  if ds = [] then "" else reportText json ds ++ "\n"

theorem exists_rendering_eq {ds : List Diagnostic}
    (h : ∀ d ∈ ds, d.IsWritable longestInteger) (json : Bool) :
    ∃ report, render longestInteger json ds = .ok report ∧
      rendering json ds = if ds = [] then "" else report ++ "\n" :=
  ⟨reportText json ds, by rw [render_eq, if_pos h], rfl⟩

theorem rendering_eq_empty_iff (json : Bool) (ds : List Diagnostic) :
    rendering json ds = "" ↔ ds = [] := by
  rw [rendering]
  split_ifs with h <;> simp [h, String.append_eq_empty_iff]

/-- A run fails exactly if there is something to write about it. -/
theorem failed_iff_written {r : RunResult}
    (h : r.failed = true ↔ ∃ result ∈ r.files, result.error? ≠ none ∨ result.diagnostics ≠ [])
    (json : Bool) :
    r.failed = true ↔ ¬(rendering json r.diagnostics = "" ∧
      unlines (r.files.filterMap FileResult.complaint?) = "") := by
  rw [h, rendering_eq_empty_iff, unlines_eq_empty_iff, RunResult.diagnostics,
    List.flatMap_eq_nil_iff, List.filterMap_eq_nil_iff, ← forall₂_and]
  simp only [FileResult.complaint?, Option.map_eq_none_iff, not_forall, not_and_or, exists_prop]
  exact exists_congr fun result ↦ and_congr_right fun _ ↦ or_comm

namespace Command

/-- What a command without the log answers to a run. -/
def answer (json : Bool) (r : RunResult) : Except ProgramError CommandResult :=
  if ∀ d ∈ r.diagnostics, d.IsWritable longestInteger then
    .ok {
      status := r.exitStatus
      output := rendering json r.diagnostics
      errors := unlines (r.files.filterMap FileResult.complaint?) }
  else .error (.report (.tooManyDigits longestInteger))

/-- Without the log, a command writes the complaints and the report. -/
theorem report_of_quiet (hverbose : a.verbose = false) (env : Environment) (style : Style) :
    report env style a =
      ((lintPaths style env.files env.schedule a.jobs (a.files.map Path.ofText)).mapError .run) >>=
        answer a.json := by
  rw [report]
  rcases lintPaths style env.files env.schedule a.jobs (a.files.map Path.ofText) with e | r
  · rfl
  show ((render longestInteger a.json r.diagnostics).mapError .report >>= _) = answer a.json r
  rw [render_eq, answer]
  by_cases hwritable : ∀ d ∈ r.diagnostics, d.IsWritable longestInteger
  · have hrendered : (if (reportText a.json r.diagnostics).isEmpty then ""
        else reportText a.json r.diagnostics ++ "\n") = rendering a.json r.diagnostics := by
      simp only [rendering, String.isEmpty_iff, reportText_eq_empty_iff]
    rw [if_pos hwritable, if_pos hwritable, ← hrendered]
    show Except.ok _ = Except.ok _
    rw [if_neg (Bool.eq_false_iff.1 hverbose)]
    rfl
  · rw [if_neg hwritable, if_neg hwritable]
    rfl

theorem answer_eq_error_iff {json : Bool} {r : RunResult} {e : ProgramError} :
    answer json r = .error e ↔ (∃ d ∈ r.diagnostics, ¬d.IsWritable longestInteger) ∧
      e = .report (.tooManyDigits longestInteger) := by
  rw [answer]
  split_ifs with hwritable
  · exact iff_of_false (fun h ↦ by cases h) fun ⟨⟨d, hd, hlong⟩, _⟩ ↦ hlong (hwritable d hd)
  · rw [Except.error.injEq, eq_comm, and_iff_right]
    simpa using hwritable

theorem answer_eq_ok_iff {json : Bool} {r : RunResult} {result : CommandResult} :
    answer json r = .ok result ↔ (∀ d ∈ r.diagnostics, d.IsWritable longestInteger) ∧
      result = {
        status := r.exitStatus
        output := rendering json r.diagnostics
        errors := unlines (r.files.filterMap FileResult.complaint?) } := by
  rw [answer]
  split_ifs with hwritable
  · rw [Except.ok.injEq, eq_comm]
    exact (and_iff_right hwritable).symm
  · exact iff_of_false (fun h ↦ by cases h) fun h ↦ hwritable h.1

/-- The form of the report makes no difference but to the report. -/
theorem answer_of_answer {json : Bool} {r : RunResult} {result : CommandResult}
    (h : answer json r = .ok result) (json' : Bool) : ∃ report,
      render longestInteger json' r.diagnostics = .ok report ∧
      answer json' r = .ok { result with
        output := if r.diagnostics = [] then "" else report ++ "\n" } := by
  obtain ⟨hwritable, rfl⟩ := answer_eq_ok_iff.1 h
  obtain ⟨report, hreport, hrendering⟩ := exists_rendering_eq hwritable json'
  refine ⟨report, hreport, ?_⟩
  rw [← hrendering]
  exact answer_eq_ok_iff.2 ⟨hwritable, rfl⟩

/-- The status is one or zero, and zero exactly if nothing is written. -/
theorem status_of_answer {json : Bool} {found : List String} {result : CommandResult}
    (h : answer json (sumOf style env.files found) = .ok result) :
    (result.status = 0 ↔ result.output = "" ∧ result.errors = "") ∧
      (result.status ≠ 0 → result.status = 1) := by
  obtain ⟨-, rfl⟩ := answer_eq_ok_iff.1 h
  have hwritten := failed_iff_written (failed_sumOf_iff style env.files found) json
  refine ⟨(RunResult.exitStatus_eq_zero_iff _).trans ((not_congr hwritten).trans not_not),
    fun hstatus ↦ (RunResult.exitStatus_eq_one_iff _).2 ?_⟩
  exact Classical.not_not.1 fun hfine ↦ hstatus ((RunResult.exitStatus_eq_zero_iff _).2 hfine)

/-- What a command does whose style can be loaded. -/
theorem run_eq_of_style (hlint : ofArguments texts = .ok (.lint a)) (hfiles : a.files ≠ [])
    (hjobs : 1 ≤ a.jobs) (hverbose : a.verbose = false)
    (hstyle : Command.style env a = .ok style) :
    run env texts =
      ((lintPaths style env.files env.schedule a.jobs (a.files.map Path.ofText)).mapError .run) >>=
        answer a.json := by
  have hempty : a.files.isEmpty = false := by simpa using hfiles
  rw [← report_of_quiet hverbose]
  simp [run, hlint, lintArguments, hstyle, hempty, Int.not_lt.2 hjobs]

end Command

/-! ### The form of the report -/

/-- An argument without a dash in front names a file. -/
theorem Argument.ofText_of_toList_eq {text : String} {c : Char} {cs : List Char}
    (h : text.toList = c :: cs) (hc : c ≠ '-') : ofText text = .ok (.positional text) := by
  rw [ofText, h]
  split
  case h_1 heq => exact absurd (List.cons.inj heq).1 hc
  case h_2 => rfl

/-- The arguments, with a report meant for programs. -/
def Arguments.withJson (a : Arguments) : Arguments := { a with json := true }

/-- What was read so far, with a report meant for programs. -/
def Progress.withJson (p : Progress) : Progress := { p with arguments := p.arguments.withJson }

/-- The command, with a report meant for programs. -/
def Command.withJson : Command → Command
  | .lint a => .lint a.withJson
  | command => command

namespace Progress

theorem positional_withJson (s : String) (p : Progress) :
    p.withJson.positional s = (p.positional s).withJson := by
  unfold positional
  split_ifs <;> first | rfl | contradiction

theorem separator_withJson (p : Progress) : p.withJson.separator = p.separator.withJson := by
  unfold separator
  split_ifs <;> first | rfl | contradiction

theorem endFiles_withJson (p : Progress) : p.withJson.endFiles = p.endFiles.withJson := by
  unfold endFiles
  split_ifs <;> first | rfl | contradiction

end Progress

namespace Command

theorem takeOption_withJson (option : Opt) (argument? : Option String) (p : Progress) :
    takeOption option argument? p.withJson =
      (takeOption option argument? p).map (Sum.map withJson Progress.withJson) := by
  cases option with
  | jobs =>
    simp only [takeOption]
    cases readInteger 10 (argument?.getD "").toList <;> rfl
  | _ => rfl

theorem takeOptions_withJson (options : List (Opt × Option String)) (p : Progress) :
    takeOptions options p.withJson =
      (takeOptions options p).map (Sum.map withJson Progress.withJson) := by
  induction options generalizing p with
  | nil => rfl
  | cons written rest ih =>
    obtain ⟨option, argument?⟩ := written
    rw [takeOptions, takeOptions, takeOption_withJson]
    rcases takeOption option argument? p with e | command | p
    · rfl
    · rfl
    · exact ih p

/-- Some options are taken, and the rest is read unless one of them ends the reading. -/
theorem bind_takeOptions_withJson {rest : List Argument}
    (hrest : ∀ p : Progress, read rest p.withJson = (read rest p).map withJson)
    (options : List (Opt × Option String)) (p : Progress) :
    (takeOptions options p.withJson >>= fun
      | .inl command => .ok command
      | .inr p => read rest p) =
    (takeOptions options p >>= fun
      | .inl command => .ok command
      | .inr p => read rest p).map withJson := by
  rw [takeOptions_withJson]
  rcases takeOptions options p with e | command | p
  · rfl
  · rfl
  · exact hrest p

/-- Nothing that is read asks for the form of the report. -/
theorem read_withJson : ∀ (arguments : List Argument) (p : Progress),
    read arguments p.withJson = (read arguments p).map withJson
  | [], p => by
    rw [read, read]
    show (if p.unrecognized.isEmpty then _ else _) = _
    split_ifs <;> rfl
  | .positional s :: rest, p => by
    rw [read, read, Progress.positional_withJson, read_withJson rest]
  | .separator :: rest, p => by
    rw [read, read, Progress.separator_withJson, read_withJson rest]
  | .unknown s :: rest, p => by
    rw [read, read, Progress.endFiles_withJson]
    exact read_withJson rest (p.endFiles.reject s)
  | .written w :: rest, p => by
    rw [read.eq_def, read.eq_def]
    dsimp only
    rw [Progress.endFiles_withJson]
    rcases Cluster.ofWritten w with e | ⟨options, awaiting?, unknown?⟩
    · rfl
    · cases awaiting? with
      | none =>
        cases unknown? with
        | none => exact bind_takeOptions_withJson (read_withJson rest) options p.endFiles
        | some s =>
          exact bind_takeOptions_withJson (read_withJson rest) options (p.endFiles.reject s)
      | some option =>
        -- The option takes the next argument, which has to be positional.
        rcases rest with - | ⟨argument | - | w' | s, rest⟩
        · rfl
        · cases unknown? with
          | none => exact bind_takeOptions_withJson (read_withJson rest) _ p.endFiles
          | some s => exact bind_takeOptions_withJson (read_withJson rest) _ (p.endFiles.reject s)
        · rfl
        · rfl
        · rfl

/-- **In front of any command line the option for the form of the report turns it on**, and changes
nothing else. -/
theorem ofArguments_json_cons (texts : List String) :
    ofArguments ("--json" :: texts) = (ofArguments texts).map withJson := by
  have hjson : Argument.ofText "--json" = .ok (.written ⟨.json, false, none⟩) := rfl
  rw [ofArguments, ofArguments, Argument.ofTexts, if_neg (by decide), hjson]
  rcases Argument.ofTexts texts with e | arguments
  · rfl
  · have hread : read (.written ⟨.json, false, none⟩ :: arguments) {} =
        read arguments (Progress.withJson {}) := by
      rw [read]
      rfl
    exact hread.trans (read_withJson arguments {})

/-! ### One story -/

/-- **The exit status and both outputs tell the same story.** A command that lints files, under a
style that can be loaded and without the log, ends the program only if the run has no result, or if
a number in the report cannot be written, which takes a file of an enormous number of bytes.
Otherwise it ends with the status zero exactly if it writes nothing, and with one if not. The
standard error has a complaint about each file that was not read to its end, the standard output the
report on the diagnostics of all files, both in the order of the run.

The time of day, who goes on next among the workers, the number of jobs and the form of the report
make no difference, except for that form; the option for it may stand in front of any command
line. -/
theorem run_of_style (env : Environment) (hlint : ofArguments texts = .ok (.lint a))
    (hfiles : a.files ≠ []) (hjobs : 1 ≤ a.jobs) (hverbose : a.verbose = false)
    (hstyle : Command.style env a = .ok style) :
    let run := lintPaths style env.files env.schedule a.jobs (a.files.map Path.ofText)
    (∀ e, Command.run env texts = .error e ↔ (∃ e', run = .error e' ∧ e = .run e') ∨
      (∃ r, run = .ok r ∧ ∃ d ∈ r.diagnostics, ¬d.IsWritable longestInteger) ∧
        e = .report (.tooManyDigits longestInteger)) ∧
    ((∀ path bytes, env.files.read path = .ok bytes → bytes.length + 1 < 10 ^ longestInteger) →
      ∀ r, run = .ok r → ∀ d ∈ r.diagnostics, d.IsWritable longestInteger) ∧
    (∀ result, Command.run env texts = .ok result → ∃ r report, run = .ok r ∧
      (result.status = 0 ↔ result.output = "" ∧ result.errors = "") ∧
      (result.status ≠ 0 → result.status = 1) ∧
      result.errors = unlines (r.files.filterMap FileResult.complaint?) ∧
      render longestInteger a.json r.diagnostics = .ok report ∧
      result.output = (if r.diagnostics = [] then "" else report ++ "\n")) ∧
    (∀ time' schedule' texts' json jobs, 1 ≤ jobs →
      ofArguments texts' = .ok (.lint { a with json := json, jobs := jobs }) →
      let env' := { env with time := time', schedule := schedule' }
      (∀ e, Command.run env' texts' = .error e ↔ Command.run env texts = .error e) ∧
      ∀ result, Command.run env texts = .ok result → ∃ r report, run = .ok r ∧
        render longestInteger json r.diagnostics = .ok report ∧
        Command.run env' texts' = .ok { result with
          output := if r.diagnostics = [] then "" else report ++ "\n" }) ∧
    ofArguments ("--json" :: texts) = .ok (.lint { a with json := true }) := by
  intro run
  -- Whatever may differ, the run is the same, and all that is left to tell is its answer.
  have hvariant (time' schedule' texts' json jobs) (hjobs' : 1 ≤ jobs)
      (hlint' : ofArguments texts' = .ok (.lint { a with json := json, jobs := jobs })) :
      Command.run { env with time := time', schedule := schedule' } texts' =
        run.mapError .run >>= answer json := by
    have hstyle' : Command.style { env with time := time', schedule := schedule' }
        { a with json := json, jobs := jobs } = .ok style := hstyle
    rw [run_eq_of_style hlint' hfiles hjobs' hverbose hstyle',
      show lintPaths _ _ _ _ _ = run from (lintPaths_eq _ _ _ _ _).trans
        (lintPaths_eq style env.files env.schedule a.jobs _).symm]
  have hrun : Command.run env texts = run.mapError .run >>= answer a.json :=
    hvariant env.time env.schedule texts a.json a.jobs hjobs hlint
  have hsum : ∀ r, run = .ok r → ∃ found, r = sumOf style env.files found :=
    fun r hr ↦ exists_sumOf_of_lintPaths hr
  have hjson : ofArguments ("--json" :: texts) = .ok (.lint { a with json := true }) := by
    rw [ofArguments_json_cons, hlint]
    rfl
  clear_value run
  rcases run with e | r
  · have herror : Command.run env texts = .error (.run e) := hrun
    refine ⟨fun e' ↦ ?_, fun _ r hr ↦ ?_, fun result hresult ↦ ?_,
      fun time' schedule' texts' json jobs hjobs' hlint' ↦ ⟨fun e' ↦ ?_, fun result hresult ↦ ?_⟩,
      hjson⟩
    · rw [herror]
      simp [eq_comm]
    · cases hr
    · cases herror.symm.trans hresult
    · rw [herror, hvariant time' schedule' texts' json jobs hjobs' hlint']
      rfl
    · cases herror.symm.trans hresult
  · obtain ⟨found, rfl⟩ := hsum r rfl
    have hanswer : Command.run env texts = answer a.json (sumOf style env.files found) := hrun
    refine ⟨fun e ↦ ?_, fun hbytes r hr d hd ↦ ?_, fun result hresult ↦ ?_,
      fun time' schedule' texts' json jobs hjobs' hlint' ↦ ?_, hjson⟩
    · rw [hanswer, answer_eq_error_iff]
      simp
    · obtain rfl := Except.ok.inj hr
      rw [RunResult.diagnostics, files_sumOf, List.flatMap_map] at hd
      obtain ⟨path, -, hd⟩ := List.mem_flatMap.1 hd
      exact isWritable_of_mem_lintFile (hbytes path) hd
    · rw [hanswer] at hresult
      obtain ⟨report, hreport, hsame⟩ := answer_of_answer hresult a.json
      obtain ⟨hzero, hone⟩ := status_of_answer hresult
      obtain ⟨-, hparts⟩ := answer_eq_ok_iff.1 hresult
      have hresult' := Except.ok.inj (hresult.symm.trans hsame)
      exact ⟨_, report, rfl, hzero, hone, congrArg CommandResult.errors hparts, hreport,
        congrArg CommandResult.output hresult'⟩
    · have hvaried := hvariant time' schedule' texts' json jobs hjobs' hlint'
      refine ⟨fun e ↦ ?_, fun result hresult ↦ ?_⟩
      · rw [hanswer, hvaried, answer_eq_error_iff]
        exact answer_eq_error_iff
      · rw [hanswer] at hresult
        obtain ⟨report, hreport, hsame⟩ := answer_of_answer hresult json
        exact ⟨_, report, rfl, hreport, hvaried.trans hsame⟩

/-- One file is reported, the other one is not there. -/
theorem run_of_style_absent :
    let texts := ["page.ss", "gone.ss"]
    let a : Arguments := { files := ["page.ss", "gone.ss"] }
    let env : Environment := {
      time := "12:00:00"
      files := (({} : FileTree).writeFile "page.ss" "(a )\n".toUTF8.data.toList).view
      yaml := fun _ ↦ .error .malformed
      schedule := fun _ ↦ 0
      room := 900 }
    (ofArguments texts = .ok (.lint a) ∧ a.files ≠ [] ∧ 1 ≤ a.jobs ∧ a.verbose = false ∧
      Command.style env a = .ok .standard) ∧
    ∃ result, Command.run env texts = .ok result ∧ result.status = 1 ∧
      result.output = "page.ss:1:4: unexpected space before ')'\n" ∧
      result.errors = "gone.ss: No such file or directory\n" := by
  intro texts a env
  have htexts : Argument.ofTexts texts = .ok [.positional "page.ss", .positional "gone.ss"] := rfl
  have hlint : ofArguments texts = .ok (.lint a) := by
    rw [ofArguments, htexts]
    cbv
  have hfiles : a.files ≠ [] := by decide
  have hjobs : 1 ≤ a.jobs := by decide
  have hstyle : Command.style env a = .ok .standard := rfl
  have hrun : lintPaths .standard env.files env.schedule a.jobs (a.files.map Path.ofText) =
      .ok { files := [⟨"page.ss", [⟨"page.ss", 1, 4, "unexpected space before ')'"⟩], none, none⟩,
              ⟨"gone.ss", [], some (.file .absent), none⟩]
            failed := true } := by decide +kernel
  obtain ⟨herror, -, hresult, -⟩ := run_of_style env hlint hfiles hjobs rfl hstyle
  rcases hcommand : Command.run env texts with e | result
  · rcases (herror e).1 hcommand with ⟨e', he', -⟩ | ⟨⟨r, hr, d, hd, hlong⟩, -⟩
    · cases hrun.symm.trans he'
    · obtain rfl := Except.ok.inj (hrun.symm.trans hr)
      obtain rfl : d = ⟨"page.ss", 1, 4, "unexpected space before ')'"⟩ := List.mem_singleton.1 hd
      exact absurd (by decide +kernel) hlong
  · obtain ⟨r, report, hr, hzero, hone, herrors, hreport, houtput⟩ := hresult result hcommand
    obtain rfl := Except.ok.inj (hrun.symm.trans hr)
    have hwritten : result.output = "page.ss:1:4: unexpected space before ')'\n" := by
      have hrendered : render longestInteger a.json
          [⟨"page.ss", 1, 4, "unexpected space before ')'"⟩] =
            .ok "page.ss:1:4: unexpected space before ')'" := by decide +kernel
      obtain rfl := Except.ok.inj (hrendered.symm.trans hreport)
      exact houtput
    refine ⟨⟨hlint, hfiles, hjobs, rfl, hstyle⟩, result, rfl, hone fun hstatus ↦ ?_, hwritten,
      herrors.trans (by decide +kernel)⟩
    rw [hwritten] at hzero
    exact absurd (hzero.1 hstatus).1 (by decide)

/-- A file whose name is too long ends the program, and is not complained about. -/
theorem run_of_long_name :
    let name := String.ofList (List.replicate 256 'a')
    let env : Environment := {
      time := "12:00:00"
      files := ({} : FileTree).view
      yaml := fun _ ↦ .error .malformed
      schedule := fun _ ↦ 0
      room := 900 }
    Command.run env [name] = .error (.run (.search (.refused name .nameTooLong))) := by
  intro name env
  have htext : Argument.ofText name = .ok (.positional name) :=
    Argument.ofText_of_toList_eq (c := 'a') (String.toList_ofList.trans List.replicate_succ)
      (by decide)
  have hlint : ofArguments [name] = .ok (.lint { files := [name] }) := by
    have hdashes : name ≠ "--" :=
      fun heq ↦ absurd (congrArg String.utf8ByteSize heq) (by decide +kernel)
    rw [ofArguments, Argument.ofTexts, if_neg hdashes, htext]
    rfl
  have hstyle : Command.style env { files := [name] } = .ok .standard := rfl
  have hsearch := expandPaths_long_name_cons (t := {}) isTooLong_replicate ⟨true, rfl⟩ 900
    Style.standard.extensions []
  have hrun : lintPaths .standard env.files env.schedule 1 [Path.ofText name] =
      .error (.search (.refused name .nameTooLong)) :=
    lintPaths_eq_error_iff.2 (.inl ⟨_, hsearch, rfl⟩)
  rw [run_eq_of_style hlint (List.cons_ne_nil _ _) (by decide) rfl hstyle]
  clear_value name
  show (lintPaths .standard env.files env.schedule 1 [Path.ofText name]).mapError .run >>=
    answer false = _
  rw [hrun]
  rfl

end Command

end SchemeStyle
