import Mathlib.Algebra.Ring.Nat
import Mathlib.Data.List.GetD
import Mathlib.Tactic.SplitIfs
import SchemeStyle.Pool
import SchemeStyle.Proofs.Files.Expansion
import SchemeStyle.Proofs.Lint

/-!
# Runs with many jobs

Whatever the order in which the workers of a pool go on, a run comes to what linting its files one
after the other comes to. What a file will yield is fixed from the moment it is handed over, since
its worker reads nothing but the file itself (`FileProgress.result_advance`), and so is what the
pool will have yielded in the end: nothing that happens changes it (`Pool.Happens.outcome_eq`).
Everything that happens leaves less to be done (`Pool.Happens.left_lt`), and there is always
something that can happen until all results are taken (`Pool.exists_step`).

A file that cannot be opened at all ends the run. That is so for whoever takes the results, who
stops at the first of them, whatever became of the files behind it.
-/

namespace SchemeStyle

variable {style : Style} {files : FileView} {jobs : Nat} {schedule : Schedule}

/-! ### One file -/

namespace FileProgress

/-- What the linting of the file will yield. -/
def result (style : Style) (path : String) : FileProgress → Except RunError FileResult
  | reading state found ⟨lines, error?⟩ =>
    let report := lintLines style state lines
    match report.failure? with
    | some f =>
      .ok
        { path := path
          diagnostics := found ++ report.diagnostics path ++ f.diagnostics path ++
            [f.toDiagnostic path]
          stopped? := some f.error }
    | none =>
      .ok
        { path := path
          diagnostics := found ++ report.diagnostics path
          error? := error?.map .encoding }
  | finished outcome => outcome

/-- A file that is opened will yield what linting it yields. -/
theorem result_start (style : Style) (files : FileView) (path : String) :
    (start files path).result style path = lintPath style files path := by
  rw [start, lintPath, lintFile]
  split_ifs with hnull
  · rfl
  · cases files.read path with
    | error e => rfl
    | ok bytes =>
      simp only [result, lintReading]
      cases (lintLines style {} (readLines bytes).lines).failure? <;> simp

/-- **No line that is linted changes what the file will yield.** -/
theorem result_advance (style : Style) (path : String) (progress : FileProgress) :
    (progress.advance style path).result style path = progress.result style path := by
  rcases progress with ⟨state, found, ⟨- | ⟨content, rest⟩, error?⟩⟩ | outcome
  · simp [advance, result, lintLines, Report.diagnostics]
  · rcases herror : (lintLine style state content).error? with - | ⟨index, e⟩
    · have hadvance : (reading state found ⟨content :: rest, error?⟩).advance style path =
          reading (lintLine style state content).state
            (found ++ (lintLine style state content).findings.map (.ofFinding path state.line))
            ⟨rest, error?⟩ := by
        rw [advance]
        simp only [herror]
      rw [hadvance, result, result, lintLines_cons_of_ok herror]
      cases (lintLines style (lintLine style state content).state rest).failure? <;>
        simp [Report.diagnostics, Function.comp_def]
    · rw [advance, result, lintLines_cons_of_error herror]
      simp [herror, result, Report.diagnostics]
  · rfl

end FileProgress

/-- The result of a file depends on that file alone. -/
theorem lintFile_of_read_eq {files' : FileView} {path : String}
    (h : files'.read path = files.read path) (style : Style) :
    lintFile style files' path = lintFile style files path := by
  rw [lintFile, lintFile, h]

/-! ### Adding up results -/

namespace RunResult

theorem files_foldl_add (run : RunResult) (results : List FileResult) :
    (results.foldl add run).files = run.files ++ results := by
  induction results generalizing run with
  | nil => exact (List.append_nil _).symm
  | cons result results ih =>
    rw [List.foldl_cons, ih, add, List.append_assoc, List.singleton_append]

theorem failed_foldl_add (run : RunResult) (results : List FileResult) :
    (results.foldl add run).failed = (run.failed || results.any FileResult.failed) := by
  induction results generalizing run with
  | nil => exact (Bool.or_false _).symm
  | cons result results ih => rw [List.foldl_cons, ih, add, List.any_cons, Bool.or_assoc]

theorem exitStatus_eq_zero_iff (run : RunResult) : run.exitStatus = 0 ↔ ¬run.failed = true := by
  rw [exitStatus]
  cases run.failed <;> decide

theorem exitStatus_eq_one_iff (run : RunResult) : run.exitStatus = 1 ↔ run.failed = true := by
  rw [exitStatus]
  cases run.failed <;> decide

end RunResult

/-- What linting some files adds up to. -/
def sumOf (style : Style) (files : FileView) (paths : List String) : RunResult :=
  (paths.map (lintFile style files)).foldl RunResult.add {}

/-- The first error stays, whatever is added to it. -/
theorem foldl_addOutcome_error (e : RunError) (outcomes : List (Except RunError FileResult)) :
    outcomes.foldl addOutcome (.error e) = .error e := by
  induction outcomes with
  | nil => rfl
  | cons outcome outcomes ih => exact ih

/-- Files add up unless one of them cannot be opened at all. -/
theorem foldl_addOutcome_lintPath (paths : List String) (run : RunResult) :
    (paths.map (lintPath style files)).foldl addOutcome (.ok run) =
      if paths.any hasNull then .error .nullCharacter
      else .ok ((paths.map (lintFile style files)).foldl RunResult.add run) := by
  induction paths generalizing run with
  | nil => rfl
  | cons path paths ih =>
    rw [List.map_cons, List.foldl_cons, lintPath, List.any_cons]
    cases hasNull path with
    | true => exact foldl_addOutcome_error .nullCharacter _
    | false => exact ih (run.add (lintFile style files path))

theorem lintInTurn_eq_foldl (style : Style) (files : FileView) (paths : List String) :
    lintInTurn style files paths =
      (paths.map (lintPath style files)).foldl addOutcome (.ok {}) := by
  suffices h : ∀ run : RunResult,
      paths.foldlM (fun run path ↦ return run.add (← lintPath style files path)) run =
        (paths.map (lintPath style files)).foldl addOutcome (.ok run) from h {}
  intro run
  induction paths generalizing run with
  | nil => rfl
  | cons path paths ih =>
    rw [List.foldlM_cons, List.map_cons, List.foldl_cons]
    rcases lintPath style files path with e | result
    · exact (foldl_addOutcome_error e _).symm
    · exact ih (run.add result)

/-! ### What may happen -/

namespace Pool

variable {pool pool' : Pool} {events : List PoolEvent}

/-- The results that are still to be taken. -/
def results (style : Style) (files : FileView) (pool : Pool) :
    List (Except RunError FileResult) :=
  pool.tasks.map (fun task ↦ task.progress.result style task.path) ++
    pool.waiting.map (lintPath style files)

/-- What the pool will have yielded in the end. -/
def outcome (style : Style) (files : FileView) (pool : Pool) : Except RunError RunResult :=
  (pool.results style files).foldl addOutcome pool.run

/-- **Nothing that happens changes what the pool will have yielded.** -/
theorem Happens.outcome_eq (h : Happens style files jobs pool pool') :
    pool'.outcome style files = pool.outcome style files := by
  cases h with
  | start free => simp [outcome, results, FileProgress.result_start]
  | advance busy => simp [outcome, results, FileProgress.result_advance]
  | @take path taken tasks waiting run =>
    cases taken with
    | ok result => rfl
    | error e =>
      -- Whether an error was there before or comes now, what is behind it is not heard.
      obtain ⟨e', he'⟩ : ∃ e', addOutcome run (.error e) = .error e' := by
        cases run <;> exact ⟨_, rfl⟩
      simp [outcome, results, FileProgress.result, he', foldl_addOutcome_error]

/-- Whatever happens, in whatever order, the pool comes to the same, and not much can happen. -/
theorem after_spec (h : pool.after style files jobs events = some pool') :
    pool'.outcome style files = pool.outcome style files ∧
      events.length + pool'.left files ≤ pool.left files := by
  induction events generalizing pool with
  | nil =>
    obtain rfl : pool = pool' := Option.some.inj h
    exact ⟨rfl, Nat.le_of_eq (Nat.zero_add _)⟩
  | cons event events ih =>
    rw [after, List.foldlM_cons] at h
    obtain ⟨next, hstep, hafter⟩ := Option.bind_eq_some_iff.1 h
    obtain ⟨houtcome, hleft⟩ := ih hafter
    have hhappens := happens_of_step hstep
    have hless := hhappens.left_lt
    refine ⟨houtcome.trans hhappens.outcome_eq, ?_⟩
    rw [List.length_cons]
    omega

theorem mem_possible_iff {event : PoolEvent} : event ∈ pool.possible style files jobs ↔
    ∃ next, pool.step style files jobs event = some next := by
  rw [possible, List.mem_filter, ← Option.isSome_iff_exists, and_iff_right_iff_imp]
  intro hstep
  cases event with
  | start => simp
  | take => simp
  | advance index =>
    have hindex : index < pool.tasks.length := by
      by_contra hle
      rw [step, List.getElem?_eq_none (Nat.not_lt.1 hle)] at hstep
      cases hstep
    simp [hindex]

/-- **Something can always happen until all results are taken.** -/
theorem exists_step (style : Style) (files : FileView) (hjobs : 0 < jobs)
    (h : pool.tasks ≠ [] ∨ pool.waiting ≠ []) :
    ∃ event pool', pool.step style files jobs event = some pool' := by
  rcases pool with ⟨- | ⟨⟨path, progress⟩, tasks⟩, waiting, run⟩
  · obtain ⟨path, waiting, rfl⟩ := List.exists_cons_of_ne_nil (h.resolve_left (fun h ↦ h rfl))
    exact ⟨.start, _, if_pos hjobs⟩
  · cases progress with
    | reading state found rest => exact ⟨.advance 0, _, rfl⟩
    | finished result => exact ⟨.take, _, rfl⟩

/-- Where nothing is left there is nothing but results. -/
theorem eq_of_idle (h : ¬(pool.tasks ≠ [] ∨ pool.waiting ≠ [])) : pool = { run := pool.run } := by
  obtain ⟨htasks, hwaiting⟩ := not_or.1 h
  rcases pool with ⟨tasks, waiting, run⟩
  obtain rfl : tasks = [] := Classical.not_not.1 htasks
  obtain rfl : waiting = [] := Classical.not_not.1 hwaiting
  rfl

/-- A pool in which nothing can happen has yielded what it will have yielded. -/
theorem eq_of_possible_eq_nil (hjobs : 0 < jobs) (h : pool.possible style files jobs = []) :
    pool = { run := pool.outcome style files } := by
  by_cases hbusy : pool.tasks ≠ [] ∨ pool.waiting ≠ []
  · obtain ⟨event, hstep⟩ := exists_step style files hjobs hbusy
    exact absurd (h ▸ mem_possible_iff.2 hstep) List.not_mem_nil
  · have hidle := eq_of_idle hbusy
    have houtcome : pool.outcome style files = pool.run := by
      rw [hidle]
      rfl
    rw [houtcome]
    exact hidle

/-- **Whoever goes on next, a pool comes to what it will have yielded.** -/
theorem finish_eq (hjobs : 0 < jobs) (schedule : Schedule) (pool : Pool) :
    pool.finish style files jobs schedule = pool.outcome style files := by
  induction hleft : pool.left files using Nat.strongRecOn generalizing pool with
  | ind n ih =>
  subst hleft
  rw [finish]
  split
  case h_1 hpossible =>
    exact congrArg Pool.run (eq_of_possible_eq_nil hjobs hpossible)
  case h_2 first rest hpossible =>
    have hlt : schedule pool % (rest.length + 1) < (first :: rest).length := by
      rw [List.length_cons]
      exact Nat.mod_lt _ (Nat.succ_pos _)
    have hmem : (first :: rest).getD (schedule pool % (rest.length + 1)) first ∈
        pool.possible style files jobs := by
      rw [hpossible, List.getD_eq_getElem _ _ hlt]
      exact List.getElem_mem hlt
    dsimp only
    split
    case h_1 next hstep =>
      have hhappens := happens_of_step hstep
      rw [ih _ hhappens.left_lt next rfl, hhappens.outcome_eq]
    case h_2 hstep =>
      obtain ⟨next, hnext⟩ := mem_possible_iff.1 hmem
      cases hstep.symm.trans hnext

end Pool

/-! ### Runs -/

/-- With any number of jobs, and whoever goes on next, a run comes to what linting one file after
the other comes to. -/
theorem lintPaths_eq (style : Style) (files : FileView) (schedule : Schedule) (jobs : Int)
    (paths : List Path) :
    lintPaths style files schedule jobs paths =
      match expandPaths files style.extensions paths with
      | .error e => .error (.search e)
      | .ok found =>
        if (found.map Path.toText).any hasNull then .error .nullCharacter
        else .ok (sumOf style files (found.map Path.toText)) := by
  rw [lintPaths]
  rcases expandPaths files style.extensions paths with e | found
  · rfl
  show (if 1 < jobs ∧ 1 < (found.map Path.toText).length then
    Pool.finish style files jobs.toNat schedule { waiting := found.map Path.toText }
    else lintInTurn style files (found.map Path.toText)) = _
  split_ifs with hpool
  · rw [Pool.finish_eq (by omega)]
    exact foldl_addOutcome_lintPath _ _
  · rw [lintInTurn_eq_foldl]
    exact foldl_addOutcome_lintPath _ _

theorem lintPaths_eq_ok {paths found : List Path} (schedule : Schedule) (jobs : Int)
    (hfound : expandPaths files style.extensions paths = .ok found)
    (hnull : ∀ p ∈ found, hasNull p.toText = false) :
    lintPaths style files schedule jobs paths =
      .ok (sumOf style files (found.map Path.toText)) := by
  have hany : (found.map Path.toText).any hasNull = false := by simpa using hnull
  rw [lintPaths_eq, hfound]
  exact if_neg (by rw [hany]; simp)

/-- **Two things end a run**: arguments that cannot be expanded, and a path with a null
character. -/
theorem lintPaths_eq_error_iff {schedule : Schedule} {jobs : Int} {paths : List Path}
    {e : RunError} :
    lintPaths style files schedule jobs paths = .error e ↔
      (∃ e', expandPaths files style.extensions paths = .error e' ∧ e = .search e') ∨
        (∃ found, expandPaths files style.extensions paths = .ok found ∧
          ∃ p ∈ found, hasNull p.toText = true) ∧ e = .nullCharacter := by
  rw [lintPaths_eq]
  rcases expandPaths files style.extensions paths with e' | found
  · simp only [Except.error.injEq, exists_eq_left', reduceCtorEq, false_and, exists_false, or_false]
    exact eq_comm
  · have hnull : (found.map Path.toText).any hasNull = true ↔
        ∃ p ∈ found, hasNull p.toText = true := by simp
    simp only [Except.ok.injEq, exists_eq_left', reduceCtorEq, false_and, exists_false, false_or,
      ← hnull]
    split_ifs with hany
    · simp only [hany, true_and, Except.error.injEq]
      exact eq_comm
    · simp [hany]

theorem FileResult.failed_iff (result : FileResult) :
    result.failed = true ↔ result.error? ≠ none ∨ result.diagnostics ≠ [] := by
  simp [failed, Option.isSome_iff_ne_none]

theorem files_sumOf (style : Style) (files : FileView) (paths : List String) :
    (sumOf style files paths).files = paths.map (lintFile style files) :=
  RunResult.files_foldl_add {} _

theorem failed_sumOf_iff (style : Style) (files : FileView) (paths : List String) :
    (sumOf style files paths).failed = true ↔
      ∃ result ∈ (sumOf style files paths).files,
        result.error? ≠ none ∨ result.diagnostics ≠ [] := by
  rw [files_sumOf, sumOf, RunResult.failed_foldl_add]
  simp only [Bool.false_or, List.any_eq_true, FileResult.failed_iff]

/-- The result of a run, if there is one, is the sum of its files. -/
theorem exists_sumOf_of_lintPaths {schedule : Schedule} {jobs : Int} {paths : List Path}
    {r : RunResult} (h : lintPaths style files schedule jobs paths = .ok r) :
    ∃ found, r = sumOf style files found := by
  rw [lintPaths_eq] at h
  split at h
  case h_1 => cases h
  case h_2 found _ =>
    split_ifs at h
    exact ⟨_, (Except.ok.inj h).symm⟩

/-- **A run is the sum of its files, in their order**, if there is one. The arguments have to be
expanded, and no path may have a null character; any other failure of a file leaves the rest of the
run as it is. The run then has the results of the files, each linted as it would be alone, and fails
exactly if one of them has an error or a diagnostic. With any number of jobs, and whoever goes on
next, it comes to the same, and a pool of workers neither goes on for ever nor gets stuck before all
results are taken. -/
theorem lintPaths_sums_files (style : Style) (files : FileView) (schedule : Schedule) (jobs : Int)
    (paths : List Path) :
    let expansion := expandPaths files style.extensions paths
    let run := lintPaths style files schedule jobs paths
    (∀ found, expansion = .ok found → (∀ p ∈ found, hasNull p.toText = false) →
      ∃ r, run = .ok r ∧
        r.files = found.map (fun p ↦ lintFile style files p.toText) ∧
        r.diagnostics = found.flatMap (fun p ↦ (lintFile style files p.toText).diagnostics) ∧
        (r.failed = true ↔ ∃ result ∈ r.files, result.error? ≠ none ∨ result.diagnostics ≠ []) ∧
        (r.exitStatus = 1 ↔ r.failed = true) ∧ (r.exitStatus = 0 ↔ ¬r.failed = true)) ∧
    (∀ e, run = .error e ↔ (∃ e', expansion = .error e' ∧ e = .search e') ∨
      (∃ found, expansion = .ok found ∧ ∃ p ∈ found, hasNull p.toText = true) ∧
        e = .nullCharacter) ∧
    (∀ schedule' jobs', lintPaths style files schedule' jobs' paths = run) ∧
    (∀ found workers events pool', expansion = .ok found →
      let pool : Pool := { waiting := found.map Path.toText }
      pool.after style files workers events = some pool' →
        events.length ≤ pool.left files ∧
          (1 ≤ workers → pool' = { run := run } ∨
            ∃ event next, pool'.step style files workers event = some next)) ∧
    ∀ (files' : FileView) (path : String), files'.read path = files.read path →
      lintFile style files' path = lintFile style files path := by
  intro expansion run
  refine ⟨fun found hfound hnull ↦ ⟨_, lintPaths_eq_ok schedule jobs hfound hnull, ?_, ?_,
      failed_sumOf_iff style files _, RunResult.exitStatus_eq_one_iff _,
      RunResult.exitStatus_eq_zero_iff _⟩,
    fun e ↦ lintPaths_eq_error_iff, fun schedule' jobs' ↦ ?_, ?_,
    fun files' path hread ↦ lintFile_of_read_eq hread style⟩
  · rw [files_sumOf, List.map_map]
    rfl
  · rw [RunResult.diagnostics, files_sumOf, List.map_map, List.flatMap_map]
    rfl
  · exact (lintPaths_eq style files schedule' jobs' paths).trans
      (lintPaths_eq style files schedule jobs paths).symm
  · intro found workers events pool' hfound pool hafter
    obtain ⟨houtcome, hlength⟩ := Pool.after_spec hafter
    refine ⟨by omega, fun hworkers ↦ ?_⟩
    by_cases hbusy : pool'.tasks ≠ [] ∨ pool'.waiting ≠ []
    · exact .inr (Pool.exists_step style files hworkers hbusy)
    · have hidle := Pool.eq_of_idle hbusy
      have hyielded : pool'.run = run := by
        rw [hidle] at houtcome
        refine houtcome.trans ((foldl_addOutcome_lintPath _ _).trans ?_)
        have hrun := lintPaths_eq style files schedule jobs paths
        rw [show expandPaths files style.extensions paths = .ok found from hfound] at hrun
        exact hrun.symm
      exact .inl (hidle.trans (by rw [hyielded]))

/-- A path that cannot be looked at, or not be opened, ends the run, whatever the other file is. -/
theorem lintPaths_of_long_name :
    let name := String.ofList (List.replicate 256 'a')
    let t := ({} : FileTree).writeFile "b.ss" "(a)\n".toUTF8.data.toList
    lintPaths .standard t.view (fun _ ↦ 0) 1 ([name, "b.ss"].map Path.ofText) =
        .error (.search (.refused name .nameTooLong)) ∧
      lintPaths .standard t.view (fun _ ↦ 0) 1 (["a\x00b", "b.ss"].map Path.ofText) =
        .error .nullCharacter ∧
      lintPaths .standard t.view (fun _ ↦ 0) 1 (["b.ss"].map Path.ofText) =
        .ok { files := [{ path := "b.ss" }] } := by
  intro name t
  refine ⟨?_, by decide +kernel, by decide +kernel⟩
  have hsearch := expandPaths_long_name_cons (t := t) isTooLong_replicate ⟨true, by decide +kernel⟩
    900 Style.standard.extensions [Path.ofText "b.ss"]
  exact lintPaths_eq_error_iff.2 (.inl ⟨_, hsearch, rfl⟩)

end SchemeStyle
