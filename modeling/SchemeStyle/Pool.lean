import SchemeStyle.Run

/-!
# Linting files at once

A run may lint several files at once. The files are handed to a pool of workers in their order, and
each worker that has nothing to do takes the next one, opens it and lints it line by line, with a
state of its own. Which worker goes on next is left open: whatever decides that is a `Schedule`. The
results are taken in the order in which the files were handed over, however soon those behind are
finished. A file that cannot be opened at all ends the run when its turn comes: no further file is
opened, and the results of those that are open are not heard any more.
-/

namespace SchemeStyle

/-! ### One file, line by line -/

/-- How far the linting of a file has come. -/
inductive FileProgress where
  /-- Some lines have been linted, to that state and with that to report. -/
  | reading (state : State) (found : List Diagnostic) (rest : Reading)
  | finished (outcome : Except RunError FileResult)
  deriving Repr

namespace FileProgress

/-- The file is opened. -/
def start (files : FileView) (path : String) : FileProgress :=
  if hasNull path then finished (.error .nullCharacter)
  else
    match files.read path with
    | .error e => finished (.ok { path := path, error? := some (.file e) })
    | .ok bytes => reading {} [] (readLines bytes)

/-- One more line is linted. Behind the last one the file is finished, and behind a line whose
nesting leaves its bounds too. -/
def advance (style : Style) (path : String) : FileProgress → FileProgress
  | reading _ found ⟨[], error?⟩ =>
    finished (.ok { path := path, diagnostics := found, error? := error?.map .encoding })
  | reading state found ⟨content :: rest, error?⟩ =>
    let o := lintLine style state content
    match o.error? with
    | some (index, e) =>
      let failure : Failure := ⟨state.line, index, e, o.findings⟩
      finished (.ok
        { path := path
          diagnostics := found ++ failure.diagnostics path ++ [failure.toDiagnostic path]
          stopped? := some e })
    | none => reading o.state (found ++ o.findings.map (.ofFinding path state.line)) ⟨rest, error?⟩
  | finished outcome => finished outcome

/-- Whether a worker is still at it. -/
def isReading : FileProgress → Bool
  | reading .. => true
  | finished _ => false

/-- The lines that are left, and the end of the file. -/
def left : FileProgress → Nat
  | reading _ _ rest => rest.lines.length + 1
  | finished _ => 0

/-- Every line that is linted is one less to come. -/
theorem left_advance {progress : FileProgress} (h : progress.isReading = true) (style : Style)
    (path : String) : (progress.advance style path).left < progress.left := by
  rcases progress with ⟨state, found, ⟨- | ⟨content, rest⟩, error?⟩⟩ | result
  · exact Nat.zero_lt_one
  · rw [advance]
    rcases (lintLine style state content).error? with - | ⟨index, e⟩
    · exact Nat.lt_succ_self _
    · exact Nat.succ_pos _
  · cases h

end FileProgress

/-! ### Many files -/

/-- A file that a worker has taken. -/
structure FileTask where
  path : String
  progress : FileProgress
  deriving Repr

/-- The workers, the files they have taken, and those that nobody has taken yet. -/
structure Pool where
  /-- The files whose results are still to be taken, in the order in which they were handed over. -/
  tasks : List FileTask := []
  waiting : List String := []
  /-- The results that have been taken, or the error that ended the run. -/
  run : Except RunError RunResult := .ok {}
  deriving Repr

/-- What may happen in a pool. -/
inductive PoolEvent where
  /-- A worker takes the next file. -/
  | start
  /-- The worker of a file goes on with it. -/
  | advance (index : Nat)
  /-- The next result is taken. -/
  | take
  deriving DecidableEq, Repr

/-- The outcome of one more file is added to a run. The first error stays. -/
def addOutcome (run : Except RunError RunResult) (outcome : Except RunError FileResult) :
    Except RunError RunResult := do
  return (← run).add (← outcome)

namespace Pool

variable (style : Style) (files : FileView) (jobs : Nat)

/-- One thing happens, if it can: there are as many workers as there are jobs, and a result can be
taken only once the file is finished. -/
def step (pool : Pool) : PoolEvent → Option Pool
  | .start =>
    match pool.waiting with
    | [] => none
    | path :: waiting =>
      if pool.tasks.countP (·.progress.isReading) < jobs then
        some { pool with
          tasks := pool.tasks ++ [⟨path, .start files path⟩]
          waiting := waiting }
      else none
  | .advance index =>
    match pool.tasks[index]? with
    | some ⟨path, .reading state found rest⟩ =>
      let progress := (FileProgress.reading state found rest).advance style path
      some { pool with tasks := pool.tasks.set index ⟨path, progress⟩ }
    | _ => none
  | .take =>
    match pool.tasks with
    | ⟨_, .finished outcome⟩ :: tasks =>
      some {
        tasks := tasks
        waiting := if outcome.isOk then pool.waiting else []
        run := addOutcome pool.run outcome }
    | _ => none

/-- Some things happen in a row. -/
def after (pool : Pool) (events : List PoolEvent) : Option Pool :=
  events.foldlM (step style files jobs) pool

/-- What can happen next. -/
def possible (pool : Pool) : List PoolEvent :=
  (.start :: .take :: (List.range pool.tasks.length).map .advance).filter fun event ↦
    (pool.step style files jobs event).isSome

/-- What is left to be done: lines and ends of files, results to be taken, files to be opened. -/
def left (pool : Pool) : Nat :=
  pool.tasks.foldr (fun task rest ↦ task.progress.left + 1 + rest)
    (pool.waiting.foldr (fun path rest ↦ (FileProgress.start files path).left + 2 + rest) 0)

/-! ### What has happened -/

/-- One thing has happened in a pool. -/
inductive Happens : Pool → Pool → Prop where
  | start {tasks : List FileTask} {path : String} {waiting : List String}
      {run : Except RunError RunResult} (free : tasks.countP (·.progress.isReading) < jobs) :
      Happens ⟨tasks, path :: waiting, run⟩
        ⟨tasks ++ [⟨path, .start files path⟩], waiting, run⟩
  | advance {before rest : List FileTask} {path : String} {progress : FileProgress}
      {waiting : List String} {run : Except RunError RunResult}
      (busy : progress.isReading = true) :
      Happens ⟨before ++ ⟨path, progress⟩ :: rest, waiting, run⟩
        ⟨before ++ ⟨path, progress.advance style path⟩ :: rest, waiting, run⟩
  | take {path : String} {outcome : Except RunError FileResult} {tasks : List FileTask}
      {waiting : List String} {run : Except RunError RunResult} :
      Happens ⟨⟨path, .finished outcome⟩ :: tasks, waiting, run⟩
        ⟨tasks, if outcome.isOk then waiting else [], addOutcome run outcome⟩

variable {style files jobs} {pool pool' : Pool} {event : PoolEvent}

theorem happens_of_step (h : pool.step style files jobs event = some pool') :
    Happens style files jobs pool pool' := by
  rcases pool with ⟨tasks, waiting, run⟩
  cases event with
  | start =>
    rcases waiting with - | ⟨path, waiting⟩
    · cases h
    · simp only [step] at h
      split at h
      case isTrue free =>
        obtain rfl := Option.some.inj h
        exact .start free
      case isFalse => cases h
  | advance index =>
    rw [step] at h
    split at h
    case h_1 path state found rest htask =>
      obtain ⟨hindex, htask⟩ := List.getElem?_eq_some_iff.1 htask
      obtain ⟨before, after, htasks, -, hset⟩ := List.exists_of_set hindex
      obtain rfl := Option.some.inj h
      rw [htask] at htasks
      show Happens style files jobs _ ⟨tasks.set index _, waiting, run⟩
      rw [hset]
      obtain rfl : tasks = before ++ ⟨path, .reading state found rest⟩ :: after := htasks
      exact .advance rfl
    case h_2 => cases h
  | take =>
    rw [step] at h
    split at h
    case h_1 path outcome rest htasks =>
      obtain rfl : tasks = ⟨path, .finished outcome⟩ :: rest := htasks
      obtain rfl := Option.some.inj h
      exact .take
    case h_2 => cases h

/-- **Everything that happens leaves less to be done.** -/
theorem Happens.left_lt (h : Happens style files jobs pool pool') :
    pool'.left files < pool.left files := by
  cases h with
  | start free =>
    simp only [left, List.foldr_append, List.foldr_cons, List.foldr_nil]
    exact List.foldr_rel (r := (· < ·)) (by omega) fun _ _ _ _ h ↦ Nat.add_lt_add_left h _
  | @advance before rest path progress waiting run busy =>
    have hless := FileProgress.left_advance busy style path
    simp only [left, List.foldr_append, List.foldr_cons]
    exact List.foldr_rel (r := (· < ·)) (by omega) fun _ _ _ _ h ↦ Nat.add_lt_add_left h _
  | @take path outcome tasks waiting run =>
    refine Nat.lt_of_le_of_lt ?_ (Nat.lt_add_of_pos_left Nat.zero_lt_one)
    refine List.foldr_rel (r := (· ≤ ·)) ?_ fun _ _ _ _ h ↦ Nat.add_le_add_left h _
    cases outcome with
    | ok result => exact Nat.le_refl _
    | error e => exact Nat.zero_le _

end Pool

/-- Who goes on next: the number, among the things that can happen in a pool, of the one that
does. -/
abbrev Schedule := Pool → Nat

/-- What comes of a pool if things happen as they are scheduled, until nothing can happen. -/
def Pool.finish (style : Style) (files : FileView) (jobs : Nat) (schedule : Schedule)
    (pool : Pool) : Except RunError RunResult :=
  match pool.possible style files jobs with
  | [] => pool.run
  | first :: rest =>
    let event := (first :: rest).getD (schedule pool % (rest.length + 1)) first
    match _h : pool.step style files jobs event with
    | some next => next.finish style files jobs schedule
    | none => pool.run
termination_by pool.left files
decreasing_by exact (happens_of_step _h).left_lt

/-- Lints every file that the arguments stand for, with that many jobs. A pool is only made use of
where there is more than one job, and more than one file. -/
def lintPaths (style : Style) (files : FileView) (schedule : Schedule) (jobs : Int)
    (paths : List Path) : Except RunError RunResult := do
  let found ← (expandPaths files style.extensions paths).mapError .search
  let found := found.map Path.toText
  if 1 < jobs ∧ 1 < found.length then
    Pool.finish style files jobs.toNat schedule { waiting := found }
  else lintInTurn style files found

end SchemeStyle
