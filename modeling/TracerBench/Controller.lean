import TracerBench.Python

/-!
# The controller

A test is one run of a client program, started with the arguments of a `Command` and
measured until it exits (`rawBenchmark`). A controller first calibrates its client with
a few such tests, and `benchmark` derives from the calibration what to send for a rate
and a runtime. A client program is a function of its command : what `poll` of its
process answers, each time it is asked, and the times sampled while it ran. The calls
`benchmark` makes on a satellite group have a model of their own.

A test waits for its client by asking `poll` again and again. The handle of the command
has a timeout, and nothing on the way reads it, so a wait ends exactly when the process
exits (`runTest_ends_iff`).
-/

namespace TracerBench

/-- `CALIBRATION_REPEAT`. -/
def calibrationRepeat : ℤ := 500

/-- `CALIBRATION_TIMEOUT`, in seconds. -/
def calibrationTimeout : ℤ := 60

/-- `DEFAULT_SLEEP_INTERVAL`, in nanoseconds. -/
def defaultSleepInterval : ℤ := 10 ^ 8

/-- `NUM_TAGS`. -/
def numTags : ℤ := 10

/-- `NUM_LOGS`. -/
def numLogs : ℤ := 15

structure Command where
  trace : Bool
  sleep : ℚ
  sleepInterval : ℤ
  work : ℚ
  repeats : ℤ
  noFlush : Bool

/-- The flags on a client's command line. -/
inductive Flag where
  | trace | sleep | sleepInterval | work | repeats | noFlush | numTags | numLogs
  deriving DecidableEq

/-- `get_client_args`, each flag with the number written after it. -/
def getClientArgs (command : Command) : List (Flag × ℚ) :=
  [(.trace, command.trace.toNat), (.sleep, command.sleep),
    (.sleepInterval, command.sleepInterval), (.work, command.work),
    (.repeats, command.repeats), (.noFlush, command.noFlush.toNat),
    (.numTags, numTags), (.numLogs, numLogs)]

namespace Controller

/-! ## One test -/

/-- The counts and times of a `Result`. -/
structure Result where
  spansSent : ℤ
  programTime : ℚ
  clockTime : ℚ

/-- `spans_per_second`. -/
def Result.spansPerSecond (r : Result) : Py ℚ :=
  if r.spansSent = 0 then pure 0 else Py.trueDiv r.spansSent r.clockTime

/-- `cpu_usage`. -/
def Result.cpuUsage (r : Result) : Py ℚ :=
  Py.trueDiv r.programTime r.clockTime

/-- A client's process : the answers of `poll`, and the last times that were sampled. -/
structure ClientProcess where
  poll : ℕ → Option ℤ
  times : Option (ℚ × ℚ)

/-- `get_results`. -/
def ClientProcess.getResults (process : ClientProcess) : Py Result :=
  match process.times with
  | some (programTime, clockTime) => pure ⟨0, programTime, clockTime⟩
  | none => Py.raise .attributeError

/-- A command handle's timeout, in seconds. -/
structure CommandHandle where
  timeout : Option ℤ

namespace CommandHandle

/-- The error of a test that takes too long. -/
def clientTimeout : PyError := .exception "ClientTimeout"

/-- `handle_timeout`. -/
def handleTimeout (_ : CommandHandle) : Py Result :=
  Py.raise clientTimeout

/-- The wait of `run_test`, with the number of times it has polled. -/
def polling (process : ClientProcess) (polls : ℕ) : Option (Pass ℕ Unit) :=
  match process.poll polls with
  | none => some (.more (polls + 1))
  | some _ => some (.done ())

/-- `run_test`. -/
def runTest (_ : CommandHandle) (_ : Command) (process : ClientProcess) : Py Result := do
  Py.whileLoop (polling process) 0
  process.getResults

end CommandHandle

/-- `_raw_benchmark`. -/
def rawBenchmark (handle : CommandHandle) (command : Command)
    (client : Command → ClientProcess) : Py Result := do
  let results ← handle.runTest command (client command)
  pure { results with spansSent := command.repeats }

/-! ## Calibration

`calibration_work` is 200000 where the user of the module has not set it. -/

section Calibration

variable (calibrationWork : ℚ) (handle : CommandHandle)

/-- The command of a calibration test. -/
def calibrationCommand (sleepPerWork : ℚ) : Command where
  trace := false
  sleep := sleepPerWork * calibrationWork
  sleepInterval := defaultSleepInterval
  work := calibrationWork
  repeats := calibrationRepeat
  noFlush := false

/-- One trial of `_estimate_sleep_per_work` : its result and the new estimate. -/
def trial (client : Command → ClientProcess) (targetCpuUsage sleepPerWork : ℚ) :
    Py (Result × ℚ) := do
  let result ← rawBenchmark handle (calibrationCommand calibrationWork sleepPerWork) client
  let atTarget ← Py.trueDiv result.programTime targetCpuUsage
  let additionalSleep := atTarget - result.clockTime
  let totalWork := calibrationWork * calibrationRepeat
  let sleepPerUnit ← Py.trueDiv additionalSleep totalWork
  pure (result, sleepPerWork + sleepPerUnit * 10 ^ 9)

/-- The trials of `_estimate_sleep_per_work`, each with a client of its own, and the last
result. -/
def runTrials (targetCpuUsage : ℚ) :
    List (Command → ClientProcess) → Option Result → ℚ → Py (Option Result × ℚ)
  | [], result, sleepPerWork => pure (result, sleepPerWork)
  | client :: clients, _, sleepPerWork => do
    let (result, sleepPerWork) ←
      trial calibrationWork handle client targetCpuUsage sleepPerWork
    runTrials targetCpuUsage clients (some result) sleepPerWork

/-- `_estimate_sleep_per_work`. It logs the CPU usage of its last trial. -/
def estimateSleepPerWork (targetCpuUsage : ℚ) (clients : List (Command → ClientProcess)) :
    Py ℚ := do
  let (result, sleepPerWork) ← runTrials calibrationWork handle targetCpuUsage clients none 0
  match result with
  | none => Py.raise .unboundLocalError
  | some result => do
    let _ ← result.cpuUsage
    pure sleepPerWork

/-- `_estimate_work_per_second`. -/
def estimateWorkPerSecond (sleepPerWork : ℚ) (client : Command → ClientProcess) : Py ℚ := do
  let result ← rawBenchmark handle (calibrationCommand calibrationWork sleepPerWork) client
  let spansPerSecond ← result.spansPerSecond
  pure (calibrationWork * spansPerSecond)

end Calibration

end Controller

/-- A calibrated controller. -/
structure Controller where
  handle : Controller.CommandHandle
  sleepPerWork : ℚ
  workPerSecond : ℚ

namespace Controller

/-- `_calibrate`, with the clients of its trials and of its last test. -/
def calibrate (calibrationWork : ℚ) (targetCpuUsage : ℚ)
    (trials : List (Command → ClientProcess)) (client : Command → ClientProcess) :
    Py Controller := do
  let handle : CommandHandle := ⟨some calibrationTimeout⟩
  let sleepPerWork ← estimateSleepPerWork calibrationWork handle targetCpuUsage trials
  let workPerSecond ← estimateWorkPerSecond calibrationWork handle sleepPerWork client
  pure ⟨handle, sleepPerWork, workPerSecond⟩

/-! ## Benchmark -/

/-- The arguments of `benchmark`. -/
structure BenchmarkArgs where
  trace : Bool
  noFlush : Bool
  spansPerSecond : ℤ
  runtime : ℤ
  noTimeout : Bool

/-- What `benchmark` sends its client. -/
def benchmarkCommand (c : Controller) (args : BenchmarkArgs) : Py Command :=
  if args.spansPerSecond = 0 then Py.raise .valueError
  else do
    let work ← Py.trueDiv c.workPerSecond args.spansPerSecond
    let repeats ← Py.trueDiv (c.workPerSecond * args.runtime) work
    pure
      { trace := args.trace
        sleep := trunc (work * c.sleepPerWork)
        sleepInterval := defaultSleepInterval
        work := trunc work
        repeats := trunc repeats
        noFlush := args.noFlush }

/-- `benchmark` asks for the spans of its rate and runtime, whatever the calibration. -/
theorem benchmarkCommand_ends {c : Controller} {args : BenchmarkArgs}
    (hs : args.spansPerSecond ≠ 0) (hw : c.workPerSecond ≠ 0) :
    (c.benchmarkCommand args).Ends (.ok
      { trace := args.trace
        sleep := trunc (c.workPerSecond / args.spansPerSecond * c.sleepPerWork)
        sleepInterval := defaultSleepInterval
        work := trunc (c.workPerSecond / args.spansPerSecond)
        repeats := args.spansPerSecond * args.runtime
        noFlush := args.noFlush }) := by
  have hs' : (args.spansPerSecond : ℚ) ≠ 0 := Int.cast_ne_zero.2 hs
  have hrepeats : c.workPerSecond * args.runtime / (c.workPerSecond / args.spansPerSecond) =
      (args.spansPerSecond * args.runtime : ℤ) := by
    push_cast
    field_simp
  rw [benchmarkCommand, if_neg hs]
  refine (Py.ends_trueDiv hs').bind ((Py.ends_trueDiv (div_ne_zero hw hs')).bind ?_)
  rw [hrepeats, trunc_intCast]
  exact Py.ends_pure _

/-- A rate of 0 is rejected, and without work there is nothing to divide by. -/
theorem benchmarkCommand_raises {c : Controller} {args : BenchmarkArgs}
    (h : args.spansPerSecond = 0 ∨ c.workPerSecond = 0) :
    ∃ e, (c.benchmarkCommand args).Ends (.error e) := by
  by_cases hs : args.spansPerSecond = 0
  · exact ⟨.valueError, by rw [benchmarkCommand, if_pos hs]; exact Py.ends_raise _⟩
  · have hs' : (args.spansPerSecond : ℚ) ≠ 0 := Int.cast_ne_zero.2 hs
    have hzero : c.workPerSecond / args.spansPerSecond = 0 := by
      rw [h.resolve_left hs, zero_div]
    refine ⟨.zeroDivisionError, ?_⟩
    rw [benchmarkCommand, if_neg hs]
    refine (Py.ends_trueDiv hs').bind (Py.Ends.bind_error ?_)
    rw [hzero, Py.trueDiv, if_pos rfl]
    exact Py.ends_raise _

/-- The timeout `benchmark` gives its command handle. -/
def benchmarkHandle (args : BenchmarkArgs) : CommandHandle :=
  ⟨if args.noTimeout then none else some (args.runtime * 2)⟩

/-- `benchmark`, apart from the satellites. -/
def benchmark (c : Controller) (args : BenchmarkArgs) (client : Command → ClientProcess) :
    Py Result := do
  let command ← c.benchmarkCommand args
  rawBenchmark (benchmarkHandle args) command client

/-! ## Waiting for the client -/

section Waiting

variable {handle : CommandHandle} {command : Command} {process : ClientProcess}

/-- Waiting ends when the process has exited. -/
theorem polling_ends (h : ∃ i, process.poll i ≠ none) :
    (Py.whileLoop (CommandHandle.polling process) 0).Ends (.ok ()) := by
  -- up to the first answer other than `None` each poll brings it nearer
  have hpass : ∀ k, k ≤ Nat.find h →
      (∃ k', CommandHandle.polling process k = some (.more k') ∧ k' ≤ Nat.find h ∧
        Nat.find h - k' < Nat.find h - k) ∨
      ∃ b, CommandHandle.polling process k = some (.done b) ∧ True := by
    intro k hk
    unfold CommandHandle.polling
    cases hp : process.poll k with
    | none =>
      have hne : k ≠ Nat.find h := fun heq => Nat.find_spec h (heq ▸ hp)
      exact Or.inl ⟨k + 1, rfl, by omega, by omega⟩
    | some code => exact Or.inr ⟨(), rfl, trivial⟩
  obtain ⟨b, hb, -⟩ := loop_of_measure (fun k => Nat.find h - k) hpass (Nat.zero_le _)
    (Nat.lt_succ_self _)
  exact ⟨_, fun fuel hle => by rw [Py.whileLoop, loop_mono hb hle, Option.map_some]⟩

/-- Waiting for a process that never exits does not end. -/
theorem runTest_eq_none (h : ∀ i, process.poll i = none) (fuel : ℕ) :
    handle.runTest command process fuel = none := by
  refine Py.bind_eq_none ?_
  rw [Py.whileLoop, loop_eq_none (I := fun _ => True) (fun k _ => Or.inr ⟨k + 1, ?_, trivial⟩)
    trivial, Option.map_none]
  rw [CommandHandle.polling, h k]

theorem getResults_ends (process : ClientProcess) : ∃ r, process.getResults.Ends r := by
  unfold ClientProcess.getResults
  split
  · exact ⟨_, Py.ends_pure _⟩
  · exact ⟨_, Py.ends_raise _⟩

/-- `run_test` ends if and only if the process exits, whatever the timeout. -/
theorem runTest_ends_iff :
    (∃ r, (handle.runTest command process).Ends r) ↔ ∃ i, process.poll i ≠ none := by
  constructor
  · rintro ⟨r, n, hn⟩
    by_contra hnone
    push Not at hnone
    have hr := hn n (Nat.le_refl n)
    rw [runTest_eq_none hnone] at hr
    simp at hr
  · intro h
    obtain ⟨r, hr⟩ := getResults_ends process
    exact ⟨r, (polling_ends h).bind hr⟩

/-- The result of a test whose client exits. -/
theorem rawBenchmark_ends {client : Command → ClientProcess} {programTime clockTime : ℚ}
    (hexit : ∃ i, (client command).poll i ≠ none)
    (htimes : (client command).times = some (programTime, clockTime)) :
    (rawBenchmark handle command client).Ends
      (.ok ⟨command.repeats, programTime, clockTime⟩) := by
  have hresults : (client command).getResults.Ends (.ok ⟨0, programTime, clockTime⟩) := by
    rw [ClientProcess.getResults, htimes]
    exact Py.ends_pure _
  exact ((polling_ends hexit).bind hresults).bind (Py.ends_pure _)

theorem rawBenchmark_ends_iff {client : Command → ClientProcess} :
    (∃ r, (rawBenchmark handle command client).Ends r) ↔
      ∃ i, (client command).poll i ≠ none := by
  constructor
  · rintro ⟨r, n, hn⟩
    by_contra hnone
    push Not at hnone
    have hr := hn n (Nat.le_refl n)
    rw [rawBenchmark, Py.bind_eq_none (runTest_eq_none hnone n)] at hr
    simp at hr
  · intro h
    obtain ⟨r, hr⟩ := (@runTest_ends_iff handle command _).2 h
    rcases r with e | result
    · exact ⟨_, hr.bind_error⟩
    · exact ⟨_, hr.bind (Py.ends_pure _)⟩

/-- What a handle's timeout promises : the wait ends, because the process exited or with
`ClientTimeout` once the time is up. `clock` is the time at each poll. -/
def FinishesWaiting (wait : Py Result) (handle : CommandHandle) (process : ClientProcess)
    (clock : ℕ → ℚ) : Prop :=
  ∃ r, wait.Ends r ∧ ((∃ i, process.poll i ≠ none) ∨
    ∃ timeout ∈ handle.timeout, r = .error CommandHandle.clientTimeout ∧
      ∃ i, clock 0 + timeout ≤ clock i)

theorem finishesWaiting_iff {wait : Py Result} {clock : ℕ → ℚ}
    (hwait : (∃ r, wait.Ends r) ↔ ∃ i, process.poll i ≠ none) :
    FinishesWaiting wait handle process clock ↔ ∃ i, process.poll i ≠ none := by
  constructor
  · rintro ⟨r, hr, -⟩
    exact hwait.1 ⟨r, hr⟩
  · intro h
    obtain ⟨r, hr⟩ := hwait.2 h
    exact ⟨r, hr, Or.inl h⟩

theorem benchmark_ends_iff {c : Controller} {args : BenchmarkArgs}
    {client : Command → ClientProcess} (hcommand : (c.benchmarkCommand args).Ends (.ok command)) :
    (∃ r, (c.benchmark args client).Ends r) ↔ ∃ i, (client command).poll i ≠ none := by
  rw [← @rawBenchmark_ends_iff (benchmarkHandle args) command client]
  constructor
  · rintro ⟨r, n, hn⟩
    obtain ⟨m, hm⟩ := hcommand
    refine ⟨r, max n m, fun fuel hle => ?_⟩
    rw [← hn fuel (Nat.le_trans (le_max_left n m) hle), benchmark, Py.bind_apply,
      hm fuel (Nat.le_trans (le_max_right n m) hle)]
  · rintro ⟨r, hr⟩
    exact ⟨r, hcommand.bind hr⟩

end Waiting

/-- A test that `benchmark` runs, and one that calibration runs, finishes waiting if and
only if its client exits by itself : the handle's timeout ends no wait. -/
theorem test_finishes_iff (c : Controller) (args : BenchmarkArgs)
    (client : Command → ClientProcess) (command : Command)
    (hcommand : (c.benchmarkCommand args).Ends (.ok command)) (clock : ℕ → ℚ) :
    (FinishesWaiting (c.benchmark args client) (benchmarkHandle args) (client command) clock ↔
      ∃ i, (client command).poll i ≠ none) ∧
    ∀ command : Command, FinishesWaiting
        (rawBenchmark ⟨some calibrationTimeout⟩ command client) ⟨some calibrationTimeout⟩
        (client command) clock ↔
      ∃ i, (client command).poll i ≠ none :=
  ⟨finishesWaiting_iff (benchmark_ends_iff hcommand),
    fun _ => finishesWaiting_iff rawBenchmark_ends_iff⟩

/-- A hundred units of work a second. -/
def sampleController : Controller := ⟨⟨some calibrationTimeout⟩, 3000000, 100⟩

/-- Ten spans a second for ten seconds, with the timeout on. -/
def sampleArgs : BenchmarkArgs := ⟨true, false, 10, 10, false⟩

/-- A process that has exited at the poll with the given number, if any. -/
def sampleClient (exitsAt : Option ℕ) : Command → ClientProcess := fun _ =>
  ⟨fun i => if exitsAt.any (· ≤ i) then some 0 else none, some (7, 10)⟩

theorem test_finishes_sample :
    ∃ command, (sampleController.benchmarkCommand sampleArgs).Ends (.ok command) ∧
      FinishesWaiting (sampleController.benchmark sampleArgs (sampleClient (some 3)))
        (benchmarkHandle sampleArgs) (sampleClient (some 3) command) fun i => i := by
  have hcommand := @benchmarkCommand_ends sampleController sampleArgs (by decide) (by decide)
  exact ⟨_, hcommand, (test_finishes_iff sampleController sampleArgs (sampleClient (some 3)) _
    hcommand fun i => i).1.2 ⟨3, by decide⟩⟩

/-- A client that hangs holds the benchmark up for good, though its twenty seconds are up. -/
theorem hung_client_never_finishes :
    (benchmarkHandle sampleArgs).timeout = some 20 ∧ (∀ t : ℚ, ∃ i : ℕ, t ≤ i) ∧
      ∃ command, (sampleController.benchmarkCommand sampleArgs).Ends (.ok command) ∧
        ¬FinishesWaiting (sampleController.benchmark sampleArgs (sampleClient none))
          (benchmarkHandle sampleArgs) (sampleClient none command) fun i => i := by
  have hcommand := @benchmarkCommand_ends sampleController sampleArgs (by decide) (by decide)
  refine ⟨rfl, fun t => ⟨⌈t⌉₊, Nat.le_ceil t⟩, _, hcommand, ?_⟩
  rw [finishesWaiting_iff (benchmark_ends_iff hcommand)]
  simp [sampleClient]

end Controller

end TracerBench
