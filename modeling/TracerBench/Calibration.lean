import TracerBench.Trials

/-!
# Calibration

An ideal client takes a fixed time for each unit of work and sleeps just as long as it
is told (`IdealClient`). All trials measure the same of it beside its sleep, so they find
the sleep for each unit of work that brings it to the target CPU usage. From it the
controller learns `t / c` units of work a second, for a cost of `c` seconds a unit and a
target of `t`, so the work and the sleep it sends for a span are those of
`t / spans_per_second` and `(1 - t) / spans_per_second` seconds. Each is cut to a whole
number, by less than one unit of work and one nanosecond a span.
-/

namespace TracerBench.Controller

/-! ## Ideal clients -/

/-- A client that exits, and whose run takes `c` seconds of the processor for each unit
of work and sleeps as long as it is told. -/
def IdealClient (c : ℚ) (client : Command → ClientProcess) : Prop :=
  ∀ command, (∃ i, (client command).poll i ≠ none) ∧
    (client command).times = some (command.repeats * command.work * c,
      command.repeats * (command.work * c + command.sleep / 10 ^ 9))

variable {c t x calibrationWork : ℚ} {handle : CommandHandle} {command : Command}
  {client : Command → ClientProcess} {r : Result}

/-- What an ideal client is measured at. -/
def idealResult (c : ℚ) (command : Command) : Result where
  spansSent := command.repeats
  programTime := command.repeats * command.work * c
  clockTime := command.repeats * (command.work * c + command.sleep / 10 ^ 9)

theorem IdealClient.rawBenchmark_ends (h : IdealClient c client) (handle : CommandHandle)
    (command : Command) :
    (rawBenchmark handle command client).Ends (.ok (idealResult c command)) :=
  Controller.rawBenchmark_ends (h command).1 (h command).2

/-! ## Trials -/

/-- The seconds of work in a calibration test. -/
def idealWork (c calibrationWork : ℚ) : ℚ := calibrationRepeat * (calibrationWork * c)

theorem IdealClient.reports (h : IdealClient c client) (calibrationWork : ℚ) :
    ReportsAs calibrationWork client
      (idealWork c calibrationWork, idealWork c calibrationWork) := by
  intro handle x
  have hresult : idealResult c (calibrationCommand calibrationWork x) =
      measured (idealWork c calibrationWork, idealWork c calibrationWork +
        calibrationRepeat * (calibrationCommand calibrationWork x).sleep / 10 ^ 9) := by
    simp only [idealResult, measured, idealWork, calibrationCommand, Result.mk.injEq, true_and]
    constructor <;> ring
  rw [← hresult]
  exact h.rawBenchmark_ends handle _

theorem reports_replicate : ∀ {clients : List (Command → ClientProcess)},
    (∀ client ∈ clients, IdealClient c client) →
    List.Forall₂ (ReportsAs calibrationWork) clients
      (List.replicate clients.length (idealWork c calibrationWork, idealWork c calibrationWork))
  | [], _ => .nil
  | client :: clients, h => .cons ((h client (by simp)).reports calibrationWork)
      (reports_replicate fun k hk => h k (List.mem_cons_of_mem _ hk))

/-- The nanoseconds of sleep for each unit of work at which an ideal client meets the
target. -/
def idealSleep (c t : ℚ) : ℚ := (c / t - c) * 10 ^ 9

theorem idealSleep_nonneg (hc : 0 < c) (ht : 0 < t) (ht1 : t ≤ 1) : 0 ≤ idealSleep c t :=
  mul_nonneg (sub_nonneg.2 ((le_div_iff₀ ht).2 (mul_le_of_le_one_right hc.le ht1))) (by norm_num)

theorem exactSleep_ideal (ht : t ≠ 0) (hwork : calibrationWork ≠ 0) :
    exactSleep calibrationWork t (idealWork c calibrationWork, idealWork c calibrationWork) =
      idealSleep c t := by
  have hrep : (calibrationRepeat : ℚ) ≠ 0 := Int.cast_ne_zero.2 (by decide)
  simp only [exactSleep, idealWork, idealSleep]
  field_simp

theorem sleepLeft_nonneg (hc : 0 < c) (ht : 0 < t) (ht1 : t ≤ 1) (hwork : 0 < calibrationWork)
    (hx : 0 ≤ x) {ms : List (ℚ × ℚ)}
    (hms : ∀ m ∈ ms, m = (idealWork c calibrationWork, idealWork c calibrationWork)) :
    0 ≤ sleepLeft calibrationWork t x ms := by
  rw [sleepLeft]
  cases hlast : ms.getLast? with
  | none => exact hx
  | some m =>
    rw [hms m (List.mem_of_getLast? hlast), Option.map_some, Option.getD_some,
      exactSleep_ideal ht.ne' hwork.ne']
    exact idealSleep_nonneg hc ht ht1

theorem clockTime_pos (hc : 0 < c) (hwork : 0 < calibrationWork) (hx : 0 ≤ x) :
    0 < idealWork c calibrationWork +
      calibrationRepeat * (calibrationCommand calibrationWork x).sleep / 10 ^ 9 := by
  have hrep : (0 : ℚ) < calibrationRepeat := Int.cast_pos.2 (by decide)
  simp only [idealWork, calibrationCommand]
  positivity

/-! ## The calibrated controller -/

/-- The controller that calibration with ideal clients gives. -/
def calibrated (c t : ℚ) : Controller := ⟨⟨some calibrationTimeout⟩, idealSleep c t, t / c⟩

theorem calibrate_ends (hc : 0 < c) (ht : 0 < t) (ht1 : t ≤ 1) (hwork : 0 < calibrationWork)
    {trials : List (Command → ClientProcess)} (hne : trials ≠ [])
    (htrials : ∀ client ∈ trials, IdealClient c client) (h : IdealClient c client) :
    (calibrate calibrationWork t trials client).Ends (.ok (calibrated c t)) := by
  obtain ⟨m, hm⟩ : ∃ m, m = (idealWork c calibrationWork, idealWork c calibrationWork) := ⟨_, rfl⟩
  obtain ⟨init, last, rfl⟩ := (List.eq_nil_or_concat' trials).resolve_left hne
  have hm2 : m.2 = idealWork c calibrationWork := by rw [hm]
  have hruns : Trials calibrationWork t ⟨some calibrationTimeout⟩ 0 (init ++ [last])
      (measurements calibrationWork t 0 (List.replicate init.length m ++ [m])) :=
    trials_of_reports hwork.ne' (List.rel_append
      (hm ▸ reports_replicate fun k hk => htrials k (by simp [hk]))
      (.cons (hm ▸ (htrials last (by simp)).reports calibrationWork) .nil))
  have hsleep : sleepAfter calibrationWork t
      (measurements calibrationWork t 0 (List.replicate init.length m ++ [m])) =
        idealSleep c t := by
    rw [sleepAfter, foldl_measurements hwork.ne', sleepLeft, List.getLast?_append,
      List.getLast?_singleton, hm]
    exact exactSleep_ideal ht.ne' hwork.ne'
  have hbefore : 0 ≤ sleepLeft calibrationWork t 0 (List.replicate init.length m) :=
    sleepLeft_nonneg hc ht ht1 hwork le_rfl fun k hk => (List.eq_of_mem_replicate hk).trans hm
  have hlast := hm ▸ h.reports calibrationWork
  have hrate : calibrationWork * (calibrationRepeat / (idealWork c calibrationWork +
      calibrationRepeat * (calibrationCommand calibrationWork (idealSleep c t)).sleep / 10 ^ 9)) =
        t / c := by
    have hrep : (calibrationRepeat : ℚ) ≠ 0 := Int.cast_ne_zero.2 (by decide)
    simp only [idealWork, calibrationCommand, idealSleep]
    field_simp
    ring
  rw [measurements_append] at hruns hsleep
  have hends := calibrate_trials ht.ne' hwork.ne' hruns
    (by rw [hm2]; exact (clockTime_pos hc hwork hbefore).ne') (hlast _ _)
    (by rw [hsleep, hm2]; exact (clockTime_pos hc hwork (idealSleep_nonneg hc ht ht1)).ne')
  rw [hsleep, hm2, hrate] at hends
  exact hends

/-! ## The benchmark after it -/

/-- A number of units of size `u`, cut to a whole number, is short by less than a unit. -/
theorem floor_units {q u : ℚ} (hu : 0 < u) : q * u - u < ⌊q⌋ * u ∧ ⌊q⌋ * u ≤ q * u := by
  constructor
  · have hlt := mul_lt_mul_of_pos_right (Int.lt_floor_add_one q) hu
    linarith
  · exact mul_le_mul_of_nonneg_right (Int.floor_le q) hu.le

/-- What a calibrated controller sends. -/
def sentCommand (c t : ℚ) (args : BenchmarkArgs) : Command where
  trace := args.trace
  sleep := ⌊t / c / args.spansPerSecond * idealSleep c t⌋
  sleepInterval := defaultSleepInterval
  work := ⌊t / c / args.spansPerSecond⌋
  repeats := args.spansPerSecond * args.runtime
  noFlush := args.noFlush

section Sent

variable {args : BenchmarkArgs}

theorem work_nonneg (hc : 0 < c) (ht : 0 < t) (hs : 1 ≤ args.spansPerSecond) :
    0 ≤ t / c / args.spansPerSecond :=
  (div_pos (div_pos ht hc) (Int.cast_pos.2 (by omega))).le

theorem sleep_nonneg (hc : 0 < c) (ht : 0 < t) (ht1 : t ≤ 1) (hs : 1 ≤ args.spansPerSecond) :
    0 ≤ t / c / args.spansPerSecond * idealSleep c t :=
  mul_nonneg (work_nonneg hc ht hs) (idealSleep_nonneg hc ht ht1)

theorem benchmarkCommand_calibrated (hc : 0 < c) (ht : 0 < t) (ht1 : t ≤ 1)
    (hs : 1 ≤ args.spansPerSecond) :
    ((calibrated c t).benchmarkCommand args).Ends (.ok (sentCommand c t args)) := by
  have hcommand := @benchmarkCommand_ends (calibrated c t) args (by omega) (div_pos ht hc).ne'
  rwa [calibrated, trunc_of_nonneg (work_nonneg hc ht hs),
    trunc_of_nonneg (sleep_nonneg hc ht ht1 hs)] at hcommand

theorem programTime_bounds (hc : 0 < c) (hs : 1 ≤ args.spansPerSecond)
    (hr : 1 ≤ args.runtime) :
    t * args.runtime - (sentCommand c t args).repeats * c <
        (idealResult c (sentCommand c t args)).programTime ∧
      (idealResult c (sentCommand c t args)).programTime ≤ t * args.runtime := by
  have hs' : (0 : ℚ) < args.spansPerSecond := Int.cast_pos.2 (by omega)
  have hr' : (0 : ℚ) < args.runtime := Int.cast_pos.2 (by omega)
  obtain ⟨hlt, hle⟩ := @floor_units (t / c / args.spansPerSecond) c hc
  have hspan : t / c / args.spansPerSecond * c = t / args.spansPerSecond := by
    field_simp
  have hall : (args.spansPerSecond * args.runtime : ℚ) * (t / args.spansPerSecond) =
      t * args.runtime := by
    field_simp
  rw [hspan] at hlt hle
  have hn : (0 : ℚ) < args.spansPerSecond * args.runtime := mul_pos hs' hr'
  have hlt' := mul_lt_mul_of_pos_left hlt hn
  have hle' := mul_le_mul_of_nonneg_left hle hn.le
  simp only [idealResult, sentCommand]
  push_cast
  constructor
  · linarith
  · linarith

theorem clockTime_bounds (hc : 0 < c) (ht : 0 < t) (hs : 1 ≤ args.spansPerSecond)
    (hr : 1 ≤ args.runtime) :
    args.runtime - (sentCommand c t args).repeats * (c + 1 / 10 ^ 9) <
        (idealResult c (sentCommand c t args)).clockTime ∧
      (idealResult c (sentCommand c t args)).clockTime ≤ args.runtime := by
  have hs' : (0 : ℚ) < args.spansPerSecond := Int.cast_pos.2 (by omega)
  have hr' : (0 : ℚ) < args.runtime := Int.cast_pos.2 (by omega)
  obtain ⟨hlt, hle⟩ := @programTime_bounds c t args hc hs hr
  obtain ⟨hslt, hsle⟩ := @floor_units (t / c / args.spansPerSecond * idealSleep c t)
    (1 / 10 ^ 9) (by norm_num)
  have hspan : t / c / args.spansPerSecond * idealSleep c t * (1 / 10 ^ 9) =
      (1 - t) / args.spansPerSecond := by
    unfold idealSleep
    field_simp
  have hall : (args.spansPerSecond * args.runtime : ℚ) * ((1 - t) / args.spansPerSecond) =
      (1 - t) * args.runtime := by
    field_simp
  rw [hspan] at hslt hsle
  have hn : (0 : ℚ) < args.spansPerSecond * args.runtime := mul_pos hs' hr'
  have hslt' := mul_lt_mul_of_pos_left hslt hn
  have hsle' := mul_le_mul_of_nonneg_left hsle hn.le
  simp only [idealResult, sentCommand] at hlt hle ⊢
  push_cast at hlt hle ⊢
  constructor
  · linarith
  · linarith

end Sent

/-- After calibration with ideal clients a benchmark asks for exactly the spans of its rate
and runtime, and takes its runtime and the target's part of it on the processor, each up to
what cutting the work and the sleep of a span to whole numbers loses. -/
theorem calibrated_benchmark (hc : 0 < c) (ht : 0 < t) (ht1 : t ≤ 1)
    (hwork : 0 < calibrationWork) {trials : List (Command → ClientProcess)} (hne : trials ≠ [])
    (htrials : ∀ client ∈ trials, IdealClient c client) (h : IdealClient c client)
    {args : BenchmarkArgs} (hs : 1 ≤ args.spansPerSecond) (hr : 1 ≤ args.runtime) :
    ∃ controller command result,
      (calibrate calibrationWork t trials client).Ends (.ok controller) ∧
      (controller.benchmarkCommand args).Ends (.ok command) ∧
      (controller.benchmark args client).Ends (.ok result) ∧
      command.repeats = args.spansPerSecond * args.runtime ∧ 0 ≤ command.work ∧
      0 ≤ command.sleep ∧
      (args.runtime - command.repeats * (c + 1 / 10 ^ 9) < result.clockTime ∧
        result.clockTime ≤ args.runtime) ∧
      t * args.runtime - command.repeats * c < result.programTime ∧
        result.programTime ≤ t * args.runtime := by
  have hcommand := benchmarkCommand_calibrated hc ht ht1 hs
  have hresult : ((calibrated c t).benchmark args client).Ends
      (.ok (idealResult c (sentCommand c t args))) :=
    hcommand.bind (h.rawBenchmark_ends (benchmarkHandle args) _)
  refine ⟨_, _, _, calibrate_ends hc ht ht1 hwork hne htrials h, hcommand, hresult, rfl, ?_, ?_,
    clockTime_bounds hc ht hs hr, programTime_bounds hc hs hr⟩
  · exact Int.cast_nonneg (Int.floor_nonneg.2 (work_nonneg hc ht hs))
  · exact Int.cast_nonneg (Int.floor_nonneg.2 (sleep_nonneg hc ht ht1 hs))

/-- An ideal client of 20 microseconds a unit of work. -/
def sampleIdealClient : Command → ClientProcess := fun command =>
  ⟨fun i => if 2 ≤ i then some 0 else none, some (command.repeats * command.work * (1 / 50000),
    command.repeats * (command.work * (1 / 50000) + command.sleep / 10 ^ 9))⟩

theorem calibrated_benchmark_sample :
    ∃ controller command result,
      (calibrate 200000 (7 / 10) (List.replicate 3 sampleIdealClient) sampleIdealClient).Ends
        (.ok controller) ∧
      (controller.benchmarkCommand sampleArgs).Ends (.ok command) ∧
      (controller.benchmark sampleArgs sampleIdealClient).Ends (.ok result) ∧
      command.repeats = 10 * 10 ∧ 0 ≤ command.work ∧ 0 ≤ command.sleep ∧
      ((10 : ℤ) - command.repeats * (1 / 50000 + 1 / 10 ^ 9) < result.clockTime ∧
        result.clockTime ≤ (10 : ℤ)) ∧
      7 / 10 * (10 : ℤ) - command.repeats * (1 / 50000) < result.programTime ∧
        result.programTime ≤ 7 / 10 * (10 : ℤ) := by
  have hideal : IdealClient (1 / 50000) sampleIdealClient := fun command =>
    ⟨⟨2, by simp [sampleIdealClient]⟩, rfl⟩
  exact @calibrated_benchmark (1 / 50000) (7 / 10) 200000 sampleIdealClient (by norm_num)
    (by norm_num) (by norm_num) (by norm_num) (List.replicate 3 sampleIdealClient) (by simp)
    (fun client hmem => by rw [List.eq_of_mem_replicate hmem]; exact hideal) hideal sampleArgs
    (by decide) (by decide)

end TracerBench.Controller
