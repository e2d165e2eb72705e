import Mathlib.Algebra.BigOperators.Group.List.Basic
import Mathlib.Tactic.FieldSimp
import Mathlib.Tactic.Linarith
import TracerBench.Controller

/-!
# Calibration trials

Each trial measures the client with the sleep estimated so far, and adds what it lacked to
be at the target (`nextSleep`). `Trials` are the trials of a run, each measured at a
program time and a clock time.

Where the sleep that was sent only adds to the clock (`ReportsAs`), a trial's estimate is
that of its own measurement, and nothing is left of the trials before it
(`estimate_forgets_trials`). In any case the estimate is the sum of all corrections, so it
is never negative exactly when the clock times so far never exceed what the program times
so far would be at the target (`sleep_nonneg_iff`).
-/

namespace TracerBench.Controller

variable {calibrationWork t x : ℚ} {handle : CommandHandle} {client : Command → ClientProcess}
  {clients : List (Command → ClientProcess)} {m : ℚ × ℚ} {ms : List (ℚ × ℚ)}

/-! ## Estimates -/

/-- The estimate after a trial that was measured at `m`, its program and clock times. -/
def nextSleep (calibrationWork t x : ℚ) (m : ℚ × ℚ) : ℚ :=
  x + (m.1 / t - m.2) / (calibrationWork * calibrationRepeat) * 10 ^ 9

/-- The estimate after the trials measured at `ms`. -/
def sleepAfter (calibrationWork t : ℚ) (ms : List (ℚ × ℚ)) : ℚ :=
  ms.foldl (nextSleep calibrationWork t) 0

/-- What a calibration test measured at `m` gives. -/
def measured (m : ℚ × ℚ) : Result :=
  ⟨calibrationRepeat, m.1, m.2⟩

/-- Trials from the estimate `x` on, each measured at a program and a clock time. -/
inductive Trials (calibrationWork t : ℚ) (handle : CommandHandle) :
    ℚ → List (Command → ClientProcess) → List (ℚ × ℚ) → Prop
  | nil {x : ℚ} : Trials calibrationWork t handle x [] []
  | cons {x : ℚ} {client : Command → ClientProcess}
    {clients : List (Command → ClientProcess)} {m : ℚ × ℚ} {ms : List (ℚ × ℚ)}
    (hrun : (rawBenchmark handle (calibrationCommand calibrationWork x) client).Ends
      (.ok (measured m)))
    (h : Trials calibrationWork t handle (nextSleep calibrationWork t x m) clients ms) :
    Trials calibrationWork t handle x (client :: clients) (m :: ms)

theorem trial_ends
    (hrun : (rawBenchmark handle (calibrationCommand calibrationWork x) client).Ends
      (.ok (measured m)))
    (ht : t ≠ 0) (hwork : calibrationWork ≠ 0) :
    (trial calibrationWork handle client t x).Ends
      (.ok (measured m, nextSleep calibrationWork t x m)) := by
  have htotal : calibrationWork * calibrationRepeat ≠ 0 :=
    mul_ne_zero hwork (Int.cast_ne_zero.2 (by decide))
  rw [trial]
  exact hrun.bind ((Py.ends_trueDiv ht).bind ((Py.ends_trueDiv htotal).bind (Py.ends_pure _)))

namespace Trials

theorem runTrials_ends (h : Trials calibrationWork t handle x clients ms) (ht : t ≠ 0)
    (hwork : calibrationWork ≠ 0) (result : Option Result) :
    (runTrials calibrationWork handle t clients result x).Ends
      (.ok ((ms.getLast?.map measured).or result, ms.foldl (nextSleep calibrationWork t) x)) := by
  induction h generalizing result with
  | nil => exact Py.ends_pure _
  | @cons x client clients m ms hrun _ ih =>
    have hlast : ((m :: ms).getLast?.map measured).or result =
        (ms.getLast?.map measured).or (some (measured m)) := by
      rw [List.getLast?_cons]
      cases ms.getLast? <;> rfl
    rw [hlast]
    exact (trial_ends hrun ht hwork).bind (ih _)

/-- The last line of `_estimate_sleep_per_work` divides by the clock time of the last trial. -/
theorem estimate_ends (h : Trials calibrationWork t handle 0 clients (ms ++ [m])) (ht : t ≠ 0)
    (hwork : calibrationWork ≠ 0) (hm : m.2 ≠ 0) :
    (estimateSleepPerWork calibrationWork handle t clients).Ends
      (.ok (sleepAfter calibrationWork t (ms ++ [m]))) := by
  have hrun := h.runTrials_ends ht hwork none
  rw [List.getLast?_append, List.getLast?_singleton] at hrun
  exact hrun.bind ((Py.ends_trueDiv hm).bind (Py.ends_pure _))

theorem estimate_error (h : Trials calibrationWork t handle 0 clients (ms ++ [m])) (ht : t ≠ 0)
    (hwork : calibrationWork ≠ 0) (hm : m.2 = 0) :
    (estimateSleepPerWork calibrationWork handle t clients).Ends
      (.error .zeroDivisionError) := by
  have hrun := h.runTrials_ends ht hwork none
  rw [List.getLast?_append, List.getLast?_singleton] at hrun
  have hcpu : (measured m).cpuUsage = Py.raise .zeroDivisionError := if_pos hm
  refine hrun.bind ?_
  change Py.Ends ((measured m).cpuUsage >>= _) _
  rw [hcpu]
  exact (Py.ends_raise _).bind_error

end Trials

/-! ## Clients that only add the sleep -/

/-- A client that a test measures at the program time `m.1` and at the clock time `m.2`, to
which the sleep it was sent is added. -/
def ReportsAs (calibrationWork : ℚ) (client : Command → ClientProcess) (m : ℚ × ℚ) : Prop :=
  ∀ handle x, (rawBenchmark handle (calibrationCommand calibrationWork x) client).Ends
    (.ok (measured (m.1, m.2 +
      calibrationRepeat * (calibrationCommand calibrationWork x).sleep / 10 ^ 9)))

/-- The sleep that brings a client that reports as `m` to the target. -/
def exactSleep (calibrationWork t : ℚ) (m : ℚ × ℚ) : ℚ :=
  (m.1 / t - m.2) * 10 ^ 9 / (calibrationWork * calibrationRepeat)

theorem nextSleep_reports (hwork : calibrationWork ≠ 0) (x : ℚ) (m : ℚ × ℚ) :
    nextSleep calibrationWork t x (m.1, m.2 +
      calibrationRepeat * (calibrationCommand calibrationWork x).sleep / 10 ^ 9) =
      exactSleep calibrationWork t m := by
  have hrep : (calibrationRepeat : ℚ) ≠ 0 := Int.cast_ne_zero.2 (by decide)
  simp only [nextSleep, calibrationCommand, exactSleep]
  field_simp
  ring

/-- The estimate that trials leave whose clients report as `ms`. -/
def sleepLeft (calibrationWork t x : ℚ) (ms : List (ℚ × ℚ)) : ℚ :=
  (ms.getLast?.map (exactSleep calibrationWork t)).getD x

/-- What trials of such clients are measured at. -/
def measurements (calibrationWork t : ℚ) : ℚ → List (ℚ × ℚ) → List (ℚ × ℚ)
  | _, [] => []
  | x, m :: ms =>
    (m.1, m.2 + calibrationRepeat * (calibrationCommand calibrationWork x).sleep / 10 ^ 9) ::
      measurements calibrationWork t (exactSleep calibrationWork t m) ms

theorem trials_of_reports (hwork : calibrationWork ≠ 0) :
    ∀ {clients : List (Command → ClientProcess)} {ms : List (ℚ × ℚ)} {x : ℚ},
      List.Forall₂ (ReportsAs calibrationWork) clients ms →
      Trials calibrationWork t handle x clients (measurements calibrationWork t x ms)
  | [], [], _, .nil => .nil
  | client :: clients, m :: ms, x, .cons hclient hclients => by
    refine .cons (hclient handle x) ?_
    rw [nextSleep_reports hwork]
    exact trials_of_reports hwork hclients

theorem foldl_measurements (hwork : calibrationWork ≠ 0) :
    ∀ (ms : List (ℚ × ℚ)) (x : ℚ),
      (measurements calibrationWork t x ms).foldl (nextSleep calibrationWork t) x =
        sleepLeft calibrationWork t x ms
  | [], _ => rfl
  | m :: ms, x => by
    rw [measurements, List.foldl_cons, nextSleep_reports hwork, foldl_measurements hwork ms,
      sleepLeft, sleepLeft, List.getLast?_cons]
    cases ms.getLast? <;> rfl

theorem measurements_append : ∀ (ms : List (ℚ × ℚ)) (m : ℚ × ℚ) (x : ℚ),
    measurements calibrationWork t x (ms ++ [m]) = measurements calibrationWork t x ms ++
      [(m.1, m.2 + calibrationRepeat *
        (calibrationCommand calibrationWork (sleepLeft calibrationWork t x ms)).sleep / 10 ^ 9)]
  | [], _, _ => rfl
  | m :: ms, m', x => by
    have hleft : sleepLeft calibrationWork t (exactSleep calibrationWork t m) ms =
        sleepLeft calibrationWork t x (m :: ms) := by
      rw [sleepLeft, sleepLeft, List.getLast?_cons]
      cases ms.getLast? <;> rfl
    rw [List.cons_append, measurements, measurements_append ms, hleft]
    rfl

/-- Whatever the trials before the last one measured, the estimate is that of the last one,
if its clock time is not 0. A further trial that measures the same is at the target, and
leaves the estimate as it is. -/
theorem estimate_forgets_trials (ht : 0 < t) (hwork : 0 < calibrationWork)
    (hclients : List.Forall₂ (ReportsAs calibrationWork) clients ms)
    (hclient : ReportsAs calibrationWork client m) (hm : 0 < m.1)
    (hclock : m.2 + calibrationRepeat *
      (calibrationCommand calibrationWork (sleepLeft calibrationWork t 0 ms)).sleep / 10 ^ 9 ≠ 0) :
    (estimateSleepPerWork calibrationWork handle t (clients ++ [client])).Ends
        (.ok ((m.1 / t - m.2) * 10 ^ 9 / (calibrationWork * calibrationRepeat))) ∧
      ∀ again, ReportsAs calibrationWork again m →
        ∃ r, (rawBenchmark handle
            (calibrationCommand calibrationWork (exactSleep calibrationWork t m)) again).Ends
            (.ok r) ∧
          r.programTime = m.1 ∧ r.cpuUsage.Ends (.ok t) ∧
          (trial calibrationWork handle again t (exactSleep calibrationWork t m)).Ends
            (.ok (r, exactSleep calibrationWork t m)) := by
  constructor
  · have htrials : Trials calibrationWork t handle 0 (clients ++ [client])
        (measurements calibrationWork t 0 (ms ++ [m])) :=
      trials_of_reports hwork.ne' (List.rel_append hclients (.cons hclient .nil))
    rw [measurements_append] at htrials
    have hends := htrials.estimate_ends ht.ne' hwork.ne' hclock
    rw [sleepAfter, ← measurements_append, foldl_measurements hwork.ne', sleepLeft,
      List.getLast?_append, List.getLast?_singleton] at hends
    exact hends
  · intro again hagain
    have hrun := hagain handle (exactSleep calibrationWork t m)
    have hat : m.2 + calibrationRepeat *
        (calibrationCommand calibrationWork (exactSleep calibrationWork t m)).sleep / 10 ^ 9 =
          m.1 / t := by
      have hrep : (calibrationRepeat : ℚ) ≠ 0 := Int.cast_ne_zero.2 (by decide)
      simp only [calibrationCommand, exactSleep]
      field_simp
      ring
    have htrial := trial_ends hrun ht.ne' hwork.ne'
    rw [nextSleep_reports hwork.ne'] at htrial
    refine ⟨_, hrun, rfl, ?_, htrial⟩
    have hcpu := Py.ends_trueDiv (a := m.1) (div_pos hm ht).ne'
    rw [div_div_cancel₀ hm.ne'] at hcpu
    rw [hat]
    exact hcpu

/-- A client that takes `p` seconds of the processor, and `b` seconds of the clock beside
its sleep. -/
def sampleReporter (p b : ℚ) : Command → ClientProcess := fun command =>
  ⟨fun _ => some 0, some (p, b + command.repeats * command.sleep / 10 ^ 9)⟩

theorem sampleReporter_reports (calibrationWork p b : ℚ) :
    ReportsAs calibrationWork (sampleReporter p b) (p, b) :=
  fun _ _ => rawBenchmark_ends ⟨0, by simp [sampleReporter]⟩ rfl

theorem estimate_forgets_trials_sample :
    (estimateSleepPerWork 200000 ⟨some 60⟩ (7 / 10)
      ([sampleReporter 5 6] ++ [sampleReporter 7 8])).Ends
        (.ok ((7 / (7 / 10) - 8) * 10 ^ 9 / (200000 * calibrationRepeat))) :=
  (estimate_forgets_trials (m := (7, 8)) (by norm_num) (by norm_num)
    (.cons (sampleReporter_reports 200000 5 6) .nil) (sampleReporter_reports 200000 7 8)
    (by norm_num) (by norm_num [sleepLeft, exactSleep, calibrationCommand, calibrationRepeat])).1

/-- Two clients at 50% and at 100%, and a target of 100% : the estimate of the first takes a
second off the clock of the second, which leaves none, and the last line divides by it. -/
theorem zero_clock_raises :
    ReportsAs 200000 (sampleReporter 1 2) (1, 2) ∧ ReportsAs 200000 (sampleReporter 1 1) (1, 1) ∧
      ¬(estimateSleepPerWork 200000 ⟨some 60⟩ 1 [sampleReporter 1 2, sampleReporter 1 1]).Ends
        (.ok (exactSleep 200000 1 (1, 1))) := by
  refine ⟨sampleReporter_reports _ _ _, sampleReporter_reports _ _ _, fun h => ?_⟩
  have htrials : Trials 200000 1 ⟨some 60⟩ 0 [sampleReporter 1 2, sampleReporter 1 1]
      (measurements 200000 1 0 ([(1, 2)] ++ [(1, 1)])) :=
    trials_of_reports (by norm_num)
      (.cons (sampleReporter_reports _ _ _) (.cons (sampleReporter_reports _ _ _) .nil))
  rw [measurements_append] at htrials
  have herror := htrials.estimate_error (by norm_num) (by norm_num)
    (by norm_num [sleepLeft, exactSleep, calibrationCommand, calibrationRepeat])
  have heq := h.unique herror
  simp at heq

/-! ## The sign of the estimate -/

/-- The clock times do not exceed what the program times would be at the target. -/
def WithinTarget (t : ℚ) (ms : List (ℚ × ℚ)) : Prop :=
  (ms.map Prod.snd).sum ≤ (ms.map Prod.fst).sum / t

theorem foldl_nextSleep : ∀ (ms : List (ℚ × ℚ)) (x : ℚ),
    ms.foldl (nextSleep calibrationWork t) x =
      x + ((ms.map Prod.fst).sum / t - (ms.map Prod.snd).sum) /
        (calibrationWork * calibrationRepeat) * 10 ^ 9
  | [], x => by simp
  | m :: ms, x => by
    rw [List.foldl_cons, foldl_nextSleep ms, nextSleep]
    simp only [List.map_cons, List.sum_cons]
    ring

theorem sleepAfter_nonneg_iff (hwork : 0 < calibrationWork) :
    0 ≤ sleepAfter calibrationWork t ms ↔ WithinTarget t ms := by
  have hrep : (0 : ℚ) < calibrationRepeat := Int.cast_pos.2 (by decide)
  have hscale : (0 : ℚ) < (calibrationWork * calibrationRepeat)⁻¹ * 10 ^ 9 := by positivity
  rw [sleepAfter, foldl_nextSleep, zero_add, WithinTarget, ← sub_nonneg (a := _ / t),
    div_eq_mul_inv _ (calibrationWork * calibrationRepeat), mul_assoc,
    mul_nonneg_iff_of_pos_right hscale]

theorem Trials.take (h : Trials calibrationWork t handle x clients ms) :
    ∀ k, Trials calibrationWork t handle x (clients.take k) (ms.take k) := by
  induction h with
  | nil => intro k; simpa using .nil
  | cons hrun _ ih =>
    intro k
    cases k with
    | zero => exact .nil
    | succ k => exact .cons hrun (ih k)

theorem estimateWorkPerSecond_ends
    (hrun : (rawBenchmark handle (calibrationCommand calibrationWork x) client).Ends
      (.ok (measured m))) (hm : m.2 ≠ 0) :
    (estimateWorkPerSecond calibrationWork handle x client).Ends
      (.ok (calibrationWork * (calibrationRepeat / m.2))) := by
  have hspans : (measured m).spansPerSecond.Ends (.ok (calibrationRepeat / m.2)) := by
    have hne : (measured m).spansSent ≠ 0 := (by decide : calibrationRepeat ≠ 0)
    rw [Result.spansPerSecond, if_neg hne]
    exact Py.ends_trueDiv hm
  exact hrun.bind (hspans.bind (Py.ends_pure _))

/-- The controller that the trials and the last test give. -/
theorem calibrate_trials (ht : t ≠ 0) (hwork : calibrationWork ≠ 0)
    (h : Trials calibrationWork t ⟨some calibrationTimeout⟩ 0 clients (ms ++ [m]))
    (hm : m.2 ≠ 0) {last : ℚ × ℚ}
    (hlast : (rawBenchmark ⟨some calibrationTimeout⟩
      (calibrationCommand calibrationWork (sleepAfter calibrationWork t (ms ++ [m])))
      client).Ends (.ok (measured last))) (hlast' : last.2 ≠ 0) :
    (calibrate calibrationWork t clients client).Ends
      (.ok ⟨⟨some calibrationTimeout⟩, sleepAfter calibrationWork t (ms ++ [m]),
        calibrationWork * (calibrationRepeat / last.2)⟩) :=
  (h.estimate_ends ht hwork hm).bind
    ((estimateWorkPerSecond_ends hlast hlast').bind (Py.ends_pure _))

/-- After each trial the estimate is at least 0 if and only if after each trial the clock
times so far are within what the program times make at the target. Then no command that
calibration or a benchmark sends has a negative sleep. -/
theorem sleep_nonneg_iff (ht : 0 < t) (hwork : 0 < calibrationWork)
    (h : Trials calibrationWork t ⟨some calibrationTimeout⟩ 0 clients ms)
    (hpos : ∀ m ∈ ms, 0 < m.2) {last : ℚ × ℚ}
    (hlast : (rawBenchmark ⟨some calibrationTimeout⟩
      (calibrationCommand calibrationWork (sleepAfter calibrationWork t ms))
      client).Ends (.ok (measured last))) (hlast' : 0 < last.2) :
    ((∀ k r y, (runTrials calibrationWork ⟨some calibrationTimeout⟩ t (clients.take k) none 0).Ends
        (.ok (r, y)) → 0 ≤ y) ↔ ∀ k, WithinTarget t (ms.take k)) ∧
      ((∀ k, WithinTarget t (ms.take k)) →
        (∀ k, 0 ≤ (calibrationCommand calibrationWork
          (sleepAfter calibrationWork t (ms.take k))).sleep) ∧
        (clients ≠ [] → ∃ controller, (calibrate calibrationWork t clients client).Ends
            (.ok controller) ∧
          ∀ args : BenchmarkArgs, 1 ≤ args.spansPerSecond → ∃ command,
            (controller.benchmarkCommand args).Ends (.ok command) ∧ 0 ≤ command.sleep)) := by
  have hends : ∀ k, (runTrials calibrationWork ⟨some calibrationTimeout⟩ t (clients.take k) none
      0).Ends (.ok (((ms.take k).getLast?.map measured).or none,
        sleepAfter calibrationWork t (ms.take k))) := fun k =>
    (h.take k).runTrials_ends ht.ne' hwork.ne' none
  refine ⟨⟨fun hall k => ?_, fun hall k r y hy => ?_⟩, fun hall => ⟨fun k => ?_, fun hne => ?_⟩⟩
  · exact (sleepAfter_nonneg_iff hwork).1 (hall k _ _ (hends k))
  · obtain ⟨-, rfl⟩ := Prod.mk.inj (Except.ok.inj (hy.unique (hends k)))
    exact (sleepAfter_nonneg_iff hwork).2 (hall k)
  · exact mul_nonneg ((sleepAfter_nonneg_iff hwork).2 (hall k)) hwork.le
  · have hsleep : 0 ≤ sleepAfter calibrationWork t ms := by
      rw [sleepAfter_nonneg_iff hwork, ← List.take_length (l := ms)]
      exact hall _
    have hrep : (0 : ℚ) < calibrationRepeat := Int.cast_pos.2 (by decide)
    have hrate : 0 < calibrationWork * (calibrationRepeat / last.2) := by positivity
    rcases List.eq_nil_or_concat' ms with rfl | ⟨ms, m, rfl⟩
    · cases h
      exact absurd rfl hne
    · have hcalibrate := calibrate_trials ht.ne' hwork.ne' h (hpos m (by simp)).ne' hlast
        hlast'.ne'
      refine ⟨_, hcalibrate, fun args hs => ?_⟩
      have hs' : (0 : ℚ) < args.spansPerSecond := Int.cast_pos.2 (by omega)
      have hcommand := @benchmarkCommand_ends ⟨⟨some calibrationTimeout⟩,
        sleepAfter calibrationWork t (ms ++ [m]), calibrationWork * (calibrationRepeat / last.2)⟩
        args (by omega) hrate.ne'
      exact ⟨_, hcommand, Int.cast_nonneg (trunc_nonneg (mul_nonneg (div_pos hrate hs').le hsleep))⟩

/-- Two trials of a client that takes all of the processor, at a target of 70%. -/
theorem sleep_nonneg_iff_sample :
    ∃ controller, (calibrate 200000 (7 / 10) [sampleReporter 7 7, sampleReporter 7 7]
        (sampleReporter 7 7)).Ends (.ok controller) ∧
      ∀ args : BenchmarkArgs, 1 ≤ args.spansPerSecond → ∃ command,
        (controller.benchmarkCommand args).Ends (.ok command) ∧ 0 ≤ command.sleep := by
  have hreports := sampleReporter_reports 200000 7 7
  have htrials : Trials 200000 (7 / 10) ⟨some calibrationTimeout⟩ 0
      [sampleReporter 7 7, sampleReporter 7 7]
      (measurements 200000 (7 / 10) 0 [(7, 7), (7, 7)]) :=
    trials_of_reports (by norm_num) (.cons hreports (.cons hreports .nil))
  have hms : measurements 200000 (7 / 10) 0 [(7, 7), (7, 7)] = [(7, 7), (7, 10)] := by
    norm_num [measurements, exactSleep, calibrationCommand, calibrationRepeat]
  rw [hms] at htrials
  have hwithin : ∀ k, WithinTarget (7 / 10) (([(7, 7), (7, 10)] : List (ℚ × ℚ)).take k) := by
    intro k
    rcases k with _ | _ | k <;> norm_num [WithinTarget]
  exact ((sleep_nonneg_iff (by norm_num) (by norm_num) htrials (by norm_num)
    (hreports _ _) (by norm_num [sleepAfter, nextSleep, calibrationCommand, calibrationRepeat])).2
      hwithin).2 (by simp)

/-- A client at 50% and a target of 70% : a benchmark asks it for negative sleep. -/
theorem negative_sleep_sent :
    ∃ controller command, (calibrate 200000 (7 / 10) (List.replicate 3 (sampleReporter 1 2))
        (sampleReporter 1 2)).Ends (.ok controller) ∧
      (controller.benchmarkCommand sampleArgs).Ends (.ok command) ∧ command.sleep < 0 := by
  have hreports := sampleReporter_reports 200000 1 2
  have htrials : Trials 200000 (7 / 10) ⟨some calibrationTimeout⟩ 0
      (List.replicate 3 (sampleReporter 1 2))
      (measurements 200000 (7 / 10) 0 [(1, 2), (1, 2), (1, 2)]) :=
    trials_of_reports (by norm_num) (.cons hreports (.cons hreports (.cons hreports .nil)))
  have hms : measurements 200000 (7 / 10) 0 [(1, 2), (1, 2), (1, 2)] =
      [(1, 2), (1, 10 / 7)] ++ [(1, 10 / 7)] := by
    norm_num [measurements, exactSleep, calibrationCommand, calibrationRepeat]
  have hsleep : sleepAfter 200000 (7 / 10) ([(1, 2), (1, 10 / 7)] ++ [(1, 10 / 7)]) = -40 / 7 := by
    norm_num [sleepAfter, nextSleep, calibrationRepeat]
  have hclock : ((2 : ℚ) + calibrationRepeat *
      (calibrationCommand 200000 (-40 / 7)).sleep / 10 ^ 9) = 10 / 7 := by
    norm_num [calibrationCommand, calibrationRepeat]
  rw [hms] at htrials
  have hends := calibrate_trials (by norm_num) (by norm_num) htrials (by norm_num)
    (hreports _ _) (by rw [hsleep, hclock]; norm_num)
  rw [hsleep, hclock] at hends
  refine ⟨_, _, hends, benchmarkCommand_ends (by decide) (by norm_num [calibrationRepeat]), ?_⟩
  norm_num [sampleArgs, calibrationRepeat, trunc]

end TracerBench.Controller
