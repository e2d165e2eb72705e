import Mathlib.Tactic.Linarith
import Mathlib.Data.Rat.Defs
import TracerBench.Run

/-!
# The trials of `disconnect_graphs.py`

Each iteration of the loop assigns `action`, creates a satellite group as `satellites`,
starts a timer for `satellite_action`, runs a benchmark and, unless the action is
`'disconnect'`, shuts the group down. The callback runs in a thread of its own, and looks
`action` and `satellites` up when it gets there. The iterations are numbered through all
trials, and a group and a timer have the number of their iteration.

The thread of the loop may take as long as it likes for each statement. A callback is at
most `lateness` seconds late with what it does. `proper_of_run` is for benchmarks that last
longer than their callbacks have something to do.
-/

namespace TracerBench

namespace Disconnect

/-- `DISCONNECT_TIME`, in seconds. -/
def disconnectTime : ℚ := 30

/-- `RECONNECT_TIME`, in seconds. -/
def reconnectTime : ℚ := 120

inductive Action where
  | disconnect
  | reconnect
  deriving DecidableEq

/-- The `action` of an iteration, four of which make a trial. -/
def actionOf (k : ℕ) : Option Action :=
  if k % 4 = 2 then some .disconnect else if k % 4 = 3 then some .reconnect else none

structure Experiment where
  /-- `TRIALS`. -/
  trials : ℕ
  /-- How long each call of `controller.benchmark` takes. -/
  duration : ℕ → ℚ
  lateness : ℚ
  lateness_nonneg : 0 ≤ lateness

/-- Where the loop is, with the number of its iteration. -/
inductive Main where
  | assigning (k : ℕ)
  /-- At `SatelliteGroup('typical')`. -/
  | creating (k : ℕ)
  /-- In the second that `__init__` sleeps. -/
  | constructing (k : ℕ) (wake : ℚ)
  | startingTimer (k : ℕ)
  | callingBenchmark (k : ℕ)
  | benchmarking (k : ℕ) (limit : ℚ)
  /-- At `if action != 'disconnect'`. -/
  | testingAction (k : ℕ)
  /-- At `if not self._satellites` in `shutdown`. -/
  | testingShutdown (k : ℕ)
  /-- At `for s in self._satellites`. -/
  | shuttingDown (k g : ℕ)
  /-- Up to `self._satellites = None`. -/
  | terminating (k g : ℕ)
  /-- At the files and plots. -/
  | saving (k : ℕ)
  | raised
  deriving DecidableEq

/-- Where a callback is. -/
inductive Point where
  /-- The timer has not fired. -/
  | waiting
  /-- At `if action == 'disconnect'`. -/
  | testingDisconnect
  /-- At `satellites.shutdown()`, in the branch of an action. -/
  | calling (branch : Action)
  /-- At `if not self._satellites` in `shutdown`. -/
  | testing (branch : Action) (g : ℕ)
  /-- At `for s in self._satellites`. -/
  | shuttingDown (branch : Action) (g : ℕ)
  /-- Up to `self._satellites = None`. -/
  | terminating (branch : Action) (g : ℕ)
  /-- At `if action == 'reconnect'`. -/
  | testingReconnect
  | sleeping (wake : ℚ)
  /-- At `satellites.start('typical')`. -/
  | callingStart
  /-- At `if self._satellites` in `start`. -/
  | testingStart (g : ℕ)
  /-- In `__init__`, up to the assignment of `self._satellites`. -/
  | assigning (g : ℕ)
  | ended
  deriving DecidableEq

structure Timer where
  started : ℚ
  point : Point
  deriving DecidableEq

structure State where
  now : ℚ
  main : Main
  /-- The variable `action`. -/
  action : Option Action
  /-- The variable `satellites`. -/
  satellites : ℕ
  /-- For each group, whether its `_satellites` holds any. -/
  groups : List Bool
  timers : List Timer
  deriving DecidableEq

inductive Event where
  /-- Time passes. -/
  | tick (dt : ℚ)
  /-- The next statement of the loop. -/
  | mainStep
  /-- Iteration `k` creates its group. -/
  | create (k : ℕ)
  /-- The construction or the benchmark raises. -/
  | mainRaises
  /-- The next statement of the callback of iteration `k`. -/
  | timerStep (k : ℕ)
  /-- The callback of iteration `k` calls `shutdown` of group `g`. -/
  | timerShutdown (k g : ℕ) (branch : Action)
  /-- The callback of iteration `k` calls `start` of group `g`. -/
  | timerStart (k g : ℕ)
  deriving DecidableEq

/-- How long after its timer's start a callback that is on time takes its next step. -/
def Point.due : Point → Option ℚ
  | .sleeping _ | .callingStart | .testingStart _ | .assigning _ => some reconnectTime
  | .ended => none
  | _ => some disconnectTime

namespace State

/-- Before the first iteration. -/
def start : State :=
  ⟨0, .assigning 0, none, 0, [], []⟩

variable (x : Experiment) (s : State)

/-- The next statement of the loop. -/
def mainNext : Option State :=
  match s.main with
  | .assigning k =>
    if k < 4 * x.trials then some { s with action := actionOf k, main := .creating k } else none
  | .constructing k wake =>
    if wake ≤ s.now then some { s with satellites := k, main := .startingTimer k } else none
  | .startingTimer k =>
    some { s with timers := s.timers ++ [⟨s.now, .waiting⟩], main := .callingBenchmark k }
  | .callingBenchmark k => some { s with main := .benchmarking k (s.now + x.duration k) }
  | .benchmarking k limit =>
    if limit ≤ s.now then some { s with main := .testingAction k } else none
  | .testingAction k =>
    some { s with
      main := if s.action ≠ some .disconnect then .testingShutdown k else .saving k }
  | .testingShutdown k =>
    some { s with
      main := if s.groups[s.satellites]? = some true then .shuttingDown k s.satellites
        else .saving k }
  | .shuttingDown k g =>
    -- another thread may have set `self._satellites` to `None`
    some { s with main := if s.groups[g]? = some true then .terminating k g else .raised }
  | .terminating k g => some { s with groups := s.groups.set g false, main := .saving k }
  | .saving k => some { s with main := .assigning (k + 1) }
  | .creating _ | .raised => none

/-- After `satellites.shutdown()` in the branch of an action. -/
def afterShutdown : Action → Point
  | .disconnect => .testingReconnect
  | .reconnect => .sleeping (s.now + (reconnectTime - disconnectTime))

/-- The next statement of a callback : its next point, and what becomes of the groups. What
`start` does after the assignment changes nothing here. -/
def timerNext (t : Timer) : Option (Point × List Bool) :=
  match t.point with
  | .waiting =>
    if t.started + disconnectTime ≤ s.now then some (.testingDisconnect, s.groups) else none
  | .testingDisconnect =>
    some (if s.action = some .disconnect then .calling .disconnect else .testingReconnect, s.groups)
  | .testing branch g =>
    some (if s.groups[g]? = some true then .shuttingDown branch g else s.afterShutdown branch,
      s.groups)
  | .shuttingDown branch g =>
    some (if s.groups[g]? = some true then .terminating branch g else .ended, s.groups)
  | .terminating branch g => some (s.afterShutdown branch, s.groups.set g false)
  | .testingReconnect =>
    some (if s.action = some .reconnect then .calling .reconnect else .ended, s.groups)
  | .sleeping wake => if wake ≤ s.now then some (.callingStart, s.groups) else none
  | .testingStart g =>
    some (if s.groups[g]? = some true then .ended else .assigning g, s.groups)
  | .assigning g => some (.ended, s.groups.set g true)
  | .calling _ | .callingStart | .ended => none

/-- Callback `k` goes on to `point`. -/
def setTimer (k : ℕ) (t : Timer) (point : Point) (groups : List Bool) : State :=
  { s with timers := s.timers.set k { t with point := point }, groups := groups }

/-- One step of the loop, a callback or the clock. -/
def step : Event → Option State
  | .tick dt =>
    if 0 ≤ dt ∧ ∀ t ∈ s.timers, ∀ d ∈ t.point.due, s.now + dt ≤ t.started + d + x.lateness then
      some { s with now := s.now + dt }
    else none
  | .mainStep => s.mainNext x
  | .create k =>
    if s.main = .creating k then
      some { s with groups := s.groups ++ [true], main := .constructing k (s.now + 1) }
    else none
  | .mainRaises =>
    match s.main with
    | .creating _ | .constructing _ _ | .benchmarking _ _ => some { s with main := .raised }
    | _ => none
  | .timerStep k =>
    (s.timers[k]?).bind fun t =>
      (s.timerNext t).map fun (point, groups) => s.setTimer k t point groups
  | .timerShutdown k g branch =>
    (s.timers[k]?).bind fun t =>
      if t.point = .calling branch ∧ g = s.satellites then
        some (s.setTimer k t (.testing branch g) s.groups)
      else none
  | .timerStart k g =>
    (s.timers[k]?).bind fun t =>
      if t.point = .callingStart ∧ g = s.satellites then
        some (s.setTimer k t (.testingStart g) s.groups)
      else none

/-- A callback acts on the group of its own iteration, by the action of its own iteration,
and a group is created when the one before has been shut down. -/
def Proper : Event → Prop
  | .create k => ∀ j, k = j + 1 → s.groups[j]? = some false
  | .timerShutdown k g branch => g = k ∧ actionOf k = some branch
  | .timerStart k g => g = k ∧ actionOf k = some .reconnect
  | _ => True

end State

/-! ## What the loop has done -/

namespace Main

/-- The iteration whose action is in `action`. -/
def iteration : Main → Option ℕ
  | .assigning 0 | .raised => none
  | .assigning (k + 1) => some k
  | .creating k | .constructing k _ | .startingTimer k | .callingBenchmark k | .benchmarking k _
  | .testingAction k | .testingShutdown k | .shuttingDown k _ | .terminating k _
  | .saving k => some k

/-- The iteration whose group is `satellites`. -/
def bound : Main → Option ℕ
  | .creating _ | .constructing _ _ => none
  | m => m.iteration

/-- The iteration whose timer has not been started yet. -/
def beginning : Main → Option ℕ
  | .creating k | .constructing k _ | .startingTimer k => some k
  | _ => none

/-- The iteration whose benchmark is over, the next one not having started its timer. -/
def finished : Main → Option ℕ
  | .testingAction k | .testingShutdown k | .shuttingDown k _ | .terminating k _ | .saving k
  | .assigning (k + 1) | .creating (k + 1) => some k
  | _ => none

/-- The iteration whose group the loop is done with. -/
def done : Main → Option ℕ
  | .saving k | .assigning (k + 1) | .creating (k + 1) => some k
  | _ => none

/-- How many timers and groups there are. -/
def counts : Main → Option (ℕ × ℕ)
  | .assigning k | .creating k => some (k, k)
  | .constructing k _ | .startingTimer k => some (k, k + 1)
  | .callingBenchmark k | .benchmarking k _ | .testingAction k | .testingShutdown k
  | .shuttingDown k _ | .terminating k _ | .saving k => some (k + 1, k + 1)
  | .raised => none

/-- From the end of the benchmark of iteration `k` to the head of the loop. -/
def After (k : ℕ) : Main → Prop
  | .testingAction i | .testingShutdown i | .shuttingDown i _ | .terminating i _
  | .saving i => i = k
  | .assigning i => i = k + 1
  | _ => False

theorem After.facts {k : ℕ} {m : Main} (h : m.After k) :
    m.counts = some (k + 1, k + 1) ∧ m.iteration = some k ∧ m.bound = some k ∧
      m.beginning = none ∧ m.finished = some k ∧ ∀ i limit, m ≠ .benchmarking i limit := by
  cases m <;> simp only [After] at h <;> subst h <;>
    simp [counts, iteration, bound, beginning, finished]

theorem finished_of_done {k : ℕ} {m : Main} (h : k ∈ m.done) : k ∈ m.finished := by
  cases m with
  | assigning n | creating n =>
    cases n with
    | zero => simp [done] at h
    | succ n => exact h
  | saving n => exact h
  | _ => simp [done] at h

end Main

/-- How long after its timer's start the callback of an iteration has something to do, if it
is on time. -/
def workTime (k : ℕ) : ℚ :=
  if actionOf k = some .reconnect then reconnectTime else disconnectTime

/-- The callback of iteration `k` is where its own iteration's action leads it, and after a
disconnect its group is shut down. -/
def PointOk (groups : List Bool) (k : ℕ) : Point → Prop
  | .waiting | .testingDisconnect => True
  | .calling branch => actionOf k = some branch
  | .testing branch g | .shuttingDown branch g | .terminating branch g =>
    actionOf k = some branch ∧ g = k
  | .sleeping _ | .callingStart => actionOf k = some .reconnect
  | .testingStart g | .assigning g => actionOf k = some .reconnect ∧ g = k
  | .testingReconnect | .ended => actionOf k = some .disconnect → groups[k]? = some false

/-- Callback `k` is on time, and works in its own iteration. -/
structure TimerOk (x : Experiment) (s : State) (k : ℕ) (t : Timer) : Prop where
  onTime : ∀ d ∈ t.point.due, s.now ≤ t.started + d + x.lateness
  started : t.started ≤ s.now
  action : t.point ≠ .ended → s.action = actionOf k
  satellites : t.point ≠ .ended → actionOf k ≠ none → s.satellites = k
  point : PointOk s.groups k t.point

/-- The loop and the callbacks, in an experiment whose benchmarks are long. -/
structure Orderly (x : Experiment) (s : State) : Prop where
  timer : ∀ k t, s.timers[k]? = some t → TimerOk x s k t
  sorted : ∀ (j k : ℕ) (t u : Timer), j ≤ k → s.timers[j]? = some t → s.timers[k]? = some u →
    t.started ≤ u.started
  length : s.timers.length ≤ s.groups.length
  counts : ∀ n ∈ s.main.counts, (s.timers.length, s.groups.length) = n
  action : ∀ k ∈ s.main.iteration, s.action = actionOf k
  satellites : ∀ k ∈ s.main.bound, s.satellites = k
  -- the benchmark of iteration `k` has taken its time
  benchmarking : ∀ k limit t, s.main = .benchmarking k limit → s.timers[k]? = some t →
    t.started + x.duration k ≤ limit
  finished : ∀ k ∈ s.main.finished, ∀ t, s.timers[k]? = some t → t.started + x.duration k ≤ s.now
  calm : ∀ k ∈ s.main.beginning, actionOf k ≠ none → ∀ t ∈ s.timers, t.point = .ended
  inside : ∀ k ∈ s.main.beginning, k < 4 * x.trials
  shutting : ∀ k g, s.main = .shuttingDown k g ∨ s.main = .terminating k g → g = k
  done : ∀ k ∈ s.main.done, k + 1 < 4 * x.trials → s.groups[k]? = some false

/-- Every benchmark lasts longer than its callback has something to do, but for the first of
a trial and the very last. -/
def Experiment.Long (x : Experiment) : Prop :=
  ∀ k, k + 1 < 4 * x.trials → k % 4 ≠ 0 → workTime k + x.lateness < x.duration k

section Actions

variable {k : ℕ} {groups : List Bool} {p : Point} {d : ℚ}

theorem actionOf_succ (h : k % 4 = 0) : actionOf k = none ∧ actionOf (k + 1) = none := by
  constructor
  · rw [actionOf, if_neg (by omega), if_neg (by omega)]
  · rw [actionOf, if_neg (by omega), if_neg (by omega)]

theorem mod_of_actionOf (h : actionOf k ≠ none) : k % 4 ≠ 0 :=
  fun h0 => h (actionOf_succ h0).1

theorem disconnectTime_le_workTime (k : ℕ) : disconnectTime ≤ workTime k := by
  unfold workTime disconnectTime reconnectTime
  split_ifs <;> norm_num

/-- A callback with something left to do is no later than that. -/
theorem due_le_workTime (h : PointOk groups k p) (hd : d ∈ p.due) : d ≤ workTime k := by
  have hdisconnect := disconnectTime_le_workTime k
  have hreconnect : actionOf k = some .reconnect → reconnectTime ≤ workTime k :=
    fun ha => by rw [workTime, if_pos ha]
  cases p <;> simp only [Point.due, Option.mem_def, Option.some.injEq, reduceCtorEq] at hd <;>
    subst hd
  case sleeping | callingStart => exact hreconnect h
  case testingStart | assigning => exact hreconnect h.1
  all_goals exact hdisconnect

theorem PointOk.mono {groups' : List Bool}
    (hg : groups[k]? = some false → groups'[k]? = some false) (h : PointOk groups k p) :
    PointOk groups' k p := by
  cases p
  case testingReconnect | ended => exact fun hd => hg (h hd)
  all_goals exact h

theorem due_of_ne_ended (h : p ≠ .ended) : ∃ d, d ∈ p.due := by
  cases p <;> simp [Point.due] at h ⊢

end Actions

theorem orderly_start (x : Experiment) : Orderly x .start where
  timer := by simp [State.start]
  sorted := by simp [State.start]
  length := by simp [State.start]
  counts := by simp [State.start, Main.counts]
  action := by simp [State.start, Main.iteration]
  satellites := by simp [State.start, Main.bound, Main.iteration]
  benchmarking := by simp [State.start]
  finished := by simp [State.start, Main.finished]
  calm := by simp [State.start, Main.beginning]
  inside := by simp [State.start, Main.beginning]
  shutting := by simp [State.start]
  done := by simp [State.start, Main.done]

/-! ## Steps of the callbacks -/

namespace Orderly

variable {x : Experiment} {s s' : State} {j k : ℕ} {t : Timer}

/-- When a long benchmark is over, its callback is. -/
theorem ended_of_finished (h : Orderly x s) (hx : x.Long) (hk : k ∈ s.main.finished)
    (hlt : k + 1 < 4 * x.trials) (hmod : k % 4 ≠ 0) (ht : s.timers[k]? = some t) :
    t.point = .ended := by
  by_contra hne
  obtain ⟨d, hd⟩ := due_of_ne_ended hne
  have htimer := h.timer k t ht
  have honTime := htimer.onTime d hd
  have hwork := due_le_workTime htimer.point hd
  have hfinished := h.finished k hk t ht
  have hlong := hx k hlt hmod
  linarith

/-- When the loop comes to its head again, callbacks are left only of the first iteration of
a trial. -/
theorem quiet (h : Orderly x s) (hx : x.Long) (hmain : s.main = .assigning (k + 1))
    (hlt : k + 1 < 4 * x.trials) (ht : s.timers[j]? = some t) (hne : t.point ≠ .ended) :
    k % 4 = 0 ∧ actionOf j = none := by
  have htimer := h.timer j t ht
  have haction : s.action = actionOf k := h.action k (by rw [hmain]; rfl)
  have hj : actionOf j = actionOf k := (htimer.action hne).symm.trans haction
  have hfinished : k ∈ s.main.finished := by rw [hmain]; rfl
  have hlen : s.timers.length = k + 1 :=
    (Prod.mk.inj (h.counts (k + 1, k + 1) (by rw [hmain]; rfl))).1
  have hjk : j ≤ k := by
    have hlt := (List.getElem?_eq_some_iff.1 ht).1
    omega
  rw [hj]
  by_cases hnone : actionOf k = none
  · refine ⟨by_contra fun hmod => ?_, hnone⟩
    -- the timer of iteration `k` was started last, and its benchmark is over
    obtain ⟨u, hu⟩ : ∃ u, s.timers[k]? = some u := ⟨_, List.getElem?_eq_getElem (by omega)⟩
    obtain ⟨d, hd⟩ := due_of_ne_ended hne
    have honTime := htimer.onTime d hd
    have hwork := due_le_workTime htimer.point hd
    have hsame : workTime j = workTime k := by rw [workTime, workTime, hj]
    have hsorted := h.sorted j k t u hjk ht hu
    have hend := h.finished k hfinished u hu
    have hlong := hx k hlt hmod
    linarith
  · exfalso
    have hsat : s.satellites = k := h.satellites k (by rw [hmain]; rfl)
    obtain rfl : k = j := hsat.symm.trans (htimer.satellites hne (hj ▸ hnone))
    exact hne (h.ended_of_finished hx hfinished hlt (mod_of_actionOf hnone) ht)

/-- The timers when callback `k` has gone on. -/
theorem timers_set {timers : List Timer} {p : Point} {i : ℕ} {u : Timer}
    (ht : timers[k]? = some t) (hu : (timers.set k { t with point := p })[i]? = some u) :
    (i = k ∧ u = { t with point := p }) ∨ (i ≠ k ∧ timers[i]? = some u) := by
  rcases eq_or_ne i k with rfl | hik
  · rw [List.getElem?_set_self (List.getElem?_eq_some_iff.1 ht).1] at hu
    exact Or.inl ⟨rfl, (Option.some.inj hu).symm⟩
  · rw [List.getElem?_set_ne hik.symm] at hu
    exact Or.inr ⟨hik, hu⟩

/-- A timer keeps the time it was started. -/
theorem timers_set_started {timers : List Timer} {p : Point} {i : ℕ} {u : Timer}
    (ht : timers[k]? = some t) (hu : (timers.set k { t with point := p })[i]? = some u) :
    ∃ v : Timer, timers[i]? = some v ∧ u.started = v.started := by
  rcases timers_set ht hu with ⟨rfl, rfl⟩ | ⟨-, hu⟩
  · exact ⟨t, ht, rfl⟩
  · exact ⟨u, hu, rfl⟩

/-- A callback goes on : to a point where it may be as late, with its own group shut down or
left as it is, or started again by its own action. -/
theorem setTimer (h : Orderly x s) (hx : x.Long) {p : Point} {groups : List Bool}
    (ht : s.timers[k]? = some t) (hne : t.point ≠ .ended)
    (hdue : ∀ d' ∈ p.due, ∃ d ∈ t.point.due, d ≤ d') (hpoint : PointOk groups k p)
    (hlen : groups.length = s.groups.length) (hother : ∀ i, i ≠ k → groups[i]? = s.groups[i]?)
    (hdown : s.groups[k]? = some false → groups[k]? = some false ∨ actionOf k = some .reconnect) :
    Orderly x (s.setTimer k t p groups) := by
  have hold := h.timer k t ht
  refine ⟨?_, ?_, ?_, ?_, h.action, h.satellites, ?_, ?_, ?_, h.inside, h.shutting, ?_⟩
  · intro i u hu
    rcases timers_set ht hu with ⟨rfl, rfl⟩ | ⟨hik, hu⟩
    · refine ⟨fun d' hd' => ?_, hold.started, fun _ => hold.action hne,
        fun _ => hold.satellites hne, hpoint⟩
      obtain ⟨d, hd, hle⟩ := hdue d' hd'
      have honTime := hold.onTime d hd
      change s.now ≤ t.started + d' + x.lateness
      linarith
    · have hi := h.timer i u hu
      exact ⟨hi.onTime, hi.started, hi.action, hi.satellites,
        hi.point.mono fun hfalse => (hother i hik).trans hfalse⟩
  · intro i i' u u' hle hu hu'
    obtain ⟨v, hv, hs⟩ := timers_set_started ht hu
    obtain ⟨v', hv', hs'⟩ := timers_set_started ht hu'
    rw [hs, hs']
    exact h.sorted i i' v v' hle hv hv'
  · change (s.timers.set k _).length ≤ groups.length
    rw [List.length_set, hlen]
    exact h.length
  · intro n hn
    change ((s.timers.set k _).length, groups.length) = n
    rw [List.length_set, hlen]
    exact h.counts n hn
  · intro i limit u hmain hu
    obtain ⟨v, hv, hs⟩ := timers_set_started ht hu
    rw [hs]
    exact h.benchmarking i limit v hmain hv
  · intro i hi u hu
    obtain ⟨v, hv, hs⟩ := timers_set_started ht hu
    rw [hs]
    exact h.finished i hi v hv
  · intro i hi hact u _
    exact absurd (h.calm i hi hact t (List.mem_of_getElem? ht)) hne
  · intro i hi hlt
    have hfalse := h.done i hi hlt
    change groups[i]? = some false
    rcases eq_or_ne i k with rfl | hik
    · refine (hdown hfalse).resolve_right fun hreconnect => ?_
      -- the callback is over by then
      exact hne (h.ended_of_finished hx (Main.finished_of_done hi) hlt
        (mod_of_actionOf (by simp [hreconnect])) ht)
    · rw [hother i hik]
      exact hfalse

/-- A step that leaves the groups alone. -/
theorem setTimer_keep (h : Orderly x s) (hx : x.Long) {p : Point} (ht : s.timers[k]? = some t)
    (hne : t.point ≠ .ended) (hdue : ∀ d' ∈ p.due, ∃ d ∈ t.point.due, d ≤ d')
    (hpoint : PointOk s.groups k p) : Orderly x (s.setTimer k t p s.groups) :=
  h.setTimer hx ht hne hdue hpoint rfl (fun _ _ => rfl) Or.inl

theorem due_trans {p q : Point} (h : q.due = some disconnectTime) :
    ∀ d' ∈ p.due, ∃ d ∈ q.due, d ≤ d' := by
  intro d' hd'
  refine ⟨disconnectTime, h, ?_⟩
  cases p <;> simp only [Point.due, Option.mem_def, Option.some.injEq, reduceCtorEq] at hd' <;>
    subst hd' <;> norm_num [disconnectTime, reconnectTime]

/-- Where a callback goes on after `shutdown`, if its group is shut down. -/
theorem pointOk_afterShutdown {groups : List Bool} {branch : Action}
    (hbranch : actionOf k = some branch) (hdown : groups[k]? = some false) :
    PointOk groups k (s.afterShutdown branch) := by
  cases branch
  · exact fun _ => hdown
  · exact hbranch

theorem timerStep (h : Orderly x s) (hx : x.Long) {p : Point} {groups : List Bool}
    (ht : s.timers[k]? = some t) (hnext : s.timerNext t = some (p, groups)) :
    Orderly x (s.setTimer k t p groups) := by
  have htimer := h.timer k t ht
  have hpoint := htimer.point
  have hklt := (List.getElem?_eq_some_iff.1 ht).1
  have hkg : k < s.groups.length := hklt.trans_le h.length
  -- a group that does not hold satellites is shut down
  have hdown : ¬s.groups[k]? = some true → s.groups[k]? = some false := by
    rw [List.getElem?_eq_getElem hkg]
    cases s.groups[k] <;> simp
  have hset : (s.groups.set k false)[k]? = some false := by
    rw [List.getElem?_set_self hkg]
  have hne : t.point ≠ .ended := fun he => by simp [State.timerNext, he] at hnext
  have haction := htimer.action hne
  rcases hp : t.point <;> rw [hp] at hpoint <;>
    simp only [State.timerNext, hp, reduceCtorEq] at hnext
  case waiting =>
    split_ifs at hnext
    obtain ⟨rfl, rfl⟩ := Prod.mk.inj (Option.some.inj hnext)
    exact h.setTimer_keep hx ht hne (by simp [hp, Point.due]) trivial
  case testingDisconnect =>
    obtain ⟨rfl, rfl⟩ := Prod.mk.inj (Option.some.inj hnext)
    refine h.setTimer_keep hx ht hne (due_trans (by rw [hp]; rfl)) ?_
    split_ifs with ha
    · exact haction.symm.trans ha
    · exact fun hd => absurd (haction.trans hd) ha
  case testing branch g =>
    obtain ⟨hbranch, rfl⟩ := hpoint
    obtain ⟨rfl, rfl⟩ := Prod.mk.inj (Option.some.inj hnext)
    refine h.setTimer_keep hx ht hne (due_trans (by rw [hp]; rfl)) ?_
    split_ifs with hup
    · exact ⟨hbranch, rfl⟩
    · exact pointOk_afterShutdown hbranch (hdown hup)
  case shuttingDown branch g =>
    obtain ⟨hbranch, rfl⟩ := hpoint
    obtain ⟨rfl, rfl⟩ := Prod.mk.inj (Option.some.inj hnext)
    refine h.setTimer_keep hx ht hne (due_trans (by rw [hp]; rfl)) ?_
    split_ifs with hup
    · exact ⟨hbranch, rfl⟩
    · exact fun _ => hdown hup
  case terminating branch g =>
    obtain ⟨hbranch, rfl⟩ := hpoint
    obtain ⟨rfl, rfl⟩ := Prod.mk.inj (Option.some.inj hnext)
    exact h.setTimer hx ht hne (due_trans (by rw [hp]; rfl))
      (pointOk_afterShutdown hbranch hset) (List.length_set ..)
      (fun i hi => List.getElem?_set_ne hi.symm) fun _ => Or.inl hset
  case testingReconnect =>
    obtain ⟨rfl, rfl⟩ := Prod.mk.inj (Option.some.inj hnext)
    refine h.setTimer_keep hx ht hne (due_trans (by rw [hp]; rfl)) ?_
    split_ifs with ha
    · exact haction.symm.trans ha
    · exact hpoint
  case sleeping wake =>
    split_ifs at hnext
    obtain ⟨rfl, rfl⟩ := Prod.mk.inj (Option.some.inj hnext)
    exact h.setTimer_keep hx ht hne (by simp [hp, Point.due]) hpoint
  case testingStart g =>
    obtain ⟨hreconnect, rfl⟩ := hpoint
    obtain ⟨rfl, rfl⟩ := Prod.mk.inj (Option.some.inj hnext)
    refine h.setTimer_keep hx ht hne ?_ ?_
    · split_ifs <;> simp [hp, Point.due]
    · split_ifs
      · exact fun hd => by simp [hreconnect] at hd
      · exact ⟨hreconnect, rfl⟩
  case assigning g =>
    obtain ⟨hreconnect, rfl⟩ := hpoint
    obtain ⟨rfl, rfl⟩ := Prod.mk.inj (Option.some.inj hnext)
    exact h.setTimer hx ht hne (by simp [Point.due]) (fun hd => by simp [hreconnect] at hd)
      (List.length_set ..) (fun i hi => List.getElem?_set_ne hi.symm) fun _ => Or.inr hreconnect

/-- A callback looks up the group of its own iteration. -/
theorem own (h : Orderly x s) (ht : s.timers[k]? = some t) {branch : Action}
    (hne : t.point ≠ .ended) (hbranch : actionOf k = some branch) : s.satellites = k :=
  (h.timer k t ht).satellites hne (by simp [hbranch])

theorem timerShutdown (h : Orderly x s) (hx : x.Long) {branch : Action}
    (ht : s.timers[k]? = some t) (hp : t.point = .calling branch) :
    Orderly x (s.setTimer k t (.testing branch s.satellites) s.groups) := by
  have hpoint := (h.timer k t ht).point
  have hne : t.point ≠ .ended := by simp [hp]
  rw [hp] at hpoint
  exact h.setTimer_keep hx ht hne (by simp [hp, Point.due]) ⟨hpoint, h.own ht hne hpoint⟩

theorem timerStart (h : Orderly x s) (hx : x.Long) (ht : s.timers[k]? = some t)
    (hp : t.point = .callingStart) :
    Orderly x (s.setTimer k t (.testingStart s.satellites) s.groups) := by
  have hpoint := (h.timer k t ht).point
  have hne : t.point ≠ .ended := by simp [hp]
  rw [hp] at hpoint
  exact h.setTimer_keep hx ht hne (by simp [hp, Point.due]) ⟨hpoint, h.own ht hne hpoint⟩

/-! ## Steps of the loop -/

/-- The loop goes on to `m`, and no group is started again. -/
theorem mainTo (h : Orderly x s) {m : Main} {groups : List Bool}
    (hfalse : ∀ i : ℕ, s.groups[i]? = some false → groups[i]? = some false)
    (hlen : s.groups.length ≤ groups.length)
    (hcounts : ∀ n ∈ m.counts, (s.timers.length, groups.length) = n)
    (hiteration : ∀ k ∈ m.iteration, k ∈ s.main.iteration)
    (hbound : ∀ k ∈ m.bound, k ∈ s.main.bound)
    (hbeginning : ∀ k ∈ m.beginning, k ∈ s.main.beginning)
    (hbench : ∀ k limit t, m = .benchmarking k limit → s.timers[k]? = some t →
      t.started + x.duration k ≤ limit)
    (hfinished : ∀ k ∈ m.finished, ∀ t, s.timers[k]? = some t → t.started + x.duration k ≤ s.now)
    (hshutting : ∀ k g, m = .shuttingDown k g ∨ m = .terminating k g → g = k)
    (hdone : ∀ k ∈ m.done, k + 1 < 4 * x.trials → groups[k]? = some false) :
    Orderly x { s with main := m, groups := groups } where
  timer k t ht :=
    have ht := h.timer k t ht
    ⟨ht.onTime, ht.started, ht.action, ht.satellites, ht.point.mono (hfalse k)⟩
  sorted := h.sorted
  length := h.length.trans hlen
  counts := hcounts
  action k hk := h.action k (hiteration k hk)
  satellites k hk := h.satellites k (hbound k hk)
  benchmarking := hbench
  finished := hfinished
  calm k hk := h.calm k (hbeginning k hk)
  inside k hk := h.inside k (hbeginning k hk)
  shutting := hshutting
  done := hdone

theorem create (h : Orderly x s) (hmain : s.main = .creating k) :
    Orderly x { s with groups := s.groups ++ [true], main := .constructing k (s.now + 1) } := by
  obtain ⟨ht, hg⟩ := Prod.mk.inj (h.counts (k, k) (by rw [hmain]; rfl))
  refine h.mainTo ?_ (by simp) ?_ ?_ ?_ ?_ ?_ ?_ ?_ ?_
  · intro i hi
    rw [List.getElem?_append_left (List.getElem?_eq_some_iff.1 hi).1]
    exact hi
  all_goals simp [Main.counts, Main.iteration, Main.bound, Main.beginning, Main.finished,
    Main.done, hmain, ht, hg]

theorem mainRaises (h : Orderly x s) : Orderly x { s with main := .raised } :=
  h.mainTo (fun _ hi => hi) le_rfl (by simp [Main.counts]) (by simp [Main.iteration])
    (by simp [Main.bound, Main.iteration]) (by simp [Main.beginning]) (by simp)
    (by simp [Main.finished]) (by simp) (by simp [Main.done])

theorem assign (h : Orderly x s) (hx : x.Long) (hmain : s.main = .assigning k)
    (hk : k < 4 * x.trials) : Orderly x { s with action := actionOf k, main := .creating k } := by
  have hcounts := h.counts (k, k) (by rw [hmain]; rfl)
  -- a callback that is not over is of the first iteration of the trial, and this is the second
  have hnone : ∀ j t, s.timers[j]? = some t → t.point ≠ .ended →
      actionOf k = none ∧ actionOf j = none := by
    intro j t ht hne
    rcases k with _ | n
    · obtain ⟨ht0, -⟩ := Prod.mk.inj hcounts
      have hlt := (List.getElem?_eq_some_iff.1 ht).1
      omega
    · obtain ⟨hn, hj⟩ := h.quiet hx hmain hk ht hne
      exact ⟨(actionOf_succ hn).2, hj⟩
  have hfinished : ∀ i ∈ (Main.creating k).finished, i ∈ s.main.finished := by
    rw [hmain]
    exact fun i hi => by cases k <;> exact hi
  refine ⟨fun j t ht => ?_, h.sorted, h.length, fun n hn => ?_, fun i hi => ?_,
    by simp [Main.bound], by simp, fun i hi => h.finished i (hfinished i hi),
    fun i hi hact t ht => ?_, fun i hi => (Option.some.inj hi) ▸ hk, by simp, fun i hi => ?_⟩
  · have hold := h.timer j t ht
    refine ⟨hold.onTime, hold.started, fun hne => ?_, fun hne hact => ?_, hold.point⟩
    · obtain ⟨hk0, hj0⟩ := hnone j t ht hne
      exact hk0.trans hj0.symm
    · exact absurd (hnone j t ht hne).2 hact
  · exact hcounts.trans (Option.some.inj hn)
  · obtain rfl := Option.some.inj hi
    rfl
  · by_contra hne
    obtain ⟨j, hj⟩ := List.getElem?_of_mem ht
    obtain rfl := Option.some.inj hi
    exact hact (hnone j t hj hne).1
  · refine h.done i ?_
    rw [hmain]
    cases k <;> exact hi

theorem bind (h : Orderly x s) {wake : ℚ} (hmain : s.main = .constructing k wake) :
    Orderly x { s with satellites := k, main := .startingTimer k } := by
  have haction : s.action = actionOf k := h.action k (by rw [hmain]; rfl)
  refine ⟨fun j t ht => ?_, h.sorted, h.length, fun n hn => ?_, fun i hi => ?_, fun i hi => ?_,
    by simp, by simp [Main.finished], fun i hi => ?_,
    fun i hi => h.inside i (by rw [hmain]; exact hi), by simp, by simp [Main.done]⟩
  · have hold := h.timer j t ht
    refine ⟨hold.onTime, hold.started, hold.action, fun hne hact => ?_, hold.point⟩
    -- with an action of its own, the iteration begins when all callbacks are over
    rw [← hold.action hne, haction] at hact
    exact absurd (h.calm k (by rw [hmain]; rfl) hact t (List.mem_of_getElem? ht)) hne
  · exact h.counts n (by rw [hmain]; exact hn)
  · exact h.action i (by rw [hmain]; exact hi)
  · exact Option.some.inj hi
  · exact h.calm i (by rw [hmain]; exact hi)

theorem startTimer (h : Orderly x s) (hmain : s.main = .startingTimer k) :
    Orderly x
      { s with timers := s.timers ++ [⟨s.now, .waiting⟩], main := .callingBenchmark k } := by
  obtain ⟨hlen, hgroups⟩ := Prod.mk.inj (h.counts (k, k + 1) (by rw [hmain]; rfl))
  have haction : s.action = actionOf k := h.action k (by rw [hmain]; rfl)
  have hsat : s.satellites = k := h.satellites k (by rw [hmain]; rfl)
  have hget : ∀ j t, (s.timers ++ [⟨s.now, .waiting⟩])[j]? = some t →
      s.timers[j]? = some t ∨ (j = k ∧ t = ⟨s.now, .waiting⟩) := by
    intro j t ht
    rcases Nat.lt_or_ge j k with hj | hj
    · rw [List.getElem?_append_left (hlen ▸ hj)] at ht
      exact Or.inl ht
    · have hlt := (List.getElem?_eq_some_iff.1 ht).1
      rw [List.length_append, List.length_singleton, hlen] at hlt
      obtain rfl : j = k := by omega
      rw [← hlen, List.getElem?_concat_length] at ht
      exact Or.inr ⟨rfl, (Option.some.inj ht).symm⟩
  refine ⟨fun j t ht => ?_, fun i j t u hij ht hu => ?_, by simp [hlen, hgroups], fun n hn => ?_,
    fun i hi => ?_, fun i hi => ?_, by simp, by simp [Main.finished], by simp [Main.beginning],
    by simp [Main.beginning], by simp, by simp [Main.done]⟩
  · rcases hget j t ht with ht' | ⟨rfl, rfl⟩
    · have hold := h.timer j t ht'
      exact ⟨hold.onTime, hold.started, hold.action, hold.satellites, hold.point⟩
    · refine ⟨fun d hd => ?_, le_rfl, fun _ => haction, fun _ _ => hsat, trivial⟩
      have hlate := x.lateness_nonneg
      obtain rfl := Option.some.inj hd
      norm_num [disconnectTime]
      linarith
  · rcases hget j u hu with hu' | ⟨rfl, rfl⟩
    · rcases hget i t ht with ht' | ⟨rfl, -⟩
      · exact h.sorted i j t u hij ht' hu'
      · have hlt := (List.getElem?_eq_some_iff.1 hu').1
        omega
    · rcases hget i t ht with ht' | ⟨-, rfl⟩
      · exact (h.timer i t ht').started
      · exact le_rfl
  · simpa [Main.counts, hlen, hgroups] using hn
  · exact (Option.some.inj hi) ▸ haction
  · exact (Option.some.inj hi) ▸ hsat

/-- A step of the loop after the benchmark. -/
theorem mainAfter (h : Orderly x s) {m : Main} {groups : List Bool} (hs : s.main.After k)
    (hm : m.After k) (hfalse : ∀ i : ℕ, s.groups[i]? = some false → groups[i]? = some false)
    (hlen : groups.length = s.groups.length)
    (hshutting : ∀ i g, m = .shuttingDown i g ∨ m = .terminating i g → g = i)
    (hdone : ∀ i ∈ m.done, i + 1 < 4 * x.trials → groups[i]? = some false) :
    Orderly x { s with main := m, groups := groups } := by
  obtain ⟨hcounts, hiteration, hbound, -, hfinished, -⟩ := hs.facts
  obtain ⟨hcounts', hiteration', hbound', hbeginning', hfinished', hbench'⟩ := hm.facts
  refine h.mainTo hfalse hlen.ge (fun n hn => ?_) (fun i hi => ?_) (fun i hi => ?_)
    (fun i hi => ?_) (fun i limit t hb => absurd hb (hbench' i limit)) (fun i hi => ?_) hshutting
    hdone
  · rw [hlen]
    exact h.counts n (by rw [hcounts, ← hcounts']; exact hn)
  · rw [hiteration, ← hiteration']
    exact hi
  · rw [hbound, ← hbound']
    exact hi
  · simp [hbeginning'] at hi
  · exact h.finished i (by rw [hfinished, ← hfinished']; exact hi)

theorem testingAction (h : Orderly x s) (hx : x.Long) (hmain : s.main = .testingAction k) :
    Orderly x { s with
      main := if s.action ≠ some .disconnect then .testingShutdown k else .saving k } := by
  have hafter : s.main.After k := by rw [hmain]; rfl
  have haction : s.action = actionOf k := h.action k hafter.facts.2.1
  split_ifs with ha
  · exact h.mainAfter hafter rfl (fun _ hi => hi) rfl (by simp) (by simp [Main.done])
  · refine h.mainAfter hafter rfl (fun _ hi => hi) rfl (by simp) fun i hi hlt => ?_
    -- the callback has shut the group down
    obtain rfl := Option.some.inj hi
    have hk : k < s.timers.length := by
      rw [(Prod.mk.inj (h.counts _ hafter.facts.1)).1]
      exact Nat.lt_succ_self k
    have ht := List.getElem?_eq_getElem hk
    have hd := haction.symm.trans (not_not.1 ha)
    have hended := h.ended_of_finished hx hafter.facts.2.2.2.2.1 hlt
      (mod_of_actionOf (by simp [hd])) ht
    have hpoint := (h.timer k _ ht).point
    rw [hended] at hpoint
    exact hpoint hd

theorem testingShutdown (h : Orderly x s) (hmain : s.main = .testingShutdown k) :
    Orderly x { s with
      main := if s.groups[s.satellites]? = some true then .shuttingDown k s.satellites
        else .saving k } := by
  have hafter : s.main.After k := by rw [hmain]; rfl
  have hsat : s.satellites = k := h.satellites k hafter.facts.2.2.1
  split_ifs with hup
  · refine h.mainAfter hafter rfl (fun _ hi => hi) rfl (fun i g hm => ?_) (by simp [Main.done])
    obtain ⟨rfl, rfl⟩ := Main.shuttingDown.inj (hm.resolve_right (by simp))
    exact hsat
  · refine h.mainAfter hafter rfl (fun _ hi => hi) rfl (by simp) fun i hi _ => ?_
    obtain rfl := Option.some.inj hi
    have hk : k < s.groups.length := by
      rw [(Prod.mk.inj (h.counts _ hafter.facts.1)).2]
      exact Nat.lt_succ_self k
    rw [hsat, List.getElem?_eq_getElem hk] at hup
    rw [List.getElem?_eq_getElem hk]
    simpa using hup

theorem shuttingDown (h : Orderly x s) {g : ℕ} (hmain : s.main = .shuttingDown k g) :
    Orderly x { s with
      main := if s.groups[g]? = some true then .terminating k g else .raised } := by
  have hafter : s.main.After k := by rw [hmain]; rfl
  split_ifs with hup
  · refine h.mainAfter hafter rfl (fun _ hi => hi) rfl (fun i j hm => ?_) (by simp [Main.done])
    obtain ⟨rfl, rfl⟩ := Main.terminating.inj (hm.resolve_left (by simp))
    exact h.shutting k g (Or.inl hmain)
  · exact h.mainRaises

theorem terminating (h : Orderly x s) {g : ℕ} (hmain : s.main = .terminating k g) :
    Orderly x { s with groups := s.groups.set g false, main := .saving k } := by
  have hafter : s.main.After k := by rw [hmain]; rfl
  obtain rfl := h.shutting k g (Or.inr hmain)
  refine h.mainAfter hafter rfl (fun i hi => ?_) (List.length_set ..) (by simp) fun i hi _ => ?_
  · rw [List.getElem?_set]
    split_ifs <;> simp_all
  · obtain rfl := Option.some.inj hi
    rw [List.getElem?_set_self]
    rw [(Prod.mk.inj (h.counts _ hafter.facts.1)).2]
    exact Nat.lt_succ_self g

theorem callBenchmark (h : Orderly x s) (hmain : s.main = .callingBenchmark k) :
    Orderly x { s with main := .benchmarking k (s.now + x.duration k) } := by
  refine h.mainTo (fun _ hi => hi) le_rfl (fun n hn => h.counts n (by rw [hmain]; exact hn))
    (by simp [hmain, Main.iteration]) (by simp [hmain, Main.bound, Main.iteration])
    (by simp [Main.beginning]) (fun i limit t hm ht => ?_) (by simp [Main.finished]) (by simp)
    (by simp [Main.done])
  obtain ⟨rfl, rfl⟩ := Main.benchmarking.inj hm
  have hstarted := (h.timer k t ht).started
  linarith

theorem benchmarkReturned (h : Orderly x s) {limit : ℚ} (hmain : s.main = .benchmarking k limit)
    (hlimit : limit ≤ s.now) : Orderly x { s with main := .testingAction k } := by
  refine h.mainTo (fun _ hi => hi) le_rfl (fun n hn => h.counts n (by rw [hmain]; exact hn))
    (by simp [hmain, Main.iteration]) (by simp [hmain, Main.bound, Main.iteration])
    (by simp [Main.beginning]) (by simp) (fun i hi t ht => ?_) (by simp) (by simp [Main.done])
  obtain rfl := Option.some.inj hi
  exact (h.benchmarking k limit t hmain ht).trans hlimit

theorem mainStep (h : Orderly x s) (hx : x.Long) (he : s.mainNext x = some s') :
    Orderly x s' := by
  rcases hmain : s.main <;> simp only [State.mainNext, hmain, reduceCtorEq] at he
  case assigning k =>
    split_ifs at he with hk
    obtain rfl := Option.some.inj he
    exact h.assign hx hmain hk
  case constructing k wake =>
    split_ifs at he
    obtain rfl := Option.some.inj he
    exact h.bind hmain
  case startingTimer k =>
    obtain rfl := Option.some.inj he
    exact h.startTimer hmain
  case callingBenchmark k =>
    obtain rfl := Option.some.inj he
    exact h.callBenchmark hmain
  case benchmarking k limit =>
    split_ifs at he with hlimit
    obtain rfl := Option.some.inj he
    exact h.benchmarkReturned hmain hlimit
  case testingAction k =>
    obtain rfl := Option.some.inj he
    exact h.testingAction hx hmain
  case testingShutdown k =>
    obtain rfl := Option.some.inj he
    exact h.testingShutdown hmain
  case shuttingDown k g =>
    obtain rfl := Option.some.inj he
    exact h.shuttingDown hmain
  case terminating k g =>
    obtain rfl := Option.some.inj he
    exact h.terminating hmain
  case saving k =>
    obtain rfl := Option.some.inj he
    have hafter : s.main.After k := by rw [hmain]; rfl
    exact h.mainAfter hafter rfl (fun _ hi => hi) rfl (by simp)
      fun i hi => h.done i (by rw [hmain]; exact hi)

theorem tick (h : Orderly x s) {dt : ℚ} (hdt : 0 ≤ dt)
    (hdue : ∀ t ∈ s.timers, ∀ d ∈ t.point.due, s.now + dt ≤ t.started + d + x.lateness) :
    Orderly x { s with now := s.now + dt } where
  timer k t ht :=
    have hold := h.timer k t ht
    ⟨hdue t (List.mem_of_getElem? ht), hold.started.trans (le_add_of_nonneg_right hdt), hold.action,
      hold.satellites, hold.point⟩
  sorted := h.sorted
  length := h.length
  counts := h.counts
  action := h.action
  satellites := h.satellites
  benchmarking := h.benchmarking
  finished k hk t ht := (h.finished k hk t ht).trans (le_add_of_nonneg_right hdt)
  calm := h.calm
  inside := h.inside
  shutting := h.shutting
  done := h.done

theorem step (h : Orderly x s) (hx : x.Long) {e : Event} (he : s.step x e = some s') :
    Orderly x s' := by
  cases e
  case tick dt =>
    rw [State.step, Option.ite_none_right_eq_some] at he
    obtain ⟨⟨hdt, hdue⟩, he⟩ := he
    obtain rfl := Option.some.inj he
    exact h.tick hdt hdue
  case mainStep => exact h.mainStep hx he
  case create k =>
    rw [State.step, Option.ite_none_right_eq_some] at he
    obtain ⟨hmain, he⟩ := he
    obtain rfl := Option.some.inj he
    exact h.create hmain
  case mainRaises =>
    simp only [State.step] at he
    split at he <;> simp only [reduceCtorEq, Option.some.injEq] at he
    all_goals
      subst he
      exact h.mainRaises
  case timerStep k =>
    obtain ⟨t, ht, he⟩ := Option.bind_eq_some_iff.1 he
    obtain ⟨⟨p, groups⟩, hnext, rfl⟩ := Option.map_eq_some_iff.1 he
    exact h.timerStep hx ht hnext
  case timerShutdown k g branch =>
    obtain ⟨t, ht, he⟩ := Option.bind_eq_some_iff.1 he
    rw [Option.ite_none_right_eq_some] at he
    obtain ⟨⟨hp, rfl⟩, he⟩ := he
    obtain rfl := Option.some.inj he
    exact h.timerShutdown hx ht hp
  case timerStart k g =>
    obtain ⟨t, ht, he⟩ := Option.bind_eq_some_iff.1 he
    rw [Option.ite_none_right_eq_some] at he
    obtain ⟨⟨hp, rfl⟩, he⟩ := he
    obtain rfl := Option.some.inj he
    exact h.timerStart hx ht hp

/-- In an orderly experiment each step is proper. -/
theorem proper (h : Orderly x s) {e : Event} (he : s.step x e = some s') : s.Proper e := by
  cases e
  case create k =>
    rw [State.step, Option.ite_none_right_eq_some] at he
    obtain ⟨hmain, -⟩ := he
    rintro j rfl
    have hlt := h.inside (j + 1) (by rw [hmain]; rfl)
    exact h.done j (by rw [hmain]; rfl) hlt
  case timerShutdown k g branch =>
    obtain ⟨t, ht, he⟩ := Option.bind_eq_some_iff.1 he
    rw [Option.ite_none_right_eq_some] at he
    obtain ⟨⟨hp, rfl⟩, -⟩ := he
    have hpoint := (h.timer k t ht).point
    rw [hp] at hpoint
    exact ⟨h.own ht (by simp [hp]) hpoint, hpoint⟩
  case timerStart k g =>
    obtain ⟨t, ht, he⟩ := Option.bind_eq_some_iff.1 he
    rw [Option.ite_none_right_eq_some] at he
    obtain ⟨⟨hp, rfl⟩, -⟩ := he
    have hpoint := (h.timer k t ht).point
    rw [hp] at hpoint
    exact ⟨h.own ht (by simp [hp]) hpoint, hpoint⟩
  all_goals trivial

end Orderly

/-- While the benchmarks are long, each step of a run is proper. -/
theorem proper_of_run {x : Experiment} (hx : x.Long) {es : List Event} {e : Event} {s s' : State}
    (h : run (State.step x) .start es = some s) (he : s.step x e = some s') : s.Proper e :=
  Orderly.proper (run_invariant (orderly_start x) (fun _ _ _ hm h' => hm.step hx h') h) he

end Disconnect

end TracerBench
