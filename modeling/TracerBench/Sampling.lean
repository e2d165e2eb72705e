import Mathlib.Data.Rat.Defs
import TracerBench.Python
import TracerBench.Run

/-!
# What the sampling threads of a client's process leave to `get_results`

A `ClientProcess` of `benchmark/controller.py` has two threads. `_save_runtime_stats`
stores a program time and a clock time in each iteration, and `_save_list_stats` appends to
`_cpu_list` and `_memory_list`, each pair in one block under the lock. `run_test` waits for
the process to exit and calls `get_results`, which reads the four one after the other, each
under the lock for itself. Each locked block, each `poll`, each `hasattr` and each
measurement is one step.

Once a `poll` has seen the exit all others do, so a thread can store at most once after
that, in an iteration that had passed its test before (`late_store`). `consistent_iff` says
that a result is torn exactly by such a store between two reads.
-/

namespace TracerBench

namespace Sampling

/-- A value, with the number of the iteration that stored it. -/
structure Stored (α : Type) where
  iteration : ℕ
  value : α
  deriving DecidableEq

/-! ## The two threads -/

/-- Where a sampling thread is. -/
inductive Point (V : Type) where
  /-- At `psutil.Process` and the first `cpu_percent`. -/
  | opening
  /-- At `self.poll()`. -/
  | polling
  /-- Past the test of `self.poll()`. -/
  | measuring
  /-- At the lock, with what it has measured. -/
  | storing (measured : V)
  | ended
  deriving DecidableEq

structure Sampler (V : Type) where
  point : Point V
  /-- How often the test of `self.poll()` has been passed. -/
  iteration : ℕ
  deriving DecidableEq

namespace Sampler

variable {V : Type}

def new : Sampler V :=
  ⟨.opening, 0⟩

/-- The resource monitor is there, or opening it raises. -/
def opened (t : Sampler V) (ok : Bool) : Option (Sampler V) :=
  match t.point with
  | .opening => some { t with point := if ok then .polling else .ended }
  | _ => none

/-- `if self.poll() is not None`. -/
def polled (t : Sampler V) (running : Bool) : Option (Sampler V) :=
  match t.point with
  | .polling => some (if running then ⟨.measuring, t.iteration + 1⟩ else { t with point := .ended })
  | _ => none

/-- The monitor gives its numbers, or raises `AccessDenied` or `NoSuchProcess`. -/
def measured (t : Sampler V) (numbers : Option V) : Option (Sampler V) :=
  match t.point with
  | .measuring => some { t with point := numbers.elim .polling .storing }
  | _ => none

/-- The block under the lock. -/
def stored (t : Sampler V) : Option (Stored V × Sampler V) :=
  match t.point with
  | .storing numbers => some (⟨t.iteration, numbers⟩, { t with point := .polling })
  | _ => none

/-- Past the test of `self.poll()`, with its store still to come. -/
def busy (t : Sampler V) : Bool :=
  match t.point with
  | .measuring | .storing _ => true
  | _ => false

end Sampler

/-! ## The process -/

structure Result where
  spansSent : ℤ
  programTime : Stored ℚ
  clockTime : Stored ℚ
  memoryList : List (Stored ℕ)
  cpuList : List (Stored ℚ)
  spansReceived : ℤ
  deriving DecidableEq

/-- Where the caller of `run_test` is, with what `get_results` has read. -/
inductive Caller where
  /-- At `process_handle.poll()`. -/
  | polling
  /-- At `hasattr(self, "_program_time")`. -/
  | testingProgramTime
  | readingProgramTime
  /-- At `hasattr(self, "_clock_time")`. -/
  | testingClockTime (programTime : Stored ℚ)
  | readingClockTime (programTime : Stored ℚ)
  | readingMemoryList (programTime clockTime : Stored ℚ)
  | readingCpuList (programTime clockTime : Stored ℚ) (memoryList : List (Stored ℕ))
  | returned (r : Result)
  | raised (e : PyError)
  deriving DecidableEq

structure ClientProcess where
  exited : Bool
  /-- A `poll` has seen the exit, and has set `returncode`. -/
  reaped : Bool
  programTime : Option (Stored ℚ)
  clockTime : Option (Stored ℚ)
  cpuList : List (Stored ℚ)
  memoryList : List (Stored ℕ)
  runtimeStats : Sampler ℚ
  listStats : Sampler (ℚ × ℕ)
  caller : Caller
  deriving DecidableEq

inductive Event where
  /-- The client exits. -/
  | exit
  | runtimeOpened (ok : Bool)
  | runtimePolled (running : Bool)
  /-- User and system time, added up. -/
  | runtimeMeasured (time : Option ℚ)
  /-- Both times are stored, the second as the clock has it now. -/
  | runtimeStored (clock : ℚ)
  | listOpened (ok : Bool)
  | listPolled (running : Bool)
  | listMeasured (numbers : Option (ℚ × ℕ))
  | listStored
  | callerPolled (running : Bool)
  /-- The caller's next `hasattr`. -/
  | hasattr
  | readProgramTime (v : Stored ℚ)
  | readClockTime (v : Stored ℚ)
  | readMemoryList (l : List (Stored ℕ))
  | readCpuList (l : List (Stored ℚ))
  deriving DecidableEq

namespace ClientProcess

/-- A process that has just been started. -/
def start : ClientProcess :=
  ⟨false, false, none, none, [], [], .new, .new, .polling⟩

/-- `poll`, where `running` says that it returns `None`. It may still do that after the
exit while another thread is at it, but not once one has seen the exit. -/
def poll (s : ClientProcess) (running : Bool) : Option ClientProcess :=
  if running then if s.reaped then none else some s
  else if s.exited then some { s with reaped := true } else none

/-- One step of the client, a sampling thread or the caller. -/
def step (s : ClientProcess) : Event → Option ClientProcess
  | .exit => if s.exited then none else some { s with exited := true }
  | .runtimeOpened ok => (s.runtimeStats.opened ok).map fun t => { s with runtimeStats := t }
  | .runtimePolled running =>
    (s.poll running).bind fun s =>
      (s.runtimeStats.polled running).map fun t => { s with runtimeStats := t }
  | .runtimeMeasured time =>
    (s.runtimeStats.measured time).map fun t => { s with runtimeStats := t }
  | .runtimeStored clock =>
    s.runtimeStats.stored.map fun (v, t) =>
      { s with programTime := some v, clockTime := some ⟨v.iteration, clock⟩, runtimeStats := t }
  | .listOpened ok => (s.listStats.opened ok).map fun t => { s with listStats := t }
  | .listPolled running =>
    (s.poll running).bind fun s =>
      (s.listStats.polled running).map fun t => { s with listStats := t }
  | .listMeasured numbers => (s.listStats.measured numbers).map fun t => { s with listStats := t }
  | .listStored =>
    s.listStats.stored.map fun (v, t) =>
      { s with
        cpuList := s.cpuList ++ [⟨v.iteration, v.value.1 / 100⟩]
        memoryList := s.memoryList ++ [⟨v.iteration, v.value.2⟩]
        listStats := t }
  | .callerPolled running =>
    (s.poll running).bind fun s =>
      match s.caller with
      | .polling => some { s with caller := if running then .polling else .testingProgramTime }
      | _ => none
  | .hasattr =>
    match s.caller with
    | .testingProgramTime =>
      some { s with
        caller := if s.programTime.isSome then .readingProgramTime else .raised .attributeError }
    | .testingClockTime p =>
      some { s with
        caller := if s.clockTime.isSome then .readingClockTime p else .raised .attributeError }
    | _ => none
  | .readProgramTime v =>
    match s.caller with
    | .readingProgramTime =>
      if s.programTime = some v then some { s with caller := .testingClockTime v } else none
    | _ => none
  | .readClockTime v =>
    match s.caller with
    | .readingClockTime p =>
      if s.clockTime = some v then some { s with caller := .readingMemoryList p v } else none
    | _ => none
  | .readMemoryList l =>
    match s.caller with
    | .readingMemoryList p c =>
      if s.memoryList = l then some { s with caller := .readingCpuList p c l } else none
    | _ => none
  | .readCpuList l =>
    match s.caller with
    | .readingCpuList p c m =>
      if s.cpuList = l then some { s with caller := .returned ⟨0, p, c, m, l, 0⟩ } else none
    | _ => none

end ClientProcess

/-- Both times are from one iteration, and the lists from the same iterations, entry by
entry. -/
structure Result.Consistent (r : Result) : Prop where
  times : r.programTime.iteration = r.clockTime.iteration
  lists : r.memoryList.map (·.iteration) = r.cpuList.map (·.iteration)

/-! ## Labels -/

namespace Event

def storesRuntime : Event → Bool
  | .runtimeStored _ => true
  | _ => false

def storesLists : Event → Bool
  | .listStored => true
  | _ => false

def readsProgramTime : Event → Bool
  | .readProgramTime _ => true
  | _ => false

def readsClockTime : Event → Bool
  | .readClockTime _ => true
  | _ => false

def readsMemoryList : Event → Bool
  | .readMemoryList _ => true
  | _ => false

def readsCpuList : Event → Bool
  | .readCpuList _ => true
  | _ => false

/-- A read of `get_results`. -/
def reads (e : Event) : Bool :=
  e.readsProgramTime || e.readsClockTime || e.readsMemoryList || e.readsCpuList

end Event

/-- The labels from the first that satisfies `p` up to the next that satisfies `q`. -/
def between {ε : Type*} (p q : ε → Bool) (es : List ε) : List ε :=
  (es.dropWhile (!p ·)).takeWhile (!q ·)

theorem between_eq {ε : Type*} {p q : ε → Bool} {a b c : List ε} {x y : ε}
    (ha : ∀ e ∈ a, p e = false) (hx : p x = true) (hb : ∀ e ∈ x :: b, q e = false)
    (hy : q y = true) : between p q (a ++ x :: (b ++ y :: c)) = x :: b := by
  rw [between, List.dropWhile_append_of_pos (by simpa using ha),
    List.dropWhile_cons_of_neg (by simp [hx]), ← List.cons_append,
    List.takeWhile_append_of_pos (by simpa using hb),
    List.takeWhile_cons_of_neg (by simp [hy]), List.append_nil]

theorem between_append {ε : Type*} {p q : ε → Bool} {a b : List ε}
    (ha : ∀ e ∈ a, p e = false) : between p q (a ++ b) = between p q b := by
  rw [between, List.dropWhile_append_of_pos (by simpa using ha), between]

theorem mem_of_mem_between {ε : Type*} {p q : ε → Bool} {es : List ε} {e : ε}
    (h : e ∈ between p q es) : e ∈ es :=
  (List.dropWhile_sublist _).subset ((List.takeWhile_sublist _).subset h)

/-- No store of a thread falls between the two reads of what it stores. -/
def Undisturbed (es : List Event) : Prop :=
  (∀ e ∈ between Event.readsProgramTime Event.readsClockTime es, e.storesRuntime = false) ∧
    ∀ e ∈ between Event.readsMemoryList Event.readsCpuList es, e.storesLists = false

instance (es : List Event) : Decidable (Undisturbed es) :=
  inferInstanceAs (Decidable (_ ∧ _))

/-! ## What a step does -/

namespace Sampler

variable {V : Type} {t t' : Sampler V}

/-- A thread goes on without a store : it is past its test only in an iteration where it
was before, or in a new one. -/
structure Advances (t t' : Sampler V) : Prop where
  le : t.iteration ≤ t'.iteration
  busy : t'.busy = true → t.busy = true ∨ t.iteration < t'.iteration

theorem Advances.refl (t : Sampler V) : Advances t t :=
  ⟨le_rfl, Or.inl⟩

theorem advances_opened {ok : Bool} (h : t.opened ok = some t') :
    Advances t t' ∧ t'.iteration = t.iteration := by
  obtain ⟨point, n⟩ := t
  cases point <;> simp only [opened, reduceCtorEq] at h
  obtain rfl := Option.some.inj h
  exact ⟨⟨le_rfl, by cases ok <;> simp [Sampler.busy]⟩, rfl⟩

theorem advances_polled {running : Bool} (h : t.polled running = some t') :
    Advances t t' ∧ (running = false → t'.iteration = t.iteration) := by
  obtain ⟨point, n⟩ := t
  cases point <;> simp only [polled, reduceCtorEq] at h
  obtain rfl := Option.some.inj h
  cases running
  · exact ⟨⟨le_rfl, by simp [Sampler.busy]⟩, fun _ => rfl⟩
  · exact ⟨⟨Nat.le_succ n, fun _ => Or.inr (Nat.lt_succ_self n)⟩, by simp⟩

theorem advances_measured {numbers : Option V} (h : t.measured numbers = some t') :
    Advances t t' ∧ t'.iteration = t.iteration := by
  obtain ⟨point, n⟩ := t
  cases point <;> simp only [measured, reduceCtorEq] at h
  obtain rfl := Option.some.inj h
  exact ⟨⟨le_rfl, fun _ => Or.inl rfl⟩, rfl⟩

theorem stored_eq_some {v : Stored V} (h : t.stored = some (v, t')) :
    t.busy = true ∧ v.iteration = t.iteration ∧ t' = ⟨.polling, t.iteration⟩ := by
  obtain ⟨point, n⟩ := t
  cases point <;> simp only [stored, reduceCtorEq] at h
  obtain ⟨rfl, rfl⟩ := Prod.mk.inj (Option.some.inj h)
  exact ⟨rfl, rfl, rfl⟩

end Sampler

/-- The reads `get_results` has made, unless it has raised. -/
def Caller.readings : Caller → Option (List Event)
  | .polling | .testingProgramTime | .readingProgramTime => some []
  | .testingClockTime p | .readingClockTime p => some [.readProgramTime p]
  | .readingMemoryList p c => some [.readProgramTime p, .readClockTime c]
  | .readingCpuList p c m => some [.readProgramTime p, .readClockTime c, .readMemoryList m]
  | .returned r =>
    some [.readProgramTime r.programTime, .readClockTime r.clockTime,
      .readMemoryList r.memoryList, .readCpuList r.cpuList]
  | .raised _ => none

namespace ClientProcess

variable {s s' : ClientProcess} {e : Event} {es : List Event} {r : Result}

/-- A step that stores nothing. -/
structure Quiet (e : Event) (s s' : ClientProcess) : Prop where
  storesRuntime : e.storesRuntime = false
  storesLists : e.storesLists = false
  programTime : s'.programTime = s.programTime
  clockTime : s'.clockTime = s.clockTime
  cpuList : s'.cpuList = s.cpuList
  memoryList : s'.memoryList = s.memoryList
  runtimeStats : s.runtimeStats.Advances s'.runtimeStats
  listStats : s.listStats.Advances s'.listStats
  -- once a `poll` has seen the exit, no thread begins an iteration
  reaped : s.reaped = true → s'.reaped = true ∧
    s'.runtimeStats.iteration = s.runtimeStats.iteration ∧
    s'.listStats.iteration = s.listStats.iteration
  readings : ∀ l' ∈ s'.caller.readings, ∃ l ∈ s.caller.readings, l' = l ++ [e].filter Event.reads
  raised : ∀ x, s'.caller = .raised x →
    s.caller = .raised x ∨ s.programTime = none ∨ s.clockTime = none

theorem poll_eq_some {running : Bool} (h : s.poll running = some s') :
    s' = { s with reaped := s.reaped || !running } ∧ (s.reaped = true → running = false) := by
  obtain ⟨exited, reaped⟩ := s
  cases running <;> cases reaped <;> cases exited <;> simp_all [poll]

/-- A step of the caller. -/
theorem Quiet.ofCaller {c : Caller} {reaped : Bool} (hr : e.storesRuntime = false)
    (hl : e.storesLists = false) (hreaped : s.reaped = true → reaped = true)
    (hc : ∀ l' ∈ c.readings, ∃ l ∈ s.caller.readings, l' = l ++ [e].filter Event.reads)
    (hx : ∀ x, c = .raised x → s.programTime = none ∨ s.clockTime = none) :
    Quiet e s { s with reaped := reaped, caller := c } :=
  ⟨hr, hl, rfl, rfl, rfl, rfl, .refl _, .refl _, fun h => ⟨hreaped h, rfl, rfl⟩, hc,
    fun x h => Or.inr (hx x h)⟩

/-- A step of the threads. -/
theorem Quiet.ofThreads {reaped : Bool} {t : Sampler ℚ} {u : Sampler (ℚ × ℕ)}
    (hr : e.storesRuntime = false) (hl : e.storesLists = false) (hread : e.reads = false)
    (hreaped : s.reaped = true → reaped = true)
    (ht : s.runtimeStats.Advances t ∧ (s.reaped = true → t.iteration = s.runtimeStats.iteration))
    (hu : s.listStats.Advances u ∧ (s.reaped = true → u.iteration = s.listStats.iteration)) :
    Quiet e s { s with reaped := reaped, runtimeStats := t, listStats := u } :=
  ⟨hr, hl, rfl, rfl, rfl, rfl, ht.1, hu.1, fun h => ⟨hreaped h, ht.2 h, hu.2 h⟩,
    fun l hl => ⟨l, hl, by simp [hread]⟩, fun _ h => Or.inl h⟩

theorem Quiet.ofRuntime {reaped : Bool} {t : Sampler ℚ} (hr : e.storesRuntime = false)
    (hl : e.storesLists = false) (hread : e.reads = false)
    (hreaped : s.reaped = true → reaped = true)
    (ht : s.runtimeStats.Advances t ∧ (s.reaped = true → t.iteration = s.runtimeStats.iteration)) :
    Quiet e s { s with reaped := reaped, runtimeStats := t } :=
  .ofThreads hr hl hread hreaped ht ⟨.refl _, fun _ => rfl⟩

theorem Quiet.ofList {reaped : Bool} {u : Sampler (ℚ × ℕ)} (hr : e.storesRuntime = false)
    (hl : e.storesLists = false) (hread : e.reads = false)
    (hreaped : s.reaped = true → reaped = true)
    (hu : s.listStats.Advances u ∧ (s.reaped = true → u.iteration = s.listStats.iteration)) :
    Quiet e s { s with reaped := reaped, listStats := u } :=
  .ofThreads hr hl hread hreaped ⟨.refl _, fun _ => rfl⟩ hu

/-- A step stores the times, appends to the lists, or stores nothing. -/
theorem step_cases (h : s.step e = some s') :
    (∃ clock v t, e = .runtimeStored clock ∧ s.runtimeStats.stored = some (v, t) ∧
      s' = { s with
        programTime := some v
        clockTime := some ⟨v.iteration, clock⟩
        runtimeStats := t }) ∨
    (∃ v t, e = .listStored ∧ s.listStats.stored = some (v, t) ∧
      s' = { s with
        cpuList := s.cpuList ++ [⟨v.iteration, v.value.1 / 100⟩]
        memoryList := s.memoryList ++ [⟨v.iteration, v.value.2⟩]
        listStats := t }) ∨
    Quiet e s s' := by
  cases e
  case runtimeStored clock =>
    obtain ⟨⟨v, t⟩, hv, rfl⟩ := Option.map_eq_some_iff.1 h
    exact Or.inl ⟨clock, v, t, rfl, hv, rfl⟩
  case listStored =>
    obtain ⟨⟨v, t⟩, hv, rfl⟩ := Option.map_eq_some_iff.1 h
    exact Or.inr (Or.inl ⟨v, t, rfl, hv, rfl⟩)
  all_goals refine Or.inr (Or.inr ?_)
  case exit =>
    rw [step] at h
    split_ifs at h
    obtain rfl := Option.some.inj h
    exact ⟨rfl, rfl, rfl, rfl, rfl, rfl, .refl _, .refl _, fun hr => ⟨hr, rfl, rfl⟩,
      fun l hl => ⟨l, hl, (List.append_nil l).symm⟩, fun _ h => Or.inl h⟩
  case runtimeOpened =>
    obtain ⟨t, ht, rfl⟩ := Option.map_eq_some_iff.1 h
    have hadv := Sampler.advances_opened ht
    exact .ofRuntime rfl rfl rfl id ⟨hadv.1, fun _ => hadv.2⟩
  case runtimeMeasured =>
    obtain ⟨t, ht, rfl⟩ := Option.map_eq_some_iff.1 h
    have hadv := Sampler.advances_measured ht
    exact .ofRuntime rfl rfl rfl id ⟨hadv.1, fun _ => hadv.2⟩
  case runtimePolled =>
    obtain ⟨m, hm, h⟩ := Option.bind_eq_some_iff.1 h
    obtain ⟨t, ht, rfl⟩ := Option.map_eq_some_iff.1 h
    obtain ⟨rfl, hrunning⟩ := poll_eq_some hm
    have hadv := Sampler.advances_polled ht
    exact .ofRuntime rfl rfl rfl (fun hr => by rw [hr, Bool.true_or])
      ⟨hadv.1, fun hr => hadv.2 (hrunning hr)⟩
  case listOpened =>
    obtain ⟨t, ht, rfl⟩ := Option.map_eq_some_iff.1 h
    have hadv := Sampler.advances_opened ht
    exact .ofList rfl rfl rfl id ⟨hadv.1, fun _ => hadv.2⟩
  case listMeasured =>
    obtain ⟨t, ht, rfl⟩ := Option.map_eq_some_iff.1 h
    have hadv := Sampler.advances_measured ht
    exact .ofList rfl rfl rfl id ⟨hadv.1, fun _ => hadv.2⟩
  case listPolled =>
    obtain ⟨m, hm, h⟩ := Option.bind_eq_some_iff.1 h
    obtain ⟨t, ht, rfl⟩ := Option.map_eq_some_iff.1 h
    obtain ⟨rfl, hrunning⟩ := poll_eq_some hm
    have hadv := Sampler.advances_polled ht
    exact .ofList rfl rfl rfl (fun hr => by rw [hr, Bool.true_or])
      ⟨hadv.1, fun hr => hadv.2 (hrunning hr)⟩
  case callerPolled running =>
    obtain ⟨m, hm, h⟩ := Option.bind_eq_some_iff.1 h
    obtain ⟨rfl, -⟩ := poll_eq_some hm
    rcases hc : s.caller <;> simp only [hc, reduceCtorEq] at h
    obtain rfl := Option.some.inj h
    refine .ofCaller rfl rfl (fun hr => by rw [hr, Bool.true_or])
      (fun l hl => ⟨[], by rw [hc]; rfl, ?_⟩) fun x hx => ?_
    · cases running <;> exact (Option.some.inj hl).symm
    · cases running <;> simp at hx
  case hasattr =>
    rcases hc : s.caller <;> simp only [step, hc, reduceCtorEq] at h
    all_goals
      obtain rfl := Option.some.inj h
      refine .ofCaller rfl rfl id (fun l hl => ⟨l, ?_, (List.append_nil l).symm⟩) fun x hx => ?_
      · rw [hc]
        split_ifs at hl
        · exact hl
        · simp [Caller.readings] at hl
      · split_ifs at hx with hsome
        simp_all
  all_goals
    rcases hc : s.caller <;> simp only [step, hc, reduceCtorEq] at h
    split_ifs at h
    obtain rfl := Option.some.inj h
    refine .ofCaller rfl rfl id (fun l hl => ?_) (by simp)
    rw [hc]
    exact ⟨_, rfl, (Option.some.inj hl).symm⟩

/-! ## What is stored -/

/-- Between two steps : what is stored was stored in pairs, and an iteration with its store
still to come is later than the one whose times are there. -/
structure Paired (s : ClientProcess) : Prop where
  times : s.programTime.map (·.iteration) = s.clockTime.map (·.iteration)
  lists : s.memoryList.map (·.iteration) = s.cpuList.map (·.iteration)
  le : ∀ v ∈ s.programTime, v.iteration ≤ s.runtimeStats.iteration
  lt : s.runtimeStats.busy = true → ∀ v ∈ s.programTime, v.iteration < s.runtimeStats.iteration

theorem paired_start : Paired start :=
  ⟨rfl, rfl, by simp [start], by simp [start]⟩

theorem Paired.step (h : s.Paired) (he : s.step e = some s') : s'.Paired := by
  rcases step_cases he with ⟨clock, v, t, -, hv, rfl⟩ | ⟨v, t, -, -, rfl⟩ | hq
  · obtain ⟨-, hn, rfl⟩ := Sampler.stored_eq_some hv
    exact ⟨rfl, h.lists, by simp [hn], by simp [Sampler.busy]⟩
  · exact ⟨h.times, by simp [h.lists], h.le, h.lt⟩
  · refine ⟨?_, ?_, fun v hv => ?_, fun hbusy v hv => ?_⟩
    · rw [hq.programTime, hq.clockTime, h.times]
    · rw [hq.memoryList, hq.cpuList, h.lists]
    · rw [hq.programTime] at hv
      exact (h.le v hv).trans hq.runtimeStats.le
    · rw [hq.programTime] at hv
      rcases hq.runtimeStats.busy hbusy with hb | hlt
      · exact (h.lt hb v hv).trans_le hq.runtimeStats.le
      · exact (h.le v hv).trans_lt hlt

theorem paired_of_run (h : run step start es = some s) : s.Paired :=
  run_invariant paired_start (fun _ _ _ hm he => hm.step he) h

/-- From one point of a run to a later one the times change exactly by the thread's stores,
and never go back to an earlier iteration. -/
theorem times_since {m : ClientProcess} {p : Stored ℚ} (hm : m.Paired)
    (hp : m.programTime = some p) (h : run step m es = some s) :
    s.Paired ∧ ∃ q, s.programTime = some q ∧ p.iteration ≤ q.iteration ∧
      (p.iteration = q.iteration ↔ ∀ e ∈ es, e.storesRuntime = false) := by
  refine run_induction (P := fun es s => s.Paired ∧ ∃ q, s.programTime = some q ∧
    p.iteration ≤ q.iteration ∧ (p.iteration = q.iteration ↔ ∀ e ∈ es, e.storesRuntime = false))
    ⟨hm, p, hp, le_rfl, by simp⟩ ?_ h
  rintro es s e s' - ⟨hs, q, hq, hle, hiff⟩ he
  refine ⟨hs.step he, ?_⟩
  rcases step_cases he with ⟨clock, v, t, rfl, hv, rfl⟩ | ⟨v, t, rfl, -, rfl⟩ | hquiet
  · obtain ⟨hbusy, hn, -⟩ := Sampler.stored_eq_some hv
    have hlt := hs.lt hbusy q hq
    refine ⟨v, rfl, by omega, iff_of_false (by omega) fun hall => ?_⟩
    simpa [Event.storesRuntime] using hall _ (List.mem_append_right _ (List.mem_singleton_self _))
  · exact ⟨q, hq, hle, by simpa [or_imp, forall_and, Event.storesRuntime] using hiff⟩
  · refine ⟨q, hquiet.programTime.trans hq, hle, ?_⟩
    simpa [or_imp, forall_and, hquiet.storesRuntime] using hiff

/-- Once a sample of the times is stored, `get_results` does not raise. -/
theorem not_raised {m : ClientProcess} (hm : m.Paired) {p : Stored ℚ}
    (hp : m.programTime = some p) (hcaller : ∀ x, m.caller ≠ .raised x)
    (h : run step m es = some s) : ∀ x, s.caller ≠ .raised x := by
  refine run_induction (P := fun _ s => ∀ x, s.caller ≠ .raised x) hcaller ?_ h
  intro es s e s' hs ih he x hx
  obtain ⟨hpaired, q, hq, -⟩ := times_since hm hp hs
  have htimes := hpaired.times
  rcases step_cases he with ⟨clock, v, t, -, -, rfl⟩ | ⟨v, t, -, -, rfl⟩ | hquiet
  · exact ih x hx
  · exact ih x hx
  · rcases hquiet.raised x hx with hraised | hnone | hnone
    · exact ih x hraised
    · simp [hq] at hnone
    · simp [hq, hnone] at htimes

/-- The lists only grow, by the stores of their thread. -/
theorem lists_since {m : ClientProcess} (h : run step m es = some s) :
    ∃ l, s.memoryList = m.memoryList ++ l ∧ l.length = es.countP Event.storesLists := by
  refine run_induction (P := fun es s => ∃ l, s.memoryList = m.memoryList ++ l ∧
    l.length = es.countP Event.storesLists) ⟨[], by simp⟩ ?_ h
  rintro es s e s' - ⟨l, hl, hlen⟩ he
  rcases step_cases he with ⟨clock, v, t, rfl, -, rfl⟩ | ⟨v, t, rfl, -, rfl⟩ | hquiet
  · exact ⟨l, hl, by simpa [Event.storesLists] using hlen⟩
  · exact ⟨l ++ [⟨v.iteration, v.value.2⟩], by simp [hl], by simp [hlen, Event.storesLists]⟩
  · exact ⟨l, hquiet.memoryList.trans hl, by simpa [hquiet.storesLists] using hlen⟩

/-- What `get_results` has read so far is what the run's labels say, in this order. -/
theorem readings_of_run (h : run step start es = some s) :
    ∀ l ∈ s.caller.readings, es.filter Event.reads = l := by
  refine run_induction (P := fun es s => ∀ l ∈ s.caller.readings, es.filter Event.reads = l)
    (by simp [start, Caller.readings]) ?_ h
  intro es s e s' _ ih he l' hl'
  rw [List.filter_append]
  rcases step_cases he with ⟨clock, v, t, rfl, -, rfl⟩ | ⟨v, t, rfl, -, rfl⟩ | hquiet
  · rw [ih l' hl']
    exact List.append_nil l'
  · rw [ih l' hl']
    exact List.append_nil l'
  · obtain ⟨l, hl, rfl⟩ := hquiet.readings l' hl'
    rw [ih l hl]

/-- After a `poll` has seen the exit, a thread stores at most once, and only in an iteration
that had passed its test before. -/
theorem late_store {m : ClientProcess} (hm : m.reaped = true) (h : run step m es = some s) :
    s.reaped = true ∧
      es.countP Event.storesRuntime + s.runtimeStats.busy.toNat ≤ m.runtimeStats.busy.toNat ∧
      es.countP Event.storesLists + s.listStats.busy.toNat ≤ m.listStats.busy.toNat := by
  refine run_induction (P := fun es s => s.reaped = true ∧
    es.countP Event.storesRuntime + s.runtimeStats.busy.toNat ≤ m.runtimeStats.busy.toNat ∧
    es.countP Event.storesLists + s.listStats.busy.toNat ≤ m.listStats.busy.toNat)
    ⟨hm, by simp, by simp⟩ ?_ h
  rintro es s e s' - ⟨hs, hruntime, hlists⟩ he
  rw [List.countP_append, List.countP_append]
  rcases step_cases he with ⟨clock, v, t, rfl, hv, rfl⟩ | ⟨v, t, rfl, hv, rfl⟩ | hquiet
  · obtain ⟨hbusy, -, rfl⟩ := Sampler.stored_eq_some hv
    rw [hbusy] at hruntime
    exact ⟨hs, by simpa [Event.storesRuntime, Sampler.busy] using hruntime,
      by simpa [Event.storesLists] using hlists⟩
  · obtain ⟨hbusy, -, rfl⟩ := Sampler.stored_eq_some hv
    rw [hbusy] at hlists
    exact ⟨hs, by simpa [Event.storesRuntime] using hruntime,
      by simpa [Event.storesLists, Sampler.busy] using hlists⟩
  · obtain ⟨hs', hr, hl⟩ := hquiet.reaped hs
    have hruntime' := Bool.toNat_le_toNat fun hb =>
      (hquiet.runtimeStats.busy hb).resolve_right hr.not_gt
    have hlists' := Bool.toNat_le_toNat fun hb =>
      (hquiet.listStats.busy hb).resolve_right hl.not_gt
    simp only [List.countP_singleton, hquiet.storesRuntime, hquiet.storesLists, if_neg,
      Bool.false_eq_true, not_false_eq_true, Nat.add_zero]
    exact ⟨hs', by omega, by omega⟩

/-! ## What is read -/

theorem step_readProgramTime {v : Stored ℚ} (h : s.step (.readProgramTime v) = some s') :
    s.programTime = some v := by
  rcases hc : s.caller <;> simp only [step, hc, reduceCtorEq] at h
  split_ifs at h with hv
  exact hv

theorem step_readClockTime {v : Stored ℚ} (h : s.step (.readClockTime v) = some s') :
    s.clockTime = some v := by
  rcases hc : s.caller <;> simp only [step, hc, reduceCtorEq] at h
  split_ifs at h with hv
  exact hv

theorem step_readMemoryList {l : List (Stored ℕ)} (h : s.step (.readMemoryList l) = some s') :
    s.memoryList = l := by
  rcases hc : s.caller <;> simp only [step, hc, reduceCtorEq] at h
  split_ifs at h with hl
  exact hl

theorem step_readCpuList {l : List (Stored ℚ)} (h : s.step (.readCpuList l) = some s') :
    s.cpuList = l := by
  rcases hc : s.caller <;> simp only [step, hc, reduceCtorEq] at h
  split_ifs at h with hl
  exact hl

variable {a b c : List Event}

/-- Two reads of the times agree exactly when nothing is stored between them. -/
theorem times_agree_iff {v w : Stored ℚ}
    (h : run step start (a ++ .readProgramTime v :: (b ++ .readClockTime w :: c)) = some s) :
    v.iteration = w.iteration ↔ ∀ e ∈ .readProgramTime v :: b, e.storesRuntime = false := by
  obtain ⟨m, ha, hrest⟩ := run_append_eq_some.1 h
  rw [← List.cons_append] at hrest
  obtain ⟨m', n', hb, hread, -⟩ := run_split hrest
  obtain ⟨n, hfirst, -⟩ := run_cons_eq_some.1 hb
  obtain ⟨hpaired, q, hq, -, hiff⟩ :=
    times_since (paired_of_run ha) (step_readProgramTime hfirst) hb
  have htimes := hpaired.times
  rw [hq, step_readClockTime hread, Option.map_some, Option.map_some, Option.some.injEq] at htimes
  rw [← hiff, htimes]

theorem lists_agree_iff {l : List (Stored ℕ)} {k : List (Stored ℚ)}
    (h : run step start (a ++ .readMemoryList l :: (b ++ .readCpuList k :: c)) = some s) :
    l.map (·.iteration) = k.map (·.iteration) ↔
      ∀ e ∈ .readMemoryList l :: b, e.storesLists = false := by
  obtain ⟨m, ha, hrest⟩ := run_append_eq_some.1 h
  rw [← List.cons_append] at hrest
  obtain ⟨m', n', hb, hread, -⟩ := run_split hrest
  obtain ⟨n, hfirst, -⟩ := run_cons_eq_some.1 hb
  obtain ⟨new, hnew, hlen⟩ := lists_since hb
  rw [step_readMemoryList hfirst] at hnew
  have hprefix : run step start (a ++ .readMemoryList l :: b) = some m' :=
    run_append_eq_some.2 ⟨m, ha, hb⟩
  have hlists := (paired_of_run hprefix).lists
  rw [step_readCpuList hread, hnew, List.map_append] at hlists
  rw [← hlists, List.self_eq_append_right, List.map_eq_nil_iff, ← List.length_eq_zero_iff, hlen,
    List.countP_eq_zero]
  simp

/-- A result that has been returned holds what the four reads of the run have read. -/
theorem reads_of_returned (h : run step start es = some s) (hr : s.caller = .returned r) :
    ∃ a b c d d', es = a ++ .readProgramTime r.programTime ::
        (b ++ .readClockTime r.clockTime ::
          (c ++ .readMemoryList r.memoryList :: (d ++ .readCpuList r.cpuList :: d'))) ∧
      ∀ e ∈ a ++ b ++ c ++ d, e.reads = false := by
  have hreads := readings_of_run h _ (by rw [hr]; rfl)
  obtain ⟨a, es', rfl, ha, -, hreads⟩ := List.filter_eq_cons_iff.1 hreads
  obtain ⟨b, es', rfl, hb, -, hreads⟩ := List.filter_eq_cons_iff.1 hreads
  obtain ⟨c, es', rfl, hc, -, hreads⟩ := List.filter_eq_cons_iff.1 hreads
  obtain ⟨d, d', rfl, hd, -, -⟩ := List.filter_eq_cons_iff.1 hreads
  refine ⟨a, b, c, d, d', rfl, fun e he => ?_⟩
  simp only [List.mem_append] at he
  rcases he with ((he | he) | he) | he
  · exact Bool.eq_false_iff.2 (ha e he)
  · exact Bool.eq_false_iff.2 (hb e he)
  · exact Bool.eq_false_iff.2 (hc e he)
  · exact Bool.eq_false_iff.2 (hd e he)

end ClientProcess

open ClientProcess

/-- A result is a consistent snapshot exactly when no store falls between the two reads of
what it stores. -/
theorem consistent_iff {es : List Event} {s : ClientProcess} {r : Result}
    (h : run step start es = some s) (hr : s.caller = .returned r) :
    r.Consistent ↔ Undisturbed es := by
  obtain ⟨a, b, c, d, d', rfl, hnone⟩ := reads_of_returned h hr
  simp only [Event.reads, Bool.or_eq_false_iff] at hnone
  have hassoc : a ++ .readProgramTime r.programTime :: (b ++ .readClockTime r.clockTime ::
      (c ++ .readMemoryList r.memoryList :: (d ++ .readCpuList r.cpuList :: d'))) =
      (a ++ .readProgramTime r.programTime :: (b ++ .readClockTime r.clockTime :: c)) ++
        .readMemoryList r.memoryList :: (d ++ .readCpuList r.cpuList :: d') := by simp
  have htimes := times_agree_iff h
  have hlists := lists_agree_iff (hassoc ▸ h)
  rw [Undisturbed, between_eq (fun e he => (hnone e (by simp [he])).1.1.1) rfl ?_ rfl, hassoc,
    between_eq ?_ rfl ?_ rfl, ← htimes, ← hlists]
  · exact ⟨fun hr => ⟨hr.times, hr.lists⟩, fun hr => ⟨hr.1, hr.2⟩⟩
  · intro e he
    simp only [List.mem_append, List.mem_cons] at he
    rcases he with he | rfl | he | rfl | he
    · exact (hnone e (by simp [he])).1.2
    · rfl
    · exact (hnone e (by simp [he])).1.2
    · rfl
    · exact (hnone e (by simp [he])).1.2
  · intro e he
    rcases List.mem_cons.1 he with rfl | he
    · rfl
    · exact (hnone e (by simp [he])).2
  · intro e he
    rcases List.mem_cons.1 he with rfl | he
    · rfl
    · exact (hnone e (by simp [he])).1.1.2

/-- A result is a consistent snapshot if neither thread was past its test when `run_test` saw
the exit. -/
theorem consistent_of_idle {a b : List Event} {m s : ClientProcess} {r : Result}
    (ha : run step start (a ++ [.callerPolled false]) = some m) (hb : run step m b = some s)
    (hr : s.caller = .returned r) (hruntime : m.runtimeStats.busy = false)
    (hlists : m.listStats.busy = false) : r.Consistent := by
  have hrun := run_append_eq_some.2 ⟨m, ha, hb⟩
  obtain ⟨n, -, hpoll⟩ := run_snoc_eq_some.1 ha
  obtain ⟨n', hn, hpoll⟩ := Option.bind_eq_some_iff.1 hpoll
  obtain ⟨rfl, -⟩ := poll_eq_some hn
  have hm : m.reaped = true ∧ m.caller = .testingProgramTime := by
    split at hpoll <;> simp only [reduceCtorEq] at hpoll
    obtain rfl := Option.some.inj hpoll
    simp
  obtain ⟨-, hstore, happend⟩ := late_store hm.1 hb
  rw [hruntime, Bool.toNat_false, Nat.le_zero, Nat.add_eq_zero_iff, List.countP_eq_zero] at hstore
  rw [hlists, Bool.toNat_false, Nat.le_zero, Nat.add_eq_zero_iff, List.countP_eq_zero] at happend
  -- `get_results` has read nothing yet
  have hnone := readings_of_run ha [] (by rw [hm.2]; rfl)
  simp only [List.filter_eq_nil_iff, Event.reads, Bool.or_eq_true, not_or, Bool.not_eq_true]
    at hnone
  refine (consistent_iff hrun hr).2 ⟨fun e he => ?_, fun e he => ?_⟩
  · rw [between_append fun x hx => (hnone x hx).1.1.1] at he
    simpa using hstore.1 e (mem_of_mem_between he)
  · rw [between_append fun x hx => (hnone x hx).1.2] at he
    simpa using happend.1 e (mem_of_mem_between he)

/-- A run with one iteration of each thread before the exit. -/
def sampleRun : List Event :=
  [.runtimeOpened true, .listOpened true, .runtimePolled true, .runtimeMeasured (some 1),
    .runtimeStored 2, .listPolled true, .listMeasured (some (100, 4096)), .listStored, .exit,
    .callerPolled false, .hasattr, .readProgramTime ⟨1, 1⟩, .hasattr, .readClockTime ⟨1, 2⟩,
    .readMemoryList [⟨1, 4096⟩], .readCpuList [⟨1, 1⟩]]

theorem consistent_iff_sample :
    (⟨0, ⟨1, 1⟩, ⟨1, 2⟩, [⟨1, 4096⟩], [⟨1, 1⟩], 0⟩ : Result).Consistent := by
  have hrun : (run step start sampleRun).map (·.caller) =
      some (.returned ⟨0, ⟨1, 1⟩, ⟨1, 2⟩, [⟨1, 4096⟩], [⟨1, 1⟩], 0⟩) := by decide +kernel
  obtain ⟨s, hs, hr⟩ := Option.map_eq_some_iff.1 hrun
  exact (consistent_iff hs hr).2 (by decide)

/-- A second iteration of the runtime thread and a first one of the other have passed their
tests when the client exits, and store between the reads. -/
def tornRun : List Event :=
  [.runtimeOpened true, .listOpened true, .runtimePolled true, .runtimeMeasured (some 1),
    .runtimeStored 2, .runtimePolled true, .runtimeMeasured (some 3), .listPolled true,
    .listMeasured (some (100, 4096)), .exit, .callerPolled false, .hasattr,
    .readProgramTime ⟨1, 1⟩, .runtimeStored 4, .hasattr, .readClockTime ⟨2, 4⟩,
    .readMemoryList [], .listStored, .readCpuList [⟨1, 1⟩]]

theorem torn_result :
    ∃ s r, run step start tornRun = some s ∧ s.caller = .returned r ∧
      r.programTime.iteration ≠ r.clockTime.iteration ∧
      r.memoryList.length ≠ r.cpuList.length ∧ ¬r.Consistent := by
  have hrun : (run step start tornRun).map (·.caller) =
      some (.returned ⟨0, ⟨1, 1⟩, ⟨2, 4⟩, [], [⟨1, 1⟩], 0⟩) := by decide +kernel
  obtain ⟨s, hs, hr⟩ := Option.map_eq_some_iff.1 hrun
  exact ⟨s, _, hs, hr, by decide, by decide, fun hc => absurd hc.times (by decide)⟩

end Sampling

end TracerBench
