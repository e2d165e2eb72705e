import TracerBench.Benchmark

/-!
# Disconnects in the middle of a benchmark

A shutdown kills the satellite processes, and their counters with them; a start makes new
ones, whose counters and baselines are 0. So a result counts what the satellites that are
there at the end have counted since they were started or reset, and nothing of what the
terminated ones had counted and acknowledged.
-/

namespace TracerBench

variable {Span : Type*} [DecidableEq Span] {parse : List UInt8 → Option (List Span)}
  {runOf : Span → ℕ} {mode : Mode} {ports : List ℕ}

/-- The satellites of the group run, except in a shutdown, and so do those being built. -/
structure GroupSys.Up (s : GroupSys Span) : Prop where
  group : (∀ todo, s.admin ≠ .terminating todo) → ∀ p ∈ s.group, s.isRunning p = true
  built : ∀ p ∈ s.admin.built, s.isRunning p = true

namespace GroupSys

theorem Up.step {s s' : GroupSys Span} {e : GroupEvent Span} (h : s.Up)
    (he : s.step parse e = some s') (hdie : ∀ p, e ≠ .die p) : s'.Up := by
  have hkeep : (∀ p, e ≠ .terminate p) → ∀ p, s.isRunning p = true → s'.isRunning p = true :=
    fun hterm p hp => step_isRunning he (hdie p) (hterm p) hp
  by_cases hof : OfAdmin e
  · cases adminStep he hof with
    | stay => exact h
    | shutdown | terminate => exact ⟨fun hadm => absurd rfl (hadm _), by simp [Admin.built]⟩
    | shutdownReturned => exact ⟨by simp [GroupSys.group], by simp [Admin.built]⟩
    | spawn mode port todo built hadm =>
      refine ⟨fun _ p hp => hkeep (by simp) p (h.group (by simp [hadm]) p hp), fun p hp => ?_⟩
      rcases List.mem_append.1 hp with hp | hp
      · exact hkeep (by simp) p (h.built p (by rw [hadm]; exact hp))
      · obtain rfl := List.mem_singleton.1 hp
        exact isRunning_iff.2 ⟨.fresh mode port, by simp, rfl⟩
    | assign mode built hadm =>
      exact ⟨fun _ p hp => h.built p (by rw [hadm]; exact hp), by simp [Admin.built]⟩
    | next a ha =>
      obtain ⟨-, hbuilt, hterm⟩ := Bench.adminNext_built ha
      exact ⟨fun _ => h.group hterm, by simp [hbuilt]⟩
    | start _ _ hadm | spawnFailed _ _ _ _ hadm | startReturned hadm | startRaised _ hadm =>
      exact ⟨fun _ => h.group (by simp [hadm]), by simp [Admin.built]⟩
  · obtain ⟨hadm, hsat⟩ := (step_admin he).resolve_left hof
    have hkeep := hkeep (by rintro p rfl; exact hof trivial)
    refine ⟨fun hterm p hp => ?_, fun p hp => hkeep p (h.built p (hadm ▸ hp))⟩
    rw [GroupSys.group, hsat] at hp
    exact hkeep p (h.group (hadm ▸ hterm) p hp)

end GroupSys

namespace Bench

/-- If satellites only stop when they are shut down, no call is answered by a process it
was not meant for. -/
theorem answerFrom_notMem {es : List (BenchEvent Span)} {s : Bench Span}
    (h : run (Bench.step parse runOf) (init mode ports) es = some s)
    (hdie : ∀ p, BenchEvent.group (.die p) ∉ es) :
    ∀ c p q n, BenchEvent.group (.answerFrom c p q n) ∉ es := by
  refine (run_induction (P := fun es (m : Bench Span) =>
    (∀ p, BenchEvent.group (.die p) ∉ es) → m.group.Up ∧
      ∀ c p q n, BenchEvent.group (.answerFrom c p q n) ∉ es) ?_ ?_ h hdie).2
  · have hst := @GroupSys.constructed_steady Span mode ports
    exact fun _ => ⟨⟨fun _ => hst.running, by simp [init, GroupSys.constructed, Admin.built]⟩,
      by simp⟩
  intro es m e m' hm ih he hdie
  simp only [List.mem_append, List.mem_singleton, not_or] at hdie ⊢
  obtain ⟨hup, hown⟩ := ih fun p => (hdie p).1
  rcases step_cases he with ⟨n, rfl, -, rfl⟩ | ⟨n, rfl, -, rfl⟩ | ⟨n, rfl, -, -, rfl⟩ |
    ⟨x, g, rfl, hx, hg, rfl⟩
  · exact ⟨hup, by simpa using hown⟩
  · exact ⟨hup, by simpa using hown⟩
  · exact ⟨hup, by simpa using hown⟩
  · rw [after_group]
    refine ⟨hup.step hg fun p hxe => (hdie p).2 (by rw [hxe]), fun c p q n => ⟨hown c p q n, ?_⟩⟩
    intro hxe
    obtain rfl := BenchEvent.group.inj hxe
    -- the caller is in a call, so nobody is shutting the group down
    obtain ⟨todo, r, o, -, hc, ho, halive, -⟩ := GroupSys.step_answerFrom hg
    have hbooks := books hm hown
    have hadm := hbooks.control.admin (by
      intro k hpc
      have hidle := hbooks.control.idle (by rw [hpc]; rfl)
      simp [hc] at hidle)
    have hp := hup.group (by simp [hadm]) p (hbooks.covering.asked_mem hc)
    simp [GroupSys.isRunning, ho, halive] at hp

end Bench

open Bench in
/-- A result counts what the satellites that the group has at its last get counted since
they were reset or started, whatever was shut down and started while the client ran. -/
theorem benchmark_reconnect (parse : List UInt8 → Option (List Span)) (runOf : Span → ℕ)
    (mode : Mode) (ports : List ℕ) {es : List (BenchEvent Span)} {s : Bench Span}
    (h : run (Bench.step parse runOf) (init mode ports) es = some s)
    (hdie : ∀ p, BenchEvent.group (.die p) ∉ es) :
    ∀ x ∈ s.results, ∃ a m b, es = a ++ .group (.returned .get x.2.spansReceived) :: b ∧
      run (Bench.step parse runOf) (init mode ports) a = some m ∧
      m.pc = .reading x.2.spansSent ∧ m.launched = x.1 ∧
      (GroupSys.answers (groupTrace a)).map Prod.fst = m.group.group ∧
      x.2.spansReceived = (harvest a).length := by
  intro x hx
  obtain ⟨a, m, b, hes, hm, hpc, hk, hans, hv, -⟩ :=
    ((results_read h).1 x hx).harvest (answerFrom_notMem h hdie)
  exact ⟨a, m, b, hes, hm, hpc, hk, hans, hv⟩

/-- A report is counted and acknowledged, and then the group is restarted. -/
def sampleDisconnect : List (GroupEvent (List UInt8)) :=
  [.sat 0 (.accept "/api/v2/reports" [26, 0]), .sat 0 (.post 0 .parse), .sat 0 (.post 0 .wake),
    .sat 0 (.post 0 (.add [[]])), .sat 0 (.post 0 (.respond 200)),
    .shutdown, .terminate 0, .shutdownReturned,
    .start .typical [8360], .spawn 8360, .assign, .adminStep, .adminStep, .startReturned]

/-- A span that was counted and acknowledged before the shutdown is not in the result. -/
theorem disconnect_loses_span :
    ∃ s, run (Bench.step parseSpans fun _ => 0) (Bench.init .typical [8360])
        (sampleBenchmark 0 1 0 0 sampleDisconnect) = some s ∧
      s.results = [(1, ⟨1, 0⟩)] ∧
      Satellite.ackedSpans parseSpans (GroupSys.satTrace 0 sampleDisconnect) = 1 :=
  ⟨_, rfl, rfl, rfl⟩

theorem benchmark_reconnect_sample :
    ∃ a m b, sampleBenchmark 0 1 0 0 sampleDisconnect =
        a ++ .group (.returned .get 0) :: b ∧
      run (Bench.step parseSpans fun _ => 0) (Bench.init .typical [8360]) a = some m ∧
      (GroupSys.answers (Bench.groupTrace a)).map Prod.fst = m.group.group ∧
      (0 : ℤ) = (Bench.harvest a).length := by
  obtain ⟨s, hrun, hres⟩ : ∃ s, run (Bench.step parseSpans fun _ => 0)
      (Bench.init .typical [8360]) (sampleBenchmark 0 1 0 0 sampleDisconnect) = some s ∧
      s.results = [(1, ⟨1, 0⟩)] := ⟨_, rfl, rfl⟩
  obtain ⟨a, m, b, hes, hm, -, -, hans, hv⟩ := benchmark_reconnect parseSpans (fun _ => 0) .typical
    [8360] hrun (by simp [sampleBenchmark, sampleDisconnect]) (1, ⟨1, 0⟩)
    (by rw [hres]; exact List.mem_singleton_self _)
  exact ⟨a, m, b, hes, hm, hans, hv⟩

end TracerBench
