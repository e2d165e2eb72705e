import TracerBench.GoBenchmark
import TracerBench.TracerPace

/-!
# When a Go benchmark drops nothing

`test_dropped_spans` wants `dropped_spans` to be zero when the client is slow enough. For the Go
client that is so when each report is answered with 200 before it is given up, and the buffer of
its tracer has room for the client's pace.
-/

namespace TracerBench

namespace GoBenchmark

variable {Span σ : Type*} [DecidableEq Span] [DecidableEq σ] {capacity : ℕ} {opts : TracerOptions}
  {marshal : ReportRequest Span → List UInt8} {parse : List UInt8 → Option (List σ)} {mode : Mode}
  {closes : Bool} {s s' : GoBenchmark Span σ capacity} {es : List (GoEvent Span σ)}
  {e : GoEvent Span σ} {req : ReportRequest Span}

/-- A step gives up only the report that `Report` has returned an error for. -/
theorem givenUp_step (he : s.step opts marshal parse mode closes e = some s')
    (hmem : .report req .givenUp ∈ s'.postings) :
    .report req .givenUp ∈ s.postings ∨ e = .giveUp := by
  cases stepped he with
  | finish | close | tracer | refused => exact Or.inl hmem
  | post =>
    refine Or.inl ((List.mem_append.1 hmem).resolve_right ?_)
    simp
  | reply i code =>
    refine Or.inl ((List.mem_or_eq_of_mem_set hmem).resolve_right ?_)
    unfold fateOf
    split_ifs <;> simp
  | giveUp => exact Or.inr rfl
  | satellite x sat hforeign =>
    refine Or.inl ((List.mem_append.1 hmem).resolve_right ?_)
    cases x <;> simp [SatEvent.others]

theorem givenUp_run {script : List Span} {now base : ℕ}
    (h : run (step opts marshal parse mode closes)
      (start script now base : GoBenchmark Span σ capacity) es = some s)
    (hmem : .report req .givenUp ∈ s.postings) : .giveUp ∈ es := by
  refine run_induction (P := fun es (m : GoBenchmark Span σ capacity) =>
    .report req .givenUp ∈ m.postings → .giveUp ∈ es) (by simp [start]) ?_ h hmem
  intro es m e m' _ ih he hmem
  rcases givenUp_step he hmem with hold | rfl
  · exact List.mem_append_left _ (ih hold)
  · simp

theorem own_of_mem {e : TracerEvent Span}
    (h : run (step opts marshal parse mode closes) s es = some s') (he : .tracer e ∈ es) :
    e.own = true := by
  obtain ⟨a, b, rfl⟩ := List.append_of_mem he
  obtain ⟨m, m', -, hstep, -⟩ := run_split h
  cases stepped hstep with
  | tracer _ t hown => exact hown

end GoBenchmark

open GoBenchmark in
/-- A Go client whose tracer has room for its pace, and whose reports are all acknowledged,
drops nothing : once it has closed its tracer the satellite has counted each of its spans, and
none twice. -/
theorem go_benchmark_keeps {σ : Type*} [DecidableEq σ] {capacity : ℕ} (args : Args)
    (hr : 0 ≤ args.repeats) {r : Performed} (hperf : Returns (GoClient.performWork args) r)
    (opts : TracerOptions) (marshal : ReportRequest ℕ → List UInt8)
    (parse : List UInt8 → Option (List σ)) (mode : Mode)
    (hparse : ∀ req, req.spans.length ≤ capacity →
      ∃ spans, parse (marshal req) = some spans ∧ spans.length = req.spans.length)
    (now base : ℕ) {es : List (GoEvent ℕ σ)} {s : GoBenchmark ℕ σ capacity}
    (h : run (GoBenchmark.step opts marshal parse mode r.flushed)
      (start (finished r.progress.client.events) now base) es = some s)
    (hclosed : s.tracer.closing = .closed) {q : ℕ} (hcap : capacity / 2 + 2 * q ≤ capacity)
    (hpace : GoTracer.Paced q (tracerTrace es)) (hkept : .giveUp ∉ es)
    (hcodes : ∀ code, .reply code ∈ es → code = 200) :
    s.satellite.spansReceived = base + args.repeats.toNat ∧
      (Result.mk args.repeats.toNat (s.satellite.spansReceived - base)).droppedSpans = 0 := by
  have htracer := tracer_run h
  have hscript := scripted_run h
  -- every report of the tracer is one of the benchmark's replies
  have hack : GoTracer.Acked (tracerTrace es) := by
    intro reply hmem
    obtain ⟨e, he, hreply⟩ := List.mem_filterMap.1 hmem
    cases e with
    | reply code =>
      obtain rfl := hcodes code he
      cases hreply
      rfl
    | giveUp => exact absurd he hkept
    | tracer e =>
      obtain rfl : e = .report reply := Option.some.inj hreply
      exact absurd (own_of_mem h he) Bool.false_ne_true
    | _ => cases hreply
  have hroomy := GoTracer.roomy_run hcap htracer hscript.clean hack hpace
  obtain ⟨last, hlast, hempty⟩ :=
    (GoTracer.drained_run htracer hscript.clean hscript.quiet).flushed (Or.inr hclosed)
  have hnone := (hempty (hroomy.answers last (List.mem_of_getLast? hlast))).1
  have hleft : s.left = 0 := by
    rw [left, hnone, hroomy.buffer]
    rfl
  have hagain : s.again parse = 0 :=
    again_eq_zero (posted_run h) (inFlight_closed h hclosed) fun req hmem =>
      hkept (givenUp_run h hmem)
  have hdropped := droppedSpans_closed hparse h hclosed
  rw [length_finished hr hperf, hroomy.told, hleft, hagain] at hdropped
  refine ⟨?_, hdropped⟩
  simp only [Result.droppedSpans] at hdropped
  omega

/-- The second span is recorded while the report of the first is out. -/
def sampleKeptRun : List (GoEvent ℕ (List UInt8)) :=
  [.finish 1, .tracer (.tick 9000000000), .tracer (.flush .loop 9000000000),
    .tracer (.translate 0), .post, .satellite (.post 0 .parse), .finish 0,
    .satellite (.post 0 .wake), .satellite (.post 0 (.add [[]])),
    .satellite (.post 0 (.respond 200)), .reply 200, .tracer .postFlush, .close,
    .tracer .loopClosed, .tracer .loopSeen,
    .tracer (.flush .close 9100000000), .tracer (.translate 0), .post,
    .satellite (.post 1 .parse), .satellite (.post 1 .wake), .satellite (.post 1 (.add [[]])),
    .satellite (.post 1 (.respond 200)), .reply 200, .tracer .postFlush, .tracer .disconnect]

theorem go_benchmark_keeps_sample : ∃ s : GoBenchmark ℕ (List UInt8) 1000,
    run (GoBenchmark.step goOptions marshalEmpty parseSpans .typical true)
      (.start [1, 0] 1 5) sampleKeptRun = some s ∧
    s.satellite.spansReceived = 7 := by
  obtain ⟨s, hrun, hclosed⟩ : ∃ s : GoBenchmark ℕ (List UInt8) 1000,
      run (GoBenchmark.step goOptions marshalEmpty parseSpans .typical true)
        (.start [1, 0] 1 5) sampleKeptRun = some s ∧ s.tracer.closing = .closed := ⟨_, rfl, rfl⟩
  obtain ⟨r, hperf, hfinished, hflushed⟩ := goArgs_performed
  have hrun' := hrun
  rw [← hfinished, ← hflushed] at hrun'
  have hpace : GoTracer.Paced 250 (GoBenchmark.tracerTrace sampleKeptRun) := by decide
  have hcodes : ∀ code, .reply code ∈ sampleKeptRun → code = 200 := by simp [sampleKeptRun]
  obtain ⟨hreceived, -⟩ := go_benchmark_keeps goArgs (by decide) hperf goOptions marshalEmpty
    parseSpans .typical (fun req _ => parseSpans_marshal req) 1 5 hrun' hclosed (by decide) hpace
    (by decide) hcodes
  exact ⟨s, hrun, hreceived⟩

end TracerBench
