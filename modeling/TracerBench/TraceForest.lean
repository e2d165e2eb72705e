import Mathlib.Tactic.IntervalCases
import TracerBench.Forest
import TracerBench.SleepDebt
import TracerBench.TraceShape

/-!
# The traces of a whole run

`perform_work` calls `generate_spans` without a parent, once a batch, so a run of a client
starts a new trace every six spans. `spanParent` is the parent of each span of such a run,
by its number, and `clients_traces` says that it is what each client asks of its tracing
library : its traces are its batches. The clients differ only in the parent of the fourth
span of a trace.
-/

namespace TracerBench

/-- The parent of span `k` of a run, with the spans numbered from 0. -/
def spanParent (nextParent : ℕ → ℕ → ℕ) (k : ℕ) : Option ℕ :=
  if k % 6 = 0 then none
  else if k % 6 = 3 then some (nextParent (k - 2) (k - 1))
  else some (k - 1)

/-- The spans of one trace : a chain of parents leads from each to the others. -/
abbrev SameTrace (es : List SpanEvent) : ℕ → ℕ → Prop :=
  SameTree fun p k => .start k (some p) ∈ es

section SpanParent

variable {nextParent : ℕ → ℕ → ℕ}

theorem spanParent_eq_none {k : ℕ} : spanParent nextParent k = none ↔ k % 6 = 0 := by
  unfold spanParent
  split_ifs with h0 h3 <;> simp [h0]

/-- The parent of a span is started before it, in the same batch. -/
theorem spanParent_eq_some
    (hnext : ∀ serverSpan dbSpan, nextParent serverSpan dbSpan ∈ [dbSpan, serverSpan]) {k p : ℕ}
    (h : spanParent nextParent k = some p) : p < k ∧ p / 6 = k / 6 := by
  unfold spanParent at h
  split_ifs at h with h0 h3
  · have hp := hnext (k - 2) (k - 1)
    rw [Option.some.inj h, List.mem_pair] at hp
    omega
  · have hp := Option.some.inj h
    omega

/-- A batch that starts after whole batches. -/
theorem levels_batch {n : ℕ} (hn : n ≤ 6) (m : ℕ) :
    levels nextParent n none (6 * m) = (List.range' (6 * m) n).map (spanParent nextParent) := by
  interval_cases n <;> simp [levels, List.range', spanParent, Nat.add_assoc]

end SpanParent

/-! ## The spans that are started -/

/-- A started span is named with its parent. -/
theorem start_mem_zip {es : List SpanEvent} {k : ℕ} {parent : Option ℕ} :
    .start k parent ∈ es ↔ (k, parent) ∈ (started es).zip (parents es) := by
  induction es with
  | nil => simp
  | cons e es ih => cases e <;> simp [ih]

theorem start_mem_iff {es : List SpanEvent} {n : ℕ} {f : ℕ → Option ℕ}
    (hs : started es = List.range n) (hp : parents es = (List.range n).map f) (k : ℕ)
    (parent : Option ℕ) : .start k parent ∈ es ↔ k < n ∧ parent = f k := by
  rw [start_mem_zip, hs, hp, ← List.map_id (List.range n), List.map_map, List.zip_map']
  simp [eq_comm]

/-- Spans with these parents are in the same trace exactly when they are of the same batch. -/
theorem sameTrace_iff {nextParent : ℕ → ℕ → ℕ}
    (hnext : ∀ serverSpan dbSpan, nextParent serverSpan dbSpan ∈ [dbSpan, serverSpan])
    {es : List SpanEvent} {n : ℕ}
    (hstart : ∀ k parent, .start k parent ∈ es ↔ k < n ∧ parent = spanParent nextParent k)
    {j k : ℕ} (hj : j < n) (hk : k < n) : SameTrace es j k ↔ j / 6 = k / 6 := by
  have hchild : ∀ p k, .start k (some p) ∈ es → p < k ∧ p / 6 = k / 6 := fun p k h =>
    spanParent_eq_some hnext ((hstart k _).1 h).2.symm
  have hforest : IsForest {k | k < n} (fun k => .start k none ∈ es)
      (fun p k => .start k (some p) ∈ es) := by
    refine ⟨Subrelation.wf (fun h => (hchild _ _ h).1) wellFounded_lt, fun k hk => ?_⟩
    rcases hparent : spanParent nextParent k with _ | p
    · exact Or.inl ((hstart k none).2 ⟨hk, hparent.symm⟩)
    · exact Or.inr ⟨p, (spanParent_eq_some hnext hparent).1.trans hk,
        (hstart k _).2 ⟨hk, hparent.symm⟩⟩
  refine hforest.sameTree_iff (· / 6) (fun p k h => (hchild p k h).2) ?_ hj hk
  intro r r' hr hr' heq
  have h0 := spanParent_eq_none.1 ((hstart r none).1 hr).2.symm
  have h0' := spanParent_eq_none.1 ((hstart r' none).1 hr').2.symm
  omega

/-! ## The loop -/

section Loop

variable {nextParent : ℕ → ℕ → ℕ} {generate : ℤ → Client → Option (Option PyError × Client)}
  {sleepFor : ℚ → Option PyError} {flushes : Bool} {args : Args}

/-- A `generate_spans` that starts its batches level by level. -/
def GeneratesLevels (nextParent : ℕ → ℕ → ℕ)
    (generate : ℤ → Client → Option (Option PyError × Client)) : Prop :=
  ∀ (n : ℕ) c, 1 ≤ n → n ≤ 6 → c.active = [] →
    ∃ c', generate n c = some (none, c') ∧ Starts (levels nextParent n none c.next) c c' ∧
      c'.active = []

/-- Between two passes : the spans started so far, and no scope open. -/
structure Batched (nextParent : ℕ → ℕ → ℕ) (p : Progress) : Prop where
  starts : Starts ((List.range p.spansSent.toNat).map (spanParent nextParent)) Client.fresh
    p.client
  active : p.client.active = []

/-- The client after a pass that goes round again is what `generate_spans` has left. -/
theorem batch_client {p p' : Progress}
    (h : batch generate sleepFor flushes args p = some (.more p')) :
    generate (min (args.repeats - p.spansSent) spansPerLoop) p.client =
      some (none, p'.client) := by
  have hlt := (batch_settled h).lt
  rw [batch, if_pos hlt] at h
  rcases hg : generate (min (args.repeats - p.spansSent) spansPerLoop) p.client with
    _ | ⟨_ | e, c⟩
  · simp [hg] at h
  · simp only [hg] at h
    split_ifs at h
    · cases hsleep : sleepFor args.sleepInterval with
      | some e => simp [hsleep] at h
      | none =>
        simp only [hsleep] at h
        cases h
        rfl
    · cases h
      rfl
  · simp [hg] at h

theorem passes_batched (hgen : GeneratesLevels nextParent generate) (hr : 0 ≤ args.repeats)
    {p : Progress} (h : Passes (batch generate sleepFor flushes args) Progress.start p) :
    Batched nextParent p := by
  induction h with
  | refl => exact ⟨Starts.refl _, rfl⟩
  | @tail p p' hp hb ih =>
    have htrack := passes_onTrack hr hp
    have hset := batch_settled hb
    have hlt := hset.lt
    have hnonneg := htrack.nonneg
    have hfull := htrack.full hlt
    obtain ⟨m, hm⟩ : ∃ m : ℕ, p.spansSent = (6 * m : ℕ) := by
      refine ⟨(p.spansSent / 6).toNat, ?_⟩
      unfold spansPerLoop at hfull
      omega
    obtain ⟨n, hn⟩ : ∃ n : ℕ, min (args.repeats - p.spansSent) spansPerLoop = n :=
      ⟨_, (Int.toNat_of_nonneg (by unfold spansPerLoop; omega)).symm⟩
    have hle : 1 ≤ n ∧ n ≤ 6 := by
      unfold spansPerLoop at hn
      omega
    have hsent := hset.spansSent
    obtain ⟨c', hc', hstarts, ha⟩ := hgen n p.client hle.1 hle.2 ih.active
    have hclient := batch_client hb
    rw [hn, hc'] at hclient
    obtain rfl : c' = p'.client := (Prod.mk.inj (Option.some.inj hclient)).2
    have hold := ih.starts
    rw [hm, Int.toNat_natCast] at hold
    have hnext : p.client.next = 6 * m := by
      rw [hold.next, List.length_map, List.length_range]
      exact Nat.zero_add _
    rw [hnext, levels_batch hle.2] at hstarts
    refine ⟨?_, ha⟩
    rw [hsent, hn, hm, ← Nat.cast_add, Int.toNat_natCast, List.range_eq_range',
      ← List.range'_append_1, List.map_append, Nat.zero_add, ← List.range_eq_range']
    exact hold.trans hstarts

end Loop

/-! ## The three clients -/

/-- `performWork` comes to its end having started the spans `0`, …, `n - 1`, a trace for each
batch. -/
def Traced (nextParent : ℕ → ℕ → ℕ) (n : ℕ) (performWork : ℕ → Option Performed) : Prop :=
  ∃ r, Returns performWork r ∧ r.error = none ∧
    started r.progress.client.events = List.range n ∧
    (∀ k parent, .start k parent ∈ r.progress.client.events ↔
      k < n ∧ parent = spanParent nextParent k) ∧
    ∀ j k, j < n → k < n → (SameTrace r.progress.client.events j k ↔ j / 6 = k / 6)

theorem performWork_traced {nextParent : ℕ → ℕ → ℕ}
    (hnext : ∀ serverSpan dbSpan, nextParent serverSpan dbSpan ∈ [dbSpan, serverSpan])
    {args : Args} (hr : 0 ≤ args.repeats)
    {generate : ℕ → ℤ → Client → Option (Option PyError × Client)}
    {sleepFor : ℚ → Option PyError} {flushes : Bool}
    (hgen : ∀ fuel, 2 ≤ fuel → GeneratesLevels nextParent (generate fuel)) {r : Performed}
    (hret : Returns
      (fun fuel => loop (batch (generate fuel) sleepFor flushes args) fuel Progress.start) r)
    (he : r.error = none) (hb : Batch args.work [] args.repeats Client.fresh r.progress.client) :
    Traced nextParent args.repeats.toNat
      (fun fuel => loop (batch (generate fuel) sleepFor flushes args) fuel Progress.start) := by
  obtain ⟨k, hk⟩ := hret
  obtain ⟨p, hp, hdone⟩ := loop_passes (hk (max k 2) (le_max_left _ _))
  obtain ⟨hle, hprog⟩ := batch_done hdone he
  have hsent : p.spansSent = args.repeats := le_antisymm (passes_onTrack hr hp).le hle
  obtain ⟨⟨es, hes, hparents⟩, -⟩ := (passes_batched (hgen _ (le_max_right _ _)) hr hp).starts
  obtain ⟨es', hes', hrun⟩ := hb.ran.events
  rw [hsent] at hparents
  rw [hprog] at hes' hrun hb
  obtain rfl : es = p.client.events := hes.symm
  obtain rfl : es' = p.client.events := hes'.symm
  have hcount : p.client.next - Client.fresh.next = args.repeats.toNat := by
    have hnext := hb.next
    simp only [Client.fresh] at hnext ⊢
    omega
  have hstarted : started p.client.events = List.range args.repeats.toNat := by
    rw [started_of_run hrun, hcount, List.range_eq_range']
    rfl
  have hmem := start_mem_iff hstarted hparents
  refine ⟨r, ⟨k, hk⟩, he, ?_⟩
  rw [hprog]
  exact ⟨hstarted, hmem, fun _ _ hj hk => sameTrace_iff hnext hmem hj hk⟩

theorem generateSpansWith_levels {nextParent : ℕ → ℕ → ℕ}
    (hnext : ∀ serverSpan dbSpan, nextParent serverSpan dbSpan ∈ [dbSpan, serverSpan]) (w : ℤ)
    {fuel : ℕ} (hfuel : 2 ≤ fuel) :
    GeneratesLevels nextParent
      (fun n c => (generateSpansWith nextParent w fuel n none c).map (none, ·)) := by
  intro n c h1 hn ha
  obtain ⟨c', hc', hs⟩ := generateSpansWith_starts nextParent w fuel n none c h1 (by omega)
  obtain ⟨c'', hc'', -, ha'⟩ := generateSpansWith_batch (w := w) hnext fuel (n := n) none (s := [])
    c (by omega) (by omega) (by simp)
  obtain rfl := Option.some.inj (hc'.symm.trans hc'')
  exact ⟨c', Option.map_eq_some_iff.2 ⟨c', hc', rfl⟩, hs, ha'.trans ha⟩

theorem PythonClient.generateSpans_levels (w : ℤ) {fuel : ℕ} (hfuel : 2 ≤ fuel) :
    GeneratesLevels (fun serverSpan _ => serverSpan)
      (fun n c => PythonClient.generateSpans w fuel n none c) := by
  intro n c h1 hn ha
  obtain ⟨c', hc', hs, ha'⟩ := generateSpans_starts w fuel n none c h1 (by omega)
  rw [ha, List.head?_nil, Option.or_none] at hs
  exact ⟨c', hc', hs, ha'.trans ha⟩

theorem performWorkWith_traced {nextParent : ℕ → ℕ → ℕ}
    (hnext : ∀ serverSpan dbSpan, nextParent serverSpan dbSpan ∈ [dbSpan, serverSpan])
    {args : Args} (hr : 0 ≤ args.repeats) (flushes : Bool) :
    Traced nextParent args.repeats.toNat fun fuel => loop
      (batch (fun n c => (generateSpansWith nextParent args.work fuel n none c).map (none, ·))
        (fun _ => none) flushes args) fuel Progress.start := by
  obtain ⟨r, hret, hend⟩ := performWork_returns
    (fun fuel n c => (generateSpansWith nextParent args.work fuel n none c).map (none, ·))
    (fun _ => none) flushes 2 (fun _ _ _ _ hle h => generateSpansWith_map_mono hle h)
    (generateSpansWith_generates hnext) hr
  obtain ⟨he, hb⟩ := hend rfl
  exact performWork_traced hnext hr (fun _ hle => generateSpansWith_levels hnext args.work hle)
    hret he hb

/-- Each client starts a trace a batch, Python when `time.sleep` takes its sleep interval. The
fourth span of a trace is a child of the server span, and for C++ of the database span. -/
theorem clients_traces (args : Args) (hr : 0 ≤ args.repeats) :
    (0 ≤ args.sleepInterval → args.sleepInterval ≤ 2 ^ 63 - 1 →
      Traced (fun serverSpan _ => serverSpan) args.repeats.toNat
        (PythonClient.performWork args)) ∧
    Traced (fun serverSpan _ => serverSpan) args.repeats.toNat (GoClient.performWork args) ∧
    Traced (fun _ dbSpan => dbSpan) args.repeats.toNat (CppClient.performWork args) := by
  refine ⟨fun hi hi' => ?_, performWorkWith_traced (by simp) hr _,
    performWorkWith_traced (by simp) hr _⟩
  obtain ⟨r, hret, hend⟩ := performWork_returns
    (fun fuel n c => PythonClient.generateSpans args.work fuel n none c)
    (fun interval => PythonClient.timeSleep (interval * 10⁻¹ ^ 9))
    (args.trace ≠ 0 ∧ args.noFlush = 0) 2
    (fun _ _ _ _ hle h => PythonClient.generateSpans_mono hle h)
    PythonClient.generateSpans_generates hr
  obtain ⟨he, hb⟩ := hend (PythonClient.timeSleep_interval hi hi')
  exact performWork_traced (by simp) hr
    (fun _ hle => PythonClient.generateSpans_levels args.work hle) hret he hb

theorem clients_traces_sample :
    Traced (fun serverSpan _ => serverSpan) 7 (PythonClient.performWork (sampleArgs (10 ^ 8))) :=
  (clients_traces (sampleArgs (10 ^ 8)) (by decide)).1 (by simp [sampleArgs])
    (by norm_num [sampleArgs])

end TracerBench
