import TracerBench.GoSpan
import TracerBench.TraceForest

/-!
# The ids of the Go client's spans

A span of the Go client is made with `ChildOf(parent)` and keeps the ids that `newSpan` gave it
until it is handed to the recorder. The tracer generates two ids for the root of a trace and one
for each other span. `Distinct` is what the random ids have to be for a trace to be told from
another one; `go_trace_ids` says that then the satellite can tell the traces of a run, and the
parent of each span, from the ids alone.
-/

namespace TracerBench

/-- What the tracer generates for span `k`, should it need two ids or one. -/
structure Guids where
  guid2 : ℕ → ℕ × ℕ
  guid : ℕ → ℕ

namespace Guids

/-- The span id of span `k` of a run, where every sixth span is a root. -/
def spanId (g : Guids) (k : ℕ) : ℕ :=
  if k % 6 = 0 then (g.guid2 k).2 else g.guid k

/-- No id of the first `n` spans is zero, and no two traces and no two spans have one id. -/
structure Distinct (g : Guids) (n : ℕ) : Prop where
  traceId : ∀ i, 6 * i < n → (g.guid2 (6 * i)).1 ≠ 0
  traces : ∀ i j, 6 * i < n → 6 * j < n → (g.guid2 (6 * i)).1 = (g.guid2 (6 * j)).1 → i = j
  spanId : ∀ k < n, g.spanId k ≠ 0
  spans : ∀ j < n, ∀ k < n, g.spanId j = g.spanId k → j = k

end Guids

namespace GoClient

variable (opts : LogOptions) (numTags numLogs : ℕ) (g : Guids)

/-- The tags and logs that `makeSpan` puts on a span. -/
def annotations (now : ℕ) : List (SpanCall String) :=
  (List.range numTags).map (fun i => .setTag s!"tag.key{i}" s!"tag.value{i}") ++
    (List.range numLogs).map
      (fun i => .logFields now [⟨s!"log.key{i}", .string s!"log.value{i}"⟩]) ++
    [.setTag "trial" "alpha"]

/-- `ChildOf(parent)` as the only option of a `StartSpan`. -/
def childOf (parent : Option SpanContext) : StartSpanOptions String where
  startTime := 0
  references := (parent.map fun c => ⟨.childOf, some c⟩).toList
  tags _ := none
  setTraceId := 0
  setSpanId := 0
  setParentSpanId := 0
  setSampled := ""

/-- `makeSpan`. -/
def makeSpan (now : ℕ) (guid2 : ℕ × ℕ) (guid : ℕ) (parent : Option SpanContext) :
    SpanImpl String :=
  (annotations numTags numLogs now).foldl (SpanImpl.update opts)
    (.newSpan "benchmark_test_service" (childOf parent) now guid2 guid)

/-- A span that is started is made with the context of its parent. -/
def startSpan (now : ℕ) (spans : List (SpanImpl String)) : SpanEvent → List (SpanImpl String)
  | .start k parent =>
    spans ++ [makeSpan opts numTags numLogs now (g.guid2 k) (g.guid k)
      (parent.bind fun p => (spans[p]?).map (·.raw.context))]
  | .finish _ => spans

/-- The spans of a run, in the order they are started. -/
def spansOf (now : ℕ) (es : List SpanEvent) : List (SpanImpl String) :=
  es.foldl (startSpan opts numTags numLogs g now) []

end GoClient

open GoClient

section Ids

variable {opts : LogOptions} {numTags numLogs : ℕ} {g : Guids} {now : ℕ}

/-- Annotations leave the ids alone. -/
theorem makeSpan_ids (guid2 : ℕ × ℕ) (guid : ℕ) (parent : Option SpanContext) :
    let raw := (makeSpan opts numTags numLogs now guid2 guid parent).raw
    let start := SpanImpl.inherit (parent.map fun c => ⟨.childOf, some c⟩).toList
      (⟨0, 0, "", fun _ => none⟩, 0)
    raw.context.traceId = (SpanImpl.identify guid2 guid start.1).traceId ∧
      raw.context.spanId = (SpanImpl.identify guid2 guid start.1).spanId ∧
      raw.context.sampled = (SpanImpl.identify guid2 guid start.1).sampled ∧
      raw.parentSpanId = start.2 := by
  have hcs : ∀ c ∈ annotations numTags numLogs now, SpanImpl.isFinish c = false := by
    intro c hc
    simp only [annotations, List.mem_append, List.mem_map, List.mem_singleton] at hc
    rcases hc with (⟨i, -, rfl⟩ | ⟨i, -, rfl⟩) | rfl <;> rfl
  have hnew : SpanImpl.InUse opts [] _ _ :=
    SpanImpl.inUse_newSpan "benchmark_test_service" (childOf parent) now guid2 guid
  exact (SpanImpl.inUse_foldl hnew hcs).fields.ids

/-- The ids of span `k` of a run. -/
structure HasIds (g : Guids) (k : ℕ) (s : SpanImpl String) : Prop where
  traceId : s.raw.context.traceId = (g.guid2 (6 * (k / 6))).1
  spanId : s.raw.context.spanId = g.spanId k
  sampled : s.raw.context.sampled = ""
  parentSpanId : s.raw.parentSpanId =
    (spanParent (fun serverSpan _ => serverSpan) k).elim 0 g.spanId

theorem makeSpan_root {k : ℕ} (hparent : spanParent (fun serverSpan _ => serverSpan) k = none) :
    HasIds g k (makeSpan opts numTags numLogs now (g.guid2 k) (g.guid k) none) := by
  obtain ⟨htrace, hspan, hsampled, hparentId⟩ :=
    @makeSpan_ids opts numTags numLogs now (g.guid2 k) (g.guid k) none
  have hroot := spanParent_eq_none.1 hparent
  have hself : 6 * (k / 6) = k := by omega
  refine ⟨?_, ?_, hsampled, ?_⟩
  · rw [htrace, hself]
    rfl
  · rw [hspan, Guids.spanId, if_pos hroot]
    rfl
  · rw [hparentId, hparent]
    rfl

theorem makeSpan_child {n k p : ℕ} (hg : g.Distinct n) (hp : p < n) {s : SpanImpl String}
    (hparent : spanParent (fun serverSpan _ => serverSpan) k = some p) (hs : HasIds g p s) :
    HasIds g k (makeSpan opts numTags numLogs now (g.guid2 k) (g.guid k) (some s.raw.context)) := by
  obtain ⟨htrace, hspan, hsampled, hparentId⟩ :=
    @makeSpan_ids opts numTags numLogs now (g.guid2 k) (g.guid k) (some s.raw.context)
  obtain ⟨-, hbatch⟩ := spanParent_eq_some (by simp) hparent
  have hchild : k % 6 ≠ 0 := fun h0 => by simp [spanParent_eq_none.2 h0] at hparent
  have hne : s.raw.context.traceId ≠ 0 := by
    rw [hs.traceId]
    exact hg.traceId _ (by omega)
  have hid : SpanImpl.identify (g.guid2 k) (g.guid k) (SpanImpl.inherit
      [⟨.childOf, some s.raw.context⟩] (⟨0, 0, "", fun _ => none⟩, 0)).1 =
        ⟨s.raw.context.traceId, g.guid k, s.raw.context.sampled, s.raw.context.baggage⟩ := by
    simp [SpanImpl.identify, SpanImpl.inherit, hne]
  simp only [Option.map_some, Option.toList_some, hid] at htrace hspan hsampled hparentId
  refine ⟨?_, ?_, ?_, ?_⟩
  · rw [htrace, hs.traceId, hbatch]
  · rw [hspan, Guids.spanId, if_neg hchild]
  · rw [hsampled, hs.sampled]
  · rw [hparentId, hparent, Option.elim_some, ← hs.spanId]
    rfl

/-- The spans of a run have their ids. -/
theorem spansOf_ids {total : ℕ} (hg : g.Distinct total) (es : List SpanEvent) :
    ∀ n ≤ total, started es = List.range n →
    (∀ k parent, .start k parent ∈ es → parent = spanParent (fun serverSpan _ => serverSpan) k) →
    (spansOf opts numTags numLogs g now es).length = n ∧
      ∀ k s, (spansOf opts numTags numLogs g now es)[k]? = some s → HasIds g k s := by
  induction es using List.reverseRecOn with
  | nil =>
    intro n _ hn _
    have hzero : 0 = n := by simpa using congrArg List.length hn
    exact ⟨hzero, by simp [spansOf]⟩
  | append_singleton es e ih =>
    intro n hle hn hparents
    have hold : ∀ k parent, SpanEvent.start k parent ∈ es →
        parent = spanParent (fun serverSpan _ => serverSpan) k :=
      fun k parent hmem => hparents k parent (List.mem_append_left _ hmem)
    have hsnoc : spansOf opts numTags numLogs g now (es ++ [e]) =
        startSpan opts numTags numLogs g now (spansOf opts numTags numLogs g now es) e := by
      rw [spansOf, List.foldl_append]
      rfl
    rw [hsnoc]
    cases e with
    | finish k => exact ih n hle (by simpa using hn) hold
    | start k parent =>
      have hlast : started es ++ [k] = List.range n := by simpa using hn
      obtain ⟨m, rfl⟩ : ∃ m, n = m + 1 := ⟨(started es).length, by
        simpa using (congrArg List.length hlast).symm⟩
      rw [List.range_succ] at hlast
      obtain ⟨hm, hk⟩ := List.append_inj' hlast rfl
      obtain rfl : k = m := List.singleton_inj.1 hk
      obtain ⟨hlen, hids⟩ := ih k (Nat.le_of_succ_le hle) hm hold
      have hparent := hparents k parent (by simp)
      rw [startSpan]
      refine ⟨by simp [hlen], fun j s hj => ?_⟩
      rw [List.getElem?_append] at hj
      split_ifs at hj with hlt
      · exact hids j s hj
      · have hj' := (List.getElem?_eq_some_iff.1 hj).1
        rw [List.length_singleton] at hj'
        obtain rfl : j = k := by omega
        rw [hlen, Nat.sub_self, List.getElem?_cons_zero] at hj
        obtain rfl := Option.some.inj hj
        rcases hp : spanParent (fun serverSpan _ => serverSpan) j with _ | p
        · rw [hparent, hp, Option.bind_none]
          exact makeSpan_root hp
        · obtain ⟨hbefore, -⟩ := spanParent_eq_some (by simp) hp
          have hstarted := List.getElem?_eq_getElem (hlen.symm ▸ hbefore)
          rw [hparent, hp, Option.bind_some, hstarted, Option.map_some]
          exact makeSpan_child hg (by omega) hp (hids p _ hstarted)

end Ids

/-- Whatever the random ids of a run of the Go client, as long as they are distinct, two spans
are in one trace when their trace ids are the same, the parent of a span is the one whose span
id it names, and the recorder takes each span. -/
theorem go_trace_ids (args : Args) (hr : 0 ≤ args.repeats) (opts : LogOptions)
    (numTags numLogs now : ℕ) {g : Guids} (hg : g.Distinct args.repeats.toNat) :
    ∃ r, Returns (GoClient.performWork args) r ∧
      (spansOf opts numTags numLogs g now r.progress.client.events).length =
        args.repeats.toNat ∧
      ∀ j k a b, (spansOf opts numTags numLogs g now r.progress.client.events)[j]? = some a →
        (spansOf opts numTags numLogs g now r.progress.client.events)[k]? = some b →
        (a.raw.context.traceId = b.raw.context.traceId ↔
          SameTrace r.progress.client.events j k) ∧
        (b.raw.parentSpanId = a.raw.context.spanId ↔
          .start k (some j) ∈ r.progress.client.events) ∧
        (b.raw.parentSpanId = 0 ↔ .start k none ∈ r.progress.client.events) ∧
        b.raw.context.sampled ≠ "false" := by
  have hgo : ∀ serverSpan dbSpan : ℕ, serverSpan ∈ [dbSpan, serverSpan] := by simp
  obtain ⟨r, hret, -, hstarted, hstart, hsame⟩ :=
    performWorkWith_traced hgo hr (args.trace ≠ 0 ∧ args.noFlush ≠ 1)
  obtain ⟨hlen, hids⟩ := @spansOf_ids opts numTags numLogs g now _ hg r.progress.client.events _
    le_rfl hstarted fun k parent hmem => ((hstart k parent).1 hmem).2
  refine ⟨r, hret, hlen, fun j k a b ha hb => ?_⟩
  have hj := hlen ▸ (List.getElem?_eq_some_iff.1 ha).1
  have hk := hlen ▸ (List.getElem?_eq_some_iff.1 hb).1
  have hida := hids j a ha
  have hidb := hids k b hb
  have hbefore : ∀ p, spanParent (fun serverSpan _ => serverSpan) k = some p →
      p < args.repeats.toNat := fun p hp => (spanParent_eq_some (by simp) hp).1.trans hk
  refine ⟨?_, ?_, ?_, ?_⟩
  · rw [hida.traceId, hidb.traceId, hsame j k hj hk]
    refine ⟨fun heq => ?_, fun heq => by rw [heq]⟩
    exact hg.traces _ _ (by omega) (by omega) heq
  · rw [hidb.parentSpanId, hida.spanId, hstart]
    rcases hp : spanParent (fun serverSpan _ => serverSpan) k with _ | p
    · simp [Ne.symm (hg.spanId j hj)]
    · have hinj : g.spanId p = g.spanId j ↔ p = j :=
        ⟨hg.spans p (hbefore p hp) j hj, fun h => by rw [h]⟩
      simp only [Option.elim_some, hinj, Option.some.injEq, hk, true_and]
      exact eq_comm
  · rw [hidb.parentSpanId, hstart]
    rcases hp : spanParent (fun serverSpan _ => serverSpan) k with _ | p
    · simp [hk]
    · simp [hg.spanId p (hbefore p hp)]
  · rw [hidb.sampled]
    decide

/-- Ids that count up. -/
def countedGuids : Guids where
  guid2 k := (k + 1, 2 * k + 1)
  guid k := 2 * k + 2

theorem countedGuids_distinct (n : ℕ) : countedGuids.Distinct n where
  traceId i _ := Nat.succ_ne_zero _
  traces i j _ _ h := by
    simp only [countedGuids] at h
    omega
  spanId k _ := by
    simp only [Guids.spanId, countedGuids]
    split_ifs <;> omega
  spans j _ k _ h := by
    simp only [Guids.spanId, countedGuids] at h
    split_ifs at h <;> omega

theorem go_trace_ids_sample : ∃ r, Returns (GoClient.performWork (sampleArgs (10 ^ 8))) r ∧
    ((spansOf ⟨500, false⟩ 0 0 countedGuids 1 r.progress.client.events).length = 7) := by
  obtain ⟨r, hret, hlen, -⟩ :=
    go_trace_ids (sampleArgs (10 ^ 8)) (by decide) ⟨500, false⟩ 0 0 1 (countedGuids_distinct _)
  exact ⟨r, hret, hlen⟩

end TracerBench
