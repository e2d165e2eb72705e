import Mathlib.Data.List.Infix
import TracerBench.TracerClose

/-!
# The pace of the Go tracer

The report loop sends a report when the buffer is more than half full. Between two of its turns,
a tick or the swap that begins a report, the program goes on recording. `Paced q` bounds what it
records between two turns, which lasts as long as a tick or as a report. When the other half of
the buffer holds twice that, and each report is acknowledged, no span is lost
(`go_tracer_keeps`) : a first `q` may come before the tick that finds the buffer half full, and
a second before the swap.
-/

namespace TracerBench

namespace GoTracer

variable {Span : Type*} {capacity : ℕ} {opts : TracerOptions} {t t' : GoTracer Span capacity}
  {e : TracerEvent Span} {es : List (TracerEvent Span)} {q : ℕ}

/-- A turn of the report loop. -/
def isTurn : TracerEvent Span → Bool
  | .tick _ | .flush .loop _ => true
  | _ => false

/-- The spans recorded since the last turn, when `n` were before `e`. -/
def countSince (n : ℕ) (e : TracerEvent Span) : ℕ :=
  match e with
  | .record _ true => n + 1
  | e => if isTurn e then 0 else n

/-- The spans recorded since the last turn. -/
def sinceTurn (es : List (TracerEvent Span)) : ℕ :=
  es.foldl countSince 0

/-- At most `q` spans are recorded between two turns. -/
def Paced (q : ℕ) (es : List (TracerEvent Span)) : Prop :=
  ∀ a, a <+: es → sinceTurn a ≤ q

instance : Decidable (Paced q es) :=
  decidable_of_iff (∀ a ∈ es.inits, sinceTurn a ≤ q) (by simp only [List.mem_inits, Paced])

/-- Each report is acknowledged. -/
def Acked (es : List (TracerEvent Span)) : Prop :=
  ∀ reply, .report reply ∈ es → reply.flushError = none

theorem sinceTurn_snoc (es : List (TracerEvent Span)) (e : TracerEvent Span) :
    sinceTurn (es ++ [e]) = countSince (sinceTurn es) e :=
  List.foldl_append

theorem Paced.of_append {es' : List (TracerEvent Span)} (h : Paced q (es ++ es')) : Paced q es :=
  fun a ha => h a (ha.trans (List.prefix_append es es'))

theorem Acked.of_append {es' : List (TracerEvent Span)} (h : Acked (es ++ es')) : Acked es :=
  fun reply hmem => h reply (List.mem_append_left _ hmem)

/-- How full the buffer may be at the last turn. -/
def level (capacity q : ℕ) (t : GoTracer Span capacity) : ℕ :=
  if t.loop = .flushing then if t.flush = none then capacity / 2 + q else 0 else capacity / 2

/-- What there is in the buffers while no span is lost. -/
structure Roomy (q : ℕ) (es : List (TracerEvent Span)) (t : GoTracer Span capacity) : Prop where
  fill : t.buffer.rawSpans.length ≤ level capacity q t + sinceTurn es
  buffer : t.buffer.dropped = .zero
  flushing : t.flushing.dropped = .zero
  told : t.toldDropped = 0
  answers : ∀ r ∈ t.sent, r.2.flushError = none
  answered : ∀ who err, t.flush = some (who, .finishing err) → err = none

/-- A step that leaves the buffers and the reports alone. -/
theorem Roomy.quiet (h : Roomy q es t) (hfill : level capacity q t + sinceTurn es ≤
      level capacity q t' + sinceTurn (es ++ [e]))
    (hbuffer : t'.buffer = t.buffer) (hflushing : t'.flushing = t.flushing)
    (hflush : t'.flush = t.flush) (hsent : t'.sent = t.sent) : Roomy q (es ++ [e]) t' := by
  refine ⟨?_, hbuffer ▸ h.buffer, hflushing ▸ h.flushing, ?_, hsent ▸ h.answers,
    hflush ▸ h.answered⟩
  · rw [hbuffer]
    exact h.fill.trans hfill
  · rw [toldDropped, acknowledged, hsent]
    exact h.told

theorem Roomy.record (h : Roomy q es t) (raw : Span) (hon : t.disabled = false)
    (hcap : capacity / 2 + 2 * q ≤ capacity) (hpace : sinceTurn (es ++ [.record raw true]) ≤ q) :
    Roomy q (es ++ [.record raw true]) (t.recordSpan raw true) := by
  have hsince : sinceTurn (es ++ [.record raw true]) = sinceTurn es + 1 := sinceTurn_snoc _ _
  have hfill := h.fill
  have hroom : t.buffer.rawSpans.length ≠ capacity := by
    unfold level at hfill
    split_ifs at hfill <;> omega
  have hadd : t.recordSpan raw true = { t with buffer := t.buffer.addSpan raw } := by
    rw [recordSpan, hon]
    rfl
  rw [hadd]
  refine ⟨?_, ?_, h.flushing, h.told, h.answers, h.answered⟩
  · simp only [ReportBuffer.addSpan, dif_neg hroom, List.length_append, List.length_singleton]
    rw [hsince]
    exact Nat.succ_le_succ hfill
  · simp only [ReportBuffer.addSpan, dif_neg hroom]
    exact h.buffer

/-- A tick that does not begin a report has found the buffer at most half full. -/
theorem half_of_tick {now : ℕ} (he : t.step opts (.tick now) = some t')
    (hloop : t'.loop = .waiting) : t.buffer.rawSpans.length ≤ capacity / 2 := by
  simp only [GoTracer.step] at he
  split_ifs at he with hwait hdis hflush
  · cases he
    simp at hloop
  · cases he
    simp at hloop
  · by_contra hfull
    have hhalf : t.buffer.isHalfFull = true := decide_eq_true (not_le.1 hfull)
    refine hflush ?_
    unfold shouldFlushLocked
    split_ifs
    · rfl
    · exact hhalf

/-- The swap that begins a report leaves an empty buffer. -/
theorem Roomy.swap (h : Roomy q es t) (hphase : Phased es t) {who : Flusher}
    (hfree : t.flush = none)
    (hbuffer : t'.buffer.rawSpans = t.flushing.rawSpans ∧ t'.buffer.dropped = t.flushing.dropped)
    (hflushing : t'.flushing.dropped = t.buffer.dropped) (hsent : t'.sent = t.sent)
    (hflush : t'.flush = some (who, .swapped)) : Roomy q (es ++ [e]) t' := by
  obtain ⟨hspans, hdropped⟩ := hphase.empty hfree
  refine ⟨?_, hbuffer.2.trans hdropped, hflushing.trans h.buffer, ?_, hsent ▸ h.answers,
    by simp [hflush]⟩
  · rw [hbuffer.1, hspans]
    exact Nat.zero_le _
  · rw [toldDropped, acknowledged, hsent]
    exact h.told

/-- `Flush` goes on. -/
theorem Roomy.within (h : Roomy q es t) {who : Flusher} {pc pc' : FlushPc Span}
    (hflush : t.flush = some (who, pc)) (hbuffer : t'.buffer = t.buffer)
    (hflushing : t'.flushing.dropped = t.flushing.dropped) (hloop : t'.loop = t.loop)
    (hflush' : t'.flush = some (who, pc')) (htold : t'.toldDropped = t.toldDropped)
    (hanswers : ∀ r ∈ t'.sent, r.2.flushError = none)
    (hsince : sinceTurn (es ++ [e]) = sinceTurn es)
    (hpc : ∀ err, pc' = .finishing err → err = none) : Roomy q (es ++ [e]) t' := by
  refine ⟨?_, hbuffer ▸ h.buffer, hflushing.trans h.flushing, htold.trans h.told, hanswers, ?_⟩
  · rw [hbuffer, hsince]
    have hsame : level capacity q t' = level capacity q t := by
      simp [level, hloop, hflush, hflush']
    rw [hsame]
    exact h.fill
  · rintro who' err hf
    rw [hflush'] at hf
    cases hf
    exact hpc err rfl

theorem Roomy.step (h : Roomy q es t) (hphase : Phased es t) (hc : Control t)
    (hon : t.disabled = false) (hclean : Clean [e]) (hcap : capacity / 2 + 2 * q ≤ capacity)
    (hpace : sinceTurn es ≤ q ∧ sinceTurn (es ++ [e]) ≤ q) (hack : Acked [e])
    (he : t.step opts e = some t') : Roomy q (es ++ [e]) t' := by
  have hsince := sinceTurn_snoc es e
  cases stepped he with
  | record raw sampled =>
    cases sampled with
    | true => exact h.record raw hon hcap hpace.2
    | false =>
      have hskip : t.recordSpan raw false = t := if_pos (Or.inr rfl)
      rw [hskip]
      exact h.quiet (le_of_eq (by rw [hsince]; rfl)) rfl rfl rfl rfl
  | tick now pc hloop hpc =>
    have hidle : t.flush = none := by
      rcases hflush : t.flush with _ | ⟨_ | _, pc'⟩
      · rfl
      · simp [hc.loopFlush pc' hflush] at hloop
      · simp [hc.closed (Or.inl (hc.closeFlush pc' hflush))] at hloop
    have hzero : sinceTurn (es ++ [.tick now]) = 0 := hsince
    have hfill := h.fill
    simp only [level, hloop, reduceCtorEq, if_false] at hfill
    refine ⟨?_, h.buffer, h.flushing, h.told, h.answers, h.answered⟩
    rw [hzero]
    rcases hpc with ⟨-, hdis⟩ | rfl | rfl
    · simp [hon] at hdis
    · simp only [level, hidle, if_true]
      omega
    · simpa [level] using half_of_tick he rfl
  | loopClosed hloop =>
    have hsame : level capacity q t = level capacity q { t with loop := .closed } := by
      simp [level, hloop]
    exact h.quiet (le_of_eq (by rw [hsince, hsame]; rfl)) rfl rfl rfl rfl
  | close | loopSeen | disconnect =>
    exact h.quiet (le_of_eq (by rw [hsince]; rfl)) rfl rfl rfl rfl
  | refused who now hat hfree hoff =>
    have hclosed : t.closing = .closed := hc.connected.resolve_left fun hconn => by
      simp [hon, hconn] at hoff
    cases who with
    | loop =>
      have hloop := hc.closed (Or.inr (Or.inr hclosed))
      simp [show t.loop = .flushing from of_decide_eq_true hat] at hloop
    | close => simp [show t.closing = .flushing from of_decide_eq_true hat] at hclosed
  | swapped who now hat hfree => exact h.swap hphase hfree ⟨rfl, rfl⟩ rfl rfl rfl
  | translate who n hflush => exact h.within hflush rfl rfl rfl rfl rfl h.answers hsince (by simp)
  | translateFailed who n => exact absurd (List.mem_singleton.2 rfl) (hclean.2 n)
  | report who req reply hflush =>
    have hreply := hack reply (List.mem_singleton.2 rfl)
    refine h.within hflush rfl rfl rfl rfl ?_ (fun r hr => ?_) hsince fun err herr => ?_
    · rw [toldDropped, acknowledged_report, if_pos hreply, List.map_append, List.sum_append,
        List.map_singleton, List.sum_singleton, (hphase.request who req hflush).2, h.flushing]
      exact add_zero _
    · rcases List.mem_append.1 hr with hold | hnew
      · exact h.answers r hold
      · rw [List.mem_singleton.1 hnew]
        exact hreply
    · split_ifs at herr
      rw [← FlushPc.finishing.inj herr, hreply]
  | disable => exact absurd (List.mem_singleton.2 rfl) hclean.1
  | postFlush who err hflush =>
    obtain rfl := h.answered who err hflush
    have hend := ended t who none
    have hzero : (t.flushing.clear).dropped = .zero := rfl
    refine ⟨?_, hend.buffer.symm ▸ h.buffer, hend.flushing.symm ▸ hzero,
      hend.toldDropped.trans h.told, ?_, by simp⟩
    case refine_2 =>
      rw [leaveFlush_sent]
      exact h.answers
    rw [hend.buffer, show sinceTurn (es ++ [.postFlush]) = sinceTurn es from hsince]
    refine h.fill.trans (Nat.add_le_add_right ?_ _)
    cases who with
    | loop => simp [level, hc.loopFlush _ hflush, hflush, leaveFlush]
    | close =>
      have hloop := hc.closed (Or.inl (hc.closeFlush _ hflush))
      simp [level, hloop, leaveFlush, GoTracer.postFlush]

theorem roomy_run {now : ℕ} (hcap : capacity / 2 + 2 * q ≤ capacity)
    (h : run (GoTracer.step opts) (GoTracer.createTracer now) es = some t) (hclean : Clean es)
    (hack : Acked es) (hpace : Paced q es) : Roomy q es t := by
  refine run_induction (P := fun es (t : GoTracer Span capacity) =>
    Clean es → Acked es → Paced q es → Roomy q es t)
    (fun _ _ _ => ⟨Nat.zero_le _, rfl, rfl, rfl, by simp [createTracer], by simp [createTracer]⟩)
    ?_ h hclean hack hpace
  intro es m e m' hm ih he hclean hack hpace
  obtain ⟨hphase, lost, discarded, hb⟩ := books hm
  have hroomy := ih hclean.of_append hack.of_append hpace.of_append
  refine hroomy.step hphase (control_run hm) (hb.clean hclean.of_append).1
    ⟨fun hmem => ?_, fun n hmem => ?_⟩ hcap ⟨hpace.of_append _ (List.prefix_refl es), ?_⟩
    (fun reply hmem => hack reply (List.mem_append_right _ hmem)) he
  · exact hclean.1 (List.mem_append_right _ hmem)
  · exact hclean.2 n (List.mem_append_right _ hmem)
  · exact hpace _ (List.prefix_refl _)

/-- A tracer that has room loses nothing. -/
theorem Roomy.keeps {lost discarded : Multiset Span} (h : Roomy q es t)
    (hb : Books es t lost discarded) (hclean : Clean es) :
    recorded es = t.ackedSpans + t.buffer.rawSpans + t.pending := by
  obtain ⟨-, hnone, hcount, -⟩ := hb.clean hclean
  have hpending : t.pendingDropped = 0 := by
    rw [pendingDropped, h.flushing]
    split_ifs <;> rfl
  rw [h.told, h.buffer, hpending] at hcount
  have hlost : lost = 0 := Multiset.card_eq_zero.1 (Int.ofNat.inj hcount)
  rw [hb.spans, hlost, hnone, add_zero, add_zero]

/-! ## A pace that is too fast -/

/-- After an empty report at `start` the program has recorded `n` spans, `k` of them since the
last turn. -/
structure Filled (opts : TracerOptions) (now start q n k : ℕ) (es : List (TracerEvent Span))
    (t : GoTracer Span capacity) : Prop where
  ran : run (GoTracer.step opts) (GoTracer.createTracer now) es = some t
  clean : Clean es
  acked : Acked es
  paced : Paced q es
  since : sinceTurn es = k
  count : (recorded es).card = n
  on : t.disabled = false
  last : t.lastReportAttempt = start
  size : t.buffer.rawSpans.length ≤ n
  sent : t.ackedSpans = 0
  flushing : t.pending = 0

section Filled

variable {now start n k : ℕ}

theorem Paced.snoc (h : Paced q es) (he : sinceTurn (es ++ [e]) ≤ q) : Paced q (es ++ [e]) := by
  intro a ha
  rcases List.prefix_concat_iff.1 ha with rfl | ha
  · exact he
  · exact h a ha

theorem Clean.snoc (h : Clean es) (he : Clean [e]) : Clean (es ++ [e]) :=
  ⟨by simpa using ⟨h.1, by simpa using he.1⟩,
    fun n => by simpa using ⟨h.2 n, by simpa using he.2 n⟩⟩

theorem Filled.record (h : Filled opts now start q n k es t) (hk : k < q) (raw : Span) :
    ∃ es', ∃ t' : GoTracer Span capacity,
      Filled opts now start q (n + 1) (k + 1) es' t' ∧ t'.loop = t.loop := by
  have hsince : sinceTurn (es ++ [.record raw true]) = k + 1 := by
    rw [sinceTurn_snoc, h.since]
    rfl
  have hadd : t.recordSpan raw true = { t with buffer := t.buffer.addSpan raw } := by
    rw [recordSpan, h.on]
    rfl
  refine ⟨es ++ [.record raw true], { t with buffer := t.buffer.addSpan raw }, ⟨?_, ?_, ?_, ?_,
    hsince, ?_, h.on, h.last, ?_, h.sent, h.flushing⟩, rfl⟩
  · rw [← hadd]
    exact run_snoc_eq_some.2 ⟨t, h.ran, rfl⟩
  · exact h.clean.snoc (by simp [Clean])
  · intro reply hmem
    exact h.acked reply (by simpa using hmem)
  · exact h.paced.snoc (hsince ▸ hk)
  · rw [recorded_append, Multiset.card_add, h.count]
    rfl
  · have hsize := h.size
    unfold ReportBuffer.addSpan
    split_ifs
    · exact hsize.trans (Nat.le_succ n)
    · simpa using hsize

theorem Filled.records (h : Filled opts now start q n k es t) (raw : Span) :
    ∀ j, k + j ≤ q →
      ∃ es', ∃ t' : GoTracer Span capacity,
        Filled opts now start q (n + j) (k + j) es' t' ∧ t'.loop = t.loop
  | 0, _ => ⟨es, t, h, rfl⟩
  | j + 1, hj => by
    obtain ⟨es', t', h', hloop⟩ := h.records raw j (by omega)
    obtain ⟨es'', t'', h'', hloop'⟩ := h'.record (by omega) raw
    exact ⟨es'', t'', h'', hloop'.trans hloop⟩

/-- A tick that finds the buffer at most half full begins no report. -/
theorem Filled.tick (h : Filled opts now start q n k es t) (hloop : t.loop = .waiting) (wait : ℕ) :
    ∃ es', ∃ t' : GoTracer Span capacity, Filled opts now start q n 0 es' t' ∧
      (wait + opts.minReportingPeriod ≤ opts.reportingPeriod → n ≤ capacity / 2 →
        t'.loop = .waiting) := by
  have hsince : sinceTurn (es ++ [.tick (start + wait)]) = 0 := sinceTurn_snoc _ _
  have hstep : t.step opts (.tick (start + wait)) = some { t with
      loop := if t.shouldFlushLocked opts (start + wait) then .flushing else .waiting } := by
    simp only [GoTracer.step, hloop, h.on, if_true, Bool.false_eq_true, if_false]
  refine ⟨_, _, ⟨run_snoc_eq_some.2 ⟨t, h.ran, hstep⟩, ?_, ?_, ?_, hsince, ?_, h.on, h.last,
    h.size, h.sent, h.flushing⟩, fun hwait hhalf => if_neg ?_⟩
  · exact h.clean.snoc (by simp [Clean])
  · intro reply hmem
    exact h.acked reply (by simpa using hmem)
  · exact h.paced.snoc (hsince ▸ Nat.zero_le q)
  · rw [recorded_append, Multiset.card_add, h.count]
    rfl
  · have hsize := h.size
    have hnot : ¬capacity / 2 < t.buffer.rawSpans.length := by omega
    unfold shouldFlushLocked ReportBuffer.isHalfFull
    rw [h.last, if_neg (by push_cast; omega)]
    simpa using hnot

/-- The loop's first tick begins a report. -/
theorem filled_start (opts : TracerOptions) (now q : ℕ) :
    ∃ start es, ∃ t : GoTracer Span capacity,
      Filled opts now start q 0 0 es t ∧ t.loop = .waiting := by
  obtain ⟨start, hstart⟩ : ∃ start, start = now + opts.reportingPeriod + 1 := ⟨_, rfl⟩
  have hdue : ∀ t : GoTracer Span capacity, t.lastReportAttempt = 0 →
      t.shouldFlushLocked opts start = true := by
    intro t hlast
    rw [shouldFlushLocked, hlast]
    exact if_pos (by push_cast; omega)
  have htick : (createTracer now : GoTracer Span capacity).step opts (.tick start) =
      some { (createTracer now : GoTracer Span capacity) with loop := .flushing } := by
    have h := hdue (createTracer now) rfl
    simp only [GoTracer.step]
    simp only [createTracer] at h ⊢
    simp [h]
  refine ⟨start, [.tick start, .flush .loop start, .translate 0,
    .report (.response false false), .postFlush], _,
    ⟨run_cons_eq_some.2 ⟨_, htick, rfl⟩, ?_, ?_, ?_, rfl, rfl, rfl, rfl, Nat.zero_le _, rfl, rfl⟩,
    rfl⟩
  · simp [Clean]
  · intro reply hmem
    obtain rfl : reply = .response false false := by simpa using hmem
    rfl
  · intro a ha
    simp only [List.prefix_cons_iff, List.prefix_nil] at ha
    obtain rfl | ⟨_, rfl, rfl | ⟨_, rfl, rfl | ⟨_, rfl, rfl | ⟨_, rfl, rfl | ⟨_, rfl, rfl⟩⟩⟩⟩⟩ := ha
    all_goals exact Nat.zero_le q

/-- When the other half does not hold two turns, the buffer runs full. -/
theorem exists_filled (opts : TracerOptions)
    (hopts : 3 * opts.minReportingPeriod ≤ opts.reportingPeriod) (raw : Span) (now : ℕ)
    (hcap : capacity < capacity / 2 + 2 * q) :
    ∃ start n k es, ∃ t : GoTracer Span capacity,
      Filled opts now start q n k es t ∧ capacity < n := by
  obtain ⟨start, es, t, h, hloop⟩ : ∃ start es, ∃ t : GoTracer Span capacity,
    Filled opts now start q 0 0 es t ∧ t.loop = .waiting := filled_start opts now q
  -- the first half, in two turns
  obtain ⟨a, b, ha, hb, hab⟩ : ∃ a b, a ≤ q ∧ b ≤ q ∧ a + b = capacity / 2 :=
    ⟨min q (capacity / 2), capacity / 2 - min q (capacity / 2), by omega, by omega, by omega⟩
  obtain ⟨es, t, h, hrecords⟩ := h.records raw a (by omega)
  obtain ⟨es, t, h, hquiet⟩ := h.tick (hrecords.trans hloop) opts.minReportingPeriod
  have hloop := hquiet (by omega) (by omega)
  obtain ⟨es, t, h, hrecords⟩ := h.records raw b (by omega)
  obtain ⟨es, t, h, hquiet⟩ := h.tick (hrecords.trans hloop) (2 * opts.minReportingPeriod)
  have hloop := hquiet (by omega) (by omega)
  -- a turn before the tick that begins a report, and one before its swap
  obtain ⟨es, t, h, hrecords⟩ := h.records raw q (by omega)
  obtain ⟨es, t, h, -⟩ := h.tick (hrecords.trans hloop) (3 * opts.minReportingPeriod)
  obtain ⟨es, t, h, -⟩ := h.records raw q (by omega)
  exact ⟨start, _, _, es, t, h, by omega⟩

end Filled

end GoTracer

open GoTracer in
/-- When each report is acknowledged and the program keeps its pace, no span is lost if and only
if half of the buffer holds what is recorded in two turns. -/
theorem go_tracer_keeps {Span : Type*} {capacity : ℕ} (raw : Span) (opts : TracerOptions)
    (hopts : 3 * opts.minReportingPeriod ≤ opts.reportingPeriod) (now q : ℕ) :
    (∀ es (t : GoTracer Span capacity),
      run (GoTracer.step opts) (createTracer now) es = some t → Clean es → Acked es → Paced q es →
        recorded es = t.ackedSpans + t.buffer.rawSpans + t.pending) ↔
      capacity / 2 + 2 * q ≤ capacity := by
  constructor
  · intro hkeeps
    by_contra hcap
    obtain ⟨start, n, k, es, t, h, hfull⟩ := exists_filled opts hopts raw now (not_le.1 hcap)
    have hspans := congrArg Multiset.card (hkeeps es t h.ran h.clean h.acked h.paced)
    rw [h.count, h.sent, h.flushing, zero_add, add_zero, Multiset.coe_card] at hspans
    exact absurd t.buffer.fits (by omega)
  · intro hcap es t h hclean hack hpace
    obtain ⟨-, lost, discarded, hb⟩ := books h
    exact (roomy_run hcap h hclean hack hpace).keeps hb hclean

/-- Two spans, one of them while a report is out. -/
def sampleKept : List (TracerEvent ℕ) :=
  [.record 0 true, .tick 9000000000, .flush .loop 9000000000, .translate 0, .record 1 true,
    .report (.response false false), .postFlush, .close, .loopClosed, .loopSeen,
    .flush .close 9100000000, .translate 0, .report (.response false false), .postFlush,
    .disconnect]

/-- The buffer of the Go client holds 1000 spans, which is enough for 250 in a turn. -/
theorem go_tracer_keeps_sample :
    (∃ t : GoTracer ℕ 1000,
      run (GoTracer.step goOptions) (.createTracer 1) sampleKept = some t ∧
      GoTracer.recorded sampleKept = t.ackedSpans + t.buffer.rawSpans + t.pending) ∧
    ¬∀ es (t : GoTracer ℕ 1000), run (GoTracer.step goOptions) (.createTracer 1) es = some t →
      GoTracer.Clean es → GoTracer.Acked es → GoTracer.Paced 251 es →
        GoTracer.recorded es = t.ackedSpans + t.buffer.rawSpans + t.pending := by
  have hrun : run (GoTracer.step goOptions) (.createTracer 1 : GoTracer ℕ 1000) sampleKept =
    some _ := rfl
  have hclean : GoTracer.Clean sampleKept := by simp [GoTracer.Clean, sampleKept]
  have hack : GoTracer.Acked sampleKept := by
    intro reply hmem
    obtain rfl : reply = .response false false := by simpa [sampleKept] using hmem
    rfl
  have hpace : GoTracer.Paced 250 sampleKept := by decide
  have hperiods : 3 * goOptions.minReportingPeriod ≤ goOptions.reportingPeriod := by decide
  refine ⟨⟨_, hrun, ?_⟩, fun hkeeps => ?_⟩
  · exact (go_tracer_keeps 0 goOptions hperiods 1 250).2 (by decide) _ _ hrun hclean hack hpace
  · exact absurd ((go_tracer_keeps 0 goOptions hperiods 1 251).1 hkeeps) (by decide)

end TracerBench
