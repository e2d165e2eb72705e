import Mathlib.Algebra.BigOperators.Group.List.Basic
import TracerBench.GoTracer

/-!
# The books of the Go tracer

A recorded span is acknowledged, or it is in one of the two buffers, or there was no room for
it. The tracer counts what it had no room for, and tells the count with its next report to the
satellite and, apart from that, in its status reports to the program. `Books` keeps these
accounts through each step of `Flush`.

`go_tracer_conserves` says where each recorded span is, whatever the order of the steps and
the fate of the reports, and `go_tracer_tells` that the two ways of telling agree.
-/

namespace TracerBench

namespace GoTracer

variable {Span : Type*} {capacity : ℕ} {opts : TracerOptions} {t t' : GoTracer Span capacity}
  {e : TracerEvent Span}

/-! ## Where the spans are -/

/-- The sampled spans recorded so far. -/
def recorded (es : List (TracerEvent Span)) : Multiset Span :=
  es.filterMap fun
    | .record raw true => some raw
    | _ => none

/-- No report failed to be encoded, and no satellite disabled the tracer. -/
def Clean (es : List (TracerEvent Span)) : Prop :=
  .disable ∉ es ∧ ∀ encoderErrors, .translateFailed encoderErrors ∉ es

/-- The reports that were acknowledged. -/
def acknowledged (t : GoTracer Span capacity) : List (ReportRequest Span) :=
  t.sent.filterMap fun r => if r.2.flushError = none then some r.1 else none

/-- The spans of the acknowledged reports. -/
def ackedSpans (t : GoTracer Span capacity) : Multiset Span :=
  (t.acknowledged.map fun req => (req.spans : Multiset Span)).sum

/-- The drops that the acknowledged reports have told. -/
def toldDropped (t : GoTracer Span capacity) : ℤ :=
  (t.acknowledged.map (·.spansDropped)).sum

/-- The drops that the status reports have told. -/
def statusDropped (t : GoTracer Span capacity) : ℤ :=
  (t.status.map (·.droppedSpans)).sum

/-- What is in `flushing` has been acknowledged. -/
def acked (t : GoTracer Span capacity) : Bool :=
  match t.flush with
  | some (_, .disabling none) | some (_, .finishing none) => true
  | _ => false

/-- The spans in `flushing`, unless they have been acknowledged. -/
def pending (t : GoTracer Span capacity) : Multiset Span :=
  if t.acked then 0 else t.flushing.rawSpans

/-- The drops counted in `flushing`, unless an acknowledged report has told them. -/
def pendingDropped (t : GoTracer Span capacity) : ℤ :=
  if t.acked then 0 else t.flushing.dropped.total

/-- What `Flush` holds at each of its points. -/
structure Phased (es : List (TracerEvent Span)) (t : GoTracer Span capacity) : Prop where
  empty : t.flush = none → t.flushing.rawSpans = [] ∧ t.flushing.dropped = .zero
  request : ∀ who req, t.flush = some (who, .reporting req) →
    req.spans = t.flushing.rawSpans ∧ req.spansDropped = t.flushing.dropped.total
  translate : ∀ who pc, t.flush = some (who, pc) →
    pc = .disabling (some .translate) ∨ pc = .finishing (some .translate) → ¬Clean es

/-- The recorded spans are acknowledged, buffered, pending, lost or discarded. A clean run
discards none, and its lost spans are counted, for the satellite and for the program. -/
structure Books (es : List (TracerEvent Span)) (t : GoTracer Span capacity)
    (lost discarded : Multiset Span) : Prop where
  spans : recorded es = t.ackedSpans + t.buffer.rawSpans + t.pending + lost + discarded
  clean : Clean es → t.disabled = false ∧ discarded = 0 ∧
    (lost.card : ℤ) = t.toldDropped + t.buffer.dropped.total + t.pendingDropped ∧
    (lost.card : ℤ) =
      t.statusDropped + t.buffer.dropped.unreported + t.flushing.dropped.unreported

@[simp] theorem recorded_append (es es' : List (TracerEvent Span)) :
    recorded (es ++ es') = recorded es + recorded es' := by
  rw [recorded, List.filterMap_append, ← Multiset.coe_add]
  rfl

theorem card_ackedSpans : t.ackedSpans.card = (t.acknowledged.map (·.spans.length)).sum := by
  rw [ackedSpans]
  refine (map_list_sum Multiset.cardHom _).trans ?_
  rw [List.map_map]
  rfl

theorem Clean.of_append {es es' : List (TracerEvent Span)} (h : Clean (es ++ es')) : Clean es :=
  ⟨fun hmem => h.1 (List.mem_append_left _ hmem),
    fun n hmem => h.2 n (List.mem_append_left _ hmem)⟩

section Accounts

variable {es : List (TracerEvent Span)} {lost discarded : Multiset Span}

/-- A step that leaves the buffers and `Flush` alone. -/
theorem Phased.quiet (h : Phased es t) (hflushing : t'.flushing = t.flushing)
    (hflush : t'.flush = t.flush) : Phased (es ++ [e]) t' := by
  refine ⟨fun hf => ?_, fun who req hf => ?_, fun who pc hf hpc hclean => ?_⟩
  · rw [hflushing]
    exact h.empty (hflush ▸ hf)
  · rw [hflushing]
    exact h.request who req (hflush ▸ hf)
  · exact h.translate who pc (hflush ▸ hf) hpc hclean.of_append

/-- At `swapped` nothing is asked of `Flush`. -/
theorem Phased.of_flush {who : Flusher} {pc : FlushPc Span} (hflush : t'.flush = some (who, pc))
    (hreq : ∀ req, pc ≠ .reporting req)
    (htranslate : pc = .disabling (some .translate) ∨ pc = .finishing (some .translate) →
      ¬Clean es) : Phased es t' := by
  refine ⟨fun hf => ?_, fun who' req hf => ?_, fun who' pc' hf hpc => ?_⟩
  · simp [hflush] at hf
  · rw [hflush] at hf
    cases hf
    exact absurd rfl (hreq req)
  · rw [hflush] at hf
    cases hf
    exact htranslate hpc

@[simp] theorem leaveFlush_flush (who : Flusher) : (t.leaveFlush who).flush = t.flush := by
  cases who <;> rfl

@[simp] theorem leaveFlush_flushing (who : Flusher) :
    (t.leaveFlush who).flushing = t.flushing := by
  cases who <;> rfl

@[simp] theorem leaveFlush_buffer (who : Flusher) : (t.leaveFlush who).buffer = t.buffer := by
  cases who <;> rfl

@[simp] theorem leaveFlush_sent (who : Flusher) : (t.leaveFlush who).sent = t.sent := by
  cases who <;> rfl

@[simp] theorem leaveFlush_status (who : Flusher) : (t.leaveFlush who).status = t.status := by
  cases who <;> rfl

@[simp] theorem leaveFlush_disabled (who : Flusher) :
    (t.leaveFlush who).disabled = t.disabled := by
  cases who <;> rfl

theorem postFlush_flushing (err : Option FlushError) :
    (t.postFlush err).2.flushing = t.flushing.clear := by
  rcases err with _ | err
  · rfl
  · simp only [postFlush]
    split_ifs <;> rfl

theorem Phased.step (h : Phased es t) (he : t.step opts e = some t') : Phased (es ++ [e]) t' := by
  cases stepped he with
  | record raw sampled =>
    refine h.quiet ?_ ?_ <;> (unfold recordSpan; split_ifs <;> rfl)
  | tick | loopClosed | close | loopSeen | disconnect => exact h.quiet rfl rfl
  | refused who => exact h.quiet (by simp) (by simp)
  | swapped who now => exact .of_flush rfl (by simp) (by simp)
  | translate who n hflush =>
    refine ⟨by simp, fun who' req hf => ?_, by simp⟩
    cases hf
    exact ⟨rfl, rfl⟩
  | translateFailed who n hflush =>
    exact .of_flush rfl (by simp) fun _ hclean => hclean.2 n (by simp)
  | report who req reply hflush =>
    have hne := Reply.flushError_ne_translate reply
    refine .of_flush rfl ?_ ?_ <;> split_ifs <;> simp [hne]
  | disable who err hflush => exact .of_flush rfl (by simp) fun _ hclean => hclean.1 (by simp)
  | postFlush who err hflush =>
    refine ⟨fun _ => ?_, by simp, by simp⟩
    rw [leaveFlush_flushing, postFlush_flushing]
    exact ⟨rfl, rfl⟩

theorem Books.quiet (h : Books es t lost discarded) (hrec : recorded [e] = 0)
    (hbuffer : t'.buffer = t.buffer) (hflushing : t'.flushing = t.flushing)
    (hflush : t'.flush = t.flush) (hsent : t'.sent = t.sent) (hstatus : t'.status = t.status)
    (hdisabled : t'.disabled = t.disabled) : Books (es ++ [e]) t' lost discarded := by
  have hacked : t'.acknowledged = t.acknowledged := by rw [acknowledged, acknowledged, hsent]
  have hat : t'.acked = t.acked := by rw [acked, acked, hflush]
  refine ⟨?_, fun hclean => ?_⟩
  · rw [recorded_append, hrec, h.spans, ackedSpans, ackedSpans, pending, pending, hacked, hat,
      hbuffer, hflushing, add_zero]
  · rw [toldDropped, statusDropped, pendingDropped, hacked, hstatus, hat, hbuffer, hflushing,
      hdisabled]
    exact h.clean hclean.of_append

theorem Books.record (h : Books es t lost discarded) (raw : Span) (sampled : Bool) :
    ∃ lost discarded, Books (es ++ [.record raw sampled]) (t.recordSpan raw sampled) lost
      discarded := by
  cases sampled with
  | false =>
    have hskip : t.recordSpan raw false = t := if_pos (Or.inr rfl)
    rw [hskip]
    exact ⟨lost, discarded, h.quiet rfl rfl rfl rfl rfl rfl rfl⟩
  | true =>
    have hrec : recorded (es ++ [.record raw true]) = recorded es + {raw} := recorded_append _ _
    unfold recordSpan
    simp only [Bool.true_eq_false, or_false]
    split_ifs with hoff
    · -- a disabled tracer records nothing
      refine ⟨lost, discarded + {raw}, ?_, fun hclean => ?_⟩
      · rw [hrec, h.spans, add_assoc]
      · rw [(h.clean hclean.of_append).1] at hoff
        contradiction
    · obtain ⟨more, hspans, hdropped⟩ := t.buffer.addSpan_conserves raw
      refine ⟨lost + more, discarded, ?_, fun hclean => ?_⟩
      · rw [hrec, h.spans]
        change _ = t.ackedSpans + (t.buffer.addSpan raw).rawSpans + t.pending + _ + _
        calc _ = t.ackedSpans + (t.buffer.rawSpans + {raw}) + t.pending + lost + discarded := by
              abel
          _ = _ := by
              rw [hspans]
              abel
      · obtain ⟨hon, hnone, htold, hstatus⟩ := h.clean hclean.of_append
        refine ⟨hon, hnone, ?_, ?_⟩
        · change _ = t.toldDropped + (t.buffer.addSpan raw).dropped.total + t.pendingDropped
          rw [hdropped, Multiset.card_add, LossCount.add_total]
          omega
        · change _ = t.statusDropped + (t.buffer.addSpan raw).dropped.unreported +
            t.flushing.dropped.unreported
          rw [hdropped, Multiset.card_add, LossCount.add_unreported]
          omega

/-- The buffers are swapped when `flushing` is empty. -/
theorem Books.swapped (h : Books es t lost discarded) (hphase : Phased es t)
    (hfree : t.flush = none) (who : Flusher) (now : ℕ) :
    Books (es ++ [.flush who now])
      { t with
        buffer := t.flushing.setCurrent now
        flushing := t.buffer.setFlushing now
        reportInFlight := true
        lastReportAttempt := now
        flush := some (who, .swapped) } lost discarded := by
  obtain ⟨hspans, hdropped⟩ := hphase.empty hfree
  have hfresh : t.acked = false := by rw [acked, hfree]
  refine ⟨?_, fun hclean => ?_⟩
  · have hrec : recorded (es ++ [.flush who now]) = recorded es :=
      (recorded_append _ _).trans (add_zero _)
    rw [hrec, h.spans, pending, hfresh, if_neg Bool.false_ne_true, hspans]
    change _ = t.ackedSpans + ((t.flushing.rawSpans : Multiset Span)) + t.buffer.rawSpans + _ + _
    rw [hspans]
    abel
  · obtain ⟨hon, hnone, htold, hstatus⟩ := h.clean hclean.of_append
    refine ⟨hon, hnone, ?_, ?_⟩
    · rw [htold, pendingDropped, hfresh, if_neg Bool.false_ne_true, hdropped]
      change _ = t.toldDropped + t.flushing.dropped.total + t.buffer.dropped.total
      rw [hdropped]
      simp
    · rw [hstatus, hdropped]
      change _ = t.statusDropped + t.flushing.dropped.unreported + t.buffer.dropped.unreported
      rw [hdropped]
      simp

/-- Encoding a report counts no span. -/
theorem Books.encoded (h : Books es t lost discarded) (hrec : recorded [e] = 0) {who : Flusher}
    {pc : FlushPc Span} (hflush : t.flush = some (who, .swapped)) (encoderErrors : ℕ)
    (hpc : pc ≠ .finishing none) (hpc' : pc ≠ .disabling none) :
    Books (es ++ [e]) { t.encode encoderErrors with flush := some (who, pc) } lost discarded := by
  have hfresh : t.acked = false := by rw [acked, hflush]
  have hacked : acked { t.encode encoderErrors with flush := some (who, pc) } = false := by
    rcases pc with _ | _ | _ | _ | _ <;> simp_all [acked]
  refine ⟨?_, fun hclean => ?_⟩
  · rw [recorded_append, hrec, add_zero, h.spans, pending, pending, hfresh, hacked]
    rfl
  · obtain ⟨hon, hnone, htold, hstatus⟩ := h.clean hclean.of_append
    rw [pendingDropped, hfresh] at htold
    rw [pendingDropped, hacked]
    exact ⟨hon, hnone, htold, hstatus⟩

theorem acknowledged_report (req : ReportRequest Span) (reply : Reply)
    (flush : Option (Flusher × FlushPc Span)) :
    acknowledged { t with sent := t.sent ++ [(req, reply)], flush := flush } =
      t.acknowledged ++ if reply.flushError = none then [req] else [] := by
  rw [acknowledged, List.filterMap_append]
  split_ifs with hreply <;> simp [acknowledged, hreply]

theorem Books.report (h : Books es t lost discarded) (hphase : Phased es t) {who : Flusher}
    {req : ReportRequest Span} (hflush : t.flush = some (who, .reporting req)) (reply : Reply) :
    Books (es ++ [.report reply])
      { t with
        sent := t.sent ++ [(req, reply)]
        flush := some (who,
          if reply.disables then .disabling reply.flushError else .finishing reply.flushError) }
      lost discarded := by
  obtain ⟨hspans, hdropped⟩ := hphase.request who req hflush
  have hfresh : t.acked = false := by rw [acked, hflush]
  obtain ⟨pc, hpc⟩ : ∃ pc, pc =
      if reply.disables then (.disabling reply.flushError : FlushPc Span)
      else .finishing reply.flushError := ⟨_, rfl⟩
  rw [← hpc]
  have hacked : acked { t with sent := t.sent ++ [(req, reply)], flush := some (who, pc) } =
      decide (reply.flushError = none) := by
    rw [hpc]
    rcases hreply : reply.flushError with _ | err <;> split_ifs <;> rfl
  have hrec : recorded (es ++ [.report reply]) = recorded es :=
    (recorded_append _ _).trans (add_zero _)
  refine ⟨?_, fun hclean => ?_⟩
  · rw [hrec, h.spans, pending, pending, hacked, hfresh, if_neg Bool.false_ne_true, ackedSpans,
      ackedSpans, acknowledged_report]
    by_cases hreply : reply.flushError = none
    · simp only [hreply, if_true, decide_true, List.map_append, List.sum_append, List.map_cons,
        List.map_nil, List.sum_singleton, hspans]
      abel
    · simp [hreply]
  · obtain ⟨hon, hnone, htold, hstatus⟩ := h.clean hclean.of_append
    refine ⟨hon, hnone, ?_, hstatus⟩
    rw [htold, pendingDropped, pendingDropped, hacked, hfresh, if_neg Bool.false_ne_true,
      toldDropped, toldDropped, acknowledged_report]
    by_cases hreply : reply.flushError = none
    · simp only [hreply, if_true, decide_true, List.map_append, List.sum_append, List.map_cons,
        List.map_nil, List.sum_singleton, hdropped]
      omega
    · simp [hreply]

/-- Being disabled discards the buffer. -/
theorem Books.disable (h : Books es t lost discarded) {who : Flusher} {err : Option FlushError}
    (hflush : t.flush = some (who, .disabling err)) : ∃ discarded,
      Books (es ++ [.disable]) { t.disable with flush := some (who, .finishing err) } lost
        discarded := by
  have hclean : ¬Clean (es ++ [.disable]) := fun hclean => hclean.1 (by simp)
  have hrec : recorded (es ++ [.disable]) = recorded es := (recorded_append _ _).trans (add_zero _)
  have hacked : ∀ t' : GoTracer Span capacity, t'.flush = some (who, .finishing err) →
      t'.acked = t.acked := by
    intro t' ht'
    rw [acked, acked, hflush, ht']
    rcases err with _ | err <;> rfl
  unfold GoTracer.disable
  split_ifs
  · refine ⟨discarded, ?_, fun hc => absurd hc hclean⟩
    rw [hrec, h.spans, pending, pending, hacked { t with flush := some (who, .finishing err) } rfl]
    rfl
  · refine ⟨discarded + t.buffer.rawSpans, ?_, fun hc => absurd hc hclean⟩
    rw [hrec, h.spans, pending, pending, hacked
      { t with
        disabled := true
        buffer := t.buffer.clear
        flush := some (who, .finishing err) } rfl]
    change _ = t.ackedSpans + (0 : Multiset Span) + _ + _ + _
    abel

/-- What a `Flush` that ends leaves alone, and the two buffers after it. -/
structure Ended (t t' : GoTracer Span capacity) (err : Option FlushError) : Prop where
  free : t'.flush = none
  acknowledged : t'.acknowledged = t.acknowledged
  disabled : t'.disabled = t.disabled
  status : t'.statusDropped = t.statusDropped + (t.postFlush err).1.droppedSpans
  buffer : t'.buffer = (t.postFlush err).2.buffer
  flushing : t'.flushing = t.flushing.clear

theorem ended (t : GoTracer Span capacity) (who : Flusher) (err : Option FlushError) :
    Ended t (leaveFlush who { (t.postFlush err).2 with
      flush := none
      status := (t.postFlush err).2.status ++ [(t.postFlush err).1] }) err where
  free := leaveFlush_flush who
  acknowledged := by
    rw [acknowledged, leaveFlush_sent, acknowledged]
    rcases err with _ | err <;> rfl
  disabled := by
    rw [leaveFlush_disabled]
    rcases err with _ | err <;> rfl
  status := by
    rw [statusDropped, leaveFlush_status, statusDropped]
    rcases err with _ | err <;> simp [GoTracer.postFlush]
  buffer := leaveFlush_buffer who
  flushing := (leaveFlush_flushing who).trans (postFlush_flushing err)

namespace Ended

variable {err : Option FlushError}

theorem acked (h : Ended t t' err) : t'.acked = false := by
  rw [GoTracer.acked, h.free]

theorem pending (h : Ended t t' err) : t'.pending = 0 := by
  rw [GoTracer.pending, h.acked, h.flushing]
  rfl

theorem pendingDropped (h : Ended t t' err) : t'.pendingDropped = 0 := by
  rw [GoTracer.pendingDropped, h.acked, h.flushing]
  rfl

theorem ackedSpans (h : Ended t t' err) : t'.ackedSpans = t.ackedSpans := by
  rw [GoTracer.ackedSpans, GoTracer.ackedSpans, h.acknowledged]

theorem toldDropped (h : Ended t t' err) : t'.toldDropped = t.toldDropped := by
  rw [GoTracer.toldDropped, GoTracer.toldDropped, h.acknowledged]

end Ended

theorem recorded_postFlush (es : List (TracerEvent Span)) :
    recorded (es ++ [.postFlush]) = recorded es :=
  (recorded_append _ _).trans (add_zero _)

/-- A report that was acknowledged is done with. -/
theorem Books.cleared (h : Books es t lost discarded) {who : Flusher}
    (hflush : t.flush = some (who, .finishing none)) (hend : Ended t t' none) :
    Books (es ++ [.postFlush]) t' lost discarded := by
  have hold : t.acked = true := by rw [acked, hflush]
  have hsame : t'.buffer = t.buffer := hend.buffer
  refine ⟨?_, fun hclean => ?_⟩
  · rw [recorded_postFlush, h.spans, hend.ackedSpans, hend.pending, pending, hold, hsame]
    rfl
  · obtain ⟨hon, hkept, hcount, htell⟩ := h.clean hclean.of_append
    rw [pendingDropped, hold, if_pos rfl] at hcount
    refine ⟨hend.disabled.trans hon, hkept, ?_, ?_⟩
    · rw [hend.toldDropped, hend.pendingDropped, hsame, hcount]
    · rw [hend.status, hend.flushing, hsame, htell, ReportBuffer.clear_dropped,
        LossCount.zero_unreported]
      change _ = _ + t.flushing.dropped.unreported + _ + _
      omega

/-- A report that could not be encoded is discarded. -/
theorem Books.untranslated (h : Books es t lost discarded) (hphase : Phased es t) {who : Flusher}
    (hflush : t.flush = some (who, .finishing (some .translate)))
    (hend : Ended t t' (some .translate)) :
    Books (es ++ [.postFlush]) t' lost (discarded + t.flushing.rawSpans) := by
  have hold : t.acked = false := by rw [acked, hflush]
  have hsame : t'.buffer.rawSpans = t.buffer.rawSpans := by
    rw [hend.buffer]
    rfl
  refine ⟨?_, fun hclean => ?_⟩
  · rw [recorded_postFlush, h.spans, hend.ackedSpans, hend.pending, pending, hold,
      if_neg Bool.false_ne_true, hsame]
    abel
  · exact absurd hclean.of_append (hphase.translate who _ hflush (Or.inr rfl))

/-- A report that failed is merged back, as far as there is room. -/
theorem Books.merged (h : Books es t lost discarded) {who : Flusher} {err : FlushError}
    (hflush : t.flush = some (who, .finishing (some err))) (hne : err ≠ .translate)
    (hend : Ended t t' (some err)) :
    ∃ lost, Books (es ++ [.postFlush]) t' lost discarded := by
  obtain ⟨more, hspans, hdropped⟩ := t.buffer.mergeFrom_conserves t.flushing
  obtain ⟨b, hb⟩ : ∃ b, b = (t.buffer.mergeFrom t.flushing).1 := ⟨_, rfl⟩
  rw [← hb] at hspans hdropped
  have hold : t.acked = false := by rw [acked, hflush]
  have hbuffer : t'.buffer = b.reportDroppedSpanCount.2.reportLogEncoderErrorCount.2 := by
    rw [hend.buffer, hb]
    simp only [GoTracer.postFlush, if_neg hne]
  have htells : (t.postFlush (some err)).1.droppedSpans = b.dropped.unreported := by
    rw [hb]
    simp only [GoTracer.postFlush, if_neg hne]
    rfl
  refine ⟨lost + more, ?_, fun hclean => ?_⟩
  · rw [recorded_postFlush, h.spans, hend.ackedSpans, hend.pending, pending, hold,
      if_neg Bool.false_ne_true, hbuffer]
    calc _ = t.ackedSpans + (t.buffer.rawSpans + t.flushing.rawSpans) + lost + discarded := by
          abel
      _ = _ := by
          rw [hspans]
          change _ = _ + (b.rawSpans : Multiset Span) + _ + _ + _
          abel
  · obtain ⟨hon, hkept, hcount, htell⟩ := h.clean hclean.of_append
    rw [pendingDropped, hold, if_neg Bool.false_ne_true] at hcount
    refine ⟨hend.disabled.trans hon, hkept, ?_, ?_⟩
    · rw [hend.toldDropped, hend.pendingDropped, hbuffer, Multiset.card_add]
      change _ = _ + b.dropped.total + _
      rw [hdropped, LossCount.add_total, LossCount.mergeFrom_total]
      omega
    · rw [hend.status, htells, hend.flushing, hbuffer, Multiset.card_add]
      change _ = _ + _ + b.dropped.report.2.unreported + LossCount.zero.unreported
      rw [LossCount.report_unreported, LossCount.zero_unreported, hdropped,
        LossCount.add_unreported, LossCount.mergeFrom_unreported]
      omega

theorem Books.step (h : Books es t lost discarded) (hphase : Phased es t)
    (he : t.step opts e = some t') : ∃ lost discarded, Books (es ++ [e]) t' lost discarded := by
  cases stepped he with
  | record raw sampled => exact h.record raw sampled
  | tick | loopClosed | close | loopSeen | disconnect =>
    exact ⟨lost, discarded, h.quiet rfl rfl rfl rfl rfl rfl rfl⟩
  | refused who =>
    exact ⟨lost, discarded, h.quiet rfl (by simp) (by simp) (by simp) (by simp) (by simp) (by simp)⟩
  | swapped who now _ hfree => exact ⟨lost, discarded, h.swapped hphase hfree who now⟩
  | translate who n hflush =>
    exact ⟨lost, discarded, h.encoded rfl hflush n (by simp) (by simp)⟩
  | translateFailed who n hflush =>
    exact ⟨lost, discarded, h.encoded rfl hflush n (by simp) (by simp)⟩
  | report who req reply hflush => exact ⟨lost, discarded, h.report hphase hflush reply⟩
  | disable who err hflush => exact ⟨lost, h.disable hflush⟩
  | postFlush who err hflush =>
    have hend := ended t who err
    rcases err with _ | err
    · exact ⟨lost, discarded, h.cleared hflush hend⟩
    · by_cases hne : err = .translate
      · subst hne
        exact ⟨lost, _, h.untranslated hphase hflush hend⟩
      · obtain ⟨lost', hb⟩ := h.merged hflush hne hend
        exact ⟨lost', discarded, hb⟩

theorem books {now : ℕ} (h : run (step opts) (createTracer now) es = some t) :
    Phased es t ∧ ∃ lost discarded, Books es t lost discarded := by
  refine run_induction (P := fun es (t : GoTracer Span capacity) =>
    Phased es t ∧ ∃ lost discarded, Books es t lost discarded) ?_ ?_ h
  · exact ⟨⟨fun _ => ⟨rfl, rfl⟩, by simp [createTracer], by simp [createTracer]⟩, 0, 0,
      rfl, fun _ => ⟨rfl, rfl, rfl, rfl⟩⟩
  · rintro es m e m' - ⟨hphase, lost, discarded, hb⟩ he
    exact ⟨hphase.step he, hb.step hphase he⟩

end Accounts

/-- While a report is out, no other step acknowledges one or moves `Flush`. -/
theorem step_keeps (he : t.step opts e = some t') (hne : ∀ reply, e ≠ .report reply) :
    t'.acknowledged = t.acknowledged ∧
      ∀ who req, t.flush = some (who, .reporting req) → t'.flush = t.flush := by
  cases stepped he with
  | record raw sampled =>
    unfold recordSpan
    split_ifs <;> exact ⟨rfl, fun _ _ _ => rfl⟩
  | tick | loopClosed | close | loopSeen | disconnect => exact ⟨rfl, fun _ _ _ => rfl⟩
  | refused who => exact ⟨by simp [acknowledged], by simp⟩
  | swapped who now hat hfree => exact ⟨rfl, by simp [hfree]⟩
  | translate who n hflush | translateFailed who n hflush => exact ⟨rfl, by simp [hflush]⟩
  | report who req reply => exact absurd rfl (hne reply)
  | disable who err hflush =>
    refine ⟨?_, by simp [hflush]⟩
    unfold disable
    split_ifs <;> rfl
  | postFlush who err hflush => exact ⟨(ended t who err).acknowledged, by simp [hflush]⟩

theorem step_report {reply : Reply} (he : t.step opts (.report reply) = some t') :
    ∃ who req, t.flush = some (who, .reporting req) ∧
      t'.acknowledged = t.acknowledged ++ if reply.flushError = none then [req] else [] := by
  cases stepped he with
  | report who req reply hflush => exact ⟨who, req, hflush, acknowledged_report req reply _⟩

/-! ## What has been told -/

/-- No more has been told than was lost. -/
def Told (b : ReportBuffer Span capacity) : Prop :=
  0 ≤ b.dropped.reported ∧ b.dropped.reported ≤ b.dropped.total

theorem Told.addSpan {b : ReportBuffer Span capacity} (h : Told b) (raw : Span) :
    Told (b.addSpan raw) := by
  unfold ReportBuffer.addSpan
  split_ifs
  · exact ⟨h.1, h.2.trans (Int.le_add_one le_rfl)⟩
  · exact h

theorem Told.mergeFrom {b other : ReportBuffer Span capacity} (h : Told b) (h' : Told other) :
    Told (b.mergeFrom other).1 := by
  obtain ⟨lost, -, hdropped⟩ := b.mergeFrom_conserves other
  have hb := h
  unfold Told at hb h' ⊢
  rw [hdropped]
  simp only [LossCount.add, LossCount.mergeFrom]
  omega

theorem Told.reported {b : ReportBuffer Span capacity} (h : Told b) :
    Told b.reportDroppedSpanCount.2.reportLogEncoderErrorCount.2 :=
  ⟨h.1.trans h.2, le_rfl⟩

theorem Told.clear (b : ReportBuffer Span capacity) : Told b.clear :=
  ⟨le_rfl, le_rfl⟩

theorem told_step (h : Told t.buffer ∧ Told t.flushing) (he : t.step opts e = some t') :
    Told t'.buffer ∧ Told t'.flushing := by
  cases stepped he with
  | record raw sampled =>
    unfold recordSpan
    split_ifs
    · exact h
    · exact ⟨h.1.addSpan raw, h.2⟩
  | tick | loopClosed | close | loopSeen | disconnect | translate | translateFailed | report =>
    exact h
  | refused who => simpa using h
  | swapped => exact ⟨h.2, h.1⟩
  | disable =>
    unfold disable
    split_ifs
    · exact h
    · exact ⟨Told.clear t.buffer, h.2⟩
  | postFlush who err =>
    have hend := ended t who err
    refine ⟨?_, hend.flushing ▸ Told.clear _⟩
    rw [hend.buffer]
    rcases err with _ | err
    · exact h.1
    · simp only [postFlush]
      split_ifs
      · exact h.1.reported
      · exact (h.1.mergeFrom h.2).reported

end GoTracer

variable {Span : Type*} {capacity : ℕ}

open GoTracer in
/-- In every run each recorded span is acknowledged once, buffered, waiting for its report's
answer, or lost, and the reports tell the satellite of each lost span once. Only a report
that cannot be encoded and a tracer that is disabled discard spans without a count. -/
theorem go_tracer_conserves (opts : TracerOptions) (now : ℕ) {es : List (TracerEvent Span)}
    {t : GoTracer Span capacity} (h : run (GoTracer.step opts) (createTracer now) es = some t) :
    ∃ lost discarded : Multiset Span,
      recorded es = t.ackedSpans + t.buffer.rawSpans + t.pending + lost + discarded ∧
      (Clean es → discarded = 0 ∧
        (lost.card : ℤ) = t.toldDropped + t.buffer.dropped.total + t.pendingDropped) := by
  obtain ⟨-, lost, discarded, hb⟩ := books h
  refine ⟨lost, discarded, hb.spans, fun hclean => ?_⟩
  obtain ⟨-, hnone, hcount, -⟩ := hb.clean hclean
  exact ⟨hnone, hcount⟩

/-- With room for one span : the second is dropped, and the first when its report fails. -/
def sampleTracing : List (TracerEvent ℕ) :=
  [.record 0 true, .record 1 true, .tick 9000000000, .flush .loop 9000000000, .translate 0,
    .record 2 true, .report .error, .postFlush, .tick 9100000000, .flush .loop 9100000000,
    .translate 0, .report (.response false false), .postFlush, .record 3 true, .close,
    .loopClosed, .loopSeen, .flush .close 9200000000, .translate 0,
    .report (.response false false), .postFlush, .disconnect]

/-- The periods of the Go client. -/
def goOptions : TracerOptions := ⟨2500000000, 100000000⟩

theorem clean_sampleTracing : GoTracer.Clean sampleTracing := by
  simp [GoTracer.Clean, sampleTracing]

theorem go_tracer_conserves_sample : ∃ (t : GoTracer ℕ 1) (lost discarded : Multiset ℕ),
    run (GoTracer.step goOptions) (.createTracer 1) sampleTracing = some t ∧
    GoTracer.recorded sampleTracing =
      t.ackedSpans + t.buffer.rawSpans + t.pending + lost + discarded ∧
    discarded = 0 ∧ lost.card = 2 := by
  have hrun : run (GoTracer.step goOptions) (.createTracer 1 : GoTracer ℕ 1) sampleTracing =
    some _ := rfl
  obtain ⟨lost, discarded, hspans, hcount⟩ := go_tracer_conserves goOptions 1 hrun
  obtain ⟨hnone, hcard⟩ := hcount clean_sampleTracing
  exact ⟨_, lost, discarded, hrun, hspans, hnone, Int.ofNat.inj hcard⟩

end TracerBench
