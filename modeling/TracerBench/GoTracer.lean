import TracerBench.ReportBuffer
import TracerBench.Run

/-!
# The Go tracer

The Go client's spans go through the recorder of `lightstep-tracer-go`. A finished span is
put into `buffer`. The report loop wakes up every `MinReportingPeriod` and, when a report is
due, swaps the two buffers and sends what is then in `flushing`. A report that succeeds
clears `flushing`, and one that fails is merged back into `buffer`, which has taken spans
meanwhile. `Close` ends the loop and flushes once more.

`lock` makes each access to the buffers one step, and `flushingLock` keeps a second `Flush`
out between `preFlush` and `postFlush`. A span may be recorded at any time. `Flush` is the
one over HTTP, which never splits a report.

`Stepped` lists the steps with the conditions they are taken under.
-/

namespace TracerBench

/-- The `Options` that the report loop reads, in nanoseconds. -/
structure TracerOptions where
  reportingPeriod : ℕ
  minReportingPeriod : ℕ

/-- Why a `Flush` did not send its report : a `FlushErrorState`. -/
inductive FlushError where
  | tracerDisabled
  | tracerClosed
  | translate
  | transport
  | report
  deriving DecidableEq

/-- What `client.Report` returns : an error, or whether the response has errors and whether
it has a command to disable the tracer. -/
inductive Reply where
  | error
  | response (errors disable : Bool)
  deriving DecidableEq

/-- What `FlushSingle` makes of a reply. -/
def Reply.flushError : Reply → Option FlushError
  | .error => some .transport
  | .response errors _ => if errors then some .report else none

theorem Reply.flushError_ne_translate (reply : Reply) :
    reply.flushError ≠ some .translate := by
  rcases reply with _ | ⟨_ | _, _⟩ <;> simp [Reply.flushError]

/-- `resp.Disable()`. -/
def Reply.disables : Reply → Bool
  | .error => false
  | .response _ disable => disable

/-- A report : its spans and its internal metrics. -/
structure ReportRequest (Span : Type*) where
  spans : List Span
  spansDropped : ℤ
  logEncoderErrors : ℤ
  reportStart : ℕ
  reportEnd : ℕ
  deriving DecidableEq

/-- `toReportRequest`. -/
def ReportBuffer.toReportRequest {Span : Type*} {capacity : ℕ} (b : ReportBuffer Span capacity) :
    ReportRequest Span :=
  ⟨b.rawSpans, b.dropped.total, b.logEncoderErrors.total, b.reportStart, b.reportEnd⟩

/-- An `EventStatusReport`. -/
structure StatusReport where
  startTime : ℕ
  finishTime : ℕ
  sentSpans : ℕ
  droppedSpans : ℤ
  encodingErrors : ℤ
  deriving DecidableEq

/-- The callers of `Flush` : the report loop and `Close`. A `Flush` or `Disable` that the
program calls itself is left out. -/
inductive Flusher where
  | loop
  | close
  deriving DecidableEq

/-- Where a `Flush` is that has the buffers swapped. -/
inductive FlushPc (Span : Type*) where
  | swapped
  | reporting (req : ReportRequest Span)
  /-- At `tracer.Disable()`. -/
  | disabling (err : Option FlushError)
  /-- At `postFlush`. -/
  | finishing (err : Option FlushError)
  deriving DecidableEq

/-- Where `reportLoop` is. -/
inductive LoopPc where
  | waiting
  | flushing
  /-- It has found the tracer disabled. -/
  | returned
  /-- It has closed `reportLoopClosedChannel`. -/
  | closed
  deriving DecidableEq

/-- Where `Close` is. -/
inductive ClosePc where
  | uncalled
  | waiting
  | flushing
  | flushed
  | closed
  deriving DecidableEq

/-- A `tracerImpl`, with the reports it has sent and the status reports it has emitted. -/
structure GoTracer (Span : Type*) (capacity : ℕ) where
  buffer : ReportBuffer Span capacity
  flushing : ReportBuffer Span capacity
  reportInFlight : Bool
  lastReportAttempt : ℕ
  disabled : Bool
  /-- `connection` is not nil. -/
  connected : Bool
  flush : Option (Flusher × FlushPc Span)
  loop : LoopPc
  closing : ClosePc
  sent : List (ReportRequest Span × Reply)
  status : List StatusReport

inductive TracerEvent (Span : Type*) where
  | record (raw : Span) (sampled : Bool)
  | tick (now : ℕ)
  | loopClosed
  | close
  /-- `Close` finds `reportLoopClosedChannel` closed. -/
  | loopSeen
  | flush (who : Flusher) (now : ℕ)
  | translate (encoderErrors : ℕ)
  | translateFailed (encoderErrors : ℕ)
  | report (reply : Reply)
  | disable
  | postFlush
  | disconnect
  deriving DecidableEq

namespace GoTracer

variable {Span : Type*} {capacity : ℕ}

/-- `CreateTracer`. -/
def createTracer (now : ℕ) : GoTracer Span capacity where
  buffer := ReportBuffer.newSpansBuffer.setCurrent now
  flushing := .newSpansBuffer
  reportInFlight := false
  lastReportAttempt := 0
  disabled := false
  connected := true
  flush := none
  loop := .waiting
  closing := .uncalled
  sent := []
  status := []

/-- `RecordSpan`. -/
def recordSpan (raw : Span) (sampled : Bool) (t : GoTracer Span capacity) :
    GoTracer Span capacity :=
  if t.disabled ∨ sampled = false then t
  else { t with buffer := t.buffer.addSpan raw }

/-- `shouldFlushLocked`. -/
def shouldFlushLocked (opts : TracerOptions) (now : ℕ) (t : GoTracer Span capacity) : Bool :=
  if (now + opts.minReportingPeriod : ℤ) - t.lastReportAttempt > opts.reportingPeriod then true
  else t.buffer.isHalfFull

/-- `preFlush`. -/
def preFlush (now : ℕ) (t : GoTracer Span capacity) :
    Except FlushError (GoTracer Span capacity) :=
  if t.disabled then .error .tracerDisabled
  else if t.connected = false then .error .tracerClosed
  else
    .ok { t with
      buffer := t.flushing.setCurrent now
      flushing := t.buffer.setFlushing now
      reportInFlight := true
      lastReportAttempt := now }

/-- `postFlush` : the status report it returns and the tracer after it. -/
def postFlush (err : Option FlushError) (t : GoTracer Span capacity) :
    StatusReport × GoTracer Span capacity :=
  let t := { t with reportInFlight := false }
  match err with
  | none =>
    (⟨t.flushing.reportStart, t.flushing.reportEnd, t.flushing.rawSpans.length,
      t.flushing.reportDroppedSpanCount.1, t.flushing.reportLogEncoderErrorCount.1⟩,
      { t with flushing := t.flushing.clear })
  | some e =>
    let (buffer, flushing) :=
      if e = .translate then (t.buffer, t.flushing.clear) else t.buffer.mergeFrom t.flushing
    (⟨t.flushing.reportStart, t.flushing.reportEnd, 0, buffer.reportDroppedSpanCount.1,
      buffer.reportLogEncoderErrorCount.1⟩,
      { t with
        buffer := buffer.reportDroppedSpanCount.2.reportLogEncoderErrorCount.2
        flushing := flushing })

/-- `Disable`. -/
def disable (t : GoTracer Span capacity) : GoTracer Span capacity :=
  if t.disabled then t else { t with disabled := true, buffer := t.buffer.clear }

/-- A caller of `Flush` has come to it. -/
def atFlush (who : Flusher) (t : GoTracer Span capacity) : Bool :=
  match who with
  | .loop => t.loop = .flushing
  | .close => t.closing = .flushing

/-- `Flush` returns to its caller. -/
def leaveFlush (who : Flusher) (t : GoTracer Span capacity) : GoTracer Span capacity :=
  match who with
  | .loop => { t with loop := .waiting }
  | .close => { t with closing := .flushed }

/-- What the encoder rejects is counted in the buffer that is sent. -/
def encode (encoderErrors : ℕ) (t : GoTracer Span capacity) : GoTracer Span capacity :=
  { t with flushing :=
      { t.flushing with logEncoderErrors := t.flushing.logEncoderErrors.add encoderErrors } }

/-- One step of the client, the report loop or `Close`. -/
def step (opts : TracerOptions) (t : GoTracer Span capacity) :
    TracerEvent Span → Option (GoTracer Span capacity)
  | .record raw sampled => some (t.recordSpan raw sampled)
  | .tick now =>
    if t.loop = .waiting then
      some { t with
        loop :=
          if t.disabled then .returned
          else if t.shouldFlushLocked opts now then .flushing
          else .waiting }
    else none
  | .loopClosed =>
    if t.loop = .waiting ∧ t.closing ≠ .uncalled then some { t with loop := .closed } else none
  | .close => if t.closing = .uncalled then some { t with closing := .waiting } else none
  | .loopSeen =>
    if t.closing = .waiting ∧ t.loop = .closed then some { t with closing := .flushing } else none
  | .flush who now =>
    if t.atFlush who ∧ t.flush = none then
      match t.preFlush now with
      | .error _ => some (t.leaveFlush who)
      | .ok t' => some { t' with flush := some (who, .swapped) }
    else none
  | .translate encoderErrors =>
    match t.flush with
    | some (who, .swapped) =>
      let t := t.encode encoderErrors
      some { t with flush := some (who, .reporting t.flushing.toReportRequest) }
    | _ => none
  | .translateFailed encoderErrors =>
    match t.flush with
    | some (who, .swapped) =>
      some { t.encode encoderErrors with flush := some (who, .finishing (some .translate)) }
    | _ => none
  | .report reply =>
    match t.flush with
    | some (who, .reporting req) =>
      some { t with
        sent := t.sent ++ [(req, reply)]
        flush := some (who,
          if reply.disables then .disabling reply.flushError else .finishing reply.flushError) }
    | _ => none
  | .disable =>
    match t.flush with
    | some (who, .disabling err) => some { t.disable with flush := some (who, .finishing err) }
    | _ => none
  | .postFlush =>
    match t.flush with
    | some (who, .finishing err) =>
      let (status, t) := t.postFlush err
      some (leaveFlush who { t with flush := none, status := t.status ++ [status] })
    | _ => none
  | .disconnect =>
    if t.closing = .flushed then some { t with connected := false, closing := .closed } else none

/-! ## What a step can do -/

/-- The steps with the conditions they are taken under. -/
inductive Stepped (opts : TracerOptions) (t : GoTracer Span capacity) :
    TracerEvent Span → GoTracer Span capacity → Prop
  | record (raw : Span) (sampled : Bool) :
    Stepped opts t (.record raw sampled) (t.recordSpan raw sampled)
  | tick (now : ℕ) (pc : LoopPc) (hloop : t.loop = .waiting)
    (hpc : pc = .returned ∧ t.disabled = true ∨ pc = .flushing ∨ pc = .waiting) :
    Stepped opts t (.tick now) { t with loop := pc }
  | loopClosed (hloop : t.loop = .waiting) (hclose : t.closing ≠ .uncalled) :
    Stepped opts t .loopClosed { t with loop := .closed }
  | close (hclose : t.closing = .uncalled) : Stepped opts t .close { t with closing := .waiting }
  | loopSeen (hclose : t.closing = .waiting) (hloop : t.loop = .closed) :
    Stepped opts t .loopSeen { t with closing := .flushing }
  | refused (who : Flusher) (now : ℕ) (hat : t.atFlush who = true) (hfree : t.flush = none)
    (hoff : t.disabled = true ∨ t.connected = false) :
    Stepped opts t (.flush who now) (t.leaveFlush who)
  | swapped (who : Flusher) (now : ℕ) (hat : t.atFlush who = true) (hfree : t.flush = none)
    (hon : t.disabled = false) (hconn : t.connected = true) :
    Stepped opts t (.flush who now)
      { t with
        buffer := t.flushing.setCurrent now
        flushing := t.buffer.setFlushing now
        reportInFlight := true
        lastReportAttempt := now
        flush := some (who, .swapped) }
  | translate (who : Flusher) (encoderErrors : ℕ) (hflush : t.flush = some (who, .swapped)) :
    Stepped opts t (.translate encoderErrors)
      { t.encode encoderErrors with
        flush := some (who, .reporting (t.encode encoderErrors).flushing.toReportRequest) }
  | translateFailed (who : Flusher) (encoderErrors : ℕ)
    (hflush : t.flush = some (who, .swapped)) :
    Stepped opts t (.translateFailed encoderErrors)
      { t.encode encoderErrors with flush := some (who, .finishing (some .translate)) }
  | report (who : Flusher) (req : ReportRequest Span) (reply : Reply)
    (hflush : t.flush = some (who, .reporting req)) :
    Stepped opts t (.report reply)
      { t with
        sent := t.sent ++ [(req, reply)]
        flush := some (who,
          if reply.disables then .disabling reply.flushError else .finishing reply.flushError) }
  | disable (who : Flusher) (err : Option FlushError)
    (hflush : t.flush = some (who, .disabling err)) :
    Stepped opts t .disable { t.disable with flush := some (who, .finishing err) }
  | postFlush (who : Flusher) (err : Option FlushError)
    (hflush : t.flush = some (who, .finishing err)) :
    Stepped opts t .postFlush (leaveFlush who { (t.postFlush err).2 with
      flush := none
      status := (t.postFlush err).2.status ++ [(t.postFlush err).1] })
  | disconnect (hclose : t.closing = .flushed) :
    Stepped opts t .disconnect { t with connected := false, closing := .closed }

variable {opts : TracerOptions} {t t' : GoTracer Span capacity} {e : TracerEvent Span}

theorem stepped (h : t.step opts e = some t') : Stepped opts t e t' := by
  cases e with
  | record raw sampled =>
    obtain rfl := Option.some.inj h
    exact .record raw sampled
  | tick now =>
    simp only [step] at h
    split_ifs at h with hloop hdis hflush
    · obtain rfl := Option.some.inj h
      exact .tick now _ hloop (Or.inl ⟨rfl, hdis⟩)
    · obtain rfl := Option.some.inj h
      exact .tick now _ hloop (Or.inr (Or.inl rfl))
    · obtain rfl := Option.some.inj h
      exact .tick now _ hloop (Or.inr (Or.inr rfl))
  | loopClosed =>
    simp only [step] at h
    split_ifs at h with hcond
    obtain rfl := Option.some.inj h
    exact .loopClosed hcond.1 hcond.2
  | close =>
    simp only [step] at h
    split_ifs at h with hclose
    obtain rfl := Option.some.inj h
    exact .close hclose
  | loopSeen =>
    simp only [step] at h
    split_ifs at h with hcond
    obtain rfl := Option.some.inj h
    exact .loopSeen hcond.1 hcond.2
  | flush who now =>
    simp only [step, preFlush] at h
    split_ifs at h with hcond hdis hconn
    · obtain rfl := Option.some.inj h
      exact .refused who now hcond.1 hcond.2 (Or.inl hdis)
    · obtain rfl := Option.some.inj h
      exact .refused who now hcond.1 hcond.2 (Or.inr hconn)
    · obtain rfl := Option.some.inj h
      exact .swapped who now hcond.1 hcond.2 (by simpa using hdis) (by simpa using hconn)
  | translate encoderErrors =>
    simp only [step] at h
    split at h
    · next who hflush =>
      obtain rfl := Option.some.inj h
      exact .translate who encoderErrors hflush
    · simp at h
  | translateFailed encoderErrors =>
    simp only [step] at h
    split at h
    · next who hflush =>
      obtain rfl := Option.some.inj h
      exact .translateFailed who encoderErrors hflush
    · simp at h
  | report reply =>
    simp only [step] at h
    split at h
    · next who req hflush =>
      obtain rfl := Option.some.inj h
      exact .report who req reply hflush
    · simp at h
  | disable =>
    simp only [step] at h
    split at h
    · next who err hflush =>
      obtain rfl := Option.some.inj h
      exact .disable who err hflush
    · simp at h
  | postFlush =>
    simp only [step] at h
    split at h
    · next who err hflush =>
      obtain rfl := Option.some.inj h
      exact .postFlush who err hflush
    · simp at h
  | disconnect =>
    simp only [step] at h
    split_ifs at h with hclose
    obtain rfl := Option.some.inj h
    exact .disconnect hclose

end GoTracer

end TracerBench
