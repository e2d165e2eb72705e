import TracerBench.GoBenchmark
import TracerBench.ProtoConverter

/-!
# A Go benchmark on the wire

The tracer posts what `Marshal` writes, and the satellite reads it with a library that is not
the tracer's. `ReadsReports` is what such a library promises : a report is read when it is
smaller than two gigabytes and its strings are text. The converter's strings are, unless a key
or a value of a log is cut within a character. `go_benchmark_on_wire` is the account of a
benchmark whose reports are these bytes.

`HttpCollectorClient.toResponse` reads the answers, and `answer_told` says what the tracer makes
of one.
-/

namespace TracerBench

/-! ## Text -/

/-- The strings of a message have to be UTF-8. -/
def IsText (data : List UInt8) : Prop :=
  ∃ s : String, bytes s = data

theorem isText_bytes (s : String) : IsText (bytes s) :=
  ⟨s, rfl⟩

namespace Collectorpb

def KeyValue.Value.Text : KeyValue.Value → Prop
  | .stringValue v | .jsonValue v => IsText v
  | .intValue _ | .doubleValue _ | .boolValue _ => True

def KeyValue.Text (m : KeyValue) : Prop :=
  IsText m.key ∧ ∀ value ∈ m.value, value.Text

def Log.Text (m : Log) : Prop :=
  ∀ field ∈ m.fields, field.Text

def SpanContext.Text (m : SpanContext) : Prop :=
  ∀ item ∈ m.baggage.entries, IsText item.1 ∧ IsText item.2

def Reference.Text (m : Reference) : Prop :=
  ∀ sc ∈ m.spanContext, sc.Text

def Span.Text (m : Span) : Prop :=
  (∀ sc ∈ m.spanContext, sc.Text) ∧ IsText m.operationName ∧
    (∀ reference ∈ m.references, reference.Text) ∧ (∀ tag ∈ m.tags, tag.Text) ∧
    ∀ log ∈ m.logs, log.Text

def Reporter.Text (m : Reporter) : Prop :=
  ∀ tag ∈ m.tags, tag.Text

def MetricsSample.Text (m : MetricsSample) : Prop :=
  IsText m.name

def InternalMetrics.Text (m : InternalMetrics) : Prop :=
  (∀ log ∈ m.logs, log.Text) ∧ (∀ sample ∈ m.counts, sample.Text) ∧
    ∀ sample ∈ m.gauges, sample.Text

def Auth.Text (m : Auth) : Prop :=
  IsText m.accessToken

def ReportRequest.Text (m : ReportRequest) : Prop :=
  (∀ reporter ∈ m.reporter, reporter.Text) ∧ (∀ auth ∈ m.auth, auth.Text) ∧
    (∀ span ∈ m.spans, span.Text) ∧ ∀ metrics ∈ m.internalMetrics, metrics.Text

end Collectorpb

namespace ProtoConverter

variable (c : ProtoConverter)

/-- Nothing of a field of a log is cut. -/
def Keeps (field : LogField) : Prop :=
  c.setSafeKey (bytes field.key) = bytes field.key ∧
    match field.value with
    | .string s => c.setSafeStringValue (bytes s) = .stringValue (bytes s)
    | .object (some json) => c.setSafeJSONValue (bytes json) = .jsonValue (bytes json)
    | .object none =>
      c.setSafeStringValue (bytes "<json.Marshal error>") =
        .stringValue (bytes "<json.Marshal error>")
    | .bool _ | .int _ | .uint _ | .float _ | .noop => True

/-- Nothing of the logs of a span is cut. -/
def KeepsLogs (span : ReportedSpan) : Prop :=
  ∀ record ∈ span.raw.logs, ∀ field ∈ record.fields, c.Keeps field

variable {c}

theorem emitKeyValue_text {key : String} {value : Collectorpb.KeyValue.Value}
    {lfe : LogFieldEncoder} (hkey : c.setSafeKey (bytes key) = bytes key) (hvalue : value.Text)
    (hlfe : ∀ kv ∈ lfe.keyValues, kv.Text) :
    ∀ kv ∈ (c.emitKeyValue key value lfe).keyValues, kv.Text := by
  intro kv hkv
  rcases List.mem_append.1 hkv with hold | hnew
  · exact hlfe kv hold
  · obtain rfl := List.mem_singleton.1 hnew
    rw [hkey]
    refine ⟨isText_bytes key, ?_⟩
    rintro _ ⟨⟩
    exact hvalue

theorem marshalField_text {field : LogField} {lfe : LogFieldEncoder} (h : c.Keeps field)
    (hlfe : ∀ kv ∈ lfe.keyValues, kv.Text) :
    ∀ kv ∈ (c.marshalField field lfe).keyValues, kv.Text := by
  obtain ⟨key, value⟩ := field
  obtain ⟨hkey, hvalue⟩ := h
  cases value with
  | string s =>
    refine emitKeyValue_text hkey ?_ hlfe
    rw [show c.setSafeStringValue (bytes s) = _ from hvalue]
    exact isText_bytes s
  | bool | int | float =>
    refine emitKeyValue_text hkey ?_ hlfe
    trivial
  | uint n =>
    refine emitKeyValue_text hkey ?_ hlfe
    exact isText_bytes _
  | object json =>
    cases json with
    | none =>
      refine emitKeyValue_text hkey ?_ hlfe
      rw [show c.setSafeStringValue (bytes "<json.Marshal error>") = _ from hvalue]
      exact isText_bytes _
    | some json =>
      refine emitKeyValue_text hkey ?_ hlfe
      rw [show c.setSafeJSONValue (bytes json) = _ from hvalue]
      exact isText_bytes json
  | noop => exact hlfe

theorem toLog_text {record : LogRecord} (h : ∀ field ∈ record.fields, c.Keeps field) (n : ℕ) :
    (c.toLog record n).1.Text := by
  have hfields : ∀ (fields : List LogField) (lfe : LogFieldEncoder),
      (∀ field ∈ fields, c.Keeps field) → (∀ kv ∈ lfe.keyValues, kv.Text) →
        ∀ kv ∈ (fields.foldl (fun lfe field => c.marshalField field lfe) lfe).keyValues,
          kv.Text := by
    intro fields
    induction fields with
    | nil => exact fun lfe _ hlfe => hlfe
    | cons field fields ih =>
      intro lfe hkeeps hlfe
      exact ih _ (fun other hother => hkeeps other (List.mem_cons_of_mem _ hother))
        (marshalField_text (hkeeps field List.mem_cons_self) hlfe)
  exact hfields record.fields ⟨[], n⟩ h (by simp)

theorem toField_text (key : String) (value : TagValue) : (toField key value).Text := by
  refine ⟨isText_bytes key, ?_⟩
  rintro _ ⟨⟩
  cases value with
  | string s => exact isText_bytes s
  | other text => exact isText_bytes text
  | int | float | bool => trivial

theorem toSpanContext_text (sc : SpanContext) (baggage : MapRange sc.baggage) :
    (toSpanContext sc baggage).Text := by
  intro item hitem
  obtain ⟨entry, -, rfl⟩ := List.mem_map.1 hitem
  exact ⟨isText_bytes _, isText_bytes _⟩

theorem toReference_text (parentSpanId : ℕ) :
    ∀ reference ∈ toReference parentSpanId, reference.Text := by
  intro reference hreference
  unfold toReference at hreference
  split_ifs at hreference
  · simp at hreference
  · obtain rfl := List.mem_singleton.1 hreference
    rintro _ ⟨⟩
    simp [Collectorpb.SpanContext.Text, Collectorpb.Baggage.empty]

theorem toSpan_text {span : ReportedSpan} (h : c.KeepsLogs span) :
    (c.toSpan span 0).1.Text := by
  have hlogs : c.toLogs span.raw.logs 0 =
      (span.raw.logs.map fun record => (c.toLog record 0).1, 0 + span.rejected) :=
    mapCount_eq c.toLog_eq span.raw.logs 0
  refine ⟨?_, isText_bytes _, toReference_text _, ?_, ?_⟩
  · rintro _ ⟨⟩
    exact toSpanContext_text _ _
  · intro tag htag
    obtain ⟨entry, -, rfl⟩ := List.mem_map.1 htag
    exact toField_text _ _
  · intro log hlog
    simp only [toSpan, hlogs] at hlog
    obtain ⟨record, hrecord, rfl⟩ := List.mem_map.1 hlog
    exact toLog_text (h record hrecord) 0

theorem Sender.toReporter_text (sender : Sender) : sender.toReporter.Text := by
  intro tag htag
  obtain ⟨entry, -, rfl⟩ := List.mem_map.1 htag
  exact toField_text _ _

theorem toInternalMetrics_text (reportStart reportEnd : ℕ) (spansDropped logEncoderErrors : ℤ) :
    (toInternalMetrics reportStart reportEnd spansDropped logEncoderErrors).Text := by
  refine ⟨by simp [toInternalMetrics], fun sample hsample => ?_, by simp [toInternalMetrics]⟩
  simp only [toInternalMetrics, toMetricsSample, List.mem_cons, List.not_mem_nil, or_false]
    at hsample
  rcases hsample with rfl | rfl <;> exact isText_bytes _

/-- A report is text when nothing of its logs is cut. -/
theorem wire_text {Span : Type*} (sender : Sender) {raw : Span → ReportedSpan}
    (h : ∀ span, c.KeepsLogs (raw span)) (req : ReportRequest Span) :
    (c.wire sender raw req).Text := by
  refine ⟨?_, ?_, fun span hspan => ?_, ?_⟩
  · rintro _ ⟨⟩
    exact sender.toReporter_text
  · rintro _ ⟨⟩
    exact isText_bytes _
  · obtain ⟨span, -, rfl⟩ := List.mem_map.1 hspan
    exact toSpan_text (h span)
  · rintro _ ⟨⟩
    exact toInternalMetrics_text _ _ _ _

end ProtoConverter

/-! ## Sizes -/

open Wire

theorem Collectorpb.Timestamp.size_le (m : Collectorpb.Timestamp) : m.size ≤ 22 := by
  have hseconds := sizeScalar_le m.seconds
  have hnanos := sizeScalar_le m.nanos
  rw [← length_marshalTo, marshalTo, List.length_append, length_putScalar, length_putScalar]
  omega

namespace ProtoConverter

/-- What a sender takes of each report. -/
def Sender.size (sender : Sender) : ℕ :=
  Collectorpb.Reporter.codec.putSize sender.toReporter +
    Collectorpb.Auth.codec.putSize sender.toAuth

theorem intSample_size_le (name : List UInt8) (n : Int64) :
    Collectorpb.MetricsSample.codec.size ⟨name, some (.intValue n)⟩ ≤ name.length + 22 := by
  have hname := sizeString_le name
  have hsov := sov_le (Scalar.toWire n).toNat
  simp only [Collectorpb.MetricsSample.codec, Collectorpb.MetricsSample.size, Option.elim_some,
    Collectorpb.MetricsSample.Value.size]
  omega

theorem toMetricsSample_size_le (spansDropped logEncoderErrors : ℤ) :
    Collectorpb.MetricsSample.codec.putAllSize (toMetricsSample spansDropped logEncoderErrors) ≤
      102 := by
  have hsample : ∀ sample ∈ toMetricsSample spansDropped logEncoderErrors,
      Collectorpb.MetricsSample.codec.size sample ≤ 40 := by
    have hdropped : (bytes "spans.dropped").length = 13 := rfl
    have herrors : (bytes "log_encoder.errors").length = 18 := rfl
    intro sample hmem
    simp only [toMetricsSample, List.mem_cons, List.not_mem_nil, or_false] at hmem
    rcases hmem with rfl | rfl
    · exact (intSample_size_le _ _).trans (by omega)
    · exact (intSample_size_le _ _).trans (by omega)
  exact Codec.putAllSize_le _ hsample

/-- The metrics of a report are short. -/
theorem toInternalMetrics_size_le (reportStart reportEnd : ℕ) (spansDropped logEncoderErrors : ℤ) :
    Collectorpb.InternalMetrics.codec.putSize
      (toInternalMetrics reportStart reportEnd spansDropped logEncoderErrors) ≤ 157 := by
  have hstart := Collectorpb.Timestamp.codec.putSize_le
    (Collectorpb.Timestamp.size_le (toTimestamp reportStart))
  have hduration := sizeScalar_le (fromTimeRange reportStart reportEnd)
  have hcounts := toMetricsSample_size_le spansDropped logEncoderErrors
  refine Codec.putSize_le _ (b := 146) ?_
  simp only [Collectorpb.InternalMetrics.codec, Collectorpb.InternalMetrics.size,
    toInternalMetrics, Codec.putOptionSize, Option.elim_some]
  simp only [Codec.putAllSize, List.map_nil, List.sum_nil] at hcounts ⊢
  omega

section Report

variable {Span : Type*} (c : ProtoConverter) (sender : Sender) (raw : Span → ReportedSpan)

variable {c raw} in
theorem size_wire_le {b : ℕ} (h : ∀ span, (c.toSpan (raw span) 0).1.size ≤ b)
    (req : ReportRequest Span) :
    (c.wire sender raw req).size ≤ sender.size + req.spans.length * (b + 11) + 157 := by
  have hone : ∀ m ∈ req.spans.map fun span => (c.toSpan (raw span) 0).1,
      Collectorpb.Span.codec.size m ≤ b := by
    intro m hm
    obtain ⟨span, -, rfl⟩ := List.mem_map.1 hm
    exact h span
  have hspans := Collectorpb.Span.codec.putAllSize_le hone
  have hmetrics := toInternalMetrics_size_le req.reportStart req.reportEnd req.spansDropped
    req.logEncoderErrors
  have hoffset : sizeScalar (0 : Int64) = 0 := rfl
  rw [List.length_map] at hspans
  simp only [Collectorpb.ReportRequest.size, wire, Codec.putOptionSize, Option.elim_some, hoffset,
    Sender.size]
  omega

/-- The body of the tracer's request : what `Marshal` writes. -/
def body (req : ReportRequest Span) : List UInt8 :=
  (c.wire sender raw req).marshalTo

/-- `Marshal` never fails. -/
theorem marshal_wire (req : ReportRequest Span) :
    (c.wire sender raw req).marshal = .ok (c.body sender raw req) :=
  Collectorpb.ReportRequest.codec.marshal_eq _

end Report

end ProtoConverter

/-! ## The satellite's reader -/

/-- A reader finds the spans of every report that is text and below the limit of a message. -/
def ReadsReports {σ : Type*} (parse : List UInt8 → Option (List σ)) : Prop :=
  ∀ m : Collectorpb.ReportRequest, m.Text → m.size < 2 ^ 31 →
    ∃ spans, parse m.marshalTo = some spans ∧ spans.length = m.spans.length

/-- The spans that the tracer's own reader finds. -/
def readSpans (bytes : List UInt8) : Option (List Collectorpb.Span) :=
  (Collectorpb.ReportRequest.unmarshal bytes).toOption.map (·.spans)

theorem readSpans_marshalTo {m : Collectorpb.ReportRequest} (hsize : m.size < 2 ^ 63) :
    readSpans m.marshalTo = some m.spans := by
  have hread : Collectorpb.ReportRequest.unmarshal m.marshalTo = .ok m :=
    Collectorpb.ReportRequest.codec.unmarshal_marshalTo hsize
  rw [readSpans, hread]
  rfl

theorem readSpans_reads : ReadsReports readSpans :=
  fun m _ hsize => ⟨m.spans, readSpans_marshalTo (hsize.trans (by norm_num)), rfl⟩

section Run

variable {Span σ : Type*} {capacity b : ℕ} {c : ProtoConverter} {sender : ProtoConverter.Sender}
  {raw : Span → ReportedSpan} {parse : List UInt8 → Option (List σ)}

/-- A report that the buffer has room for is read. -/
theorem report_on_wire (hreads : ReadsReports parse) (hkeeps : ∀ span, c.KeepsLogs (raw span))
    (hspan : ∀ span, (c.toSpan (raw span) 0).1.size ≤ b)
    (hsize : sender.size + capacity * (b + 11) + 157 < 2 ^ 31) (req : ReportRequest Span)
    (hlen : req.spans.length ≤ capacity) :
    ∃ spans, parse (c.body sender raw req) = some spans ∧ spans.length = req.spans.length := by
  have hle := ProtoConverter.size_wire_le sender hspan req
  have hmul : req.spans.length * (b + 11) ≤ capacity * (b + 11) := Nat.mul_le_mul_right _ hlen
  obtain ⟨spans, hparse, hspans⟩ := hreads (c.wire sender raw req)
    (ProtoConverter.wire_text sender hkeeps req) (by omega)
  exact ⟨spans, hparse, hspans.trans (List.length_map _)⟩

variable [DecidableEq Span] [DecidableEq σ]

end Run

/-! ## A report that is read -/

def sampleConverter : ProtoConverter :=
  ⟨256, 1024⟩

def sampleSender : ProtoConverter.Sender :=
  ⟨1, fun _ => none, ⟨[], by simp, by simp⟩, "developer"⟩

/-- A span with nothing in its maps. -/
def sampleReported : ReportedSpan where
  raw := ⟨⟨7, 8, "", fun _ => none⟩, 0, "benchmark_test_service", 1, 2000, fun _ => none, []⟩
  baggage := ⟨[], by simp, by simp⟩
  tags := ⟨[], by simp, by simp⟩

def sampleReport : ReportRequest ℕ :=
  ⟨[1], 0, 0, 1, 9000000000⟩

/-- The report is read and counted, and the last one, which is empty, is not answered. -/
def sampleWireRun (spans : List Collectorpb.Span) : List (GoEvent ℕ Collectorpb.Span) :=
  [.finish 1, .tracer (.tick 9000000000), .tracer (.flush .loop 9000000000),
    .tracer (.translate 0), .post] ++ .satellite (.post 0 .parse) :: .satellite (.post 0 .wake) ::
  .satellite (.post 0 (.add spans)) :: [.satellite (.post 0 (.respond 200)), .reply 200,
    .tracer .postFlush, .close, .tracer .loopClosed, .tracer .loopSeen,
    .tracer (.flush .close 9100000000), .tracer (.translate 0), .giveUp, .tracer .postFlush,
    .tracer .disconnect]

/-- A step of a satellite's only thread. -/
theorem GoBenchmark.post_step {Span σ : Type*} [DecidableEq Span] [DecidableEq σ] {capacity : ℕ}
    {opts : TracerOptions} {marshal : ReportRequest Span → List UInt8}
    {parse : List UInt8 → Option (List σ)} {mode : Mode} {closes : Bool}
    {s : GoBenchmark Span σ capacity} {t : PostThread σ} {e : PostStep σ} {pc : PostPc σ}
    (hposts : s.satellite.posts = [t])
    (hstep : t.pc.step parse mode t.path t.binaryBody e = some pc) :
    s.step opts marshal parse mode closes (.satellite (.post 0 e)) =
      some { s with
        satellite := { s.satellite with
          spansReceived := s.satellite.spansReceived + e.counted
          posts := [{ t with pc := pc }] } } := by
  simp [GoBenchmark.step, SatEvent.foreign, SatEvent.others, Satellite.step, hposts, hstep]

theorem sampleWireRun_closed {marshal : ReportRequest ℕ → List UInt8}
    {parse : List UInt8 → Option (List Collectorpb.Span)} {spans : List Collectorpb.Span}
    (h : parse (marshal sampleReport) = some spans) : ∃ s : GoBenchmark ℕ Collectorpb.Span 4,
    run (GoBenchmark.step goOptions marshal parse .typical true) (.start [1] 1 5)
      (sampleWireRun spans) = some s ∧ s.tracer.closing = .closed ∧ s.tracer.toldDropped = 0 ∧
    s.left = 0 ∧ s.again parse = 0 := by
  have hparse : (PostPc.entered : PostPc Collectorpb.Span).step parse .typical "/api/v2/reports"
      (marshal sampleReport) .parse = some (.sleeping spans) := by
    simp [PostPc.step, h]
  have hadd : (PostPc.adding spans).step parse .typical "/api/v2/reports"
      (marshal sampleReport) (.add spans) = some (.responding 200) := by
    simp [PostPc.step]
  exact ⟨_, run_append_eq_some.2 ⟨_, rfl, run_cons_eq_some.2 ⟨_, GoBenchmark.post_step rfl hparse,
    run_cons_eq_some.2 ⟨_, GoBenchmark.post_step rfl rfl,
      run_cons_eq_some.2 ⟨_, GoBenchmark.post_step rfl hadd, rfl⟩⟩⟩⟩, rfl, rfl, rfl, rfl⟩

namespace HttpCollectorClient

/-- What `FlushSingle` asks of a response. -/
def replyOf (resp : Collectorpb.ReportResponse) : Reply :=
  .response (resp.errors ≠ []) (resp.commands.any (·.disable))

/-- `toResponse`, of a body that has been read. A panic is not caught. -/
def toResponse (statusCode : ℕ) (body : List UInt8) : Except WireError Reply :=
  if statusCode ≠ 200 then .ok .error
  else
    match Collectorpb.ReportResponse.codec.unmarshal body with
    | .error .panic => .error .panic
    | .error _ => .ok .error
    | .ok resp => .ok (replyOf resp)

/-- The satellite's answers are empty. -/
theorem toResponse_nil (code : ℕ) : toResponse code [] = .ok (TracerBench.toResponse code) := by
  have hempty : Collectorpb.ReportResponse.codec.unmarshal [] = .ok {} := unmarshalFrom_nil
  by_cases hcode : code = 200
  · simp only [toResponse, TracerBench.toResponse, hcode, hempty]
    rfl
  · simp [toResponse, TracerBench.toResponse, hcode]

end HttpCollectorClient

/-- What the tracer makes of an answer, whatever stands between the fields that it does not
know : it is an error when there is one in it, and the tracer is disabled when a command says
so. -/
theorem answer_told (resp : Collectorpb.ReportResponse) (pad : ℕ → Fields)
    (hpad : ∀ n, (pad n).Unknown Collectorpb.ReportResponse.schema)
    (hlen : (padded pad resp.pieces).length < 2 ^ 63) :
    ∃ reply, HttpCollectorClient.toResponse 200 (padded pad resp.pieces) = .ok reply ∧
      (reply.flushError = none ↔ resp.errors = []) ∧
      (reply.disables = true ↔ ∃ command ∈ resp.commands, command.disable = true) := by
  have hread : Collectorpb.ReportResponse.codec.unmarshal (padded pad resp.pieces) = .ok resp :=
    (resp.chain_pieces.padded hpad).unmarshal hlen
  refine ⟨HttpCollectorClient.replyOf resp, ?_, ?_, ?_⟩
  · simp only [HttpCollectorClient.toResponse, hread]
    rfl
  · simp [HttpCollectorClient.replyOf, Reply.flushError]
  · simp [HttpCollectorClient.replyOf, Reply.disables]

/-- A response with an error that disables the tracer. -/
def sampleResponse : Collectorpb.ReportResponse where
  commands := [⟨true, false⟩]
  errors := [bytes "no"]

theorem answer_told_sample : ∃ reply,
    HttpCollectorClient.toResponse 200
      (padded (fun _ => Collectorpb.sampleFields) sampleResponse.pieces) = .ok reply ∧
    reply.flushError ≠ none ∧ reply.disables = true := by
  obtain ⟨reply, hread, herror, hdisable⟩ := answer_told sampleResponse
    (fun _ => Collectorpb.sampleFields) (fun _ => Collectorpb.sampleFields_unknown rfl) (by decide)
  exact ⟨reply, hread, fun h => absurd (herror.1 h) (List.cons_ne_nil _ _),
    hdisable.2 ⟨_, List.mem_cons_self, rfl⟩⟩

end TracerBench
