import TracerBench.GoSpan
import TracerBench.GoTracer
import TracerBench.Report

/-!
# From finished spans to a report

`protoConverter` makes the messages of a report out of a buffer of finished spans, and
`grpcLogFieldEncoder` the fields of their logs. A key or a value of a log that is longer than
the options allow is cut, and ends with an ellipsis then. What can not be put into JSON is
counted in the buffer, and the metrics are read from the buffer after its spans.

Go goes through a map in any order, so an order comes with each map (`MapRange`). The tracer's
own report knows its spans by name only. `wire` is what it stands for, and `toReportRequest_eq`
says that the converter makes just that.
-/

namespace TracerBench

/-- A map with the order in which `range` goes through it. -/
structure MapRange {α : Type*} (m : String → Option α) where
  entries : List (String × α)
  nodup : (entries.map Prod.fst).Nodup
  mem_iff : ∀ key value, (key, value) ∈ entries ↔ m key = some value

/-- A tag's value by its kind. A float is its 64 bits, and what is of no other kind the text
that stands for it. -/
inductive TagValue where
  | string (s : String)
  | int (n : ℤ)
  | float (bits : UInt64)
  | bool (b : Bool)
  | other (text : String)
  deriving DecidableEq

/-- A finished span with the orders of its maps. -/
structure ReportedSpan where
  raw : RawSpan TagValue
  baggage : MapRange raw.context.baggage
  tags : MapRange raw.tags

/-- The bytes of a string. -/
def bytes (s : String) : List UInt8 :=
  s.toByteArray.data.toList

theorem bytes_injective : Function.Injective bytes := by
  intro s t h
  have hdata : s.toByteArray.data = t.toByteArray.data := Array.toList_inj.1 h
  exact String.toByteArray_inj.1 (ByteArray.ext hdata)

/-- A conversion that counts, for each of a list. -/
def mapCount {α β : Type*} (f : α → ℕ → β × ℕ) : List α → ℕ → List β × ℕ
  | [], n => ([], n)
  | a :: as, n =>
    let (b, n) := f a n
    let (bs, n) := mapCount f as n
    (b :: bs, n)

/-- When the conversions do not read the count, each adds what it adds to 0. -/
theorem mapCount_eq {α β : Type*} {f : α → ℕ → β × ℕ} {g : α → β} {k : α → ℕ}
    (h : ∀ a n, f a n = (g a, n + k a)) : ∀ (as : List α) (n : ℕ),
      mapCount f as n = (as.map g, n + (as.map k).sum)
  | [], n => rfl
  | a :: as, n => by
    simp only [mapCount, h, mapCount_eq h as, List.map_cons, List.sum_cons, Nat.add_assoc]

/-! ## The fields of a log -/

/-- A `protoConverter`, with 0 for no limit. -/
structure ProtoConverter where
  maxLogKeyLen : ℕ
  maxLogValueLen : ℕ

/-- A `grpcLogFieldEncoder`, with the errors counted so far. -/
structure LogFieldEncoder where
  keyValues : List Collectorpb.KeyValue
  logEncoderErrorCount : ℕ

namespace ProtoConverter

open Collectorpb (KeyValue)

variable (c : ProtoConverter)

def ellipsis : List UInt8 :=
  bytes "…"

def setSafeStringValue (str : List UInt8) : KeyValue.Value :=
  if c.maxLogValueLen > 0 ∧ str.length > c.maxLogValueLen then
    .stringValue (str.take (c.maxLogValueLen - 1) ++ ellipsis)
  else .stringValue str

def setSafeJSONValue (json : List UInt8) : KeyValue.Value :=
  if c.maxLogValueLen > 0 ∧ json.length > c.maxLogValueLen then
    .stringValue (json.take (c.maxLogValueLen - 1) ++ ellipsis)
  else .jsonValue json

def setSafeKey (key : List UInt8) : List UInt8 :=
  if c.maxLogKeyLen > 0 ∧ key.length > c.maxLogKeyLen then
    key.take (c.maxLogKeyLen - 1) ++ ellipsis
  else key

def emitKeyValue (key : String) (value : KeyValue.Value) (lfe : LogFieldEncoder) :
    LogFieldEncoder :=
  { lfe with keyValues := lfe.keyValues ++ [⟨c.setSafeKey (bytes key), some value⟩] }

def emitString (key value : String) : LogFieldEncoder → LogFieldEncoder :=
  c.emitKeyValue key (c.setSafeStringValue (bytes value))

def emitBool (key : String) (value : Bool) : LogFieldEncoder → LogFieldEncoder :=
  c.emitKeyValue key (.boolValue value)

/-- `EmitInt`, `EmitInt32` and `EmitInt64`. -/
def emitInt (key : String) (value : ℤ) : LogFieldEncoder → LogFieldEncoder :=
  c.emitKeyValue key (.intValue (Int64.ofInt value))

/-- `EmitUint32` and `EmitUint64`, which write the number out. -/
def emitUint (key : String) (value : ℕ) : LogFieldEncoder → LogFieldEncoder :=
  c.emitKeyValue key (.stringValue (bytes (toString value)))

/-- `EmitFloat32` and `EmitFloat64`. -/
def emitFloat (key : String) (bits : UInt64) : LogFieldEncoder → LogFieldEncoder :=
  c.emitKeyValue key (.doubleValue bits)

def emitObject (key : String) (json : Json) (lfe : LogFieldEncoder) : LogFieldEncoder :=
  match json with
  | none =>
    c.emitKeyValue key (c.setSafeStringValue (bytes "<json.Marshal error>"))
      { lfe with logEncoderErrorCount := lfe.logEncoderErrorCount + 1 }
  | some json => c.emitKeyValue key (c.setSafeJSONValue (bytes json)) lfe

/-- `Field.Marshal`. -/
def marshalField (field : LogField) : LogFieldEncoder → LogFieldEncoder :=
  match field.value with
  | .string s => c.emitString field.key s
  | .bool b => c.emitBool field.key b
  | .int n => c.emitInt field.key n
  | .uint n => c.emitUint field.key n
  | .float bits => c.emitFloat field.key bits
  | .object json => c.emitObject field.key json
  | .noop => id

def marshalFields (fields : List LogField) (errors : ℕ) : LogFieldEncoder :=
  fields.foldl (fun lfe field => c.marshalField field lfe) ⟨[], errors⟩

/-! ## Spans -/

/-- `toTimestamp`, with the seconds from 1970. -/
def toTimestamp (t : ℕ) : Collectorpb.Timestamp where
  seconds := Int64.ofInt (t / 1000000000 - 62135596800)
  nanos := Int32.ofNat (t % 1000000000)

/-- `fromDuration`, which rounds towards zero. -/
def fromDuration (d : ℤ) : UInt64 :=
  UInt64.ofInt (d.tdiv 1000)

def fromTimeRange (oldestTime youngestTime : ℕ) : UInt64 :=
  fromDuration (youngestTime - oldestTime)

def toField (key : String) (value : TagValue) : KeyValue where
  key := bytes key
  value := some <|
    match value with
    | .string s => .stringValue (bytes s)
    | .int n => .intValue (Int64.ofInt n)
    | .float bits => .doubleValue bits
    | .bool b => .boolValue b
    | .other text => .stringValue (bytes text)

def fromTags {tags : String → Option TagValue} (range : MapRange tags) : List KeyValue :=
  range.entries.map fun tag => toField tag.1 tag.2

def toFields {attributes : String → Option String} (range : MapRange attributes) :
    List KeyValue :=
  range.entries.map fun entry => toField entry.1 (.string entry.2)

def toLog (record : LogRecord) (errors : ℕ) : Collectorpb.Log × ℕ :=
  let lfe := c.marshalFields record.fields errors
  (⟨some (toTimestamp record.timestamp), lfe.keyValues⟩, lfe.logEncoderErrorCount)

def toLogs (records : List LogRecord) (errors : ℕ) : List Collectorpb.Log × ℕ :=
  mapCount c.toLog records errors

theorem baggage_nodup {m : String → Option String} (range : MapRange m) :
    ((range.entries.map fun item => (bytes item.1, bytes item.2)).map Prod.fst).Nodup := by
  have hkeys : (range.entries.map fun item => (bytes item.1, bytes item.2)).map Prod.fst =
      (range.entries.map Prod.fst).map bytes := by
    simp [List.map_map, Function.comp_def]
  rw [hkeys]
  exact range.nodup.map bytes_injective

def toSpanContext (sc : SpanContext) (baggage : MapRange sc.baggage) :
    Collectorpb.SpanContext where
  traceId := UInt64.ofNat sc.traceId
  spanId := UInt64.ofNat sc.spanId
  baggage := ⟨baggage.entries.map fun item => (bytes item.1, bytes item.2), baggage_nodup baggage⟩

/-- `toReference`. `CHILD_OF` is 0. -/
def toReference (parentSpanId : ℕ) : List Collectorpb.Reference :=
  if parentSpanId = 0 then []
  else [⟨0, some { spanId := UInt64.ofNat parentSpanId }⟩]

def toSpan (span : ReportedSpan) (errors : ℕ) : Collectorpb.Span × ℕ :=
  let (logs, errors) := c.toLogs span.raw.logs errors
  ({ spanContext := some (toSpanContext span.raw.context span.baggage)
     operationName := bytes span.raw.operation
     references := toReference span.raw.parentSpanId
     startTimestamp := some (toTimestamp span.raw.start)
     durationMicros := fromDuration span.raw.duration
     tags := fromTags span.tags
     logs := logs }, errors)

/-! ## A report -/

/-- `toMetricsSample`, of the spans dropped and the encoder's errors. -/
def toMetricsSample (spansDropped logEncoderErrors : ℤ) : List Collectorpb.MetricsSample :=
  [⟨bytes "spans.dropped", some (.intValue (Int64.ofInt spansDropped))⟩,
    ⟨bytes "log_encoder.errors", some (.intValue (Int64.ofInt logEncoderErrors))⟩]

def toInternalMetrics (reportStart reportEnd : ℕ) (spansDropped logEncoderErrors : ℤ) :
    Collectorpb.InternalMetrics where
  startTimestamp := some (toTimestamp reportStart)
  durationMicros := fromTimeRange reportStart reportEnd
  counts := toMetricsSample spansDropped logEncoderErrors

/-- What a tracer says of itself in every report. -/
structure Sender where
  reporterId : UInt64
  attributes : String → Option String
  range : MapRange attributes
  accessToken : String

def Sender.toReporter (sender : Sender) : Collectorpb.Reporter where
  reporterId := sender.reporterId
  tags := toFields sender.range

def Sender.toAuth (sender : Sender) : Collectorpb.Auth where
  accessToken := bytes sender.accessToken

section Report

variable {Span : Type*} {capacity : ℕ} (sender : Sender) (raw : Span → ReportedSpan)

/-- `toReportRequest`, with the buffer after it. -/
def toReportRequest (b : ReportBuffer Span capacity) :
    Collectorpb.ReportRequest × ReportBuffer Span capacity :=
  let (spans, errors) := mapCount (fun span => c.toSpan (raw span)) b.rawSpans 0
  let b := { b with logEncoderErrors := b.logEncoderErrors.add errors }
  ({ reporter := some sender.toReporter
     auth := some sender.toAuth
     spans := spans
     internalMetrics := some (toInternalMetrics b.reportStart b.reportEnd b.dropped.total
       b.logEncoderErrors.total) }, b)

/-- What a report of the tracer stands for. -/
def wire (req : ReportRequest Span) : Collectorpb.ReportRequest where
  reporter := some sender.toReporter
  auth := some sender.toAuth
  spans := req.spans.map fun span => (c.toSpan (raw span) 0).1
  internalMetrics := some (toInternalMetrics req.reportStart req.reportEnd req.spansDropped
    req.logEncoderErrors)

end Report

end ProtoConverter

/-! ## What the encoder counts -/

/-- The errors that a field makes the encoder count. -/
def LogField.rejected (field : LogField) : ℕ :=
  match field.value with
  | .object none => 1
  | _ => 0

def LogRecord.rejected (record : LogRecord) : ℕ :=
  (record.fields.map LogField.rejected).sum

def ReportedSpan.rejected (span : ReportedSpan) : ℕ :=
  (span.raw.logs.map LogRecord.rejected).sum

namespace ProtoConverter

variable (c : ProtoConverter)

/-- A field adds its own, whatever there is already. -/
theorem marshalField_eq (field : LogField) : ∃ keyValues, ∀ lfe,
    c.marshalField field lfe =
      ⟨lfe.keyValues ++ keyValues, lfe.logEncoderErrorCount + field.rejected⟩ := by
  obtain ⟨key, value⟩ := field
  cases value with
  | object json => cases json <;> exact ⟨_, fun _ => rfl⟩
  | noop => exact ⟨[], fun lfe => by simp [marshalField, LogField.rejected]⟩
  | _ => exact ⟨_, fun _ => rfl⟩

theorem foldl_marshalField (fields : List LogField) : ∃ keyValues, ∀ lfe,
    fields.foldl (fun lfe field => c.marshalField field lfe) lfe =
      ⟨lfe.keyValues ++ keyValues,
        lfe.logEncoderErrorCount + (fields.map LogField.rejected).sum⟩ := by
  induction fields with
  | nil => exact ⟨[], fun lfe => by simp⟩
  | cons field fields ih =>
    obtain ⟨first, hfirst⟩ := c.marshalField_eq field
    obtain ⟨rest, hrest⟩ := ih
    exact ⟨first ++ rest, fun lfe => by simp [hfirst, hrest, Nat.add_assoc]⟩

theorem toLog_eq (record : LogRecord) (n : ℕ) :
    c.toLog record n = ((c.toLog record 0).1, n + record.rejected) := by
  obtain ⟨keyValues, h⟩ := c.foldl_marshalField record.fields
  simp [toLog, marshalFields, h, LogRecord.rejected]

theorem toSpan_eq (span : ReportedSpan) (n : ℕ) :
    c.toSpan span n = ((c.toSpan span 0).1, n + span.rejected) := by
  have hlogs : ∀ n, c.toLogs span.raw.logs n =
      (span.raw.logs.map fun record => (c.toLog record 0).1, n + span.rejected) :=
    mapCount_eq c.toLog_eq span.raw.logs
  simp only [toSpan, hlogs]

section Report

variable {Span : Type*} {capacity : ℕ} (sender : Sender) (raw : Span → ReportedSpan)

/-- The errors that the spans of a buffer make the encoder count. -/
def encoderErrors (b : ReportBuffer Span capacity) : ℕ :=
  (b.rawSpans.map fun span => (raw span).rejected).sum

/-- The converter makes the report that the tracer's own stands for, and counts the errors
that it is said to count. -/
theorem toReportRequest_eq (b : ReportBuffer Span capacity) :
    c.toReportRequest sender raw b =
      (c.wire sender raw { b with
        logEncoderErrors := b.logEncoderErrors.add (encoderErrors raw b) }.toReportRequest,
      { b with logEncoderErrors := b.logEncoderErrors.add (encoderErrors raw b) }) := by
  have hspans : mapCount (fun span => c.toSpan (raw span)) b.rawSpans 0 =
      (b.rawSpans.map fun span => (c.toSpan (raw span) 0).1, 0 + encoderErrors raw b) :=
    mapCount_eq (fun span => c.toSpan_eq (raw span)) b.rawSpans 0
  rw [Nat.zero_add] at hspans
  simp only [toReportRequest, hspans]
  rfl

/-- So does a step of the tracer. -/
theorem translate_wire (opts : TracerOptions) {t : GoTracer Span capacity} {who : Flusher}
    (hflush : t.flush = some (who, .swapped)) : ∃ t' req,
      t.step opts (.translate (encoderErrors raw t.flushing)) = some t' ∧
      t'.flush = some (who, .reporting req) ∧
      c.toReportRequest sender raw t.flushing = (c.wire sender raw req, t'.flushing) := by
  refine ⟨_, _, by rw [GoTracer.step, hflush], rfl, ?_⟩
  rw [toReportRequest_eq]
  rfl

end Report

end ProtoConverter

end TracerBench
