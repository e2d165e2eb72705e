import TracerBench.Collector

/-!
# Reports on the wire

What a client sends and what it is answered. A report is read back whatever it holds, and
whatever stands between its fields that the reader does not know.
-/

namespace TracerBench.Collectorpb

open Wire

/-! ## Reporter -/

structure Reporter where
  reporterId : UInt64 := 0
  tags : List KeyValue := []

namespace Reporter

def onReporterId : Lens Reporter UInt64 where
  get := reporterId
  set a m := { m with reporterId := a }

def onTags : Lens Reporter (List KeyValue) where
  get := tags
  set a m := { m with tags := a }

def size (m : Reporter) : ℕ :=
  sizeScalar m.reporterId + KeyValue.codec.putAllSize m.tags

def marshalTo (m : Reporter) : List UInt8 :=
  putScalar 0x08 m.reporterId ++ KeyValue.codec.putAll 0x22 m.tags

def schema : Schema Reporter where
  name := "Reporter"
  skip := collectorSkip
  cases
    | 1 => some (.scalar "ReporterId" onReporterId.set)
    | 4 => some (KeyValue.codec.repeated "Tags" onTags)
    | _ => none

theorem reads (m : Reporter) : Reads schema m.marshalTo {} m :=
  (Reads.putScalar onReporterId m.reporterId (by decide) rfl rfl).append
    (KeyValue.codec.reads_putAll onTags m.tags (by decide) rfl rfl)

def codec : Codec Reporter where
  init := {}
  size := size
  marshalTo := marshalTo
  schema := schema
  length_marshalTo m := by simp [size, marshalTo]
  reads := reads

end Reporter

/-! ## MetricsSample -/

inductive MetricsSample.Value where
  | intValue (v : Int64)
  | doubleValue (v : UInt64)
  deriving DecidableEq

structure MetricsSample where
  name : List UInt8 := []
  value : Option MetricsSample.Value := none

namespace MetricsSample

namespace Value

def size : Value → ℕ
  | intValue v => 1 + sov (Scalar.toWire v).toNat
  | doubleValue _ => 9

def marshalTo : Value → List UInt8
  | intValue v => 0x10 :: encodeVarint (Scalar.toWire v).toNat
  | doubleValue v => 0x19 :: putFixed 8 v.toNat

theorem length_marshalTo (v : Value) : v.marshalTo.length = v.size := by
  cases v <;> simp [marshalTo, size, Nat.add_comm]

end Value

def onName : Lens MetricsSample (List UInt8) where
  get := name
  set a m := { m with name := a }

def onValue : Lens MetricsSample (Option Value) where
  get := value
  set a m := { m with value := a }

def setValue {α : Type} (f : α → Value) (a : α) : MetricsSample → MetricsSample :=
  onValue.set (some (f a))

def size (m : MetricsSample) : ℕ :=
  sizeString m.name + m.value.elim 0 Value.size

def marshalTo (m : MetricsSample) : List UInt8 :=
  putString 0x0a m.name ++ m.value.elim [] Value.marshalTo

def schema : Schema MetricsSample where
  name := "MetricsSample"
  skip := collectorSkip
  cases
    | 1 => some (.string "Name" onName.set)
    | 2 => some (.scalar "IntValue" (setValue .intValue))
    | 3 => some (.fixed64 "DoubleValue" (setValue .doubleValue))
    | _ => none

theorem length_marshalTo (m : MetricsSample) : m.marshalTo.length = m.size := by
  rw [marshalTo, List.length_append, length_putString, size]
  cases m.value with
  | none => rfl
  | some v => exact congrArg _ v.length_marshalTo

theorem reads_value (v : Value) (m : MetricsSample) :
    Reads schema v.marshalTo m (onValue.set (some v) m) := by
  cases v with
  | intValue v => exact Reads.scalar (setValue .intValue) v (by decide) rfl
  | doubleValue v => exact Reads.fixed64 (setValue .doubleValue) v (by decide) rfl

theorem reads (m : MetricsSample) : Reads schema m.marshalTo {} m := by
  refine (Reads.putString onName m.name (by decide) rfl rfl).append ?_
  obtain ⟨name, value⟩ := m
  cases value with
  | none => exact Reads.nil
  | some v => exact reads_value v _

def codec : Codec MetricsSample where
  init := {}
  size := size
  marshalTo := marshalTo
  schema := schema
  length_marshalTo := length_marshalTo
  reads := reads

end MetricsSample

/-! ## InternalMetrics -/

structure InternalMetrics where
  startTimestamp : Option Timestamp := none
  durationMicros : UInt64 := 0
  logs : List Log := []
  counts : List MetricsSample := []
  gauges : List MetricsSample := []

namespace InternalMetrics

def onStartTimestamp : Lens InternalMetrics (Option Timestamp) where
  get := startTimestamp
  set a m := { m with startTimestamp := a }

def onDurationMicros : Lens InternalMetrics UInt64 where
  get := durationMicros
  set a m := { m with durationMicros := a }

def onLogs : Lens InternalMetrics (List Log) where
  get := logs
  set a m := { m with logs := a }

def onCounts : Lens InternalMetrics (List MetricsSample) where
  get := counts
  set a m := { m with counts := a }

def onGauges : Lens InternalMetrics (List MetricsSample) where
  get := gauges
  set a m := { m with gauges := a }

def size (m : InternalMetrics) : ℕ :=
  Timestamp.codec.putOptionSize m.startTimestamp + sizeScalar m.durationMicros +
    Log.codec.putAllSize m.logs + MetricsSample.codec.putAllSize m.counts +
    MetricsSample.codec.putAllSize m.gauges

def marshalTo (m : InternalMetrics) : List UInt8 :=
  Timestamp.codec.putOption 0x0a m.startTimestamp ++ putScalar 0x10 m.durationMicros ++
    Log.codec.putAll 0x1a m.logs ++ MetricsSample.codec.putAll 0x22 m.counts ++
    MetricsSample.codec.putAll 0x2a m.gauges

def schema : Schema InternalMetrics where
  name := "InternalMetrics"
  skip := collectorSkip
  cases
    | 1 => some (Timestamp.codec.optional "StartTimestamp" onStartTimestamp)
    | 2 => some (.scalar "DurationMicros" onDurationMicros.set)
    | 3 => some (Log.codec.repeated "Logs" onLogs)
    | 4 => some (MetricsSample.codec.repeated "Counts" onCounts)
    | 5 => some (MetricsSample.codec.repeated "Gauges" onGauges)
    | _ => none

theorem reads (m : InternalMetrics) : Reads schema m.marshalTo {} m :=
  ((((Timestamp.codec.reads_putOption onStartTimestamp m.startTimestamp (by decide) rfl rfl).append
    (Reads.putScalar onDurationMicros m.durationMicros (by decide) rfl rfl)).append
    (Log.codec.reads_putAll onLogs m.logs (by decide) rfl rfl)).append
    (MetricsSample.codec.reads_putAll onCounts m.counts (by decide) rfl rfl)).append
    (MetricsSample.codec.reads_putAll onGauges m.gauges (by decide) rfl rfl)

def codec : Codec InternalMetrics where
  init := {}
  size := size
  marshalTo := marshalTo
  schema := schema
  length_marshalTo m := by simp [size, marshalTo, Nat.add_assoc]
  reads := reads

end InternalMetrics

/-! ## Auth -/

structure Auth where
  accessToken : List UInt8 := []

namespace Auth

def onAccessToken : Lens Auth (List UInt8) where
  get := accessToken
  set a m := { m with accessToken := a }

def size (m : Auth) : ℕ :=
  sizeString m.accessToken

def marshalTo (m : Auth) : List UInt8 :=
  putString 0x0a m.accessToken

def schema : Schema Auth where
  name := "Auth"
  skip := collectorSkip
  cases
    | 1 => some (.string "AccessToken" onAccessToken.set)
    | _ => none

theorem reads (m : Auth) : Reads schema m.marshalTo {} m :=
  Reads.putString onAccessToken m.accessToken (by decide) rfl rfl

def codec : Codec Auth where
  init := {}
  size := size
  marshalTo := marshalTo
  schema := schema
  length_marshalTo m := by simp [size, marshalTo]
  reads := reads

end Auth

/-! ## ReportRequest -/

structure ReportRequest where
  reporter : Option Reporter := none
  auth : Option Auth := none
  spans : List Span := []
  timestampOffsetMicros : Int64 := 0
  internalMetrics : Option InternalMetrics := none

namespace ReportRequest

def onReporter : Lens ReportRequest (Option Reporter) where
  get := reporter
  set a m := { m with reporter := a }

def onAuth : Lens ReportRequest (Option Auth) where
  get := auth
  set a m := { m with auth := a }

def onSpans : Lens ReportRequest (List Span) where
  get := spans
  set a m := { m with spans := a }

def onTimestampOffsetMicros : Lens ReportRequest Int64 where
  get := timestampOffsetMicros
  set a m := { m with timestampOffsetMicros := a }

def onInternalMetrics : Lens ReportRequest (Option InternalMetrics) where
  get := internalMetrics
  set a m := { m with internalMetrics := a }

def size (m : ReportRequest) : ℕ :=
  Reporter.codec.putOptionSize m.reporter + Auth.codec.putOptionSize m.auth +
    Span.codec.putAllSize m.spans + sizeScalar m.timestampOffsetMicros +
    InternalMetrics.codec.putOptionSize m.internalMetrics

def marshalTo (m : ReportRequest) : List UInt8 :=
  Reporter.codec.putOption 0x0a m.reporter ++ Auth.codec.putOption 0x12 m.auth ++
    Span.codec.putAll 0x1a m.spans ++ putScalar 0x28 m.timestampOffsetMicros ++
    InternalMetrics.codec.putOption 0x32 m.internalMetrics

def schema : Schema ReportRequest where
  name := "ReportRequest"
  skip := collectorSkip
  cases
    | 1 => some (Reporter.codec.optional "Reporter" onReporter)
    | 2 => some (Auth.codec.optional "Auth" onAuth)
    | 3 => some (Span.codec.repeated "Spans" onSpans)
    | 5 => some (.scalar "TimestampOffsetMicros" onTimestampOffsetMicros.set)
    | 6 => some (InternalMetrics.codec.optional "InternalMetrics" onInternalMetrics)
    | _ => none

/-- The fields that a report is written as. -/
def pieces (m : ReportRequest) : List (List UInt8) :=
  [Reporter.codec.putOption 0x0a m.reporter, Auth.codec.putOption 0x12 m.auth] ++
    m.spans.map (Span.codec.put 0x1a) ++
    [putScalar 0x28 m.timestampOffsetMicros, InternalMetrics.codec.putOption 0x32 m.internalMetrics]

theorem flatten_pieces (m : ReportRequest) : m.pieces.flatten = m.marshalTo := by
  simp [pieces, marshalTo, Codec.putAll, List.flatMap]

theorem chain_pieces (m : ReportRequest) : Chain schema m.pieces {} m :=
  ((Chain.cons (Reporter.codec.reads_putOption onReporter m.reporter (by decide) rfl rfl)
    (Chain.cons (Auth.codec.reads_putOption onAuth m.auth (by decide) rfl rfl) Chain.nil)).append
      (Span.codec.chain_putAll onSpans m.spans (by decide) rfl rfl)).append
        (Chain.cons (Reads.putScalar onTimestampOffsetMicros m.timestampOffsetMicros (by decide)
            rfl rfl)
          (Chain.cons (InternalMetrics.codec.reads_putOption onInternalMetrics m.internalMetrics
            (by decide) rfl rfl) Chain.nil))

theorem reads (m : ReportRequest) : Reads schema m.marshalTo {} m := by
  rw [← m.flatten_pieces]
  exact m.chain_pieces.flatten

def codec : Codec ReportRequest where
  init := {}
  size := size
  marshalTo := marshalTo
  schema := schema
  length_marshalTo m := by simp [size, marshalTo, Nat.add_assoc]
  reads := reads

end ReportRequest

/-! ## Command -/

structure Command where
  disable : Bool := false
  devMode : Bool := false

namespace Command

def onDisable : Lens Command Bool where
  get := disable
  set a m := { m with disable := a }

def onDevMode : Lens Command Bool where
  get := devMode
  set a m := { m with devMode := a }

def size (m : Command) : ℕ :=
  sizeBool m.disable + sizeBool m.devMode

def marshalTo (m : Command) : List UInt8 :=
  putBool 0x08 m.disable ++ putBool 0x10 m.devMode

def schema : Schema Command where
  name := "Command"
  skip := collectorSkip
  cases
    | 1 => some (.scalar "Disable" onDisable.set)
    | 2 => some (.scalar "DevMode" onDevMode.set)
    | _ => none

theorem reads (m : Command) : Reads schema m.marshalTo {} m :=
  (Reads.putBool onDisable m.disable (by decide) rfl rfl).append
    (Reads.putBool onDevMode m.devMode (by decide) rfl rfl)

def codec : Codec Command where
  init := {}
  size := size
  marshalTo := marshalTo
  schema := schema
  length_marshalTo m := by simp [size, marshalTo]
  reads := reads

end Command

/-! ## ReportResponse -/

structure ReportResponse where
  commands : List Command := []
  receiveTimestamp : Option Timestamp := none
  transmitTimestamp : Option Timestamp := none
  errors : List (List UInt8) := []
  warnings : List (List UInt8) := []
  infos : List (List UInt8) := []

namespace ReportResponse

def onCommands : Lens ReportResponse (List Command) where
  get := commands
  set a m := { m with commands := a }

def onReceiveTimestamp : Lens ReportResponse (Option Timestamp) where
  get := receiveTimestamp
  set a m := { m with receiveTimestamp := a }

def onTransmitTimestamp : Lens ReportResponse (Option Timestamp) where
  get := transmitTimestamp
  set a m := { m with transmitTimestamp := a }

def onErrors : Lens ReportResponse (List (List UInt8)) where
  get := errors
  set a m := { m with errors := a }

def onWarnings : Lens ReportResponse (List (List UInt8)) where
  get := warnings
  set a m := { m with warnings := a }

def onInfos : Lens ReportResponse (List (List UInt8)) where
  get := infos
  set a m := { m with infos := a }

def size (m : ReportResponse) : ℕ :=
  Command.codec.putAllSize m.commands + Timestamp.codec.putOptionSize m.receiveTimestamp +
    Timestamp.codec.putOptionSize m.transmitTimestamp + sizeStrings m.errors +
    sizeStrings m.warnings + sizeStrings m.infos

def marshalTo (m : ReportResponse) : List UInt8 :=
  Command.codec.putAll 0x0a m.commands ++ Timestamp.codec.putOption 0x12 m.receiveTimestamp ++
    Timestamp.codec.putOption 0x1a m.transmitTimestamp ++ putStrings 0x22 m.errors ++
    putStrings 0x2a m.warnings ++ putStrings 0x32 m.infos

def schema : Schema ReportResponse where
  name := "ReportResponse"
  skip := collectorSkip
  cases
    | 1 => some (Command.codec.repeated "Commands" onCommands)
    | 2 => some (Timestamp.codec.optional "ReceiveTimestamp" onReceiveTimestamp)
    | 3 => some (Timestamp.codec.optional "TransmitTimestamp" onTransmitTimestamp)
    | 4 => some (.strings "Errors" onErrors)
    | 5 => some (.strings "Warnings" onWarnings)
    | 6 => some (.strings "Infos" onInfos)
    | _ => none

/-- The fields that a response is written as. -/
def pieces (m : ReportResponse) : List (List UInt8) :=
  m.commands.map (Command.codec.put 0x0a) ++
    [Timestamp.codec.putOption 0x12 m.receiveTimestamp,
      Timestamp.codec.putOption 0x1a m.transmitTimestamp] ++
    (m.errors.map fun error => putSized 0x22 error.length error) ++
    (m.warnings.map fun warning => putSized 0x2a warning.length warning) ++
    m.infos.map fun info => putSized 0x32 info.length info

theorem flatten_pieces (m : ReportResponse) : m.pieces.flatten = m.marshalTo := by
  simp [pieces, marshalTo, Codec.putAll, putStrings, List.flatMap]

theorem chain_pieces (m : ReportResponse) : Chain schema m.pieces {} m :=
  ((((Command.codec.chain_putAll onCommands m.commands (by decide) rfl rfl).append
    (Chain.cons (Timestamp.codec.reads_putOption onReceiveTimestamp m.receiveTimestamp (by decide)
        rfl rfl)
      (Chain.cons (Timestamp.codec.reads_putOption onTransmitTimestamp m.transmitTimestamp
        (by decide) rfl rfl) Chain.nil))).append
    (Chain.putStrings onErrors m.errors (by decide) rfl rfl)).append
    (Chain.putStrings onWarnings m.warnings (by decide) rfl rfl)).append
    (Chain.putStrings onInfos m.infos (by decide) rfl rfl)

theorem reads (m : ReportResponse) : Reads schema m.marshalTo {} m := by
  rw [← m.flatten_pieces]
  exact m.chain_pieces.flatten

def codec : Codec ReportResponse where
  init := {}
  size := size
  marshalTo := marshalTo
  schema := schema
  length_marshalTo m := by simp [size, marshalTo, Nat.add_assoc]
  reads := reads

end ReportResponse

/-! ## A report is read back -/

namespace ReportRequest

def marshal (m : ReportRequest) : Except WireError (List UInt8) :=
  codec.marshal m

def unmarshal (bytes : List UInt8) : Except WireError ReportRequest :=
  codec.unmarshal bytes

end ReportRequest

/-- A report fills the bytes that its size promises, and is read back from them. -/
theorem report_round_trip (m : ReportRequest) (hsize : m.size < 2 ^ 63) :
    ∃ bytes, m.marshal = .ok bytes ∧ bytes.length = m.size ∧
      ReportRequest.unmarshal bytes = .ok m :=
  ⟨m.marshalTo, ReportRequest.codec.marshal_eq m, ReportRequest.codec.length_marshalTo m,
    ReportRequest.codec.unmarshal_marshalTo hsize⟩

/-- A report with one span and two strings. -/
def sampleRequest : ReportRequest where
  auth := some ⟨[100, 101, 118]⟩
  spans := [{ operationName := [111, 112], durationMicros := 300 }]

theorem report_round_trip_sample : ∃ bytes, sampleRequest.marshal = .ok bytes ∧
    bytes.length = sampleRequest.size ∧ ReportRequest.unmarshal bytes = .ok sampleRequest :=
  report_round_trip sampleRequest (by decide)

/-- What the reader does not know makes no difference between the fields that a report is
written as. -/
theorem report_unknown_fields (m : ReportRequest) (pad : ℕ → Fields)
    (hpad : ∀ n, (pad n).Unknown ReportRequest.schema)
    (hlen : (padded pad m.pieces).length < 2 ^ 63) :
    m.marshal = .ok m.pieces.flatten ∧
      ReportRequest.unmarshal (padded pad m.pieces) = .ok m := by
  refine ⟨?_, (m.chain_pieces.padded hpad).unmarshal hlen⟩
  rw [m.flatten_pieces]
  exact ReportRequest.codec.marshal_eq m

/-- A group with a varint in it, of field 9. -/
def sampleFields : Fields :=
  .cons ⟨9, by decide⟩ (.group (.cons ⟨1, by decide⟩ (.varint 300) .nil)) .nil

theorem sampleFields_unknown {M : Type} {s : Schema M} (h : s.cases 9 = none) :
    sampleFields.Unknown s :=
  ⟨h, trivial⟩

theorem report_unknown_fields_sample :
    sampleRequest.marshal = .ok sampleRequest.pieces.flatten ∧
      ReportRequest.unmarshal (padded (fun _ => sampleFields) sampleRequest.pieces) =
        .ok sampleRequest :=
  report_unknown_fields sampleRequest (fun _ => sampleFields) (fun _ => sampleFields_unknown rfl)
    (by decide)

end TracerBench.Collectorpb
