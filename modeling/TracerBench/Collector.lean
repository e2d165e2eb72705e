import Mathlib.Data.List.Nodup
import TracerBench.Skip

/-!
# Spans on the wire

The messages that a span is made of. A string is its bytes, a double its bits, and the
baggage of a span is in the order in which the map is gone through.

A message is a `Codec` : the size that `Size` finds is the length of what `MarshalTo` writes, and
`Unmarshal` reads the message back.
-/

namespace TracerBench.Collectorpb

open Wire

/-! ## Timestamp -/

structure Timestamp where
  seconds : Int64 := 0
  nanos : Int32 := 0
  deriving DecidableEq

namespace Timestamp

def onSeconds : Lens Timestamp Int64 where
  get := seconds
  set a m := { m with seconds := a }

def onNanos : Lens Timestamp Int32 where
  get := nanos
  set a m := { m with nanos := a }

/-- `sovTimestamp` counts bits. -/
def sov (x : UInt64) : ℕ :=
  (Nat.size (x.toNat ||| 1) + 6) / 7

def size (m : Timestamp) : ℕ :=
  (if m.seconds = 0 then 0 else 1 + sov (Scalar.toWire m.seconds)) +
    (if m.nanos = 0 then 0 else 1 + sov (Scalar.toWire m.nanos))

def marshalTo (m : Timestamp) : List UInt8 :=
  putScalar 0x08 m.seconds ++ putScalar 0x10 m.nanos

theorem length_marshalTo (m : Timestamp) : m.marshalTo.length = m.size := by
  have hsov : ∀ x : UInt64, sov x = Wire.sov x.toNat :=
    fun x => (sov_eq_size (UInt64.toNat_lt x)).symm
  have hseconds : m.seconds = 0 ↔ Scalar.toWire m.seconds = 0 :=
    (Scalar.toWire_eq_zero rfl).symm
  have hnanos : m.nanos = 0 ↔ Scalar.toWire m.nanos = 0 :=
    (Scalar.toWire_eq_zero rfl).symm
  simp only [marshalTo, size, List.length_append, length_putScalar, sizeScalar, hsov, hseconds,
    hnanos]

def schema : Schema Timestamp where
  name := "Timestamp"
  skip := timestampSkip
  cases
    | 1 => some (.scalar "Seconds" onSeconds.set)
    | 2 => some (.scalar "Nanos" onNanos.set)
    | _ => none

theorem reads (m : Timestamp) : Reads schema m.marshalTo {} m :=
  (Reads.putScalar onSeconds m.seconds (by decide) rfl rfl).append
    (Reads.putScalar onNanos m.nanos (by decide) rfl rfl)

def codec : Codec Timestamp where
  init := {}
  size := size
  marshalTo := marshalTo
  schema := schema
  length_marshalTo := length_marshalTo
  reads := reads

end Timestamp

/-! ## SpanContext -/

/-- A map has a key once. -/
structure Baggage where
  entries : List (List UInt8 × List UInt8)
  nodup : (entries.map Prod.fst).Nodup
  deriving DecidableEq

namespace Baggage

def empty : Baggage :=
  ⟨[], List.nodup_nil⟩

/-- `m.Baggage[key] = value`. -/
def setEntry (key value : List UInt8) (entries : List (List UInt8 × List UInt8)) :
    List (List UInt8 × List UInt8) :=
  if key ∈ entries.map Prod.fst then
    entries.map fun entry => if entry.1 = key then (key, value) else entry
  else entries ++ [(key, value)]

theorem setEntry_nodup (key value : List UInt8) {entries : List (List UInt8 × List UInt8)}
    (h : (entries.map Prod.fst).Nodup) : ((setEntry key value entries).map Prod.fst).Nodup := by
  unfold setEntry
  split_ifs with hkey
  · have hkeys : (entries.map fun entry => if entry.1 = key then (key, value) else entry).map
        Prod.fst = entries.map Prod.fst := by
      rw [List.map_map]
      refine List.map_congr_left fun entry _ => ?_
      by_cases he : entry.1 = key <;> simp [he]
    rwa [hkeys]
  · rw [List.map_append, List.map_singleton, ← List.concat_eq_append]
    exact List.Nodup.concat hkey h

theorem setEntry_new {key : List UInt8} (value : List UInt8)
    {entries : List (List UInt8 × List UInt8)} (h : key ∉ entries.map Prod.fst) :
    setEntry key value entries = entries ++ [(key, value)] :=
  if_neg h

def insert (b : Baggage) (key value : List UInt8) : Baggage where
  entries := setEntry key value b.entries
  nodup := setEntry_nodup key value b.nodup

end Baggage

structure SpanContext where
  traceId : UInt64 := 0
  spanId : UInt64 := 0
  baggage : Baggage := .empty
  deriving DecidableEq

namespace SpanContext

def onTraceId : Lens SpanContext UInt64 where
  get := traceId
  set a m := { m with traceId := a }

def onSpanId : Lens SpanContext UInt64 where
  get := spanId
  set a m := { m with spanId := a }

def onBaggage : Lens SpanContext Baggage where
  get := baggage
  set a m := { m with baggage := a }

def mapSize (entry : List UInt8 × List UInt8) : ℕ :=
  sizeSized entry.1.length + sizeSized entry.2.length

def putEntry (entry : List UInt8 × List UInt8) : List UInt8 :=
  putSized 0x1a (mapSize entry)
    (putSized 0x0a entry.1.length entry.1 ++ putSized 0x12 entry.2.length entry.2)

def size (m : SpanContext) : ℕ :=
  sizeScalar m.traceId + sizeScalar m.spanId +
    (m.baggage.entries.map fun entry => sizeSized (mapSize entry)).sum

def marshalTo (m : SpanContext) : List UInt8 :=
  putScalar 0x08 m.traceId ++ putScalar 0x10 m.spanId ++ m.baggage.entries.flatMap putEntry

/-- One pass over an entry that ends `post` bytes before the end of a message of `l`. A key or a
value may go on behind the entry. -/
def entryPass (l post : ℕ) (bytes : List UInt8) (entry : List UInt8 × List UInt8) :
    Except WireError ((List UInt8 × List UInt8) × List UInt8) := do
  let (wire, rest) ← readVarint 0 0 bytes
  if fieldNumber wire = 1 then
    let (key, rest) ← readBytes l rest
    return ((key, entry.2), rest)
  else if fieldNumber wire = 2 then
    let (value, rest) ← readBytes l rest
    return ((entry.1, value), rest)
  else
    let skippy ← skipCollector bytes
    if skippy ≤ 0 then .error .invalidLength
    else if 2 ^ 63 ≤ l - bytes.length + skippy.toNat then .error .panic
    else if bytes.length < post + skippy.toNat then .error .unexpectedEOF
    else .ok (entry, bytes.drop skippy.toNat)

theorem entryPass_length {l post : ℕ} {bytes rest : List UInt8}
    {entry entry' : List UInt8 × List UInt8}
    (h : entryPass l post bytes entry = .ok (entry', rest)) : rest.length < bytes.length := by
  obtain ⟨⟨wire, bytes'⟩, hwire, h⟩ := bind_eq_ok.1 h
  have hshorter := readVarint_length hwire
  simp only at h
  split_ifs at h
  · obtain ⟨⟨key, rest'⟩, hkey, h⟩ := bind_eq_ok.1 h
    cases h
    exact (readBytes_length hkey).trans hshorter
  · obtain ⟨⟨value, rest'⟩, hvalue, h⟩ := bind_eq_ok.1 h
    cases h
    exact (readBytes_length hvalue).trans hshorter
  · obtain ⟨skippy, -, h⟩ := bind_eq_ok.1 h
    split_ifs at h
    cases h
    rw [List.length_drop]
    omega

def readEntry (l post : ℕ) (bytes : List UInt8) (entry : List UInt8 × List UInt8) :
    Except WireError (List UInt8 × List UInt8) :=
  if bytes.length ≤ post then .ok entry
  else
    match _h : entryPass l post bytes entry with
    | .error e => .error e
    | .ok (entry', rest) => readEntry l post rest entry'
termination_by bytes.length
decreasing_by exact entryPass_length _h

def readBaggage (l : ℕ) (bytes : List UInt8) (m : SpanContext) :
    Except WireError (SpanContext × List UInt8) := do
  let (msglen, bytes) ← readVarint 0 0 bytes
  let (_, rest) ← takeBytes l msglen bytes
  let (key, value) ← readEntry l rest.length bytes ([], [])
  return (onBaggage.set (m.baggage.insert key value) m, rest)

theorem readBaggage_length {l : ℕ} {bytes rest : List UInt8} {m m' : SpanContext}
    (h : readBaggage l bytes m = .ok (m', rest)) : rest.length ≤ bytes.length := by
  obtain ⟨⟨msglen, bytes'⟩, hlen, h⟩ := bind_eq_ok.1 h
  obtain ⟨⟨data, rest'⟩, hdata, h⟩ := bind_eq_ok.1 h
  obtain ⟨entry, -, h⟩ := bind_eq_ok.1 h
  cases h
  exact (takeBytes_length hdata).trans (readVarint_length hlen).le

def baggageCase : Case SpanContext where
  wireType := 2
  field := "Baggage"
  read := readBaggage
  shorter := readBaggage_length

def schema : Schema SpanContext where
  name := "SpanContext"
  skip := collectorSkip
  cases
    | 1 => some (.scalar "TraceId" onTraceId.set)
    | 2 => some (.scalar "SpanId" onSpanId.set)
    | 3 => some baggageCase
    | _ => none

theorem length_putEntry (entry : List UInt8 × List UInt8) :
    (putEntry entry).length = sizeSized (mapSize entry) := by
  simp [putEntry, mapSize]

theorem length_marshalTo (m : SpanContext) : m.marshalTo.length = m.size := by
  simp [marshalTo, size, List.length_flatMap, length_putEntry, Nat.add_assoc]

theorem readEntry_pass {l post : ℕ} {bytes rest : List UInt8}
    {entry entry' : List UInt8 × List UInt8} (hpost : post < bytes.length)
    (h : entryPass l post bytes entry = .ok (entry', rest)) :
    readEntry l post bytes entry = readEntry l post rest entry' := by
  rw [readEntry, if_neg (by omega)]
  split
  · next e he => simp [h] at he
  · next entry₁ rest₁ he =>
    obtain ⟨rfl, rfl⟩ := Prod.mk.inj (Except.ok.inj (h.symm.trans he))
    rfl

section Entry

variable {l post : ℕ} {key value rest : List UInt8} {entry : List UInt8 × List UInt8}

theorem entryPass_key (hl : (putSized 0x0a key.length key ++ rest).length ≤ l)
    (hbig : l < 2 ^ 63) :
    entryPass l post (putSized 0x0a key.length key ++ rest) entry = .ok ((key, entry.2), rest) := by
  have hnum : fieldNumber (0x0a : UInt8).toNat = 1 := fieldNumber_small (by decide)
  rw [putSized, List.cons_append, List.length_cons] at hl
  refine bind_eq_ok.2 ⟨_, readVarint_tag (by decide) _, ?_⟩
  simp only [hnum, if_true]
  exact bind_eq_ok.2 ⟨_, readBytes_append (by omega) hbig, rfl⟩

theorem entryPass_value (hl : (putSized 0x12 value.length value ++ rest).length ≤ l)
    (hbig : l < 2 ^ 63) :
    entryPass l post (putSized 0x12 value.length value ++ rest) entry =
      .ok ((entry.1, value), rest) := by
  have hnum : fieldNumber (0x12 : UInt8).toNat = 2 := fieldNumber_small (by decide)
  rw [putSized, List.cons_append, List.length_cons] at hl
  refine bind_eq_ok.2 ⟨_, readVarint_tag (by decide) _, ?_⟩
  simp only [hnum]
  rw [if_neg (by decide), if_pos trivial]
  exact bind_eq_ok.2 ⟨_, readBytes_append (by omega) hbig, rfl⟩

/-- The key and the value that an entry was written with. -/
theorem readEntry_put
    (hl : (putSized 0x0a key.length key ++ (putSized 0x12 value.length value ++ rest)).length ≤ l)
    (hbig : l < 2 ^ 63) :
    readEntry l rest.length
      (putSized 0x0a key.length key ++ (putSized 0x12 value.length value ++ rest)) entry =
        .ok (key, value) := by
  have hvalue : (putSized 0x12 value.length value ++ rest).length ≤ l := by
    rw [List.length_append] at hl
    omega
  have hlonger : rest.length < (putSized 0x12 value.length value ++ rest).length := by
    rw [putSized, List.length_append, List.length_cons]
    omega
  rw [readEntry_pass (by rw [List.length_append]; omega) (entryPass_key hl hbig),
    readEntry_pass hlonger (entryPass_value hvalue hbig), readEntry, if_pos le_rfl]

theorem readBaggage_put {m : SpanContext} (hl : (encodeVarint (mapSize (key, value)) ++
      (putSized 0x0a key.length key ++ putSized 0x12 value.length value) ++ rest).length ≤ l)
    (hbig : l < 2 ^ 63) :
    readBaggage l (encodeVarint (mapSize (key, value)) ++
      (putSized 0x0a key.length key ++ putSized 0x12 value.length value) ++ rest) m =
        .ok (onBaggage.set (m.baggage.insert key value) m, rest) := by
  have hsize : (putSized 0x0a key.length key ++ putSized 0x12 value.length value).length =
      mapSize (key, value) := by
    rw [List.length_append, length_putSized rfl, length_putSized rfl, mapSize]
  rw [List.append_assoc] at hl ⊢
  have hdata : (putSized 0x0a key.length key ++ putSized 0x12 value.length value ++
      rest).length ≤ l := by
    rw [List.length_append] at hl
    omega
  have hmap : mapSize (key, value) < 2 ^ 64 := by
    rw [List.length_append, hsize] at hdata
    omega
  have htake := takeBytes_append hdata hbig
  rw [hsize] at htake
  refine bind_eq_ok.2 ⟨_, readVarint_encodeVarint hmap _, ?_⟩
  refine bind_eq_ok.2 ⟨_, htake, ?_⟩
  rw [List.append_assoc] at hdata ⊢
  exact bind_eq_ok.2 ⟨_, readEntry_put hdata hbig, rfl⟩

end Entry

theorem reads_baggage (entries : List (List UInt8 × List UInt8)) (m : SpanContext) (b : Baggage)
    (hb : b.entries = m.baggage.entries ++ entries) :
    Reads schema (entries.flatMap putEntry) m (onBaggage.set b m) := by
  induction entries generalizing m with
  | nil =>
    have hsame : m.baggage = b := by
      obtain ⟨bs, hbs⟩ := b
      obtain ⟨traceId, spanId, ⟨ms, hms⟩⟩ := m
      simp only [List.append_nil] at hb
      subst hb
      rfl
    rw [Lens.set_of_get hsame]
    exact Reads.nil
  | cons entry entries ih =>
    have hnew : entry.1 ∉ m.baggage.entries.map Prod.fst := by
      have hnodup := b.nodup
      rw [hb, List.map_append, List.map_cons] at hnodup
      exact fun hmem => (List.nodup_append.1 hnodup).2.2 _ hmem _ List.mem_cons_self rfl
    have hfirst : Reads schema (putEntry entry) m
        (onBaggage.set (m.baggage.insert entry.1 entry.2) m) :=
      Reads.ofCase (by decide) (by decide) rfl fun l rest hl hbig => readBaggage_put hl hbig
    have hrest := ih (onBaggage.set (m.baggage.insert entry.1 entry.2) m) (by
      rw [hb]
      simp [onBaggage, Baggage.insert, Baggage.setEntry_new _ hnew])
    rw [Lens.set_set] at hrest
    exact hfirst.append hrest

theorem reads (m : SpanContext) : Reads schema m.marshalTo {} m :=
  ((Reads.putScalar onTraceId m.traceId (by decide) rfl rfl).append
    (Reads.putScalar onSpanId m.spanId (by decide) rfl rfl)).append
      (reads_baggage m.baggage.entries _ m.baggage rfl)

def codec : Codec SpanContext where
  init := {}
  size := size
  marshalTo := marshalTo
  schema := schema
  length_marshalTo := length_marshalTo
  reads := reads

end SpanContext

/-! ## KeyValue -/

inductive KeyValue.Value where
  | stringValue (v : List UInt8)
  | intValue (v : Int64)
  | doubleValue (v : UInt64)
  | boolValue (v : Bool)
  | jsonValue (v : List UInt8)
  deriving DecidableEq

structure KeyValue where
  key : List UInt8 := []
  value : Option KeyValue.Value := none
  deriving DecidableEq

namespace KeyValue

namespace Value

def size : Value → ℕ
  | stringValue v => sizeSized v.length
  | intValue v => 1 + sov (Scalar.toWire v).toNat
  | doubleValue _ => 9
  | boolValue _ => 2
  | jsonValue v => sizeSized v.length

def marshalTo : Value → List UInt8
  | stringValue v => putSized 0x12 v.length v
  | intValue v => 0x18 :: encodeVarint (Scalar.toWire v).toNat
  | doubleValue v => 0x21 :: putFixed 8 v.toNat
  | boolValue v => [0x28, if v then 1 else 0]
  | jsonValue v => putSized 0x32 v.length v

theorem length_marshalTo (v : Value) : v.marshalTo.length = v.size := by
  cases v <;> simp [marshalTo, size, Nat.add_comm]

end Value

def onKey : Lens KeyValue (List UInt8) where
  get := key
  set a m := { m with key := a }

def onValue : Lens KeyValue (Option Value) where
  get := value
  set a m := { m with value := a }

/-- The value is one of five. -/
def setValue {α : Type} (f : α → Value) (a : α) : KeyValue → KeyValue :=
  onValue.set (some (f a))

def size (m : KeyValue) : ℕ :=
  sizeString m.key + m.value.elim 0 Value.size

def marshalTo (m : KeyValue) : List UInt8 :=
  putString 0x0a m.key ++ m.value.elim [] Value.marshalTo

def schema : Schema KeyValue where
  name := "KeyValue"
  skip := collectorSkip
  cases
    | 1 => some (.string "Key" onKey.set)
    | 2 => some (.string "StringValue" (setValue .stringValue))
    | 3 => some (.scalar "IntValue" (setValue .intValue))
    | 4 => some (.fixed64 "DoubleValue" (setValue .doubleValue))
    | 5 => some (.scalar "BoolValue" (setValue .boolValue))
    | 6 => some (.string "JsonValue" (setValue .jsonValue))
    | _ => none

theorem length_marshalTo (m : KeyValue) : m.marshalTo.length = m.size := by
  rw [marshalTo, List.length_append, length_putString, size]
  cases m.value with
  | none => rfl
  | some v => exact congrArg _ v.length_marshalTo

theorem reads_value (v : Value) (m : KeyValue) :
    Reads schema v.marshalTo m (onValue.set (some v) m) := by
  cases v with
  | stringValue v => exact Reads.string (setValue .stringValue) v (by decide) rfl
  | intValue v => exact Reads.scalar (setValue .intValue) v (by decide) rfl
  | doubleValue v => exact Reads.fixed64 (setValue .doubleValue) v (by decide) rfl
  | boolValue v =>
    have hbyte : Value.marshalTo (.boolValue v) = 0x28 :: encodeVarint (Scalar.toWire v).toNat := by
      cases v <;> rfl
    rw [hbyte]
    exact Reads.scalar (setValue .boolValue) v (by decide) rfl
  | jsonValue v => exact Reads.string (setValue .jsonValue) v (by decide) rfl

theorem reads (m : KeyValue) : Reads schema m.marshalTo {} m := by
  refine (Reads.putString onKey m.key (by decide) rfl rfl).append ?_
  obtain ⟨key, value⟩ := m
  cases value with
  | none => exact Reads.nil
  | some v => exact reads_value v _

def codec : Codec KeyValue where
  init := {}
  size := size
  marshalTo := marshalTo
  schema := schema
  length_marshalTo := length_marshalTo
  reads := reads

end KeyValue

/-! ## Log -/

structure Log where
  timestamp : Option Timestamp := none
  fields : List KeyValue := []
  deriving DecidableEq

namespace Log

def onTimestamp : Lens Log (Option Timestamp) where
  get := timestamp
  set a m := { m with timestamp := a }

def onFields : Lens Log (List KeyValue) where
  get := fields
  set a m := { m with fields := a }

def size (m : Log) : ℕ :=
  Timestamp.codec.putOptionSize m.timestamp + KeyValue.codec.putAllSize m.fields

def marshalTo (m : Log) : List UInt8 :=
  Timestamp.codec.putOption 0x0a m.timestamp ++ KeyValue.codec.putAll 0x12 m.fields

def schema : Schema Log where
  name := "Log"
  skip := collectorSkip
  cases
    | 1 => some (Timestamp.codec.optional "Timestamp" onTimestamp)
    | 2 => some (KeyValue.codec.repeated "Fields" onFields)
    | _ => none

theorem reads (m : Log) : Reads schema m.marshalTo {} m :=
  (Timestamp.codec.reads_putOption onTimestamp m.timestamp (by decide) rfl rfl).append
    (KeyValue.codec.reads_putAll onFields m.fields (by decide) rfl rfl)

def codec : Codec Log where
  init := {}
  size := size
  marshalTo := marshalTo
  schema := schema
  length_marshalTo m := by simp [size, marshalTo]
  reads := reads

end Log

/-! ## Reference -/

structure Reference where
  relationship : Int32 := 0
  spanContext : Option SpanContext := none
  deriving DecidableEq

namespace Reference

def onRelationship : Lens Reference Int32 where
  get := relationship
  set a m := { m with relationship := a }

def onSpanContext : Lens Reference (Option SpanContext) where
  get := spanContext
  set a m := { m with spanContext := a }

def size (m : Reference) : ℕ :=
  sizeScalar m.relationship + SpanContext.codec.putOptionSize m.spanContext

def marshalTo (m : Reference) : List UInt8 :=
  putScalar 0x08 m.relationship ++ SpanContext.codec.putOption 0x12 m.spanContext

def schema : Schema Reference where
  name := "Reference"
  skip := collectorSkip
  cases
    | 1 => some (.scalar "Relationship" onRelationship.set)
    | 2 => some (SpanContext.codec.optional "SpanContext" onSpanContext)
    | _ => none

theorem reads (m : Reference) : Reads schema m.marshalTo {} m :=
  (Reads.putScalar onRelationship m.relationship (by decide) rfl rfl).append
    (SpanContext.codec.reads_putOption onSpanContext m.spanContext (by decide) rfl rfl)

def codec : Codec Reference where
  init := {}
  size := size
  marshalTo := marshalTo
  schema := schema
  length_marshalTo m := by simp [size, marshalTo]
  reads := reads

end Reference

/-! ## Span -/

structure Span where
  spanContext : Option SpanContext := none
  operationName : List UInt8 := []
  references : List Reference := []
  startTimestamp : Option Timestamp := none
  durationMicros : UInt64 := 0
  tags : List KeyValue := []
  logs : List Log := []
  deriving DecidableEq

namespace Span

def onSpanContext : Lens Span (Option SpanContext) where
  get := spanContext
  set a m := { m with spanContext := a }

def onOperationName : Lens Span (List UInt8) where
  get := operationName
  set a m := { m with operationName := a }

def onReferences : Lens Span (List Reference) where
  get := references
  set a m := { m with references := a }

def onStartTimestamp : Lens Span (Option Timestamp) where
  get := startTimestamp
  set a m := { m with startTimestamp := a }

def onDurationMicros : Lens Span UInt64 where
  get := durationMicros
  set a m := { m with durationMicros := a }

def onTags : Lens Span (List KeyValue) where
  get := tags
  set a m := { m with tags := a }

def onLogs : Lens Span (List Log) where
  get := logs
  set a m := { m with logs := a }

def size (m : Span) : ℕ :=
  SpanContext.codec.putOptionSize m.spanContext + sizeString m.operationName +
    Reference.codec.putAllSize m.references + Timestamp.codec.putOptionSize m.startTimestamp +
    sizeScalar m.durationMicros + KeyValue.codec.putAllSize m.tags + Log.codec.putAllSize m.logs

def marshalTo (m : Span) : List UInt8 :=
  SpanContext.codec.putOption 0x0a m.spanContext ++ putString 0x12 m.operationName ++
    Reference.codec.putAll 0x1a m.references ++ Timestamp.codec.putOption 0x22 m.startTimestamp ++
    putScalar 0x28 m.durationMicros ++ KeyValue.codec.putAll 0x32 m.tags ++
    Log.codec.putAll 0x3a m.logs

def schema : Schema Span where
  name := "Span"
  skip := collectorSkip
  cases
    | 1 => some (SpanContext.codec.optional "SpanContext" onSpanContext)
    | 2 => some (.string "OperationName" onOperationName.set)
    | 3 => some (Reference.codec.repeated "References" onReferences)
    | 4 => some (Timestamp.codec.optional "StartTimestamp" onStartTimestamp)
    | 5 => some (.scalar "DurationMicros" onDurationMicros.set)
    | 6 => some (KeyValue.codec.repeated "Tags" onTags)
    | 7 => some (Log.codec.repeated "Logs" onLogs)
    | _ => none

theorem reads (m : Span) : Reads schema m.marshalTo {} m :=
  ((((((SpanContext.codec.reads_putOption onSpanContext m.spanContext (by decide) rfl rfl).append
    (Reads.putString onOperationName m.operationName (by decide) rfl rfl)).append
    (Reference.codec.reads_putAll onReferences m.references (by decide) rfl rfl)).append
    (Timestamp.codec.reads_putOption onStartTimestamp m.startTimestamp (by decide) rfl rfl)).append
    (Reads.putScalar onDurationMicros m.durationMicros (by decide) rfl rfl)).append
    (KeyValue.codec.reads_putAll onTags m.tags (by decide) rfl rfl)).append
    (Log.codec.reads_putAll onLogs m.logs (by decide) rfl rfl)

def codec : Codec Span where
  init := {}
  size := size
  marshalTo := marshalTo
  schema := schema
  length_marshalTo m := by simp [size, marshalTo, Nat.add_assoc]
  reads := reads

end Span

end TracerBench.Collectorpb
