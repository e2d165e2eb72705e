import Mathlib.Logic.Function.Basic
import TracerBench.Circular

/-!
# A span of the Go tracer

`spanImpl` of `lightstep-tracer-go`. A span takes tags, baggage and logs until it is finished
for the first time, which hands what it has collected to the recorder; each call holds the
span's lock, so the calls of a run come one after another.

A span keeps at most `MaxLogsPerSpan` logs. When it is full the first `numOld` stay, and the
others are a circular buffer whose oldest entry each new log replaces. `FinishWithOptions`
puts the buffer in order, and replaces its oldest entry by a notice of how many logs were
dropped.

`Logged` says what of the logs so far is where in the buffer, and `span_records_once` what a
finished span hands over.
-/

namespace TracerBench

/-- The JSON of a value, if it can be encoded. -/
abbrev Json := Option String

/-- The value of a log field. An error is its string, and a float its 64 bits. -/
inductive LogValue where
  | string (s : String)
  | bool (b : Bool)
  | int (n : ℤ)
  | uint (n : ℕ)
  | float (bits : UInt64)
  | object (json : Json)
  | noop
  deriving DecidableEq

structure LogField where
  key : String
  value : LogValue
  deriving DecidableEq

structure LogRecord where
  timestamp : ℕ
  fields : List LogField
  deriving DecidableEq

/-- A `LogData`, with 0 for the zero time. -/
structure LogData where
  timestamp : ℕ
  event : String
  payload : Option Json
  deriving DecidableEq

/-- `ToLogRecord`. -/
def LogData.toLogRecord (now : ℕ) (ld : LogData) : LogRecord where
  timestamp := if ld.timestamp = 0 then now else ld.timestamp
  fields :=
    match ld.payload with
    | none => [⟨"event", .string ld.event⟩]
    | some json => [⟨"event", .string ld.event⟩, ⟨"payload", .object json⟩]

/-- A `SpanContext` of the tracer. -/
structure SpanContext where
  traceId : ℕ
  spanId : ℕ
  sampled : String
  baggage : String → Option String

/-- `WithBaggageItem`. -/
def SpanContext.withBaggageItem (key val : String) (c : SpanContext) : SpanContext :=
  { c with baggage := Function.update c.baggage key (some val) }

/-- A `RawSpan`. -/
structure RawSpan (Tag : Type*) where
  context : SpanContext
  parentSpanId : ℕ
  operation : String
  start : ℕ
  duration : ℤ
  tags : String → Option Tag
  logs : List LogRecord

/-- A `spanImpl`. -/
structure SpanImpl (Tag : Type*) where
  finished : Bool
  raw : RawSpan Tag
  numDroppedLogs : ℕ

inductive ReferenceType where
  | childOf
  | followsFrom
  | other
  deriving DecidableEq

/-- A `SpanReference`, with no context if that is another tracer's. -/
structure SpanReference where
  type : ReferenceType
  referencedContext : Option SpanContext

/-- The `startSpanOptions`, with 0 for the zero time and for what is not set. -/
structure StartSpanOptions (Tag : Type*) where
  startTime : ℕ
  references : List SpanReference
  tags : String → Option Tag
  setTraceId : ℕ
  setSpanId : ℕ
  setParentSpanId : ℕ
  setSampled : String

/-- The `FinishOptions`, with 0 for the zero time. -/
structure FinishOptions where
  finishTime : ℕ
  logRecords : List LogRecord
  bulkLogData : List LogData

/-- The options that a span's logs depend on. -/
structure LogOptions where
  maxLogsPerSpan : ℕ
  dropSpanLogs : Bool

/-- The calls on a span, with the time of those that read it. -/
inductive SpanCall (Tag : Type*) where
  | setOperationName (operationName : String)
  | setTag (key : String) (value : Tag)
  | setBaggageItem (key val : String)
  | logFields (now : ℕ) (fields : List LogField)
  | log (now : ℕ) (ld : LogData)
  | finish (now : ℕ) (opts : FinishOptions)

/-- What `FinishWithOptions` puts in place of the logs that were dropped. -/
def dropNotice (timestamp numDropped : ℕ) : LogRecord where
  timestamp := timestamp
  fields := [⟨"event", .string "dropped Span logs"⟩, ⟨"dropped_log_count", .int numDropped⟩,
    ⟨"component", .string "basictracer"⟩]

namespace SpanImpl

variable {Tag : Type*}

/-- The context and the parent's id that `newSpan` takes from its options. -/
def explicit (o : StartSpanOptions Tag) : SpanContext × ℕ :=
  if o.setTraceId ≠ 0 then
    (⟨o.setTraceId, o.setSpanId, o.setSampled, fun _ => none⟩, o.setParentSpanId)
  else (⟨0, 0, "", fun _ => none⟩, 0)

/-- `ReferencesLoop` : the first reference to a parent counts. -/
def inherit (references : List SpanReference) (c : SpanContext × ℕ) : SpanContext × ℕ :=
  match references.find? (·.type ≠ .other) with
  | some ⟨_, some parent⟩ =>
    (⟨parent.traceId, c.1.spanId, parent.sampled, parent.baggage⟩, parent.spanId)
  | _ => c

/-- The ids that are still missing, with what `genSeededGUID2` and `genSeededGUID` generate. -/
def identify (guid2 : ℕ × ℕ) (guid : ℕ) (c : SpanContext) : SpanContext :=
  if c.traceId = 0 then { c with traceId := guid2.1, spanId := guid2.2 }
  else if c.spanId = 0 then { c with spanId := guid }
  else c

/-- `newSpan`. -/
def newSpan (operationName : String) (o : StartSpanOptions Tag) (now : ℕ) (guid2 : ℕ × ℕ)
    (guid : ℕ) : SpanImpl Tag where
  finished := false
  raw :=
    let (context, parentSpanId) := inherit o.references (explicit o)
    { context := identify guid2 guid context
      parentSpanId := parentSpanId
      operation := operationName
      start := if o.startTime = 0 then now else o.startTime
      duration := -1
      tags := o.tags
      logs := [] }
  numDroppedLogs := 0

/-- `appendLog`. -/
def appendLog (maxLogs : ℕ) (s : SpanImpl Tag) (lr : LogRecord) : SpanImpl Tag :=
  if maxLogs = 0 ∨ s.raw.logs.length < maxLogs then
    { s with raw := { s.raw with logs := s.raw.logs ++ [lr] } }
  else
    let numOld := (maxLogs - 1) / 2
    let numNew := maxLogs - numOld
    { s with
      raw := { s.raw with logs := s.raw.logs.set (numOld + s.numDroppedLogs % numNew) lr }
      numDroppedLogs := s.numDroppedLogs + 1 }

/-- The logs in order, with the notice of those that were dropped. -/
def orderLogs (s : SpanImpl Tag) (fuel : ℕ) : Option (List LogRecord) :=
  if 0 < s.numDroppedLogs then
    let numOld := (s.raw.logs.length - 1) / 2
    let numNew := s.raw.logs.length - numOld
    (rotateBuffer (s.raw.logs.drop numOld) (s.numDroppedLogs % numNew) fuel).bind fun new =>
      let logs := s.raw.logs.take numOld ++ new
      let numDropped := s.numDroppedLogs + 1
      (logs[numOld]?).map fun lr => logs.set numOld (dropNotice lr.timestamp numDropped)
  else some s.raw.logs

/-- `FinishWithOptions` : the span after it, and what it hands to `RecordSpan`. The duration is
unbounded, where Go's `Sub` saturates. -/
def finishWithOptions (opts : LogOptions) (s : SpanImpl Tag) (now : ℕ) (o : FinishOptions)
    (fuel : ℕ) : Option (SpanImpl Tag × Option (RawSpan Tag)) :=
  if s.finished then some (s, none)
  else
    let s := { s with finished := true }
    let finishTime := if o.finishTime = 0 then now else o.finishTime
    let duration := (finishTime : ℤ) - s.raw.start
    let s := o.logRecords.foldl (appendLog opts.maxLogsPerSpan) s
    let s := (o.bulkLogData.map (LogData.toLogRecord now)).foldl (appendLog opts.maxLogsPerSpan) s
    (s.orderLogs fuel).map fun logs =>
      let s := { s with raw := { s.raw with logs := logs, duration := duration } }
      (s, some s.raw)

/-- A call that is not a `Finish`. -/
def update (opts : LogOptions) (s : SpanImpl Tag) : SpanCall Tag → SpanImpl Tag
  | .setOperationName operationName =>
    if s.finished then s else { s with raw := { s.raw with operation := operationName } }
  | .setTag key value =>
    if s.finished then s
    else { s with raw := { s.raw with tags := Function.update s.raw.tags key (some value) } }
  | .setBaggageItem key val =>
    if s.finished then s
    else { s with raw := { s.raw with context := s.raw.context.withBaggageItem key val } }
  | .logFields now fields =>
    if s.finished ∨ opts.dropSpanLogs then s
    else s.appendLog opts.maxLogsPerSpan ⟨now, fields⟩
  | .log now ld =>
    if s.finished ∨ opts.dropSpanLogs then s
    else s.appendLog opts.maxLogsPerSpan (ld.toLogRecord now)
  | .finish _ _ => s

/-- The span after one call, and what the call hands to `RecordSpan`. -/
def call (opts : LogOptions) (s : SpanImpl Tag) (c : SpanCall Tag) (fuel : ℕ) :
    Option (SpanImpl Tag × Option (RawSpan Tag)) :=
  match c with
  | .finish now o => s.finishWithOptions opts now o fuel
  | c => some (s.update opts c, none)

/-- The span after some calls, and all that they hand to `RecordSpan`. -/
def calls (opts : LogOptions) : SpanImpl Tag → List (SpanCall Tag) → ℕ →
    Option (SpanImpl Tag × List (RawSpan Tag))
  | s, [], _ => some (s, [])
  | s, c :: cs, fuel =>
    (s.call opts c fuel).bind fun (s, raw) =>
      (calls opts s cs fuel).map fun (s, raws) => (s, raw.toList ++ raws)

/-! ## The logs -/

/-- Where the logs `all` are in the span : all of them while there is room, and then the first
ones, with the newest of the others in the circular buffer behind them. -/
structure Logged (maxLogs : ℕ) (all : List LogRecord) (s : SpanImpl Tag) : Prop where
  room : maxLogs = 0 ∨ all.length ≤ maxLogs → s.raw.logs = all ∧ s.numDroppedLogs = 0
  full : 0 < maxLogs → maxLogs ≤ all.length →
    s.raw.logs.length = maxLogs ∧ s.numDroppedLogs = all.length - maxLogs ∧
      s.raw.logs.take ((maxLogs - 1) / 2) = all.take ((maxLogs - 1) / 2) ∧
      (s.raw.logs.drop ((maxLogs - 1) / 2)).rotate s.numDroppedLogs =
        all.drop (all.length - (maxLogs - (maxLogs - 1) / 2))

/-- A span whose buffer is just full. -/
theorem Logged.of_eq {maxLogs : ℕ} {all : List LogRecord} {s : SpanImpl Tag}
    (hlogs : s.raw.logs = all) (hdropped : s.numDroppedLogs = 0)
    (hle : maxLogs = 0 ∨ all.length ≤ maxLogs) : Logged maxLogs all s := by
  refine ⟨fun _ => ⟨hlogs, hdropped⟩, fun hpos hfull => ?_⟩
  have hlen : all.length = maxLogs := by omega
  have hstart : all.length - (maxLogs - (maxLogs - 1) / 2) = (maxLogs - 1) / 2 := by omega
  rw [hlogs, hdropped, List.rotate_zero, hstart]
  exact ⟨hlen, by omega, rfl, rfl⟩

theorem Logged.append {maxLogs : ℕ} {all : List LogRecord} {s : SpanImpl Tag}
    (h : Logged maxLogs all s) (lr : LogRecord) :
    Logged maxLogs (all ++ [lr]) (s.appendLog maxLogs lr) := by
  unfold appendLog
  split_ifs with hroom
  · have hle : maxLogs = 0 ∨ all.length < maxLogs := by
      by_contra hnot
      obtain ⟨hpos, hge⟩ := not_or.1 hnot
      have hlen := (h.full (Nat.pos_of_ne_zero hpos) (not_lt.1 hge)).1
      omega
    obtain ⟨hlogs, hdropped⟩ := h.room (hle.imp_right le_of_lt)
    refine .of_eq (by rw [hlogs]) hdropped (hle.imp_right fun hlt => ?_)
    rw [List.length_append, List.length_singleton]
    omega
  · obtain ⟨hpos, hge⟩ := not_or.1 hroom
    have hfull : maxLogs ≤ all.length := by
      by_contra hlt
      have hlogs := (h.room (Or.inr (by omega))).1
      rw [hlogs] at hge
      omega
    obtain ⟨hlen, hdropped, hold, hnew⟩ := h.full (Nat.pos_of_ne_zero hpos) hfull
    have hlt : (maxLogs - 1) / 2 < maxLogs := by omega
    refine ⟨fun hle => ?_, fun _ _ => ⟨?_, ?_, ?_, ?_⟩⟩
    · rw [List.length_append, List.length_singleton] at hle
      omega
    · rw [List.length_set, hlen]
    · rw [List.length_append, List.length_singleton]
      simp only
      omega
    · rw [List.take_set_of_le (Nat.le_add_right _ _), hold,
        List.take_append_of_le_length (by omega)]
    · have hring : (s.raw.logs.drop ((maxLogs - 1) / 2)).length = maxLogs - (maxLogs - 1) / 2 := by
        rw [List.length_drop, hlen]
      have hne : s.raw.logs.drop ((maxLogs - 1) / 2) ≠ [] := by
        rw [← List.length_pos_iff]
        omega
      simp only
      rw [List.drop_set, if_neg (by omega), Nat.add_sub_cancel_left, ← hring,
        rotate_push hne s.numDroppedLogs lr, hnew, List.tail_drop,
        List.length_append, List.length_singleton, hring, List.drop_append_of_le_length (by omega)]
      congr 2
      omega

/-- What a finished span has of the logs `all` : all of them, or the first and the last, with a
notice that counts those between. -/
inductive Kept (maxLogs : ℕ) (all : List LogRecord) : List LogRecord → Prop
  | all (hle : maxLogs = 0 ∨ all.length ≤ maxLogs) : Kept maxLogs all all
  | ends (old dropped recent : List LogRecord) (last : LogRecord)
    (hmax : 0 < maxLogs) (hmore : maxLogs < all.length)
    (hall : all = old ++ (dropped ++ [last]) ++ recent) (hold : old.length = (maxLogs - 1) / 2)
    (hlen : old.length + 1 + recent.length = maxLogs) :
    Kept maxLogs all (old ++ dropNotice last.timestamp (dropped.length + 1) :: recent)

theorem Logged.kept {maxLogs : ℕ} {all : List LogRecord} {s : SpanImpl Tag}
    (h : Logged maxLogs all s) : ∃ logs, Returns s.orderLogs logs ∧ Kept maxLogs all logs := by
  by_cases hle : maxLogs = 0 ∨ all.length ≤ maxLogs
  · obtain ⟨hlogs, hdropped⟩ := h.room hle
    refine ⟨all, ⟨0, fun fuel _ => ?_⟩, .all hle⟩
    rw [orderLogs, hdropped, if_neg (lt_irrefl 0), hlogs]
  obtain ⟨hzero, hmore⟩ := not_or.1 hle
  obtain ⟨hlen, hdropped, hold, hnew⟩ := h.full (Nat.pos_of_ne_zero hzero) (by omega)
  obtain ⟨numOld, hnumOld⟩ : ∃ numOld, numOld = (maxLogs - 1) / 2 := ⟨_, rfl⟩
  rw [← hnumOld] at hold hnew
  obtain ⟨last, recent, hlast⟩ : ∃ last recent,
      all.drop (all.length - (maxLogs - numOld)) = last :: recent :=
    List.exists_cons_of_ne_nil fun hnil => by
      rw [List.drop_eq_nil_iff] at hnil
      omega
  have hring : (s.raw.logs.drop numOld).length = maxLogs - numOld := by
    rw [List.length_drop, hlen]
  have hrecent : recent.length + 1 = maxLogs - numOld := by
    have hlength := congrArg List.length hlast
    rw [List.length_drop, List.length_cons] at hlength
    omega
  -- the circular buffer is put in order
  have hpos : s.numDroppedLogs % (maxLogs - numOld) < (s.raw.logs.drop numOld).length := by
    rw [hring]
    exact Nat.mod_lt _ (by omega)
  obtain ⟨n, hn⟩ := rotateBuffer_returns hpos
  have hrotate : (s.raw.logs.drop numOld).rotate (s.numDroppedLogs % (maxLogs - numOld)) =
      last :: recent := by
    rw [← hring, List.rotate_mod, hnew, hlast]
  have htake : (all.take numOld).length = numOld := List.length_take_of_le (by omega)
  have hall : all = all.take numOld ++
      ((all.take (all.length - (maxLogs - numOld))).drop numOld ++ [last]) ++ recent := by
    rw [← List.append_assoc, List.append_assoc _ [last], List.singleton_append, ← hlast]
    have hfirst : all.take numOld =
        (all.take (all.length - (maxLogs - numOld))).take numOld := by
      rw [List.take_take, Nat.min_eq_left (by omega)]
    rw [hfirst, List.take_append_drop, List.take_append_drop]
  have hcount : ((all.take (all.length - (maxLogs - numOld))).drop numOld).length =
      s.numDroppedLogs := by
    rw [List.length_drop, List.length_take]
    omega
  refine ⟨_, ⟨n, fun fuel hfuel => ?_⟩,
    .ends _ _ _ last (by omega) (by omega) hall (by omega) (by omega)⟩
  rw [orderLogs, if_pos (by omega)]
  simp only [hlen, ← hnumOld, hn fuel hfuel, hrotate, Option.bind_some, hold, hcount]
  rw [List.getElem?_append_right (by omega), htake, Nat.sub_self, List.getElem?_cons_zero,
    Option.map_some, List.set_append_right _ _ (by omega), htake, Nat.sub_self,
    List.set_cons_zero]

/-! ## The calls -/

/-- The logs that a call brings. -/
def logsOf (opts : LogOptions) : SpanCall Tag → List LogRecord
  | .logFields now fields => if opts.dropSpanLogs then [] else [⟨now, fields⟩]
  | .log now ld => if opts.dropSpanLogs then [] else [ld.toLogRecord now]
  | .finish now o => o.logRecords ++ o.bulkLogData.map (LogData.toLogRecord now)
  | _ => []

def operation? : SpanCall Tag → Option String
  | .setOperationName operationName => some operationName
  | _ => none

def tag? (key : String) : SpanCall Tag → Option Tag
  | .setTag key' value => if key' = key then some value else none
  | _ => none

def baggage? (key : String) : SpanCall Tag → Option String
  | .setBaggageItem key' val => if key' = key then some val else none
  | _ => none

/-- A `Finish`. -/
def isFinish : SpanCall Tag → Bool
  | .finish _ _ => true
  | _ => false

/-- What the calls `cs` have made of a span that was `raw`, its logs apart : the last one to set
a field sets it. -/
structure Decorated (cs : List (SpanCall Tag)) (raw raw' : RawSpan Tag) : Prop where
  operation : raw'.operation = (cs.filterMap operation?).getLast?.getD raw.operation
  tags : ∀ key, raw'.tags key = (cs.filterMap (tag? key)).getLast?.or (raw.tags key)
  baggage : ∀ key, raw'.context.baggage key =
    (cs.filterMap (baggage? key)).getLast?.or (raw.context.baggage key)
  ids : raw'.context.traceId = raw.context.traceId ∧ raw'.context.spanId = raw.context.spanId ∧
    raw'.context.sampled = raw.context.sampled ∧ raw'.parentSpanId = raw.parentSpanId
  start : raw'.start = raw.start

section Calls

variable {opts : LogOptions} {s : SpanImpl Tag} {raw raw' : RawSpan Tag} {cs : List (SpanCall Tag)}

/-- Two spans that differ in their logs. -/
def SameButLogs (raw raw' : RawSpan Tag) : Prop :=
  ∃ logs, raw' = { raw with logs := logs }

theorem appendLog_same (maxLogs : ℕ) (lr : LogRecord) :
    SameButLogs s.raw (s.appendLog maxLogs lr).raw ∧
      (s.appendLog maxLogs lr).finished = s.finished := by
  unfold appendLog
  split_ifs
  · exact ⟨⟨_, rfl⟩, rfl⟩
  · exact ⟨⟨_, rfl⟩, rfl⟩

theorem foldl_appendLog (maxLogs : ℕ) (lrs : List LogRecord) :
    SameButLogs s.raw (lrs.foldl (appendLog maxLogs) s).raw ∧
      (lrs.foldl (appendLog maxLogs) s).finished = s.finished := by
  induction lrs generalizing s with
  | nil => exact ⟨⟨_, rfl⟩, rfl⟩
  | cons lr lrs ih =>
    obtain ⟨⟨logs, hraw⟩, hfin⟩ := appendLog_same (s := s) maxLogs lr
    obtain ⟨⟨logs', hraw'⟩, hfin'⟩ := ih (s := s.appendLog maxLogs lr)
    exact ⟨⟨logs', by rw [List.foldl_cons, hraw', hraw]⟩, hfin'.trans hfin⟩

theorem Logged.foldl {maxLogs : ℕ} {all : List LogRecord} (h : Logged maxLogs all s)
    (lrs : List LogRecord) : Logged maxLogs (all ++ lrs) (lrs.foldl (appendLog maxLogs) s) := by
  induction lrs generalizing all s with
  | nil => simpa using h
  | cons lr lrs ih => simpa using ih (h.append lr)

theorem update_of_finished (hs : s.finished = true) (c : SpanCall Tag) : s.update opts c = s := by
  cases c <;> simp [update, hs]

/-- What a call that is not a `Finish` does to a span that is not finished. -/
theorem update_logs (hs : s.finished = false) {c : SpanCall Tag} (hc : isFinish c = false) :
    (s.update opts c).finished = false ∧ ∀ all, Logged opts.maxLogsPerSpan all s →
      Logged opts.maxLogsPerSpan (all ++ logsOf opts c) (s.update opts c) := by
  cases c with
  | setOperationName | setTag | setBaggageItem =>
    simp only [update, hs, Bool.false_eq_true, if_false, logsOf, List.append_nil]
    exact ⟨trivial, fun all h => ⟨h.room, h.full⟩⟩
  | logFields now fields =>
    simp only [update, hs, Bool.false_eq_true, false_or, logsOf]
    split_ifs
    · exact ⟨hs, fun all h => by simpa using h⟩
    · exact ⟨(appendLog_same _ _).2.trans hs, fun all h => h.append _⟩
  | log now ld =>
    simp only [update, hs, Bool.false_eq_true, false_or, logsOf]
    split_ifs
    · exact ⟨hs, fun all h => by simpa using h⟩
    · exact ⟨(appendLog_same _ _).2.trans hs, fun all h => h.append _⟩
  | finish => simp [isFinish] at hc

theorem Decorated.refl (raw : RawSpan Tag) : Decorated [] raw raw :=
  ⟨rfl, fun _ => rfl, fun _ => rfl, ⟨rfl, rfl, rfl, rfl⟩, rfl⟩

/-- The last of some writes. -/
theorem getLast?_filterMap_concat {β : Type*} (f : SpanCall Tag → Option β)
    (cs : List (SpanCall Tag)) (c : SpanCall Tag) :
    ((cs ++ [c]).filterMap f).getLast? = (f c).or (cs.filterMap f).getLast? := by
  rw [List.filterMap_append, List.getLast?_append]
  cases hc : f c <;> simp [hc]

/-- What a call changes, its logs apart. -/
theorem update_fields (hs : s.finished = false) (c : SpanCall Tag) :
    Decorated [c] s.raw (s.update opts c).raw := by
  have hlog : ∀ {raw' : RawSpan Tag}, operation? c = none → (∀ key, tag? key c = none) →
      (∀ key, baggage? key c = none) → SameButLogs s.raw raw' → Decorated [c] s.raw raw' := by
    rintro raw' hop htag hbag ⟨logs, rfl⟩
    exact ⟨by simp [hop], by simp [htag], by simp [hbag], ⟨rfl, rfl, rfl, rfl⟩, rfl⟩
  cases c with
  | setOperationName operationName =>
    rw [update, hs]
    exact ⟨rfl, fun _ => rfl, fun _ => rfl, ⟨rfl, rfl, rfl, rfl⟩, rfl⟩
  | setTag key value =>
    rw [update, hs]
    refine ⟨rfl, fun key' => ?_, fun _ => rfl, ⟨rfl, rfl, rfl, rfl⟩, rfl⟩
    by_cases hkey : key = key'
    · subst hkey
      simp [tag?]
    · simp [tag?, hkey, Function.update_of_ne (Ne.symm hkey)]
  | setBaggageItem key val =>
    rw [update, hs]
    refine ⟨rfl, fun _ => rfl, fun key' => ?_, ⟨rfl, rfl, rfl, rfl⟩, rfl⟩
    by_cases hkey : key = key'
    · subst hkey
      simp [baggage?, SpanContext.withBaggageItem]
    · simp [baggage?, hkey, SpanContext.withBaggageItem, Function.update_of_ne (Ne.symm hkey)]
  | logFields now fields =>
    refine hlog rfl (fun _ => rfl) (fun _ => rfl) ?_
    simp only [update]
    split_ifs
    · exact ⟨_, rfl⟩
    · exact (appendLog_same _ _).1
  | log now ld =>
    refine hlog rfl (fun _ => rfl) (fun _ => rfl) ?_
    simp only [update]
    split_ifs
    · exact ⟨_, rfl⟩
    · exact (appendLog_same _ _).1
  | finish now o => exact hlog rfl (fun _ => rfl) (fun _ => rfl) ⟨_, rfl⟩

theorem Decorated.update (h : Decorated cs raw s.raw) (hs : s.finished = false)
    (c : SpanCall Tag) : Decorated (cs ++ [c]) raw (s.update opts c).raw := by
  have hc : Decorated [c] s.raw (s.update opts c).raw := update_fields hs c
  obtain ⟨htrace, hspan, hsampled, hparent⟩ := h.ids
  obtain ⟨htrace', hspan', hsampled', hparent'⟩ := hc.ids
  refine ⟨?_, fun key => ?_, fun key => ?_, ⟨htrace'.trans htrace, hspan'.trans hspan,
    hsampled'.trans hsampled, hparent'.trans hparent⟩, hc.start.trans h.start⟩
  · rw [hc.operation, h.operation, getLast?_filterMap_concat]
    cases hop : operation? c <;> simp [hop]
  · rw [hc.tags, h.tags, getLast?_filterMap_concat, Option.or_assoc]
    cases htag : tag? key c <;> simp [htag]
  · rw [hc.baggage, h.baggage, getLast?_filterMap_concat, Option.or_assoc]
    cases hbag : baggage? key c <;> simp [hbag]

/-- A span in use, after the calls `cs`. -/
structure InUse (opts : LogOptions) (cs : List (SpanCall Tag)) (raw : RawSpan Tag)
    (s : SpanImpl Tag) : Prop where
  finished : s.finished = false
  logs : Logged opts.maxLogsPerSpan (cs.flatMap (logsOf opts)) s
  fields : Decorated cs raw s.raw

theorem inUse_newSpan (operationName : String) (start : StartSpanOptions Tag) (now : ℕ)
    (guid2 : ℕ × ℕ) (guid : ℕ) :
    InUse opts [] (newSpan operationName start now guid2 guid).raw
      (newSpan operationName start now guid2 guid) :=
  ⟨rfl, .of_eq rfl rfl (Or.inr (Nat.zero_le _)), .refl _⟩

theorem inUse_foldl (h : InUse opts [] raw s) (hcs : ∀ c ∈ cs, isFinish c = false) :
    InUse opts cs raw (cs.foldl (update opts) s) := by
  induction cs using List.reverseRecOn with
  | nil => exact h
  | append_singleton cs c ih =>
    have hcs' := ih fun c' hc' => hcs c' (List.mem_append_left _ hc')
    obtain ⟨hfin, hlogs⟩ := @update_logs _ opts _ hcs'.finished c (hcs c (by simp))
    rw [List.foldl_append]
    refine ⟨hfin, ?_, hcs'.fields.update hcs'.finished c⟩
    rw [List.flatMap_append, List.flatMap_singleton]
    exact hlogs _ hcs'.logs

/-! ## Runs -/

theorem calls_append (cs cs' : List (SpanCall Tag)) (fuel : ℕ) :
    calls opts s (cs ++ cs') fuel = (calls opts s cs fuel).bind fun r =>
      (calls opts r.1 cs' fuel).map fun r' => (r'.1, r.2 ++ r'.2) := by
  induction cs generalizing s with
  | nil => simp [calls]
  | cons c cs ih =>
    simp only [List.cons_append, calls]
    rcases s.call opts c fuel with _ | ⟨m, raw⟩
    · rfl
    · simp only [Option.bind_some, ih]
      rcases calls opts m cs fuel with _ | ⟨m', raws⟩
      · rfl
      · simp only [Option.bind_some, Option.map_some, Option.map_map]
        congr 1
        funext r
        simp

theorem call_of_not_finish {c : SpanCall Tag} (hc : isFinish c = false) (fuel : ℕ) :
    s.call opts c fuel = some (s.update opts c, none) := by
  cases c <;> first | rfl | simp [isFinish] at hc

/-- Calls without a `Finish` hand nothing over. -/
theorem calls_of_not_finish (hcs : ∀ c ∈ cs, isFinish c = false) (fuel : ℕ) :
    calls opts s cs fuel = some (cs.foldl (update opts) s, []) := by
  induction cs generalizing s with
  | nil => rfl
  | cons c cs ih =>
    rw [calls, call_of_not_finish (hcs c List.mem_cons_self)]
    simp [ih fun c' hc' => hcs c' (List.mem_cons_of_mem _ hc')]

/-- A finished span stays as it is and hands nothing over. -/
theorem calls_of_finished (hs : s.finished = true) (cs : List (SpanCall Tag)) (fuel : ℕ) :
    calls opts s cs fuel = some (s, []) := by
  induction cs with
  | nil => rfl
  | cons c cs ih =>
    have hcall : s.call opts c fuel = some (s, none) := by
      cases c with
      | finish now o => simp [call, finishWithOptions, hs]
      | _ => simp [call, update_of_finished hs]
    simp [calls, hcall, ih]

/-- What the first `Finish` hands over, after the calls `cs`. -/
structure HandedOver (opts : LogOptions) (cs : List (SpanCall Tag)) (now : ℕ) (o : FinishOptions)
    (raw raw' : RawSpan Tag) : Prop where
  fields : Decorated cs raw raw'
  logs : Kept opts.maxLogsPerSpan
    (cs.flatMap (logsOf opts) ++ (o.logRecords ++ o.bulkLogData.map (LogData.toLogRecord now)))
    raw'.logs
  duration : raw'.duration = (if o.finishTime = 0 then now else o.finishTime : ℕ) - (raw.start : ℤ)

theorem InUse.finish (h : InUse opts cs raw s) (now : ℕ) (o : FinishOptions) :
    ∃ s', s'.finished = true ∧ HandedOver opts cs now o raw s'.raw ∧
      Returns (s.finishWithOptions opts now o) (s', some s'.raw) := by
  obtain ⟨u, hu⟩ : ∃ u, u = (o.bulkLogData.map (LogData.toLogRecord now)).foldl
    (appendLog opts.maxLogsPerSpan) (o.logRecords.foldl (appendLog opts.maxLogsPerSpan)
      { s with finished := true }) := ⟨_, rfl⟩
  have hlogged : Logged opts.maxLogsPerSpan (cs.flatMap (logsOf opts))
      { s with finished := true } := ⟨h.logs.room, h.logs.full⟩
  have hall := (hlogged.foldl o.logRecords).foldl (o.bulkLogData.map (LogData.toLogRecord now))
  rw [← hu, List.append_assoc] at hall
  obtain ⟨⟨_, hraw⟩, hfin⟩ := foldl_appendLog (s := { s with finished := true })
    opts.maxLogsPerSpan o.logRecords
  obtain ⟨⟨_, hraw'⟩, hfin'⟩ := foldl_appendLog
    (s := o.logRecords.foldl (appendLog opts.maxLogsPerSpan) { s with finished := true })
    opts.maxLogsPerSpan (o.bulkLogData.map (LogData.toLogRecord now))
  rw [← hu] at hraw' hfin'
  obtain ⟨logs, ⟨n, hn⟩, hkept⟩ := hall.kept
  obtain ⟨duration, hduration⟩ : ∃ duration : ℤ,
    duration = (if o.finishTime = 0 then now else o.finishTime : ℕ) - (s.raw.start : ℤ) := ⟨_, rfl⟩
  refine ⟨{ u with raw := { u.raw with logs := logs, duration := duration } }, ?_, ⟨?_, hkept, ?_⟩,
    n, fun fuel hfuel => ?_⟩
  · exact hfin'.trans hfin
  · rw [hraw', hraw]
    exact ⟨h.fields.operation, h.fields.tags, h.fields.baggage, h.fields.ids, h.fields.start⟩
  · rw [hduration, h.fields.start]
  · simp only [finishWithOptions, h.finished, Bool.false_eq_true, if_false, ← hu, hn fuel hfuel,
      Option.map_some, hduration]

end Calls

end SpanImpl

open SpanImpl in
/-- Whatever calls come on a new span, the first `Finish` hands to the recorder what the calls
before it have made of the span, and nothing changes or records the span after that. -/
theorem span_records_once {Tag : Type*} (opts : LogOptions) (operationName : String)
    (start : StartSpanOptions Tag) (now : ℕ) (guid2 : ℕ × ℕ) (guid : ℕ)
    (cs : List (SpanCall Tag)) :
    let s := newSpan operationName start now guid2 guid
    ((∀ c ∈ cs, isFinish c = false) →
      Returns (calls opts s cs) (cs.foldl (update opts) s, [])) ∧
    ∀ pre now o post, cs = pre ++ .finish now o :: post → (∀ c ∈ pre, isFinish c = false) →
      ∃ s', Returns (calls opts s cs) (s', [s'.raw]) ∧
        HandedOver opts pre now o s.raw s'.raw := by
  intro s
  refine ⟨fun hcs => ⟨0, fun fuel _ => calls_of_not_finish hcs fuel⟩, ?_⟩
  rintro pre now o post rfl hpre
  have hstart : InUse opts [] s.raw s := inUse_newSpan _ _ _ _ _
  obtain ⟨s', hfin, hover, n, hn⟩ := (inUse_foldl hstart hpre).finish now o
  refine ⟨s', ⟨n, fun fuel hfuel => ?_⟩, hover⟩
  rw [calls_append, calls_of_not_finish hpre]
  simp [calls, call, hn fuel hfuel, calls_of_finished hfin]

/-- A root span of the Go client. -/
def sampleSpan : SpanImpl String :=
  .newSpan "benchmark_test_service" ⟨0, [], fun _ => none, 0, 0, 0, ""⟩ 1 (7, 8) 9

/-- Five logs, with room for three, and a second `Finish`. -/
def sampleCalls : List (SpanCall String) :=
  [.setTag "trial" "alpha", .logFields 2 [], .logFields 3 [], .logFields 4 [], .logFields 5 [],
    .logFields 6 [], .finish 7 ⟨0, [], []⟩, .setTag "trial" "beta", .finish 8 ⟨0, [], []⟩]

theorem span_records_once_sample : ∃ s', Returns (SpanImpl.calls ⟨3, false⟩ sampleSpan sampleCalls)
    (s', [s'.raw]) ∧ SpanImpl.HandedOver ⟨3, false⟩ (sampleCalls.take 6) 7 ⟨0, [], []⟩
      sampleSpan.raw s'.raw :=
  (span_records_once ⟨3, false⟩ _ _ 1 (7, 8) 9 sampleCalls).2 _ 7 ⟨0, [], []⟩ _ rfl
    (by simp [sampleCalls, SpanImpl.isFinish])

example : (SpanImpl.calls ⟨3, false⟩ sampleSpan sampleCalls 3).map
    (fun r => r.2.map fun raw => raw.logs) =
      some [[⟨2, []⟩, dropNotice 5 3, ⟨6, []⟩]] := by
  decide

end TracerBench
