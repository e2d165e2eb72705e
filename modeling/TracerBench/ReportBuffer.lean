import Mathlib.Algebra.Order.Group.Multiset
import Mathlib.Algebra.Order.Ring.Int
import Mathlib.Tactic.Abel

/-!
# The report buffer of the Go tracer

A `reportBuffer` takes finished spans up to its capacity and counts those it has no room
for. `mergeFrom` takes back the spans of a report that failed, again as far as there is
room. What a buffer lost is told twice, in the report to the satellite and in a status
report to the program, and of the second it remembers how much has been told.

The capacity of a slice does not change, so it is a parameter of the type. The times are
nanoseconds from the zero `time.Time`.
-/

namespace TracerBench

/-- What has been lost, and how much of it a status report has told. The source's counters
are `int64`, and these are unbounded. -/
structure LossCount where
  total : ℤ
  reported : ℤ
  deriving DecidableEq

namespace LossCount

/-- The count of a buffer that is empty. -/
def zero : LossCount := ⟨0, 0⟩

def add (n : ℤ) (c : LossCount) : LossCount :=
  { c with total := c.total + n }

def mergeFrom (c other : LossCount) : LossCount :=
  ⟨c.total + other.total, c.reported + other.reported⟩

/-- What is to be told, and the count once it is. -/
def report (c : LossCount) : ℤ × LossCount :=
  (c.total - c.reported, ⟨c.total, c.total⟩)

/-- What no status report has told yet. -/
def unreported (c : LossCount) : ℤ :=
  c.total - c.reported

variable (c other : LossCount) (n : ℤ)

@[simp] theorem zero_total : zero.total = 0 :=
  rfl

@[simp] theorem zero_unreported : zero.unreported = 0 :=
  rfl

@[simp] theorem add_zero : c.add 0 = c := by
  simp [add]

@[simp] theorem add_total : (c.add n).total = c.total + n :=
  rfl

@[simp] theorem add_unreported : (c.add n).unreported = c.unreported + n := by
  simp only [unreported, add]
  omega

@[simp] theorem mergeFrom_total : (c.mergeFrom other).total = c.total + other.total :=
  rfl

@[simp] theorem mergeFrom_unreported :
    (c.mergeFrom other).unreported = c.unreported + other.unreported := by
  simp only [unreported, mergeFrom]
  omega

@[simp] theorem report_fst : c.report.1 = c.unreported :=
  rfl

@[simp] theorem report_total : c.report.2.total = c.total :=
  rfl

@[simp] theorem report_unreported : c.report.2.unreported = 0 :=
  Int.sub_self c.total

end LossCount

/-- A `reportBuffer`. -/
structure ReportBuffer (Span : Type*) (capacity : ℕ) where
  rawSpans : List Span
  fits : rawSpans.length ≤ capacity
  /-- `droppedSpanCount` and `reportedDroppedSpanCount`. -/
  dropped : LossCount
  /-- `logEncoderErrorCount` and `reportedLogEncoderErrorCount`. -/
  logEncoderErrors : LossCount
  reportStart : ℕ
  reportEnd : ℕ

namespace ReportBuffer

variable {Span : Type*} {capacity : ℕ}

/-- `newSpansBuffer`. -/
def newSpansBuffer : ReportBuffer Span capacity :=
  ⟨[], Nat.zero_le _, .zero, .zero, 0, 0⟩

/-- `isHalfFull`. -/
def isHalfFull (b : ReportBuffer Span capacity) : Bool :=
  capacity / 2 < b.rawSpans.length

/-- `setCurrent`. -/
def setCurrent (now : ℕ) (b : ReportBuffer Span capacity) : ReportBuffer Span capacity :=
  { b with reportStart := now, reportEnd := now }

/-- `setFlushing`. -/
def setFlushing (now : ℕ) (b : ReportBuffer Span capacity) : ReportBuffer Span capacity :=
  { b with reportEnd := now }

/-- `clear`. -/
def clear (_ : ReportBuffer Span capacity) : ReportBuffer Span capacity :=
  ⟨[], Nat.zero_le _, .zero, .zero, 0, 0⟩

/-- `addSpan`. -/
def addSpan (span : Span) (b : ReportBuffer Span capacity) : ReportBuffer Span capacity :=
  if h : b.rawSpans.length = capacity then { b with dropped := b.dropped.add 1 }
  else
    { b with
      rawSpans := b.rawSpans ++ [span]
      fits := by
        have := b.fits
        rw [List.length_append, List.length_singleton]
        omega }

/-- The spans of a failed report that `mergeFrom` has room for. -/
def space (b other : ReportBuffer Span capacity) : ℕ :=
  let space := capacity - b.rawSpans.length
  let unreported := other.rawSpans.length
  if space > unreported then unreported else space

/-- `mergeFrom` : the two buffers after it. -/
def mergeFrom (b other : ReportBuffer Span capacity) :
    ReportBuffer Span capacity × ReportBuffer Span capacity :=
  let unreported := other.rawSpans.length
  let dropped := b.dropped.mergeFrom other.dropped
  ({ rawSpans := b.rawSpans ++ other.rawSpans.take (b.space other)
     fits := by
       have := b.fits
       rw [List.length_append, List.length_take, space]
       split_ifs <;> omega
     dropped :=
       if unreported > b.space other then dropped.add (unreported - b.space other : ℕ)
       else dropped
     logEncoderErrors := b.logEncoderErrors.mergeFrom other.logEncoderErrors
     reportStart := if other.reportStart < b.reportStart then other.reportStart else b.reportStart
     reportEnd := if b.reportEnd < other.reportEnd then other.reportEnd else b.reportEnd },
    other.clear)

/-- `reportDroppedSpanCount`. -/
def reportDroppedSpanCount (b : ReportBuffer Span capacity) : ℤ × ReportBuffer Span capacity :=
  (b.dropped.report.1, { b with dropped := b.dropped.report.2 })

/-- `reportLogEncoderErrorCount`. -/
def reportLogEncoderErrorCount (b : ReportBuffer Span capacity) :
    ℤ × ReportBuffer Span capacity :=
  (b.logEncoderErrors.report.1, { b with logEncoderErrors := b.logEncoderErrors.report.2 })

variable (b other : ReportBuffer Span capacity) (now : ℕ)

@[simp] theorem clear_rawSpans : b.clear.rawSpans = [] :=
  rfl

@[simp] theorem clear_dropped : b.clear.dropped = .zero :=
  rfl

@[simp] theorem setCurrent_rawSpans : (b.setCurrent now).rawSpans = b.rawSpans :=
  rfl

@[simp] theorem setCurrent_dropped : (b.setCurrent now).dropped = b.dropped :=
  rfl

@[simp] theorem setFlushing_rawSpans : (b.setFlushing now).rawSpans = b.rawSpans :=
  rfl

@[simp] theorem setFlushing_dropped : (b.setFlushing now).dropped = b.dropped :=
  rfl

/-- A span is taken, or dropped and counted. -/
theorem addSpan_conserves (span : Span) : ∃ lost : Multiset Span,
    (b.rawSpans : Multiset Span) + {span} = (b.addSpan span).rawSpans + lost ∧
      (b.addSpan span).dropped = b.dropped.add lost.card := by
  unfold addSpan
  split_ifs with h
  · exact ⟨{span}, rfl, by simp⟩
  · refine ⟨0, ?_, by simp⟩
    rw [add_zero, ← Multiset.coe_singleton, Multiset.coe_add]

/-- What is merged is taken, or dropped and counted. -/
theorem mergeFrom_conserves : ∃ lost : Multiset Span,
    (b.rawSpans : Multiset Span) + other.rawSpans = (b.mergeFrom other).1.rawSpans + lost ∧
      (b.mergeFrom other).1.dropped = (b.dropped.mergeFrom other.dropped).add lost.card := by
  refine ⟨other.rawSpans.drop (b.space other), ?_, ?_⟩
  · simp only [mergeFrom, Multiset.coe_add, List.append_assoc, List.take_append_drop]
  · simp only [mergeFrom, Multiset.coe_card, List.length_drop]
    split_ifs with h
    · rfl
    · rw [Nat.sub_eq_zero_of_le (not_lt.1 h), Nat.cast_zero, LossCount.add_zero]

end ReportBuffer

end TracerBench
