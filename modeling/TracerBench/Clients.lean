import Mathlib.Algebra.Order.Floor.Ring
import Mathlib.Data.Rat.Floor
import TracerBench.Loop
import TracerBench.Python
import TracerBench.SpanTrace

/-!
# The Python, Go and C++ clients

A client generates its spans in batches of at most six. A batch is one call of
`generate_spans`, which nests a client, a server and a database span and, if spans are
left, calls itself. The three languages close the spans differently : Python by leaving
a `with` block, which also restores the span active before, Go by a deferred `Finish`
and C++ by a destructor. Python closes the database span before it goes on, and Go and
C++ keep it open until the call returns.

`Client` is what a client has asked of its tracing library, with the span count of each
call of `generate_spans` and the units of each `do_work`. The recursion tests the count
only for equality with zero, so it takes fuel, and a call from a positive count is shown
to return (`Generates`). Tags and logs, which no branch reads, are left out.
-/

namespace TracerBench

/-- `SPANS_PER_LOOP`. -/
def spansPerLoop : ℤ := 6

/-- The command line of a client. The sleeps are nanoseconds, and `sleep_interval` is a
whole number for Go and C++. -/
structure Args where
  trace : ℤ
  sleep : ℚ
  sleepInterval : ℚ
  work : ℤ
  repeats : ℤ
  noFlush : ℤ

/-! ## The tracing library -/

/-- A client and its tracing library. -/
structure Client where
  /-- The number of the next span. -/
  next : ℕ
  /-- The spans of Python's active scopes, innermost first. -/
  active : List ℕ
  events : List SpanEvent
  /-- The span count of each call of `generate_spans`. -/
  calls : List ℤ
  /-- The units of each `do_work`. -/
  works : List ℤ

namespace Client

/-- A client that has just built its tracer. -/
def fresh : Client := ⟨0, [], [], [], []⟩

/-- `generate_spans` is entered with a span count. -/
def enter (numberSpans : ℤ) (c : Client) : Client :=
  { c with calls := c.calls ++ [numberSpans] }

/-- `do_work`. -/
def doWork (units : ℤ) (c : Client) : Client :=
  { c with works := c.works ++ [units] }

/-- `StartSpan` : the span is numbered `c.next`. -/
def startSpan (parent : Option ℕ) (c : Client) : Client :=
  { c with next := c.next + 1, events := c.events ++ [.start c.next parent] }

/-- A span's `Finish`. -/
def finish (span : ℕ) (c : Client) : Client :=
  { c with events := c.events ++ [.finish span] }

/-- `start_active_span` : without `child_of` the parent is the active span. -/
def startActiveSpan (childOf : Option ℕ) (c : Client) : Client :=
  { c.startSpan (childOf.or c.active.head?) with active := c.next :: c.active }

/-- The end of a scope finishes its span, and the span active before is active again. -/
def exitScope (span : ℕ) (c : Client) : Client :=
  { c.finish span with active := c.active.tail }

end Client

/-! ## Python -/

namespace PythonClient

/-- How a block ends : it falls through, returns from its function, or raises. -/
inductive Flow where
  | fall
  | ret
  | raise (e : PyError)

/-- What a function's body comes to for its caller : the error it raises, if any. -/
def Flow.error : Flow → Option PyError
  | .raise e => some e
  | _ => none

/-- A call as a statement. -/
def call (r : Option (Option PyError × Client)) : Option (Flow × Client) :=
  r.map fun (e, c) => (e.elim .fall .raise, c)

/-- `make_scope`. -/
def makeScope (parent : Option ℕ) (c : Client) : Client :=
  match parent with
  | some p => c.startActiveSpan (some p)
  | none => c.startActiveSpan none

/-- `with make_scope(tracer, parent) as scope` : the scope is closed however the block
ends. -/
def withScope (parent : Option ℕ) (c : Client)
    (block : ℕ → Client → Option (Flow × Client)) : Option (Flow × Client) :=
  (block c.next (makeScope parent c)).map fun (flow, c') => (flow, c'.exitScope c.next)

/-- One statement after another. -/
def andThen (first : Option (Flow × Client)) (rest : Client → Option (Flow × Client)) :
    Option (Flow × Client) :=
  match first with
  | some (.fall, c) => rest c
  | r => r

/-- `generate_spans`. -/
def generateSpans (unitsWork : ℤ) :
    ℕ → ℤ → Option ℕ → Client → Option (Option PyError × Client)
  | 0, _, _, _ => none
  | fuel + 1, numberSpans, parent, c =>
    let c := c.enter numberSpans
    if 1 ≤ numberSpans then
      Option.map (fun (flow, c) => (Flow.error flow, c)) <|
        withScope parent c fun _ c =>
          let c := c.doWork unitsWork
          let numberSpans := numberSpans - 1
          if numberSpans = 0 then some (.ret, c)
          else
            withScope none c fun serverSpan c =>
              let c := c.doWork unitsWork
              let numberSpans := numberSpans - 1
              if numberSpans = 0 then some (.ret, c)
              else
                andThen
                  (withScope none c fun _ c =>
                    let c := c.doWork unitsWork
                    if numberSpans - 1 = 0 then some (.ret, c) else some (.fall, c))
                  fun c => call (generateSpans unitsWork fuel (numberSpans - 1) serverSpan c)
    else some (some .assertionError, c)

/-- A number of nanoseconds as the `int64` that `time.sleep` needs, rounded away from
zero. -/
def roundUp (ns : ℚ) : ℤ :=
  if 0 ≤ ns then ⌈ns⌉ else ⌊ns⌋

/-- What `time.sleep` raises. -/
def timeSleep (secs : ℚ) : Option PyError :=
  let ns := roundUp (secs * 10 ^ 9)
  if ns < -2 ^ 63 ∨ 2 ^ 63 ≤ ns then some .overflowError
  else if ns < 0 then some .valueError
  else none

end PythonClient

/-! ## Go and C++ -/

/-- A span that its function finishes when it returns, by a deferred `Finish` or by the
span's destructor. The spans of one function are finished last started first. -/
def finishing (span : ℕ) (rest : Option Client) : Option Client :=
  rest.map (Client.finish span)

/-- `generateSpans` of Go and `generate_spans` of C++, which differ in the span under
which the next call nests its own : `nextParent` of the server and the database span. -/
def generateSpansWith (nextParent : ℕ → ℕ → ℕ) (unitsWork : ℤ) :
    ℕ → ℤ → Option ℕ → Client → Option Client
  | 0, _, _, _ => none
  | fuel + 1, numSpans, parent, c =>
    let c := c.enter numSpans
    let clientSpan := c.next
    let c := c.startSpan parent
    finishing clientSpan <|
      let c := c.doWork unitsWork
      let numSpans := numSpans - 1
      if numSpans = 0 then some c
      else
        let serverSpan := c.next
        let c := c.startSpan (some clientSpan)
        finishing serverSpan <|
          let c := c.doWork unitsWork
          let numSpans := numSpans - 1
          if numSpans = 0 then some c
          else
            let dbSpan := c.next
            let c := c.startSpan (some serverSpan)
            finishing dbSpan <|
              let c := c.doWork unitsWork
              let numSpans := numSpans - 1
              if numSpans = 0 then some c
              else
                generateSpansWith nextParent unitsWork fuel numSpans
                  (some (nextParent serverSpan dbSpan)) c

/-- `generateSpans` of the Go client. -/
def GoClient.generateSpans : ℤ → ℕ → ℤ → Option ℕ → Client → Option Client :=
  generateSpansWith fun serverSpan _ => serverSpan

/-- `generate_spans` of the C++ client. -/
def CppClient.generateSpans : ℤ → ℕ → ℤ → Option ℕ → Client → Option Client :=
  generateSpansWith fun _ dbSpan => dbSpan

/-! ## The loop of `perform_work` -/

/-- The variables of `perform_work`, with the number of times it has slept. -/
structure Progress where
  spansSent : ℤ
  sleepDebt : ℚ
  sleeps : ℕ
  client : Client

/-- A `perform_work` that has come to its end, with an error or with a flush or not. -/
structure Performed where
  error : Option PyError
  flushed : Bool
  progress : Progress

section PerformWork

variable (generate : ℤ → Client → Option (Option PyError × Client))
  (sleepFor : ℚ → Option PyError) (flushes : Bool) (args : Args)

/-- Before the first batch. -/
def Progress.start : Progress := ⟨0, 0, 0, Client.fresh⟩

/-- One pass of the loop : a batch of spans and, if the debt is over an interval, a
sleep of one interval. -/
def batch (p : Progress) : Option (Pass Progress Performed) :=
  if p.spansSent < args.repeats then
    let spansToSend := min (args.repeats - p.spansSent) spansPerLoop
    match generate spansToSend p.client with
    | none => none
    | some (some e, c) => some (.done ⟨some e, false, { p with client := c }⟩)
    | some (none, c) =>
      let spansSent := p.spansSent + spansToSend
      let sleepDebt := p.sleepDebt + args.sleep * spansToSend
      if sleepDebt > args.sleepInterval then
        let sleepDebt := sleepDebt - args.sleepInterval
        match sleepFor args.sleepInterval with
        | some e => some (.done ⟨some e, false, ⟨spansSent, sleepDebt, p.sleeps, c⟩⟩)
        | none => some (.more ⟨spansSent, sleepDebt, p.sleeps + 1, c⟩)
      else some (.more ⟨spansSent, sleepDebt, p.sleeps, c⟩)
  else some (.done ⟨none, flushes, p⟩)

end PerformWork

/-- `perform_work` of the Python client, up to its `exit()`. -/
def PythonClient.performWork (args : Args) (fuel : ℕ) : Option Performed :=
  loop
    (batch (fun n c => PythonClient.generateSpans args.work fuel n none c)
      (fun interval => PythonClient.timeSleep (interval * 10⁻¹ ^ 9))
      (args.trace ≠ 0 ∧ args.noFlush = 0) args)
    fuel Progress.start

/-- `performWork` of the Go client. -/
def GoClient.performWork (args : Args) (fuel : ℕ) : Option Performed :=
  loop
    (batch (fun n c => (GoClient.generateSpans args.work fuel n none c).map (none, ·))
      (fun _ => none) (args.trace ≠ 0 ∧ args.noFlush ≠ 1) args)
    fuel Progress.start

/-- `perform_work` of the C++ client. -/
def CppClient.performWork (args : Args) (fuel : ℕ) : Option Performed :=
  loop
    (batch (fun n c => (CppClient.generateSpans args.work fuel n none c).map (none, ·))
      (fun _ => none) (args.noFlush ≠ 1) args)
    fuel Progress.start

end TracerBench
