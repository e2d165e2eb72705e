import TracerBench.Satellite

/-!
# A group of mock satellites

`benchmark/satellite.py`. A `MockSatelliteHandler` spawns one satellite process and keeps
a baseline, which it subtracts from the count the process reports; a reset only moves the
baseline. A `MockSatelliteGroup` holds the handlers of the processes it last started, or
`None` after a shutdown.

Two threads use the group : the caller of `get_spans_received` and `reset_spans_received`,
and the administrator, who calls `shutdown` and `start`. Each read of `self._satellites`,
each `poll`, each answer to a `GET` and each use of one is a step of its own. A handler and
its process are numbered in the order they were spawned, and keep their number after the
group has let go of them.

The labels of the system carry what an observer sees : which satellite answered which
call, with what count, and what the call returned or raised.
-/

namespace TracerBench

/-- What a call on the group can raise. -/
inductive GroupError where
  | deadSatellites (message : String)
  | satelliteBadResponse (message : String)
  /-- `requests.exceptions.ConnectionError`. -/
  | connectionError
  | python (e : PyError)
  deriving DecidableEq

/-! ## One satellite -/

structure MockSatelliteHandler where
  port : ℕ
  spansReceivedBaseline : ℤ
  deriving DecidableEq

namespace MockSatelliteHandler

/-- `get_spans_received`, with the outcome of its `requests.get`. -/
def getSpansReceived (h : MockSatelliteHandler) (res : Except GroupError Response) :
    Except GroupError ℤ :=
  match res with
  | .error e => .error e
  | .ok res =>
    if res.code ≠ 200 then .error (.satelliteBadResponse "Error getting /spans_received.")
    else
      match int 10 res.body with
      | some n => .ok (n - h.spansReceivedBaseline)
      | none => .error (.satelliteBadResponse "Satellite didn't sent an int.")

/-- `reset_spans_received`, with the outcome of the `requests.get` it makes. -/
def resetSpansReceived (h : MockSatelliteHandler) (res : Except GroupError Response) :
    Except GroupError MockSatelliteHandler :=
  match h.getSpansReceived res with
  | .error e => .error e
  | .ok n => .ok { h with spansReceivedBaseline := h.spansReceivedBaseline + n }

/-- A satellite's own answer is read as its counter, less the baseline. -/
theorem getSpansReceived_GET (h : MockSatelliteHandler) (n : ℕ) :
    h.getSpansReceived (.ok (GET "/spans_received" n)) = .ok (n - h.spansReceivedBaseline) := by
  simp [getSpansReceived, GET, int_str]

/-- A reset moves the baseline to the counter, whatever it was. -/
theorem resetSpansReceived_GET (h : MockSatelliteHandler) (n : ℕ) :
    h.resetSpansReceived (.ok (GET "/spans_received" n)) =
      .ok { h with spansReceivedBaseline := n } := by
  rw [resetSpansReceived, getSpansReceived_GET]
  simp

end MockSatelliteHandler

/-- A handler with the process it started. -/
structure Spawned (Span : Type*) where
  handler : MockSatelliteHandler
  mode : Mode
  alive : Bool
  satellite : Satellite Span

/-- `MockSatelliteHandler.__init__`. -/
def Spawned.fresh {Span : Type*} (mode : Mode) (port : ℕ) : Spawned Span :=
  ⟨⟨port, 0⟩, mode, true, .init⟩

/-! ## The group -/

/-- The two calls that read the satellites' counters. -/
inductive Call where
  | get
  | reset
  deriving DecidableEq

/-- Where the caller is. `todo` are the satellites still to be polled or asked. -/
inductive Caller where
  | idle
  /-- At `if not self._satellites`. -/
  | testing (c : Call)
  /-- At the same test in `all_running`. -/
  | testingRunning
  | enteringPolls
  | polling (todo : List ℕ)
  /-- At the loop over `self._satellites`. -/
  | entering (c : Call)
  | asking (c : Call) (todo : List ℕ) (received : ℤ)
  /-- Satellite `p` has answered `n`, which is not yet used. -/
  | holding (c : Call) (p n : ℕ) (todo : List ℕ) (received : ℤ)
  | raising (e : GroupError)
  deriving DecidableEq

/-- Where the administrator is. -/
inductive Admin where
  | idle
  /-- In the loop of `shutdown`. -/
  | terminating (todo : List ℕ)
  /-- In the list of handlers `__init__` builds. -/
  | spawning (mode : Mode) (todo : List ℕ) (built : List ℕ)
  /-- At the `all_running` that ends `__init__`. -/
  | checking
  | polling (todo : List ℕ)
  | raising (e : GroupError)
  deriving DecidableEq

structure GroupSys (Span : Type*) where
  /-- Every handler so far, with its process. -/
  spawned : List (Spawned Span)
  /-- `self._satellites`. -/
  satellites : Option (List ℕ)
  caller : Caller
  admin : Admin

inductive GroupEvent (Span : Type*) where
  /-- A step of a satellite process. -/
  | sat (p : ℕ) (e : SatEvent Span)
  /-- A process dies by itself. -/
  | die (p : ℕ)
  | call (c : Call)
  /-- The caller tests, polls, or starts a loop. -/
  | callerStep
  /-- Satellite `p` answers the caller's `GET` with the count `n`. -/
  | answer (c : Call) (p n : ℕ)
  /-- Satellite `p` has exited, and process `q`, on the same port, answers instead. -/
  | answerFrom (c : Call) (p q n : ℕ)
  /-- The caller takes the answer and goes on to the next satellite. -/
  | receive
  /-- Satellite `p` has exited, and nobody answers. -/
  | refuse (c : Call) (p : ℕ)
  | returned (c : Call) (v : ℤ)
  | raised (e : GroupError)
  | shutdown
  /-- Satellite `p` is terminated, and has exited. -/
  | terminate (p : ℕ)
  | shutdownReturned
  | start (mode : Mode) (ports : List ℕ)
  | spawn (port : ℕ)
  /-- `Popen` raises. -/
  | spawnFailed (e : PyError)
  /-- The list of handlers is assigned to `self._satellites`. -/
  | assign
  /-- The administrator tests or polls. -/
  | adminStep
  | startReturned
  | startRaised (e : GroupError)
  deriving DecidableEq

namespace GroupSys

variable {Span : Type*}

/-- Nothing started yet. -/
def new : GroupSys Span :=
  ⟨[], none, .idle, .idle⟩

/-- After a successful `MockSatelliteGroup(mode, ports)`. -/
def constructed (mode : Mode) (ports : List ℕ) : GroupSys Span :=
  ⟨ports.map (.fresh mode), some (List.range ports.length), .idle, .idle⟩

/-- `self._satellites`, as a condition. -/
def truthy (s : GroupSys Span) : Bool :=
  match s.satellites with
  | some (_ :: _) => true
  | _ => false

/-- `is_running`. -/
def isRunning (s : GroupSys Span) (p : ℕ) : Bool :=
  (s.spawned[p]?).any (·.alive)

def notRunning : GroupError :=
  .deadSatellites "One or more satellites is not running."

/-- The caller's next step, up to its first `GET`. -/
def callerNext (s : GroupSys Span) : Caller → Option Caller
  | .testing .get => some (if s.truthy then .testingRunning else .raising notRunning)
  | .testing .reset => some (if s.truthy then .entering .reset else .asking .reset [] 0)
  | .testingRunning => some (if s.truthy then .enteringPolls else .raising notRunning)
  | .enteringPolls =>
    match s.satellites with
    | none => some (.raising (.python .typeError))
    | some ps => some (.polling ps)
  | .polling [] => some (.entering .get)
  | .polling (p :: todo) =>
    some (if s.isRunning p then .polling todo else .raising notRunning)
  | .entering c =>
    match s.satellites with
    | none => some (.raising (.python .typeError))
    | some ps => some (.asking c ps 0)
  | _ => none

/-- The administrator's tests and polls at the end of `__init__`. -/
def adminNext (s : GroupSys Span) : Admin → Option Admin
  | .checking =>
    match s.satellites with
    | some (p :: ps) => some (.polling (p :: ps))
    | _ => some (.raising (.deadSatellites ""))
  | .polling (p :: todo) =>
    some (if s.isRunning p then .polling todo else .raising (.deadSatellites ""))
  | _ => none

/-- The caller uses the answer `n` of satellite `p`, with `todo` left and `received` so
far. -/
def receive (s : GroupSys Span) (c : Call) (p : ℕ) (o : Spawned Span) (n : ℕ) (todo : List ℕ)
    (received : ℤ) : GroupSys Span :=
  let res := .ok (GET "/spans_received" n)
  match c with
  | .get =>
    match o.handler.getSpansReceived res with
    | .ok n => { s with caller := .asking .get todo (received + n) }
    | .error e => { s with caller := .raising e }
  | .reset =>
    match o.handler.resetSpansReceived res with
    | .ok h =>
      { s with
        spawned := s.spawned.set p { o with handler := h }
        caller := .asking .reset todo received }
    | .error e => { s with caller := .raising e }

variable [DecidableEq Span] (parse : List UInt8 → Option (List Span))

/-- One step of a satellite process, the caller or the administrator. -/
def step (s : GroupSys Span) : GroupEvent Span → Option (GroupSys Span)
  | .sat p e =>
    match s.spawned[p]? with
    | none => none
    | some o =>
      if o.alive then
        (o.satellite.step parse o.mode e).map fun sat =>
          { s with spawned := s.spawned.set p { o with satellite := sat } }
      else none
  | .die p =>
    match s.spawned[p]? with
    | none => none
    | some o => some { s with spawned := s.spawned.set p { o with alive := false } }
  | .call c => if s.caller = .idle then some { s with caller := .testing c } else none
  | .callerStep => (s.callerNext s.caller).map fun c => { s with caller := c }
  | .answer c p n =>
    match s.caller, s.spawned[p]? with
    | .asking c' (p' :: todo) received, some o =>
      if c = c' ∧ p = p' ∧ o.alive ∧ n = o.satellite.spansReceived then
        some { s with caller := .holding c p n todo received }
      else none
    | _, _ => none
  | .answerFrom c p q n =>
    match s.caller, s.spawned[p]?, s.spawned[q]? with
    | .asking c' (p' :: todo) received, some o, some w =>
      if c = c' ∧ p = p' ∧ o.alive = false ∧ w.alive ∧ w.handler.port = o.handler.port ∧
          n = w.satellite.spansReceived then
        some { s with caller := .holding c p n todo received }
      else none
    | _, _, _ => none
  | .receive =>
    match s.caller with
    | .holding c p n todo received =>
      (s.spawned[p]?).map fun o => s.receive c p o n todo received
    | _ => none
  | .refuse c p =>
    match s.caller with
    | .asking c' (p' :: _) _ =>
      if c = c' ∧ p = p' ∧ s.isRunning p = false then
        some { s with caller := .raising .connectionError }
      else none
    | _ => none
  | .returned c v => if s.caller = .asking c [] v then some { s with caller := .idle } else none
  | .raised e => if s.caller = .raising e then some { s with caller := .idle } else none
  | .shutdown =>
    if s.admin = .idle then
      match s.satellites with
      | some (p :: ps) => some { s with admin := .terminating (p :: ps) }
      | _ => some s
    else none
  | .terminate p =>
    match s.admin, s.spawned[p]? with
    | .terminating (p' :: todo), some o =>
      if p = p' then
        some { s with
          spawned := s.spawned.set p { o with alive := false }
          admin := .terminating todo }
      else none
    | _, _ => none
  | .shutdownReturned =>
    if s.admin = .terminating [] then some { s with satellites := none, admin := .idle } else none
  | .start mode ports =>
    if s.admin = .idle then
      if s.truthy then some s else some { s with admin := .spawning mode ports [] }
    else none
  | .spawn port =>
    match s.admin with
    | .spawning mode (port' :: todo) built =>
      if port = port' then
        some { s with
          spawned := s.spawned ++ [.fresh mode port]
          admin := .spawning mode todo (built ++ [s.spawned.length]) }
      else none
    | _ => none
  | .spawnFailed e =>
    match s.admin with
    | .spawning _ (_ :: _) _ => some { s with admin := .raising (.python e) }
    | _ => none
  | .assign =>
    match s.admin with
    | .spawning _ [] built => some { s with satellites := some built, admin := .checking }
    | _ => none
  | .adminStep => (s.adminNext s.admin).map fun a => { s with admin := a }
  | .startReturned => if s.admin = .polling [] then some { s with admin := .idle } else none
  | .startRaised e => if s.admin = .raising e then some { s with admin := .idle } else none

end GroupSys

end TracerBench
