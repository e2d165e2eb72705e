import TracerBench.Controller
import TracerBench.SpanTrace

/-!
# The JavaScript clients

`js_client_v2` starts its spans on promise chains. A trace is a chain of `then`
callbacks : a callback that starts the next span adds the callbacks that belong to it,
and one that finishes a span comes after those of the spans under it. The chains of all
traces are made before any callback runs, and then the event loop takes their callbacks,
one at a time. `Script.step` lets it take them from the chains in any order. A chain
whose work throws is rejected, and its callbacks are passed over.

`js_client` defines a loop that starts `repeat` spans (`execControl`) and calls it
nowhere. The other two start traces of six spans, `repeat` times, so no JavaScript
client starts and finishes `repeat` spans (`js_spans_never_repeat`).
-/

namespace TracerBench.Js

/-! ## Values and arguments -/

/-- A value read from the command line. -/
inductive JsValue where
  | number (v : ℚ)
  | bool (b : Bool)
  | undefined

/-- The length of `Array(value)`, unless that throws. -/
def arrayLength : JsValue → Option ℕ
  | .number v => if 0 ≤ v ∧ v < 2 ^ 32 ∧ (⌊v⌋ : ℚ) = v then some ⌊v⌋.toNat else none
  | _ => some 1

/-- `value < 1`. -/
def JsValue.belowOne : JsValue → Bool
  | .number v => v < 1
  | .bool b => !b
  | .undefined => false

/-- `args` : what stands on the command line without a flag, and the value of each flag. -/
structure JsArgs where
  positional : List String
  flag : Flag → JsValue

/-- What the clients rely on of `minimist`, which gets what stands without a flag and the flags
with what is written after each : a flag that is there once and is followed by a whole number
has that number. -/
def ReadsNumbers (minimist : List String → List (Flag × ℚ) → JsArgs) : Prop :=
  ∀ positional line, (line.map Prod.fst).Nodup → ∀ f (n : ℕ), (f, (n : ℚ)) ∈ line →
    (minimist positional line).flag f = .number n

/-- The errors the main script can end with. -/
inductive JsError where
  | error (message : String)
  | rangeError

/-! ## Scripts and their promise chains -/

/-- The argument of a `then`. -/
inductive Callback where
  | generateSpan (depth : ℤ) (parent : ℕ)
  | finish (span : ℕ)

/-- The callbacks of a promise still to come. Those of a rejected one are passed over. -/
structure Chain where
  callbacks : List Callback
  rejected : Bool

/-- A running script. -/
structure Script where
  /-- The number of the next span. -/
  next : ℕ
  events : List SpanEvent
  chains : List Chain
  transport : Option String
  thrown : Option JsError

namespace Script

def empty : Script := ⟨0, [], [], none, none⟩

/-- `startSpan`. -/
def startSpan (parent : Option ℕ) (s : Script) : Script :=
  { s with next := s.next + 1, events := s.events ++ [.start s.next parent] }

/-- `finish`. -/
def finish (span : ℕ) (s : Script) : Script :=
  { s with events := s.events ++ [.finish span] }

end Script

/-! ## `js_client_v2` -/

/-- `SPANS_PER_LOOP`, the depth of each trace. -/
def spansPerLoop : ℤ := 6

/-- `generateSpan`, on a chain that has the callbacks `after` to come. `doWork` throws, in
its promise, when it can not make its array. -/
def generateSpan (depth : ℤ) (units : JsValue) (parent : Option ℕ) (after : List Callback)
    (s : Script) : Chain × Script :=
  let nspan := s.next
  let depth := depth - 1
  let callbacks :=
    if depth > 0 then .generateSpan depth nspan :: .finish nspan :: after
    else .finish nspan :: after
  (⟨callbacks, (arrayLength units).isNone⟩, s.startSpan parent)

/-- `buildTracer`. -/
def buildTracer (args : JsArgs) (s : Script) : Script :=
  { s with transport := some (if args.positional.head? = some "proto" then "proto" else "thrift") }

/-- `work.push(generateSpan(tracer, depth, unitsWork))`. -/
def pushTrace (unitsWork : JsValue) (depth : ℤ) (s : Script) : Script :=
  let (chain, s) := generateSpan depth unitsWork none [] s
  { s with chains := s.chains ++ [chain] }

/-- `generateTraces`. -/
def generateTraces (args : JsArgs) (unitsWork : JsValue) (depth : ℤ) (repeats : JsValue)
    (s : Script) : Script :=
  if repeats.belowOne then
    { s with thrown := some (.error "Number of traces to send (repeat variable) must be > 0.") }
  else
    let s := buildTracer args s
    match arrayLength repeats with
    | none => { s with thrown := some .rangeError }
    | some n => (pushTrace unitsWork depth)^[n] s

/-- One callback of the chain with number `i`, or passing over it. -/
def Script.step (units : JsValue) (s : Script) (i : ℕ) : Option Script :=
  match s.chains[i]? with
  | some ⟨_ :: rest, true⟩ =>
    some { s with chains := s.chains.set i ⟨rest, true⟩ }
  | some ⟨.generateSpan depth parent :: rest, false⟩ =>
    let (chain, s) := generateSpan depth units (some parent) rest s
    some { s with chains := s.chains.set i chain }
  | some ⟨.finish span :: rest, false⟩ =>
    some { s.finish span with chains := s.chains.set i ⟨rest, false⟩ }
  | _ => none

/-- No callback is left, or a rejection that nothing handles has ended the process. -/
def Script.Complete (s : Script) : Prop :=
  (∀ chain ∈ s.chains, chain.callbacks = []) ∨ ∃ chain ∈ s.chains, chain.rejected = true

/-! ## `js_client` -/

/-- The variables of `exec_control`, with the number of timers it has set. -/
structure Control where
  r : ℤ
  sleepDebt : ℚ
  timers : ℕ
  script : Script

/-- A pass of the loop in `body_func`, and with it the timer that resumes the loop :
`elapsed` is how long each timer took. -/
def controlPass (sleep sleepInterval : ℚ) (elapsed : ℕ → ℚ) (k : Control) :
    Option (Pass Control Control) :=
  if k.r > 0 then
    let span := k.script.next
    let script := (k.script.startSpan none).finish span
    let sleepDebt := k.sleepDebt + sleep
    if sleepDebt > sleepInterval then
      let sleepDebt := if sleepDebt > 0 then sleepDebt - elapsed k.timers else sleepDebt
      some (.more ⟨k.r - 1, sleepDebt, k.timers + 1, script⟩)
    else some (.more ⟨k.r - 1, sleepDebt, k.timers, script⟩)
  else some (.done k)

/-- `exec_control`, from `body_func(args.repeat)` to its flush or exit. -/
def execControl (sleep sleepInterval : ℚ) (repeats : ℤ) (elapsed : ℕ → ℚ) (fuel : ℕ)
    (s : Script) : Option Control :=
  loop (controlPass sleep sleepInterval elapsed) fuel ⟨repeats, 0, 0, s⟩

/-- Between two passes of the loop, `r` spans are left to start and finish. -/
structure Control.Sent (s : Script) (repeats : ℕ) (k : Control) : Prop where
  nonneg : 0 ≤ k.r
  starts : (started k.script.events).length + k.r = (started s.events).length + repeats
  finishes : (finished k.script.events).length + k.r = (finished s.events).length + repeats

theorem controlPass_sent {sleep sleepInterval : ℚ} {elapsed : ℕ → ℚ} {s : Script}
    {repeats : ℕ} {k : Control} (hk : k.Sent s repeats) (hr : k.r > 0) :
    ∃ k', controlPass sleep sleepInterval elapsed k = some (.more k') ∧ k'.Sent s repeats ∧
      k'.r = k.r - 1 := by
  have hsent : ∀ debt timers, Control.Sent s repeats
      ⟨k.r - 1, debt, timers, (k.script.startSpan none).finish k.script.next⟩ := by
    intro debt timers
    have hstarts := hk.starts
    have hfinishes := hk.finishes
    refine ⟨?_, ?_, ?_⟩
    · simp only
      omega
    · simp only [Script.finish, Script.startSpan, started_append, started_start, started_finish,
        started_nil, List.append_nil, List.length_append, List.length_singleton]
      omega
    · simp only [Script.finish, Script.startSpan, finished_append, finished_start,
        finished_finish, finished_nil, List.append_nil, List.length_append, List.length_singleton]
      omega
  rw [controlPass, if_pos hr]
  dsimp only
  by_cases hdebt : k.sleepDebt + sleep > sleepInterval
  · rw [if_pos hdebt]
    exact ⟨_, rfl, hsent _ _, rfl⟩
  · rw [if_neg hdebt]
    exact ⟨_, rfl, hsent _ _, rfl⟩

/-- Called, `exec_control` would start and finish `repeat` spans, whatever its timers. -/
theorem execControl_spans {sleep sleepInterval : ℚ} {elapsed : ℕ → ℚ} {repeats : ℕ}
    (s : Script) :
    ∃ k, Returns (fun fuel => execControl sleep sleepInterval repeats elapsed fuel s) k ∧
      (started k.script.events).length = (started s.events).length + repeats ∧
      (finished k.script.events).length = (finished s.events).length + repeats := by
  have hpass : ∀ k : Control, k.Sent s repeats →
      (∃ k', controlPass sleep sleepInterval elapsed k = some (.more k') ∧ k'.Sent s repeats ∧
        k'.r.toNat < k.r.toNat) ∨
      ∃ b, controlPass sleep sleepInterval elapsed k = some (.done b) ∧
        b.Sent s repeats ∧ b.r = 0 := by
    intro k hk
    by_cases hr : k.r > 0
    · obtain ⟨k', hk', hs, hlt⟩ := controlPass_sent hk hr
      exact Or.inl ⟨k', hk', hs, by omega⟩
    · refine Or.inr ⟨k, ?_, hk, le_antisymm (not_lt.1 hr) hk.nonneg⟩
      rw [controlPass, if_neg hr]
  obtain ⟨k, hk, hs, hr⟩ := loop_of_measure (fun k : Control => k.r.toNat) hpass
    (⟨Int.natCast_nonneg repeats, rfl, rfl⟩ : Control.Sent s repeats ⟨repeats, 0, 0, s⟩)
    (Nat.lt_succ_self _)
  have hstarts := hs.starts
  have hfinishes := hs.finishes
  exact ⟨k, ⟨_, fun _ hle => loop_mono hk hle⟩, by omega, by omega⟩

/-! ## The clients of `client_args` -/

inductive JsClient where
  | js | js2 | js2Proto

/-- What `client_args` puts on the command line before the flags. -/
def JsClient.startupArgs : JsClient → List String
  | .js2Proto => ["proto"]
  | _ => []

/-- The client's main script. That of `js` makes two tracers, defines `exec_control` and
reads its arguments, and there it ends. -/
def JsClient.main (client : JsClient) (args : JsArgs) : Script :=
  match client with
  | .js => .empty
  | .js2 | .js2Proto =>
    generateTraces args (args.flag .work) spansPerLoop (args.flag .repeats) .empty

/-- The arguments a client is launched with. -/
def JsClient.args (client : JsClient) (minimist : List String → List (Flag × ℚ) → JsArgs)
    (command : Command) : JsArgs :=
  minimist client.startupArgs (getClientArgs command)

/-! ## What is still to come -/

/-- The spans a callback is still to start. -/
def Callback.starts : Callback → ℕ
  | .generateSpan depth _ => depth.toNat
  | .finish _ => 0

/-- The spans a callback is still to finish. -/
def Callback.finishes : Callback → ℕ
  | .generateSpan depth _ => depth.toNat
  | .finish _ => 1

/-- A measure that falls with each callback taken. -/
def Callback.weight : Callback → ℕ
  | .generateSpan depth _ => 2 * depth.toNat + 2
  | .finish _ => 1

/-- A quantity summed over the callbacks of a chain. -/
def Chain.total (f : Callback → ℕ) (chain : Chain) : ℕ :=
  (chain.callbacks.map f).sum

/-- A quantity summed over the callbacks of a script. -/
def Script.total (f : Callback → ℕ) (s : Script) : ℕ :=
  (s.chains.map (Chain.total f)).sum

section Total

variable {depth : ℤ} (units : JsValue) (parent : Option ℕ) (after : List Callback) (s : Script)

theorem generateSpan_starts (hd : 1 ≤ depth) :
    (generateSpan depth units parent after s).1.total Callback.starts + 1 =
      depth.toNat + (after.map Callback.starts).sum := by
  simp only [generateSpan, Chain.total]
  split_ifs with h
  · simp only [List.map_cons, List.sum_cons, Callback.starts]
    omega
  · simp only [List.map_cons, List.sum_cons, Callback.starts]
    omega

theorem generateSpan_finishes (hd : 1 ≤ depth) :
    (generateSpan depth units parent after s).1.total Callback.finishes =
      depth.toNat + (after.map Callback.finishes).sum := by
  simp only [generateSpan, Chain.total]
  split_ifs with h
  · simp only [List.map_cons, List.sum_cons, Callback.finishes]
    omega
  · simp only [List.map_cons, List.sum_cons, Callback.finishes]
    omega

theorem generateSpan_weight (depth : ℤ) :
    (generateSpan depth units parent after s).1.total Callback.weight <
      2 * depth.toNat + 2 + (after.map Callback.weight).sum := by
  simp only [generateSpan, Chain.total]
  split_ifs with h
  · simp only [List.map_cons, List.sum_cons, Callback.weight]
    omega
  · simp only [List.map_cons, List.sum_cons, Callback.weight]
    omega

end Total

/-! ## Steps -/

/-- What a step does. -/
theorem step_cases {units : JsValue} {s s' : Script} {i : ℕ} (h : s.step units i = some s') :
    (∃ callback rest, s.chains[i]? = some ⟨callback :: rest, true⟩ ∧
      s' = { s with chains := s.chains.set i ⟨rest, true⟩ }) ∨
    (∃ depth parent rest, s.chains[i]? = some ⟨.generateSpan depth parent :: rest, false⟩ ∧
      s' = { s.startSpan (some parent) with
        chains := s.chains.set i (generateSpan depth units (some parent) rest s).1 }) ∨
    ∃ span rest, s.chains[i]? = some ⟨.finish span :: rest, false⟩ ∧
      s' = { s.finish span with chains := s.chains.set i ⟨rest, false⟩ } := by
  unfold Script.step at h
  split at h
  · next callback rest hi => exact Or.inl ⟨callback, rest, hi, (Option.some.inj h).symm⟩
  · next depth parent rest hi =>
    exact Or.inr (Or.inl ⟨depth, parent, rest, hi, (Option.some.inj h).symm⟩)
  · next span rest hi => exact Or.inr (Or.inr ⟨span, rest, hi, (Option.some.inj h).symm⟩)
  · simp at h

theorem total_set {f : Callback → ℕ} {s : Script} {i : ℕ} {a b : Chain}
    (h : s.chains[i]? = some a) :
    ((s.chains.set i b).map (Chain.total f)).sum + a.total f = s.total f + b.total f :=
  sum_map_set (Chain.total f) h

@[simp] theorem total_cons (f : Callback → ℕ) (callback : Callback) (rest : List Callback)
    (rejected : Bool) :
    Chain.total f ⟨callback :: rest, rejected⟩ = f callback + (rest.map f).sum := by
  simp [Chain.total]

/-- The event loop runs out of callbacks. -/
theorem step_weight {units : JsValue} {s s' : Script} {i : ℕ} (h : s.step units i = some s') :
    s'.total Callback.weight < s.total Callback.weight := by
  obtain ⟨callback, rest, hi, rfl⟩ | ⟨depth, parent, rest, hi, rfl⟩ | ⟨span, rest, hi, rfl⟩ :=
    step_cases h
  · have hset := total_set (f := Callback.weight) (b := ⟨rest, true⟩) hi
    have hpos : 0 < callback.weight := by cases callback <;> simp [Callback.weight]
    rw [total_cons] at hset
    change ((s.chains.set i _).map _).sum < _
    simp only [Chain.total] at hset ⊢
    omega
  · have hset := total_set (f := Callback.weight)
      (b := (generateSpan depth units (some parent) rest s).1) hi
    have hspan := generateSpan_weight units (some parent) rest s depth
    rw [total_cons, Callback.weight] at hset
    change ((s.chains.set i _).map _).sum < _
    omega
  · have hset := total_set (f := Callback.weight) (b := ⟨rest, false⟩) hi
    rw [total_cons, Callback.weight] at hset
    change ((s.chains.set i _).map _).sum < _
    simp only [Chain.total] at hset ⊢
    omega

theorem exists_complete (units : JsValue) (s : Script) :
    ∃ es t, run (Script.step units) s es = some t ∧ t.Complete := by
  obtain ⟨es, t, ht, hstuck⟩ :=
    exists_run_stuck (Script.total Callback.weight) (fun _ _ _ => step_weight) s
  refine ⟨es, t, ht, Or.inl fun chain hchain => ?_⟩
  obtain ⟨i, hi⟩ := List.mem_iff_getElem?.1 hchain
  have hnone := hstuck i
  rcases chain with ⟨_ | ⟨_ | span, rest⟩, _ | _⟩ <;> simp_all [Script.step]

/-! ## Counts

`Live` and `Dead` scripts are those whose work fits an array and those whose work does
not : the first start and finish each span their callbacks stand for, the second start
only the first span of each trace and finish none. -/

/-- `n` spans are started in all, and as many finished. -/
structure Live (n : ℕ) (s : Script) : Prop where
  live : ∀ chain ∈ s.chains, chain.rejected = false
  deep : ∀ chain ∈ s.chains, ∀ depth parent,
    .generateSpan depth parent ∈ chain.callbacks → 1 ≤ depth
  starts : (started s.events).length + s.total Callback.starts = n
  finishes : (finished s.events).length + s.total Callback.finishes = n

/-- `n` spans were started, and none will be finished. -/
structure Dead (n : ℕ) (s : Script) : Prop where
  rejected : ∀ chain ∈ s.chains, chain.rejected = true
  starts : (started s.events).length = n
  finishes : finished s.events = []

section Counts

variable {n : ℕ} {s s' : Script} {units : JsValue} {i : ℕ}

theorem generateSpan_deep {depth : ℤ} {parent : Option ℕ} {after : List Callback}
    (hafter : ∀ d p, .generateSpan d p ∈ after → 1 ≤ d) {d : ℤ} {p : ℕ}
    (h : .generateSpan d p ∈ (generateSpan depth units parent after s).1.callbacks) : 1 ≤ d := by
  simp only [generateSpan] at h
  split_ifs at h with hd
  · rcases List.mem_cons.1 h with heq | h
    · obtain ⟨rfl, rfl⟩ := Callback.generateSpan.inj heq
      omega
    · exact hafter d p (by simpa using h)
  · exact hafter d p (by simpa using h)

/-- A step that replaces chain `a` by `b`, and starts and finishes as many spans as `b` is
short of `a`. -/
theorem Live.replace {a b : Chain} (hl : Live n s) (hi : s.chains[i]? = some a)
    (hchains : s'.chains = s.chains.set i b) (hb : b.rejected = false)
    (hdeep : ∀ d p, .generateSpan d p ∈ b.callbacks → 1 ≤ d)
    (hstarts : (started s'.events).length + b.total Callback.starts =
      (started s.events).length + a.total Callback.starts)
    (hfinishes : (finished s'.events).length + b.total Callback.finishes =
      (finished s.events).length + a.total Callback.finishes) : Live n s' := by
  refine ⟨fun chain hc => ?_, fun chain hc d p hdp => ?_, ?_, ?_⟩
  · rcases List.mem_or_eq_of_mem_set (hchains ▸ hc) with hc | rfl
    · exact hl.live chain hc
    · exact hb
  · rcases List.mem_or_eq_of_mem_set (hchains ▸ hc) with hc | rfl
    · exact hl.deep chain hc d p hdp
    · exact hdeep d p hdp
  · have hset := total_set (f := Callback.starts) (b := b) hi
    have hs := hl.starts
    rw [Script.total, hchains]
    omega
  · have hset := total_set (f := Callback.finishes) (b := b) hi
    have hf := hl.finishes
    rw [Script.total, hchains]
    omega

theorem Live.step (hunits : arrayLength units ≠ none) (hl : Live n s)
    (h : s.step units i = some s') : Live n s' := by
  obtain ⟨callback, rest, hi, -⟩ | ⟨depth, parent, rest, hi, rfl⟩ | ⟨span, rest, hi, rfl⟩ :=
    step_cases h
  · exact absurd (hl.live _ (List.mem_of_getElem? hi)) (by simp)
  · have hdeep := hl.deep _ (List.mem_of_getElem? hi)
    have hd := hdeep depth parent (by simp)
    refine hl.replace hi rfl ?_ (fun d p => generateSpan_deep fun d p h => hdeep d p (by simp [h]))
      ?_ ?_
    · simpa [generateSpan, Option.isSome_iff_ne_none] using hunits
    · have hspan := generateSpan_starts units (some parent) rest s hd
      simp only [Script.startSpan, started_append, started_start, started_nil, List.length_append,
        List.length_singleton, total_cons, Callback.starts]
      omega
    · have hspan := generateSpan_finishes units (some parent) rest s hd
      simp only [Script.startSpan, finished_append, finished_start, finished_nil, List.append_nil,
        total_cons, Callback.finishes]
      omega
  · have hdeep := hl.deep _ (List.mem_of_getElem? hi)
    refine hl.replace hi rfl rfl (fun d p h => hdeep d p (by simpa using h)) ?_ ?_
    · simp [Script.finish, Chain.total, Callback.starts]
    · simp [Script.finish, Chain.total, Callback.finishes]
      omega

theorem step_of_chains_eq_nil (hs : s.chains = []) : s.step units i ≠ some s' := by
  intro h
  unfold Script.step at h
  simp [hs] at h

theorem Dead.step (hd : Dead n s) (h : s.step units i = some s') : Dead n s' := by
  obtain ⟨callback, rest, hi, rfl⟩ | ⟨depth, parent, rest, hi, -⟩ | ⟨span, rest, hi, -⟩ :=
    step_cases h
  · refine ⟨fun chain hc => ?_, hd.starts, hd.finishes⟩
    rcases List.mem_or_eq_of_mem_set hc with hc | rfl
    · exact hd.rejected chain hc
    · rfl
  · exact absurd (hd.rejected _ (List.mem_of_getElem? hi)) (by simp)
  · exact absurd (hd.rejected _ (List.mem_of_getElem? hi)) (by simp)

theorem total_eq_zero {f : Callback → ℕ} (h : ∀ chain ∈ s.chains, chain.callbacks = []) :
    s.total f = 0 := by
  refine List.sum_eq_zero fun k hk => ?_
  obtain ⟨chain, hc, rfl⟩ := List.mem_map.1 hk
  simp [Chain.total, h chain hc]

/-- A complete run has started and finished every span. -/
theorem Live.complete (hl : Live n s) (h : s.Complete) :
    (started s.events).length = n ∧ (finished s.events).length = n := by
  rcases h with h | ⟨chain, hc, hr⟩
  · have hs := hl.starts
    have hf := hl.finishes
    rw [total_eq_zero h] at hs hf
    exact ⟨hs, hf⟩
  · rw [hl.live chain hc] at hr
    exact absurd hr (by simp)

theorem Live.empty : Live 0 Script.empty where
  live := by simp [Script.empty]
  deep := by simp [Script.empty]
  starts := rfl
  finishes := rfl

/-- A trace comes to `depth` spans. -/
theorem Live.pushTrace {depth : ℤ} (hunits : arrayLength units ≠ none) (hdepth : 1 ≤ depth)
    (hl : Live n s) : Live (n + depth.toNat) (pushTrace units depth s) := by
  obtain ⟨chain, hchain⟩ : ∃ chain, chain = (generateSpan depth units none [] s).1 := ⟨_, rfl⟩
  have hs' : Js.pushTrace units depth s =
      { s.startSpan none with chains := s.chains ++ [chain] } := by
    rw [hchain]
    rfl
  have hstarts := generateSpan_starts units none [] s hdepth
  have hfinishes := generateSpan_finishes units none [] s hdepth
  rw [← hchain] at hstarts hfinishes
  rw [hs']
  refine ⟨fun k hk => ?_, fun k hk d p hdp => ?_, ?_, ?_⟩
  · rcases List.mem_append.1 hk with hk | hk
    · exact hl.live k hk
    · rw [List.mem_singleton.1 hk, hchain]
      simpa [generateSpan, Option.isSome_iff_ne_none] using hunits
  · rcases List.mem_append.1 hk with hk | hk
    · exact hl.deep k hk d p hdp
    · rw [List.mem_singleton.1 hk, hchain] at hdp
      exact generateSpan_deep (by simp) hdp
  · have hs := hl.starts
    simp only [Script.total, Script.startSpan, started_append, started_start, started_nil,
      List.length_append, List.length_singleton, List.map_append, List.sum_append, List.map_cons,
      List.map_nil, List.sum_singleton, List.sum_nil] at hs hstarts ⊢
    omega
  · have hf := hl.finishes
    simp only [Script.total, Script.startSpan, finished_append, finished_start, finished_nil,
      List.append_nil, List.map_append, List.sum_append, List.map_cons, List.map_nil,
      List.sum_singleton, List.sum_nil] at hf hfinishes ⊢
    omega

theorem Dead.pushTrace {depth : ℤ} (hunits : arrayLength units = none) (hd : Dead n s) :
    Dead (n + 1) (pushTrace units depth s) := by
  refine ⟨fun k hk => ?_, ?_, ?_⟩
  · rcases List.mem_append.1 hk with hk | hk
    · exact hd.rejected k hk
    · rw [List.mem_singleton.1 hk]
      simp [hunits]
  · change (started (s.events ++ [_])).length = n + 1
    rw [started_append, List.length_append, hd.starts]
    rfl
  · change finished (s.events ++ [_]) = []
    rw [finished_append, hd.finishes]
    rfl

end Counts

theorem arrayLength_natCast (n : ℕ) :
    arrayLength (.number n) = if n < 2 ^ 32 then some n else none := by
  have hlt : ((n : ℚ) < 2 ^ 32) ↔ n < 2 ^ 32 := by
    exact_mod_cast Iff.rfl
  simp [arrayLength, hlt]

/-- The traces of `n` : six spans each, if the work fits an array, and none at all when `n`
is too long for one. -/
theorem generateTraces_counts (args : JsArgs) (units : JsValue) {n : ℕ} (hn : 1 ≤ n) :
    let s := generateTraces args units spansPerLoop (.number n) .empty
    (s.chains = [] ∧ Live 0 s) ∨ (arrayLength units ≠ none ∧ Live (n * 6) s) ∨ Dead n s := by
  have hbelow : (JsValue.number n).belowOne = false := by
    simp only [JsValue.belowOne, decide_eq_false_iff_not, not_lt]
    exact_mod_cast hn
  have hempty : Live 0 (buildTracer args .empty) :=
    ⟨Live.empty.live, Live.empty.deep, Live.empty.starts, Live.empty.finishes⟩
  rw [generateTraces, if_neg (by simp [hbelow]), arrayLength_natCast]
  by_cases hlt : n < 2 ^ 32
  · rw [if_pos hlt]
    dsimp only
    by_cases hunits : arrayLength units = none
    · refine Or.inr (Or.inr ?_)
      clear hlt hn hbelow
      induction n with
      | zero => exact ⟨by simp [buildTracer, Script.empty], rfl, rfl⟩
      | succ n ih =>
        rw [Function.iterate_succ_apply']
        exact ih.pushTrace hunits
    · refine Or.inr (Or.inl ⟨hunits, ?_⟩)
      clear hlt hn hbelow
      induction n with
      | zero => simpa using hempty
      | succ n ih =>
        rw [Function.iterate_succ_apply', Nat.succ_mul]
        exact ih.pushTrace hunits (by decide : (1 : ℤ) ≤ spansPerLoop)
  · rw [if_neg hlt]
    exact Or.inl ⟨rfl, hempty.live, hempty.deep, hempty.starts, hempty.finishes⟩

section Clients

variable {minimist : List String → List (Flag × ℚ) → JsArgs} {client : JsClient}
  {command : Command}

theorem flag_repeats (hread : ReadsNumbers minimist) {n : ℕ} (hrepeats : command.repeats = n) :
    (client.args minimist command).flag .repeats = .number n :=
  hread _ _ (by simp [getClientArgs]) _ n (by simp [getClientArgs, hrepeats])

/-- A client's script, run to its end, with what its event loop may do. -/
def CompleteRun (client : JsClient) (minimist : List String → List (Flag × ℚ) → JsArgs)
    (command : Command) (s : Script) : Prop :=
  s.Complete ∧ ∃ es, run (Script.step ((client.args minimist command).flag .work))
    (client.main (client.args minimist command)) es = some s

/-- What a client's script comes to for `n` repeats. -/
theorem completeRun_counts (hread : ReadsNumbers minimist) {n : ℕ} (hn : 1 ≤ n)
    (hrepeats : command.repeats = n) {s : Script} (h : CompleteRun client minimist command s) :
    ((started s.events).length, (finished s.events).length) ∈ [(0, 0), (n * 6, n * 6), (n, 0)] := by
  obtain ⟨hs, es, hrun⟩ := h
  have hcounts : ∀ s₀, (s₀.chains = [] ∧ Live 0 s₀) ∨
      (arrayLength ((client.args minimist command).flag .work) ≠ none ∧ Live (n * 6) s₀) ∨
        Dead n s₀ →
      run (Script.step ((client.args minimist command).flag .work)) s₀ es = some s →
      ((started s.events).length, (finished s.events).length) ∈
        [(0, 0), (n * 6, n * 6), (n, 0)] := by
    rintro s₀ (⟨hnil, hl⟩ | ⟨hunits, hl⟩ | hd) hrun
    · have hl' := (run_invariant (I := fun s => s.chains = [] ∧ Live 0 s) ⟨hnil, hl⟩
        (fun _ _ _ hi he => absurd he (step_of_chains_eq_nil hi.1)) hrun).2
      obtain ⟨h1, h2⟩ := hl'.complete hs
      simp [h1, h2]
    · have hl' := run_invariant hl (fun _ _ _ hi he => hi.step hunits he) hrun
      obtain ⟨h1, h2⟩ := hl'.complete hs
      simp [h1, h2]
    · have hd' := run_invariant hd (fun _ _ _ hi he => hi.step he) hrun
      simp [hd'.starts, hd'.finishes]
  have hnum : (client.args minimist command).flag .repeats = .number n :=
    flag_repeats hread hrepeats
  rcases client with _ | _ | _
  · exact hcounts _ (Or.inl ⟨rfl, Live.empty⟩) hrun
  · rw [JsClient.main, hnum] at hrun
    exact hcounts _ (generateTraces_counts _ _ hn) hrun
  · rw [JsClient.main, hnum] at hrun
    exact hcounts _ (generateTraces_counts _ _ hn) hrun

/-- No JavaScript client starts and finishes as many spans as it is asked for. -/
theorem js_spans_never_repeat (client : JsClient)
    {minimist : List String → List (Flag × ℚ) → JsArgs} (hread : ReadsNumbers minimist)
    (command : Command) (hn : 1 ≤ command.repeats) :
    (∃ s, CompleteRun client minimist command s) ∧
      ∀ s, CompleteRun client minimist command s →
        ¬(((started s.events).length : ℤ) = command.repeats ∧
          ((finished s.events).length : ℤ) = command.repeats) := by
  constructor
  · obtain ⟨es, s, hrun, hs⟩ := exists_complete ((client.args minimist command).flag .work)
      (client.main (client.args minimist command))
    exact ⟨s, hs, es, hrun⟩
  · rintro s h ⟨hstarts, hfinishes⟩
    obtain ⟨n, hrepeats⟩ := Int.eq_ofNat_of_zero_le (by omega : 0 ≤ command.repeats)
    have hcounts := completeRun_counts hread (by omega) hrepeats h
    simp only [List.mem_cons, Prod.mk.injEq, List.not_mem_nil, or_false] at hcounts
    omega

end Clients

/-- `minimist` on a command line on which each flag is followed by a number. -/
def sampleMinimist (positional : List String) (line : List (Flag × ℚ)) : JsArgs where
  positional := positional
  flag f := (line.find? (·.1 = f)).elim .undefined (.number ·.2)

theorem sampleMinimist_reads : ReadsNumbers sampleMinimist := by
  intro positional line hnodup f n hmem
  -- the first value of a flag that is there once is the one in question
  obtain ⟨x, hx⟩ := Option.isSome_iff_exists.1
    (List.find?_isSome.2 ⟨(f, (n : ℚ)), hmem, by simp⟩ : (line.find? (·.1 = f)).isSome)
  have hf : x.1 = f := by simpa using List.find?_some hx
  have heq : x = (f, (n : ℚ)) :=
    List.inj_on_of_nodup_map hnodup (List.mem_of_find?_eq_some hx) hmem hf
  rw [sampleMinimist]
  simp [hx, heq]

/-- One span of calibration work. -/
def sampleCommand : Command := ⟨true, 0, defaultSleepInterval, 200000, 1, false⟩

theorem js_spans_sample :
    (∃ s, CompleteRun .js2 sampleMinimist sampleCommand s) ∧
      ∀ s, CompleteRun .js2 sampleMinimist sampleCommand s →
        ¬(((started s.events).length : ℤ) = 1 ∧ ((finished s.events).length : ℤ) = 1) :=
  js_spans_never_repeat .js2 sampleMinimist_reads sampleCommand (by decide)

/-- Asked for one span, `js` starts none and `js2` six. -/
theorem one_span_asked :
    (∃ s, CompleteRun .js sampleMinimist sampleCommand s ∧ started s.events = []) ∧
      ∃ s, CompleteRun .js2 sampleMinimist sampleCommand s ∧ (started s.events).length = 6 := by
  constructor
  · exact ⟨Script.empty, ⟨Or.inl (by simp [Script.empty]), [], rfl⟩, rfl⟩
  · have h : (run (Script.step ((JsClient.js2.args sampleMinimist sampleCommand).flag .work))
        (JsClient.js2.main (JsClient.js2.args sampleMinimist sampleCommand))
        (List.replicate 11 0)).map
          (fun s => ((started s.events).length, s.chains.all (·.callbacks.isEmpty))) =
        some (6, true) := by
      decide +kernel
    obtain ⟨s, hrun, hs⟩ := Option.map_eq_some_iff.1 h
    obtain ⟨hlen, hall⟩ := Prod.mk.inj hs
    refine ⟨s, ⟨Or.inl fun chain hc => ?_, _, hrun⟩, hlen⟩
    exact List.isEmpty_iff.1 (List.all_eq_true.1 hall chain hc)

end TracerBench.Js
