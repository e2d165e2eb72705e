import TracerBench.Benchmark
import TracerBench.ClientSpans
import TracerBench.TracerClose

/-!
# A Go benchmark from end to end

The Go client finishes its spans one after another and hands each to its tracer. The tracer
posts its reports to the satellite, which handles each in a thread, and waits for the answer
until `ReportTimeout`. Other requests may reach the satellite at any time, as the tracer's
metrics do.

A report that the tracer has given up may be counted all the same, now or later, and its
spans are sent again with the next report. `go_benchmark_accounts` says what the satellite has
counted at each moment of a run, and `go_dropped_spans` what `dropped_spans` is when the
client has closed its tracer.
-/

namespace TracerBench

/-- What the tracer knows of a report it has posted. -/
inductive Fate where
  | waiting
  | acked
  | failed
  | givenUp
  deriving DecidableEq

/-- What a request to the satellite was for. -/
inductive Posting (Span : Type*) where
  | report (req : ReportRequest Span) (fate : Fate)
  | other
  deriving DecidableEq

/-- `toResponse`, with what the satellite puts into its answers. -/
def toResponse (code : ℕ) : Reply :=
  if code = 200 then .response false false else .error

def fateOf (code : ℕ) : Fate :=
  if code = 200 then .acked else .failed

/-- The client, its tracer and the satellite. -/
structure GoBenchmark (Span σ : Type*) (capacity : ℕ) where
  /-- The spans that the client has not finished yet, in their order. -/
  unfinished : List Span
  tracer : GoTracer Span capacity
  satellite : Satellite σ
  /-- For each request to the satellite, in order of arrival. -/
  postings : List (Posting Span)
  /-- The request that `Report` waits for. -/
  inFlight : Option (ℕ × ReportRequest Span)

inductive GoEvent (Span σ : Type*) where
  | finish (span : Span)
  | close
  /-- A step of the report loop, of `Flush` or of `Close`. -/
  | tracer (e : TracerEvent Span)
  | post
  | reply (code : ℕ)
  /-- `Report` returns an error of its own. -/
  | giveUp
  | satellite (e : SatEvent σ)
  deriving DecidableEq

/-- The steps that the tracer takes by itself. The spans of a benchmark can be encoded. -/
def TracerEvent.own {Span : Type*} : TracerEvent Span → Bool
  | .tick _ | .loopClosed | .loopSeen | .flush _ _ | .translate _ | .postFlush | .disconnect => true
  | .record _ _ | .close | .translateFailed _ | .report _ | .disable => false

/-- The requests that are not reports of the tracer. -/
def SatEvent.others {Span σ : Type*} : SatEvent σ → List (Posting Span)
  | .accept _ _ => [.other]
  | _ => []

/-- Only the tracer posts reports. -/
def SatEvent.foreign {σ : Type*} : SatEvent σ → Bool
  | .accept path _ => path ≠ "/api/v2/reports"
  | _ => true

namespace GoBenchmark

variable {Span σ : Type*} {capacity : ℕ}

/-- A satellite that has counted `base` spans and has nothing to do, and a new tracer. -/
def start (script : List Span) (now base : ℕ) : GoBenchmark Span σ capacity :=
  ⟨script, .createTracer now, ⟨base, [], []⟩, [], none⟩

variable [DecidableEq Span] [DecidableEq σ] (opts : TracerOptions)
  (marshal : ReportRequest Span → List UInt8) (parse : List UInt8 → Option (List σ)) (mode : Mode)
  (closes : Bool)

/-- The client closes its tracer when it has finished its spans, if it does so at all. -/
def step (s : GoBenchmark Span σ capacity) : GoEvent Span σ → Option (GoBenchmark Span σ capacity)
  | .finish span =>
    match s.unfinished with
    | [] => none
    | span' :: rest =>
      if span = span' then
        (s.tracer.step opts (.record span true)).map fun t =>
          { s with unfinished := rest, tracer := t }
      else none
  | .close =>
    if s.unfinished = [] ∧ closes then
      (s.tracer.step opts .close).map fun t => { s with tracer := t }
    else none
  | .tracer e =>
    if e.own then (s.tracer.step opts e).map fun t => { s with tracer := t } else none
  | .post =>
    match s.tracer.flush, s.inFlight with
    | some (_, .reporting req), none =>
      (s.satellite.step parse mode (.accept "/api/v2/reports" (marshal req))).map fun sat =>
        { s with
          satellite := sat
          postings := s.postings ++ [.report req .waiting]
          inFlight := some (s.satellite.posts.length, req) }
    | _, _ => none
  | .reply code =>
    match s.inFlight with
    | none => none
    | some (i, req) =>
      if (s.satellite.posts[i]?).map (·.pc) = some (.answered code) then
        (s.tracer.step opts (.report (toResponse code))).map fun t =>
          { s with
            tracer := t
            postings := s.postings.set i (.report req (fateOf code))
            inFlight := none }
      else none
  | .giveUp =>
    (s.tracer.step opts (.report .error)).map fun t =>
      { s with
        tracer := t
        postings :=
          match s.inFlight with
          | none => s.postings
          | some (i, req) => s.postings.set i (.report req .givenUp)
        inFlight := none }
  | .satellite e =>
    if e.foreign then
      (s.satellite.step parse mode e).map fun sat =>
        { s with satellite := sat, postings := s.postings ++ e.others }
    else none

/-! ## What a step can do -/

/-- The steps with the conditions they are taken under. -/
inductive Stepped (s : GoBenchmark Span σ capacity) :
    GoEvent Span σ → GoBenchmark Span σ capacity → Prop
  | finish (span : Span) (rest : List Span) (t : GoTracer Span capacity)
    (hrest : s.unfinished = span :: rest) (ht : s.tracer.step opts (.record span true) = some t) :
    Stepped s (.finish span) { s with unfinished := rest, tracer := t }
  | close (t : GoTracer Span capacity) (hdone : s.unfinished = [])
    (ht : s.tracer.step opts .close = some t) : Stepped s .close { s with tracer := t }
  | tracer (e : TracerEvent Span) (t : GoTracer Span capacity) (hown : e.own = true)
    (ht : s.tracer.step opts e = some t) : Stepped s (.tracer e) { s with tracer := t }
  | post (who : Flusher) (req : ReportRequest Span)
    (hflush : s.tracer.flush = some (who, .reporting req)) (hfree : s.inFlight = none) :
    Stepped s .post
      { s with
        satellite := { s.satellite with
          posts := s.satellite.posts ++ [⟨"/api/v2/reports", marshal req, .entered⟩] }
        postings := s.postings ++ [.report req .waiting]
        inFlight := some (s.satellite.posts.length, req) }
  | reply (i code : ℕ) (req : ReportRequest Span) (thread : PostThread σ)
    (t : GoTracer Span capacity) (hflight : s.inFlight = some (i, req))
    (hthread : s.satellite.posts[i]? = some thread) (hpc : thread.pc = .answered code)
    (ht : s.tracer.step opts (.report (toResponse code)) = some t) :
    Stepped s (.reply code)
      { s with
        tracer := t
        postings := s.postings.set i (.report req (fateOf code))
        inFlight := none }
  | refused (t : GoTracer Span capacity) (hfree : s.inFlight = none)
    (ht : s.tracer.step opts (.report .error) = some t) : Stepped s .giveUp { s with tracer := t }
  | giveUp (i : ℕ) (req : ReportRequest Span) (t : GoTracer Span capacity)
    (hflight : s.inFlight = some (i, req)) (ht : s.tracer.step opts (.report .error) = some t) :
    Stepped s .giveUp
      { s with
        tracer := t
        postings := s.postings.set i (.report req .givenUp)
        inFlight := none }
  | satellite (e : SatEvent σ) (sat : Satellite σ) (hforeign : e.foreign = true)
    (hsat : s.satellite.step parse mode e = some sat) :
    Stepped s (.satellite e) { s with satellite := sat, postings := s.postings ++ e.others }

variable {opts marshal parse mode closes} {s s' : GoBenchmark Span σ capacity} {e : GoEvent Span σ}

theorem stepped (h : s.step opts marshal parse mode closes e = some s') :
    Stepped opts marshal parse mode s e s' := by
  cases e with
  | finish span =>
    simp only [step] at h
    split at h
    · simp at h
    · next span' rest hrest =>
      split_ifs at h with heq
      obtain ⟨t, ht, rfl⟩ := Option.map_eq_some_iff.1 h
      exact .finish span rest t (heq ▸ hrest) ht
  | close =>
    simp only [step] at h
    split_ifs at h with hdone
    obtain ⟨t, ht, rfl⟩ := Option.map_eq_some_iff.1 h
    exact .close t hdone.1 ht
  | tracer e =>
    simp only [step] at h
    split_ifs at h with hown
    obtain ⟨t, ht, rfl⟩ := Option.map_eq_some_iff.1 h
    exact .tracer e t hown ht
  | post =>
    simp only [step] at h
    split at h
    · next who req hflush hfree =>
      obtain rfl := Option.some.inj h
      exact .post who req hflush hfree
    · simp at h
  | reply code =>
    simp only [step] at h
    split at h
    · simp at h
    · next i req hflight =>
      split_ifs at h with hcode
      obtain ⟨thread, hthread, hpc⟩ := Option.map_eq_some_iff.1 hcode
      obtain ⟨t, ht, rfl⟩ := Option.map_eq_some_iff.1 h
      exact .reply i code req thread t hflight hthread hpc ht
  | giveUp =>
    simp only [step] at h
    obtain ⟨t, ht, rfl⟩ := Option.map_eq_some_iff.1 h
    rcases hflight : s.inFlight with _ | ⟨i, req⟩
    · have hsame : { s with tracer := t, inFlight := none } = { s with tracer := t } := by
        rw [← hflight]
      simpa only [hsame] using Stepped.refused t hflight ht
    · exact .giveUp i req t hflight ht
  | satellite e =>
    simp only [step] at h
    split_ifs at h with hforeign
    obtain ⟨sat, hsat, rfl⟩ := Option.map_eq_some_iff.1 h
    exact .satellite e sat hforeign hsat

/-! ## The tracer's part -/

/-- What the tracer sees of a step. -/
def tracerEvent : GoEvent Span σ → Option (TracerEvent Span)
  | .finish span => some (.record span true)
  | .close => some .close
  | .tracer e => some e
  | .reply code => some (.report (toResponse code))
  | .giveUp => some (.report .error)
  | .post | .satellite _ => none

/-- The tracer's steps in a run. -/
def tracerTrace (es : List (GoEvent Span σ)) : List (TracerEvent Span) :=
  es.filterMap tracerEvent

omit [DecidableEq Span] [DecidableEq σ] in
theorem tracerTrace_snoc (es : List (GoEvent Span σ)) (e : GoEvent Span σ) :
    tracerTrace (es ++ [e]) = tracerTrace es ++ (tracerEvent e).toList := by
  rw [tracerTrace, List.filterMap_append]
  cases h : tracerEvent e <;> simp [h, tracerTrace]

theorem tracer_run {script : List Span} {now base : ℕ} {es : List (GoEvent Span σ)}
    (h : run (step opts marshal parse mode closes)
      (start script now base : GoBenchmark Span σ capacity) es = some s) :
    run (GoTracer.step opts) (.createTracer now) (tracerTrace es) = some s.tracer := by
  refine run_project (fun m : GoBenchmark Span σ capacity => m.tracer) tracerEvent ?_ h
  intro m e m' he
  cases stepped he with
  | finish span rest t hrest ht => exact ht
  | close t hdone ht => exact ht
  | tracer e t hown ht => exact ht
  | post | satellite => rfl
  | reply i code req thread t hflight hthread hpc ht => exact ht
  | refused t hfree ht => exact ht
  | giveUp i req t hflight ht => exact ht

/-- The client records its script, and closes its tracer when that is done. -/
structure Scripted (script : List Span) (es : List (TracerEvent Span))
    (s : GoBenchmark Span σ capacity) : Prop where
  spans : GoTracer.recorded es + (s.unfinished : Multiset Span) = script
  clean : GoTracer.Clean es
  closed : .close ∈ es → s.unfinished = []
  quiet : GoTracer.Quiet es

section Scripted

variable {script : List Span} {es : List (TracerEvent Span)}

omit [DecidableEq Span] [DecidableEq σ] in
/-- A step that records no span. -/
theorem Scripted.idle (h : Scripted script es s) {x : TracerEvent Span}
    (hrec : ∀ raw, x ≠ .record raw true) (hclean : GoTracer.Clean [x])
    (hclosed : x = .close → s.unfinished = []) (hsame : s'.unfinished = s.unfinished) :
    Scripted script (es ++ [x]) s' := by
  refine ⟨?_, ?_, fun hmem => ?_, List.pairwise_append.2 ⟨h.quiet, by simp, ?_⟩⟩
  · have hnone : GoTracer.recorded [x] = 0 := by
      cases x with
      | record raw sampled =>
        cases sampled with
        | true => exact absurd rfl (hrec raw)
        | false => rfl
      | _ => rfl
    rw [GoTracer.recorded_append, hnone, add_zero, hsame, h.spans]
  · exact ⟨by simpa using ⟨h.clean.1, by simpa using hclean.1⟩,
      fun n => by simpa using ⟨h.clean.2 n, by simpa using hclean.2 n⟩⟩
  · rw [hsame]
    rcases List.mem_append.1 hmem with hold | hnew
    · exact h.closed hold
    · exact hclosed (List.mem_singleton.1 hnew).symm
  · intro y _ x' hx' _ raw
    rw [List.mem_singleton.1 hx']
    exact hrec raw

theorem Scripted.step (h : Scripted script es s)
    (he : s.step opts marshal parse mode closes e = some s') :
    Scripted script (es ++ (tracerEvent e).toList) s' := by
  cases stepped he with
  | finish span rest t hrest ht =>
    have hopen : .close ∉ es := fun hmem => by simp [h.closed hmem] at hrest
    refine ⟨?_, ⟨?_, fun n => ?_⟩, fun hmem => ?_, List.pairwise_append.2 ⟨h.quiet, ?_, ?_⟩⟩
    · have hone : GoTracer.recorded [TracerEvent.record span true] = {span} := rfl
      rw [tracerEvent, Option.toList_some, GoTracer.recorded_append, hone, ← h.spans, hrest,
        ← Multiset.cons_coe, add_assoc, Multiset.singleton_add]
    · simpa [tracerEvent] using h.clean.1
    · simpa [tracerEvent] using h.clean.2 n
    · exact absurd (by simpa [tracerEvent] using hmem) hopen
    · simp [tracerEvent]
    · rintro x hx y - rfl
      exact absurd hx hopen
  | close t hdone ht =>
    exact h.idle (by simp) (by simp [GoTracer.Clean]) (fun _ => hdone) rfl
  | tracer e t hown ht =>
    cases e with
    | record | close | translateFailed | report | disable => simp [TracerEvent.own] at hown
    | _ => exact h.idle (by simp) (by simp [GoTracer.Clean]) (by simp) rfl
  | post | satellite =>
    rw [tracerEvent, Option.toList_none, List.append_nil]
    exact ⟨h.spans, h.clean, h.closed, h.quiet⟩
  | reply | refused | giveUp =>
    exact h.idle (by simp) (by simp [GoTracer.Clean]) (by simp) rfl

end Scripted

theorem scripted_run {script : List Span} {now base : ℕ} {es : List (GoEvent Span σ)}
    (h : run (step opts marshal parse mode closes)
      (start script now base : GoBenchmark Span σ capacity) es = some s) :
    Scripted script (tracerTrace es) s := by
  refine run_induction (P := fun es m => Scripted script (tracerTrace es) m) ?_ ?_ h
  · exact ⟨zero_add _, ⟨by simp [tracerTrace], by simp [tracerTrace]⟩, by simp [tracerTrace],
      List.Pairwise.nil⟩
  · intro es m e m' _ hm he
    rw [tracerTrace_snoc]
    exact hm.step he

/-! ## The satellite's part -/

/-- The spans of a request that the satellite has counted. -/
def counted (parse : List UInt8 → Option (List σ)) (t : PostThread σ) : ℕ :=
  if t.pc.code? = some 200 then ((parse t.binaryBody).getD []).length else 0

/-- The spans of a request that the tracer knows to be counted. -/
def known : Posting Span → ℕ
  | .report req .acked => req.spans.length
  | _ => 0

/-- The spans of a request that the satellite has counted and the tracer does not know of. -/
def unknown (parse : List UInt8 → Option (List σ)) (p : Posting Span) (t : PostThread σ) : ℕ :=
  match p with
  | .report _ .acked => 0
  | _ => counted parse t

/-- The spans that have been counted and are to be sent again, or have been. -/
def again (parse : List UInt8 → Option (List σ)) (s : GoBenchmark Span σ capacity) : ℕ :=
  (List.zipWith (unknown parse) s.postings s.satellite.posts).sum

/-- What the tracer knows of a request is so. -/
def Known (marshal : ReportRequest Span → List UInt8) (p : Posting Span) (t : PostThread σ) :
    Prop :=
  match p with
  | .other => t.path ≠ "/api/v2/reports"
  | .report req fate =>
    t.path = "/api/v2/reports" ∧ t.binaryBody = marshal req ∧
      match fate with
      | .acked => t.pc = .answered 200
      | .failed => ∃ code, t.pc = .answered code ∧ code ≠ 200
      | .waiting | .givenUp => True

/-- The requests as the tracer and as the satellite have them. -/
structure Posted (marshal : ReportRequest Span → List UInt8)
    (parse : List UInt8 → Option (List σ)) (mode : Mode) (base : ℕ)
    (s : GoBenchmark Span σ capacity) : Prop where
  valid : ∀ t ∈ s.satellite.posts, t.Valid parse mode
  known : List.Forall₂ (Known marshal) s.postings s.satellite.posts
  counted : s.satellite.spansReceived = base + (s.satellite.posts.map (counted parse)).sum
  acked : (s.tracer.acknowledged.map (·.spans.length)).sum =
    (s.postings.map GoBenchmark.known).sum
  inFlight : ∀ i req, s.inFlight = some (i, req) →
    s.postings[i]? = some (.report req .waiting) ∧
      ∃ who, s.tracer.flush = some (who, .reporting req)
  waiting : ∀ i req, s.postings[i]? = some (.report req .waiting) → s.inFlight ≠ none ∧
    ∀ j req', s.inFlight = some (j, req') → i = j

theorem counted_step {t : PostThread σ} {pc : PostPc σ} {p : PostStep σ}
    (hv : t.Valid parse mode) (h : t.pc.step parse mode t.path t.binaryBody p = some pc) :
    counted parse { t with pc := pc } = counted parse t + p.counted := by
  obtain ⟨path, binaryBody, pc₀⟩ := t
  rcases PostPc.step_cases h with ⟨rfl, rfl, ⟨spans, hp, hb, rfl⟩ | ⟨rfl, hne⟩⟩ |
    ⟨spans, rfl, rfl, ⟨hm, rfl⟩ | ⟨hm, rfl⟩⟩ | ⟨spans, rfl, rfl, rfl⟩ | ⟨code, rfl, rfl, rfl⟩ |
    ⟨code, rfl, rfl, rfl⟩
  · simp [counted, PostPc.code?, PostStep.counted]
  · simp [counted, PostPc.code?, PostStep.counted, hne]
  · simp [counted, PostPc.code?, PostStep.counted]
  · simp [counted, PostPc.code?, PostStep.counted]
  · have hparse : parse binaryBody = some spans := hv.2.1
    simp [counted, PostPc.code?, PostStep.counted, hparse]
  · simp [counted, PostPc.code?, PostStep.counted]
  · simp [counted, PostPc.code?, PostStep.counted]

omit [DecidableEq Span] in
/-- A thread that goes on has not answered. -/
theorem Known.step {p : Posting Span} {t : PostThread σ} {pc : PostPc σ} {x : PostStep σ}
    (h : Known marshal p t) (hpc : t.pc.step parse mode t.path t.binaryBody x = some pc) :
    Known marshal p { t with pc := pc } := by
  have hopen : ∀ code, t.pc ≠ .answered code := by
    intro code hc
    simp [hc, PostPc.step] at hpc
  cases p with
  | other => exact h
  | report req fate =>
    obtain ⟨hpath, hbody, hfate⟩ := h
    refine ⟨hpath, hbody, ?_⟩
    cases fate with
    | waiting | givenUp => trivial
    | acked => exact absurd hfate (hopen 200)
    | failed =>
      obtain ⟨code, hc, -⟩ := hfate
      exact absurd hc (hopen code)

section Posted

variable {base : ℕ}

omit [DecidableEq Span] [DecidableEq σ] in
/-- A step of the tracer in which no report ends. -/
theorem Posted.tracer (h : Posted marshal parse mode base s) {t : GoTracer Span capacity}
    (hacked : t.acknowledged = s.tracer.acknowledged)
    (hflush : s.inFlight ≠ none → ∀ who req, s.tracer.flush = some (who, .reporting req) →
      t.flush = s.tracer.flush)
    (hpostings : s'.postings = s.postings) (hsat : s'.satellite = s.satellite)
    (hflight : s'.inFlight = s.inFlight) (ht : s'.tracer = t) :
    Posted marshal parse mode base s' := by
  subst ht
  refine ⟨hsat ▸ h.valid, ?_, ?_, ?_, fun i req hi => ?_, fun i req hi => ?_⟩
  · rw [hpostings, hsat]
    exact h.known
  · rw [hsat]
    exact h.counted
  · rw [hacked, hpostings]
    exact h.acked
  · rw [hflight] at hi
    obtain ⟨hpost, who, hwho⟩ := h.inFlight i req hi
    rw [hpostings, hflush (by simp [hi]) who req hwho]
    exact ⟨hpost, who, hwho⟩
  · rw [hflight]
    exact h.waiting i req (hpostings ▸ hi)

omit [DecidableEq Span] [DecidableEq σ] in
/-- A report ends. -/
theorem Posted.settle (h : Posted marshal parse mode base s) {t : GoTracer Span capacity} {i : ℕ}
    {req : ReportRequest Span} {fate : Fate} (hflight : s.inFlight = some (i, req))
    (hfate : fate ≠ .waiting)
    (hknown : ∀ thread, s.satellite.posts[i]? = some thread →
      Known marshal (.report req .waiting) thread → Known marshal (.report req fate) thread)
    (hacked : t.acknowledged = s.tracer.acknowledged ++ if fate = .acked then [req] else []) :
    Posted marshal parse mode base
      { s with
        tracer := t
        postings := s.postings.set i (.report req fate)
        inFlight := none } := by
  obtain ⟨hpost, -⟩ := h.inFlight i req hflight
  have hi := (List.getElem?_eq_some_iff.1 hpost).1
  have hi' : i < s.satellite.posts.length := h.known.length_eq ▸ hi
  refine ⟨h.valid, ?_, h.counted, ?_, by simp, fun j req' hj => ?_⟩
  · have hsame := List.set_getElem_self hi'
    change List.Forall₂ (Known marshal) _ s.satellite.posts
    rw [← hsame]
    refine forall₂_set h.known ?_ i
    refine hknown _ (List.getElem?_eq_getElem hi') ?_
    have hget := h.known.get hi hi'
    rwa [List.get_eq_getElem, (List.getElem?_eq_some_iff.1 hpost).2] at hget
  · have hsum := sum_map_set GoBenchmark.known (b := .report req fate) hpost
    have hwas : GoBenchmark.known (.report req .waiting) = 0 := rfl
    have hnow : ((if fate = .acked then [req] else []).map (·.spans.length)).sum =
        GoBenchmark.known (.report req fate) := by
      cases fate <;> simp [GoBenchmark.known]
    change (t.acknowledged.map _).sum = ((s.postings.set i (.report req fate)).map _).sum
    rw [hacked, List.map_append, List.sum_append, h.acked, hnow]
    omega
  · change (s.postings.set i (.report req fate))[j]? = _ at hj
    rcases eq_or_ne i j with rfl | hne
    · rw [List.getElem?_set_self hi] at hj
      cases hj
      exact absurd rfl hfate
    · rw [List.getElem?_set_ne hne] at hj
      exact absurd ((h.waiting j req' hj).2 i req hflight).symm hne

omit [DecidableEq Span] [DecidableEq σ] in
/-- The tracer posts a report. -/
theorem Posted.post (h : Posted marshal parse mode base s) {who : Flusher}
    {req : ReportRequest Span} (hflush : s.tracer.flush = some (who, .reporting req))
    (hfree : s.inFlight = none) :
    Posted marshal parse mode base
      { s with
        satellite := { s.satellite with
          posts := s.satellite.posts ++ [⟨"/api/v2/reports", marshal req, .entered⟩] }
        postings := s.postings ++ [.report req .waiting]
        inFlight := some (s.satellite.posts.length, req) } := by
  have hlen := h.known.length_eq
  refine ⟨fun t ht => ?_, ?_, ?_, ?_, fun i req' hi => ?_, fun i req' hi => ?_⟩
  · rcases List.mem_append.1 ht with ht | ht
    · exact h.valid t ht
    · rw [List.mem_singleton.1 ht]
      trivial
  · exact List.rel_append h.known (.cons ⟨rfl, rfl, trivial⟩ .nil)
  · simpa [GoBenchmark.counted, PostPc.code?] using h.counted
  · simpa [GoBenchmark.known] using h.acked
  · obtain ⟨rfl, rfl⟩ := Prod.mk.inj (Option.some.inj hi)
    exact ⟨by simp [← hlen], who, hflush⟩
  · refine ⟨by simp, fun j req'' hj => ?_⟩
    obtain ⟨rfl, -⟩ := Prod.mk.inj (Option.some.inj hj)
    rcases Nat.lt_or_ge i s.postings.length with hlt | hge
    · rw [List.getElem?_append_left hlt] at hi
      exact absurd hfree (h.waiting i req' hi).1
    · have hle := (List.getElem?_eq_some_iff.1 hi).1
      simp only [List.length_append, List.length_singleton] at hle
      omega

omit [DecidableEq Span] in
/-- The satellite handles its requests. -/
theorem Posted.satellite (h : Posted marshal parse mode base s) {x : SatEvent σ}
    {sat : Satellite σ} (hforeign : x.foreign = true)
    (hsat : s.satellite.step parse mode x = some sat) :
    Posted marshal parse mode base
      { s with satellite := sat, postings := s.postings ++ x.others } := by
  rcases Satellite.step_cases hsat with ⟨path, body, rfl, rfl⟩ | ⟨i, t, p, pc, rfl, ht, hpc, rfl⟩ |
    ⟨path, rfl, rfl⟩ | ⟨j, t, g, t', rfl, ht, ht', rfl⟩
  · have hpath : path ≠ "/api/v2/reports" := by simpa [SatEvent.foreign] using hforeign
    have hother : ∀ (i : ℕ) (p : Posting Span), p ≠ .other →
        (s.postings ++ [.other])[i]? = some p → s.postings[i]? = some p := by
      intro i p hp hi
      rw [List.getElem?_append] at hi
      split_ifs at hi with hlt
      · exact hi
      · rcases hk : i - s.postings.length with _ | k
        · simp only [hk, List.getElem?_cons_zero] at hi
          exact absurd (Option.some.inj hi).symm hp
        · simp [hk] at hi
    refine ⟨fun t ht => ?_, ?_, ?_, ?_, fun i req hi => ?_, fun i req hi => ?_⟩
    · rcases List.mem_append.1 ht with ht | ht
      · exact h.valid t ht
      · rw [List.mem_singleton.1 ht]
        trivial
    · exact List.rel_append h.known (.cons hpath .nil)
    · simpa [GoBenchmark.counted, PostPc.code?] using h.counted
    · simpa [GoBenchmark.known, SatEvent.others] using h.acked
    · obtain ⟨hpost, hwho⟩ := h.inFlight i req hi
      refine ⟨?_, hwho⟩
      change (s.postings ++ _)[i]? = _
      rw [List.getElem?_append_left (List.getElem?_eq_some_iff.1 hpost).1, hpost]
    · exact h.waiting i req (hother i _ (by simp) hi)
  · have hv := h.valid t (List.mem_of_getElem? ht)
    have hi := (List.getElem?_eq_some_iff.1 ht).1
    have hi' : i < s.postings.length := h.known.length_eq ▸ hi
    have hnil : s.postings ++ (SatEvent.post i p).others = s.postings := List.append_nil _
    rw [hnil]
    refine ⟨fun t' ht' => ?_, ?_, ?_, h.acked, h.inFlight, h.waiting⟩
    · rcases List.mem_or_eq_of_mem_set ht' with ht' | rfl
      · exact h.valid t' ht'
      · exact hv.step hpc
    · have hsame := List.set_getElem_self hi'
      change List.Forall₂ (Known marshal) s.postings _
      rw [← hsame]
      refine forall₂_set h.known (Known.step ?_ hpc) i
      have hget := h.known.get hi' hi
      rwa [List.get_eq_getElem, List.get_eq_getElem, (List.getElem?_eq_some_iff.1 ht).2] at hget
    · have hsum := sum_map_set (GoBenchmark.counted parse) (b := { t with pc := pc }) ht
      have hcount := h.counted
      rw [counted_step hv hpc] at hsum
      simp only
      omega
  · exact ⟨h.valid, (List.append_nil s.postings).symm ▸ h.known, h.counted,
      (List.append_nil s.postings).symm ▸ h.acked,
      (List.append_nil s.postings).symm ▸ h.inFlight,
      (List.append_nil s.postings).symm ▸ h.waiting⟩
  · exact ⟨h.valid, (List.append_nil s.postings).symm ▸ h.known, h.counted,
      (List.append_nil s.postings).symm ▸ h.acked,
      (List.append_nil s.postings).symm ▸ h.inFlight,
      (List.append_nil s.postings).symm ▸ h.waiting⟩

theorem Posted.step (h : Posted marshal parse mode base s)
    (he : s.step opts marshal parse mode closes e = some s') :
    Posted marshal parse mode base s' := by
  cases stepped he with
  | finish span rest t hrest ht =>
    obtain ⟨hacked, hflush⟩ := GoTracer.step_keeps ht (by simp)
    exact h.tracer hacked (fun _ => hflush) rfl rfl rfl rfl
  | close t hdone ht =>
    obtain ⟨hacked, hflush⟩ := GoTracer.step_keeps ht (by simp)
    exact h.tracer hacked (fun _ => hflush) rfl rfl rfl rfl
  | tracer x t hown ht =>
    have hne : ∀ reply, x ≠ .report reply := by
      rintro reply rfl
      simp [TracerEvent.own] at hown
    obtain ⟨hacked, hflush⟩ := GoTracer.step_keeps ht hne
    exact h.tracer hacked (fun _ => hflush) rfl rfl rfl rfl
  | refused t hfree ht =>
    obtain ⟨who, req, -, hacked⟩ := GoTracer.step_report ht
    exact h.tracer (by simpa [Reply.flushError] using hacked) (absurd hfree) rfl rfl rfl rfl
  | post who req hflush hfree => exact h.post hflush hfree
  | reply i code req thread t hflight hthread hpc ht =>
    obtain ⟨-, who, hflush⟩ := h.inFlight i req hflight
    obtain ⟨who', req', hflush', hacked⟩ := GoTracer.step_report ht
    rw [hflush] at hflush'
    cases hflush'
    refine h.settle hflight ?_ (fun thread' hthread' hknown => ?_) ?_
    · unfold fateOf
      split_ifs <;> simp
    · obtain rfl : thread = thread' := Option.some.inj (hthread.symm.trans hthread')
      refine ⟨hknown.1, hknown.2.1, ?_⟩
      unfold fateOf
      split_ifs with hcode
      · exact hcode ▸ hpc
      · exact ⟨code, hpc, hcode⟩
    · rw [hacked]
      unfold toResponse fateOf
      split_ifs <;> simp_all [Reply.flushError]
  | giveUp i req t hflight ht =>
    obtain ⟨who, req', -, hacked⟩ := GoTracer.step_report ht
    refine h.settle hflight (by simp) (fun thread _ hknown => ?_) ?_
    · exact ⟨hknown.1, hknown.2.1, trivial⟩
    · simpa [Reply.flushError] using hacked
  | satellite x sat hforeign hsat => exact h.satellite hforeign hsat

theorem posted_run {script : List Span} {now : ℕ} {es : List (GoEvent Span σ)}
    (h : run (step opts marshal parse mode closes)
      (start script now base : GoBenchmark Span σ capacity) es = some s) :
    Posted marshal parse mode base s := by
  refine run_invariant (I := Posted marshal parse mode base) ?_ (fun _ _ _ hm he => hm.step he) h
  exact ⟨by simp [start], .nil, rfl, rfl, by simp [start], by simp [start]⟩

end Posted

/-- A report has no more spans than the buffer that it was made from. -/
theorem postings_fit {script : List Span} {now base : ℕ} {es : List (GoEvent Span σ)}
    (h : run (step opts marshal parse mode closes)
      (start script now base : GoBenchmark Span σ capacity) es = some s) :
    ∀ req fate, .report req fate ∈ s.postings → req.spans.length ≤ capacity := by
  refine run_induction (P := fun _ (m : GoBenchmark Span σ capacity) =>
    ∀ req fate, .report req fate ∈ m.postings → req.spans.length ≤ capacity) ?_ ?_ h
  · simp [start]
  intro es m e m' hm ih he
  have hset : ∀ {i : ℕ} {req : ReportRequest Span} {fate : Fate}, m.inFlight = some (i, req) →
      ∀ req' fate', .report req' fate' ∈ m.postings.set i (.report req fate) →
        req'.spans.length ≤ capacity := by
    intro i req fate hflight req' fate' hmem
    rcases List.mem_or_eq_of_mem_set hmem with hold | hnew
    · exact ih req' fate' hold
    · cases hnew
      exact ih req _ (List.mem_of_getElem? ((posted_run hm).inFlight i req hflight).1)
  cases stepped he with
  | finish | close | tracer | refused => exact ih
  | post who req hflush hfree =>
    intro req' fate hmem
    rcases List.mem_append.1 hmem with hold | hnew
    · exact ih req' fate hold
    · obtain ⟨hphase, -⟩ := GoTracer.books (tracer_run hm)
      cases List.mem_singleton.1 hnew
      rw [(hphase.request who req hflush).1]
      exact m.tracer.flushing.fits
  | reply i code req thread t hflight => exact hset hflight
  | giveUp i req t hflight => exact hset hflight
  | satellite x sat hforeign hsat =>
    intro req fate hmem
    rcases List.mem_append.1 hmem with hold | hnew
    · exact ih req fate hold
    · cases x <;> simp [SatEvent.others] at hnew

omit [DecidableEq Span] [DecidableEq σ] in
/-- What the satellite has counted, by what the tracer knows of it. -/
theorem sum_counted (hparse : ∀ req, req.spans.length ≤ capacity →
      ∃ spans, parse (marshal req) = some spans ∧ spans.length = req.spans.length)
    {ps : List (Posting Span)} {ts : List (PostThread σ)}
    (hfit : ∀ req fate, .report req fate ∈ ps → req.spans.length ≤ capacity)
    (h : List.Forall₂ (Known marshal) ps ts) :
    (ts.map (counted parse)).sum =
      (ps.map known).sum + (List.zipWith (unknown parse) ps ts).sum := by
  induction h with
  | nil => rfl
  | @cons p t ps ts hknown _ ih =>
    have ih := ih fun req fate hmem => hfit req fate (List.mem_cons_of_mem _ hmem)
    have hone : counted parse t = known p + unknown parse p t := by
      rcases p with ⟨req, _ | _ | _ | _⟩ | _
      case report.acked =>
        obtain ⟨-, hbody, hpc⟩ := hknown
        obtain ⟨spans, hspans, hlen⟩ := hparse req (hfit req .acked List.mem_cons_self)
        have hcode : t.pc.code? = some 200 := by
          rw [show t.pc = .answered 200 from hpc]
          rfl
        rw [counted, if_pos hcode, hbody, hspans]
        exact hlen
      all_goals exact (zero_add _).symm
    simp only [List.map_cons, List.sum_cons, List.zipWith_cons_cons, ih, hone]
    omega

section Run

variable {script : List Span} {now base : ℕ} {es : List (GoEvent Span σ)}

theorem received_eq (hparse : ∀ req, req.spans.length ≤ capacity →
      ∃ spans, parse (marshal req) = some spans ∧ spans.length = req.spans.length)
    (h : run (step opts marshal parse mode closes)
      (start script now base : GoBenchmark Span σ capacity) es = some s) :
    s.satellite.spansReceived = base + s.tracer.ackedSpans.card + s.again parse := by
  have hpost := posted_run h
  rw [hpost.counted, sum_counted hparse (postings_fit h) hpost.known, GoTracer.card_ackedSpans,
    hpost.acked, add_assoc]
  rfl

theorem script_length
    (h : run (step opts marshal parse mode closes)
      (start script now base : GoBenchmark Span σ capacity) es = some s) :
    (script.length : ℤ) =
      s.unfinished.length + s.tracer.ackedSpans.card + s.tracer.buffer.rawSpans.length +
        s.tracer.pending.card + s.tracer.toldDropped + s.tracer.buffer.dropped.total +
        s.tracer.pendingDropped := by
  have hscript := scripted_run h
  obtain ⟨-, lost, discarded, hb⟩ := GoTracer.books (tracer_run h)
  obtain ⟨-, hnone, hcount, -⟩ := hb.clean hscript.clean
  have hlen := congrArg Multiset.card hscript.spans
  rw [hb.spans, hnone] at hlen
  simp only [Multiset.card_add, Multiset.coe_card, Multiset.card_zero] at hlen
  omega

end Run

/-- The spans that `Close` has left in the buffer, and those whose loss it has not told. -/
def left (s : GoBenchmark Span σ capacity) : ℤ :=
  s.tracer.buffer.rawSpans.length + s.tracer.buffer.dropped.total

omit [DecidableEq σ] in
theorem counted_other {t : PostThread σ} (hv : t.Valid parse mode)
    (hpath : t.path ≠ "/api/v2/reports") : counted parse t = 0 := by
  refine if_neg fun hcode => ?_
  rcases hpc : t.pc <;> simp only [hpc, PostPc.code?, PostThread.Valid] at hcode hv
  all_goals simp_all [POST]

omit [DecidableEq Span] [DecidableEq σ] in
theorem unknown_eq_zero {p : Posting Span} {t : PostThread σ} (hv : t.Valid parse mode)
    (hp : Known marshal p t) (hopen : ∀ req, p ≠ .report req .waiting ∧ p ≠ .report req .givenUp) :
    unknown parse p t = 0 := by
  rcases p with ⟨req, _ | _ | _ | _⟩ | _
  case report.waiting => exact absurd rfl (hopen req).1
  case report.acked => rfl
  case report.failed =>
    obtain ⟨-, -, code, hpc, hcode⟩ := hp
    simp [unknown, counted, hpc, PostPc.code?, hcode]
  case report.givenUp => exact absurd rfl (hopen req).2
  case other => exact counted_other hv hp

omit [DecidableEq Span] [DecidableEq σ] in
/-- The satellite counts a report that the tracer does not know to be counted only when the
tracer has given it up, or waits for it. -/
theorem again_eq_zero {base : ℕ} (h : Posted marshal parse mode base s) (hfree : s.inFlight = none)
    (hkept : ∀ req, .report req .givenUp ∉ s.postings) : s.again parse = 0 := by
  unfold again
  rw [← List.map_uncurry_zip_eq_zipWith, List.sum_eq_zero_iff_forall_eq_nat]
  intro n hn
  obtain ⟨⟨p, t⟩, hmem, rfl⟩ := List.mem_map.1 hn
  obtain ⟨hp, ht⟩ := List.of_mem_zip hmem
  refine unknown_eq_zero (h.valid t ht) (List.forall₂_zip h.known hmem) fun req => ⟨?_, ?_⟩
  · rintro rfl
    obtain ⟨i, hi⟩ := List.getElem?_of_mem hp
    exact (h.waiting i req hi).1 hfree
  · rintro rfl
    exact hkept req hp

omit [DecidableEq Span] [DecidableEq σ] in
/-- A satellite that fails every report counts none. -/
theorem slowFail_counts {base : ℕ} (h : Posted marshal parse .slowFail base s) :
    s.satellite.spansReceived = base := by
  have hnone : (s.satellite.posts.map (counted parse)).sum = 0 := by
    rw [List.sum_eq_zero_iff_forall_eq_nat]
    intro n hn
    obtain ⟨t, ht, rfl⟩ := List.mem_map.1 hn
    have hv := h.valid t ht
    refine if_neg fun hcode => ?_
    have hanswer : (POST parse .slowFail t.path t.binaryBody 0).1 ≠ 200 := by
      unfold POST
      split_ifs
      · cases parse t.binaryBody <;> simp
      · simp
    rcases hpc : t.pc <;> simp only [hpc, PostPc.code?, PostThread.Valid] at hcode hv
    all_goals simp_all
  rw [h.counted, hnone, add_zero]

section Closed

variable {script : List Span} {now base : ℕ} {es : List (GoEvent Span σ)}

/-- No report is out when `Close` has returned. -/
theorem inFlight_closed
    (h : run (step opts marshal parse mode closes)
      (start script now base : GoBenchmark Span σ capacity) es = some s)
    (hclosed : s.tracer.closing = .closed) : s.inFlight = none := by
  obtain ⟨hphase, -⟩ := GoTracer.books (tracer_run h)
  have hfree := ((GoTracer.control_run (tracer_run h)).settled hphase hclosed).1
  rcases hflight : s.inFlight with _ | ⟨i, req⟩
  · rfl
  · obtain ⟨-, who, hflush⟩ := (posted_run h).inFlight i req hflight
    simp [hfree] at hflush

theorem droppedSpans_closed (hparse : ∀ req, req.spans.length ≤ capacity →
      ∃ spans, parse (marshal req) = some spans ∧ spans.length = req.spans.length)
    (h : run (step opts marshal parse mode closes)
      (start script now base : GoBenchmark Span σ capacity) es = some s)
    (hclosed : s.tracer.closing = .closed) :
    (Result.mk script.length (s.satellite.spansReceived - base)).droppedSpans =
      s.tracer.toldDropped + s.left - s.again parse := by
  have htracer := tracer_run h
  have hreceived := received_eq hparse h
  have hspans := script_length h
  obtain ⟨hphase, -⟩ := GoTracer.books htracer
  obtain ⟨-, hpending, hpendingDropped⟩ := (GoTracer.control_run htracer).settled hphase hclosed
  -- the client has finished its script
  have hdone : s.unfinished = [] := by
    refine (scripted_run h).closed (GoTracer.close_mem htracer ?_)
    simp [hclosed]
  rw [hdone, hpending, hpendingDropped] at hspans
  simp only [Result.droppedSpans, left, List.length_nil, Multiset.card_zero] at hspans ⊢
  omega

/-- What is told and what is left are losses of the tracer, and no more is told than is
lost. -/
theorem told_add_left (h : run (step opts marshal parse mode closes)
      (start script now base : GoBenchmark Span σ capacity) es = some s)
    (hclosed : s.tracer.closing = .closed) : 0 ≤ s.tracer.toldDropped + s.left := by
  have htracer := tracer_run h
  obtain ⟨hphase, lost, discarded, hb⟩ := GoTracer.books htracer
  obtain ⟨-, -, hpendingDropped⟩ := (GoTracer.control_run htracer).settled hphase hclosed
  obtain ⟨-, -, hlost, -⟩ := hb.clean (scripted_run h).clean
  rw [left]
  omega

end Closed

/-- The Go client finishes as many spans as it is asked for. -/
theorem length_finished {args : Args} (hr : 0 ≤ args.repeats) {r : Performed}
    (hperf : Returns (GoClient.performWork args) r) :
    (finished r.progress.client.events).length = args.repeats.toNat := by
  have hgo : ∀ serverSpan dbSpan : ℕ, serverSpan ∈ [dbSpan, serverSpan] := by simp
  obtain ⟨r', hret, -, ⟨es, hes, hlen, hnested⟩, -⟩ :=
    performWork_generated hgo (args.trace ≠ 0 ∧ args.noFlush ≠ 1) hr
  obtain rfl : r' = r := Returns.unique hret hperf
  have hes' : r'.progress.client.events = es := hes
  rw [hes', hnested.once.length_eq]
  omega

end GoBenchmark

variable {Span σ : Type*} [DecidableEq Span] [DecidableEq σ] {capacity : ℕ}

open GoBenchmark in
/-- In every run each span of the client's script is unfinished, counted by the satellite,
buffered, waiting for its report's answer, or lost, where the satellite has counted some of
them again. -/
theorem go_benchmark_accounts (opts : TracerOptions) (marshal : ReportRequest Span → List UInt8)
    (parse : List UInt8 → Option (List σ)) (mode : Mode) (closes : Bool)
    (hparse : ∀ req, req.spans.length ≤ capacity →
      ∃ spans, parse (marshal req) = some spans ∧ spans.length = req.spans.length)
    (script : List Span) (now base : ℕ) {es : List (GoEvent Span σ)}
    {s : GoBenchmark Span σ capacity}
    (h : run (GoBenchmark.step opts marshal parse mode closes) (start script now base) es =
      some s) :
    (script.length + s.again parse : ℤ) =
      s.unfinished.length + (s.satellite.spansReceived - base) + s.tracer.buffer.rawSpans.length +
        s.tracer.pending.card + s.tracer.toldDropped + s.tracer.buffer.dropped.total +
        s.tracer.pendingDropped := by
  have hreceived := received_eq hparse h
  have hspans := script_length h
  omega

open GoBenchmark in
/-- What `dropped_spans` is once the Go client has closed its tracer : what the tracer has told
the satellite to be lost, what the last report has left when it was not acknowledged, and less
what the satellite has counted again of reports that were given up. -/
theorem go_dropped_spans (args : Args) (hr : 0 ≤ args.repeats) {r : Performed}
    (hperf : Returns (GoClient.performWork args) r) (opts : TracerOptions)
    (marshal : ReportRequest ℕ → List UInt8) (parse : List UInt8 → Option (List σ)) (mode : Mode)
    (hparse : ∀ req, req.spans.length ≤ capacity →
      ∃ spans, parse (marshal req) = some spans ∧ spans.length = req.spans.length)
    (now base : ℕ) {es : List (GoEvent ℕ σ)} {s : GoBenchmark ℕ σ capacity}
    (h : run (GoBenchmark.step opts marshal parse mode r.flushed)
      (start (finished r.progress.client.events) now base) es = some s)
    (hclosed : s.tracer.closing = .closed) :
    ∃ req reply, s.tracer.sent.getLast? = some (req, reply) ∧
      (Result.mk args.repeats.toNat (s.satellite.spansReceived - base)).droppedSpans =
        s.tracer.toldDropped + s.left - s.again parse ∧
      (reply.flushError = none → s.left = 0) ∧
      ((∀ req, .report req .givenUp ∉ s.postings) → s.again parse = 0 ∧
        0 ≤ (Result.mk args.repeats.toNat (s.satellite.spansReceived - base)).droppedSpans) ∧
      (mode = .slowFail → s.satellite.spansReceived = base) := by
  have hpost := posted_run h
  have hscript := scripted_run h
  obtain ⟨last, hlast, hempty⟩ :=
    (GoTracer.drained_run (tracer_run h) hscript.clean hscript.quiet).flushed (Or.inr hclosed)
  have hdropped := droppedSpans_closed hparse h hclosed
  rw [length_finished hr hperf] at hdropped
  refine ⟨last.1, last.2, hlast, hdropped, fun hack => ?_, fun hkept => ?_, ?_⟩
  · obtain ⟨hnone, hlost⟩ := hempty hack
    simp [left, hnone, hlost]
  · have hagain := again_eq_zero hpost (inFlight_closed h hclosed) hkept
    have hloss := told_add_left h hclosed
    exact ⟨hagain, by omega⟩
  · rintro rfl
    exact slowFail_counts hpost

/-! ## A report that is counted twice -/

/-- A report whose spans are empty on the wire. -/
def marshalEmpty (req : ReportRequest ℕ) : List UInt8 :=
  req.spans.flatMap fun _ => [26, 0]

theorem parseFields_marshal : ∀ (spans : List ℕ) (fuel : ℕ), spans.length ≤ fuel →
    parseFields fuel (spans.flatMap fun _ => [26, 0]) = some (spans.map fun _ => [])
  | [], _, _ => by simp [parseFields]
  | _ :: spans, fuel + 1, hle => by
    have ih := parseFields_marshal spans fuel (Nat.le_of_succ_le_succ hle)
    simp [parseFields, ih]

theorem parseSpans_marshal (req : ReportRequest ℕ) :
    ∃ spans, parseSpans (marshalEmpty req) = some spans ∧ spans.length = req.spans.length := by
  refine ⟨_, parseFields_marshal req.spans _ ?_, List.length_map _⟩
  simp [marshalEmpty]
  omega

/-- Two spans. -/
def goArgs : Args := ⟨1, 0, 1, 0, 2, 0⟩

/-- The report of the two spans is given up after the satellite has counted it, and `Close`
sends them again. -/
def sampleGoRun : List (GoEvent ℕ (List UInt8)) :=
  [.finish 1, .finish 0, .tracer (.tick 9000000000), .tracer (.flush .loop 9000000000),
    .tracer (.translate 0), .post, .satellite (.post 0 .parse), .satellite (.post 0 .wake),
    .satellite (.post 0 (.add [[], []])), .giveUp, .tracer .postFlush,
    .satellite (.post 0 .hangUp), .close, .tracer .loopClosed, .tracer .loopSeen,
    .tracer (.flush .close 9100000000), .tracer (.translate 0), .post,
    .satellite (.post 1 .parse), .satellite (.post 1 .wake),
    .satellite (.post 1 (.add [[], []])), .satellite (.post 1 (.respond 200)), .reply 200,
    .tracer .postFlush, .tracer .disconnect]

theorem goArgs_performed : ∃ r, Returns (GoClient.performWork goArgs) r ∧
    finished r.progress.client.events = [1, 0] ∧ r.flushed = true := by
  have h : (GoClient.performWork goArgs 2).map
      (fun r => (finished r.progress.client.events, r.flushed)) = some ([1, 0], true) := by
    decide +kernel
  obtain ⟨r, hr, hres⟩ := Option.map_eq_some_iff.1 h
  obtain ⟨hfinished, hflushed⟩ := Prod.mk.inj hres
  refine ⟨r, loop_returns (fun _ _ _ hle => batch_mono fun _ _ _ h => ?_) hr, hfinished, hflushed⟩
  exact generateSpansWith_map_mono hle h

/-- `dropped_spans` is negative, and nothing is lost. -/
theorem go_dropped_spans_sample : ∃ s : GoBenchmark ℕ (List UInt8) 4,
    run (GoBenchmark.step goOptions marshalEmpty parseSpans .slowSucceed true)
      (.start [1, 0] 1 5) sampleGoRun = some s ∧
    (Result.mk 2 (s.satellite.spansReceived - 5)).droppedSpans = -2 := by
  obtain ⟨s, hrun, hclosed, hlast, htold, hagain⟩ : ∃ s : GoBenchmark ℕ (List UInt8) 4,
      run (GoBenchmark.step goOptions marshalEmpty parseSpans .slowSucceed true)
        (.start [1, 0] 1 5) sampleGoRun = some s ∧ s.tracer.closing = .closed ∧
      s.tracer.sent.getLast?.map (·.2) = some (.response false false) ∧
      s.tracer.toldDropped = 0 ∧ s.again parseSpans = 2 := by
    exact ⟨_, rfl, rfl, rfl, rfl, rfl⟩
  obtain ⟨r, hperf, hfinished, hflushed⟩ := goArgs_performed
  have hrun' := hrun
  rw [← hfinished, ← hflushed] at hrun'
  obtain ⟨req, reply, hlast', hdropped, hleft, -, -⟩ := go_dropped_spans goArgs (by decide) hperf
    goOptions marshalEmpty parseSpans .slowSucceed (fun req _ => parseSpans_marshal req) 1 5 hrun'
    hclosed
  rw [hlast'] at hlast
  obtain rfl : reply = .response false false := Option.some.inj hlast
  rw [hleft rfl, htold, hagain] at hdropped
  exact ⟨s, hrun, hdropped⟩

theorem go_benchmark_accounts_sample : ∃ s : GoBenchmark ℕ (List UInt8) 4,
    run (GoBenchmark.step goOptions marshalEmpty parseSpans .slowSucceed true)
      (.start [1, 0] 1 5) sampleGoRun = some s ∧
    (2 + s.again parseSpans : ℤ) =
      s.unfinished.length + (s.satellite.spansReceived - 5) + s.tracer.buffer.rawSpans.length +
        s.tracer.pending.card + s.tracer.toldDropped + s.tracer.buffer.dropped.total +
        s.tracer.pendingDropped := by
  obtain ⟨s, hrun⟩ : ∃ s : GoBenchmark ℕ (List UInt8) 4,
      run (GoBenchmark.step goOptions marshalEmpty parseSpans .slowSucceed true)
        (.start [1, 0] 1 5) sampleGoRun = some s := ⟨_, rfl⟩
  exact ⟨s, hrun, go_benchmark_accounts goOptions marshalEmpty parseSpans .slowSucceed true
    (fun req _ => parseSpans_marshal req) [1, 0] 1 5 hrun⟩

end TracerBench
