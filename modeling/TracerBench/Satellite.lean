import TracerBench.Run
import TracerBench.Python
import Mathlib.Data.List.Count
import Mathlib.Algebra.Order.BigOperators.Group.List

/-!
# A mock satellite and its handler threads

`benchmark/mock_satellite.py`. The server runs each request in a thread of its own. A
report goes through `POST` in steps : parse the body, sleep as the mode says, add its
spans to `spans_received` under the lock, answer. A `GET` reads the counter, then sends
what it read. Any thread may take the next step, and a request may come in at any time.

`parse` is protobuf's `ParseFromString`, reduced to the spans of the report; `none` is a
`DecodeError`. `POST` is the handler as the source has it, run to its end by itself, and
`PostPc.step` the same code cut at the points where another thread may come between.

`spansReceived_accounts` ties the counter to the history : it is the sum of the spans of
the reports whose add step has run, each of which ran once. A report answered 200 has
been added, one answered 400 or 500 never is, and a `GET` returns a value between what
was acknowledged when it came in and what was counted when it was answered.
-/

namespace TracerBench

/-- `MODE`. -/
inductive Mode where
  | typical
  | slowSucceed
  | slowFail
  deriving DecidableEq

/-- A status code and a body. -/
structure Response where
  code : ℕ
  body : List UInt8
  deriving DecidableEq

/-- `SatelliteRequestHandler.GET`, with the `spans_received` it finds. -/
def GET (path : String) (spansReceived : ℕ) : Response :=
  if path = "/spans_received" then ⟨200, str spansReceived⟩ else ⟨400, []⟩

/-- `SatelliteRequestHandler.POST` : the code it answers and the `spans_received` it
leaves. -/
def POST {Span : Type*} (parse : List UInt8 → Option (List Span)) (mode : Mode) (path : String)
    (binaryBody : List UInt8) (spansReceived : ℕ) : ℕ × ℕ :=
  if path = "/api/v2/reports" then
    match parse binaryBody with
    | none => (500, spansReceived)
    | some spans =>
      match mode with
      | .slowFail => (400, spansReceived)
      | .typical | .slowSucceed => (200, spansReceived + spans.length)
  else (400, spansReceived)

/-! ## Threads -/

/-- Where a thread is in `POST`. -/
inductive PostPc (Span : Type*) where
  | entered
  | sleeping (spans : List Span)
  /-- Past the sleep, at the lock. -/
  | adding (spans : List Span)
  | responding (code : ℕ)
  | answered (code : ℕ)
  /-- The client had gone when the answer was written. -/
  | hungUp (code : ℕ)
  deriving DecidableEq

/-- The steps of a thread in `POST`. -/
inductive PostStep (Span : Type*) where
  | parse
  | wake
  | add (spans : List Span)
  | respond (code : ℕ)
  | hangUp
  deriving DecidableEq

/-- The spans a step adds to the counter. -/
def PostStep.counted {Span : Type*} : PostStep Span → ℕ
  | .add spans => spans.length
  | _ => 0

/-- A report request in its handler thread. -/
structure PostThread (Span : Type*) where
  path : String
  binaryBody : List UInt8
  pc : PostPc Span
  deriving DecidableEq

/-- A `GET` in its handler thread. -/
inductive GetThread where
  | entered (path : String)
  | responding (res : Response)
  | answered (res : Response)
  deriving DecidableEq

inductive GetStep where
  | read
  | respond (res : Response)
  deriving DecidableEq

/-- The satellite process : the counter, and every request so far in order of arrival. -/
structure Satellite (Span : Type*) where
  spansReceived : ℕ
  posts : List (PostThread Span)
  gets : List GetThread

def Satellite.init {Span : Type*} : Satellite Span :=
  ⟨0, [], []⟩

inductive SatEvent (Span : Type*) where
  | accept (path : String) (binaryBody : List UInt8)
  | post (i : ℕ) (e : PostStep Span)
  | acceptGet (path : String)
  | get (j : ℕ) (e : GetStep)
  deriving DecidableEq

variable {Span : Type*} [DecidableEq Span] (parse : List UInt8 → Option (List Span)) (mode : Mode)

/-- One step of a thread in `POST`. -/
def PostPc.step (path : String) (binaryBody : List UInt8) :
    PostPc Span → PostStep Span → Option (PostPc Span)
  | .entered, .parse =>
    if path = "/api/v2/reports" then
      match parse binaryBody with
      | none => some (.responding 500)
      | some spans => some (.sleeping spans)
    else some (.responding 400)
  | .sleeping spans, .wake =>
    match mode with
    | .slowFail => some (.responding 400)
    | .typical | .slowSucceed => some (.adding spans)
  | .adding spans, .add spans' => if spans = spans' then some (.responding 200) else none
  | .responding code, .respond code' => if code = code' then some (.answered code) else none
  | .responding code, .hangUp => some (.hungUp code)
  | _, _ => none

/-- One step of a thread in `GET`. -/
def GetThread.step (spansReceived : ℕ) : GetThread → GetStep → Option GetThread
  | .entered path, .read => some (.responding (GET path spansReceived))
  | .responding res, .respond res' => if res = res' then some (.answered res) else none
  | _, _ => none

/-- One step of the satellite. Only the step that adds a report changes the counter. -/
def Satellite.step (s : Satellite Span) : SatEvent Span → Option (Satellite Span)
  | .accept path binaryBody => some { s with posts := s.posts ++ [⟨path, binaryBody, .entered⟩] }
  | .post i e =>
    match s.posts[i]? with
    | none => none
    | some t =>
      (t.pc.step parse mode t.path t.binaryBody e).map fun pc =>
        { s with
          spansReceived := s.spansReceived + e.counted
          posts := s.posts.set i { t with pc := pc } }
  | .acceptGet path => some { s with gets := s.gets ++ [.entered path] }
  | .get j e =>
    match s.gets[j]? with
    | none => none
    | some t => (t.step s.spansReceived e).map fun t' => { s with gets := s.gets.set j t' }

/-! ## Histories -/

namespace Satellite

/-- The report requests so far, in order of arrival. -/
def requests (es : List (SatEvent Span)) : List (String × List UInt8) :=
  es.filterMap fun
    | .accept path binaryBody => some (path, binaryBody)
    | _ => none

omit [DecidableEq Span] in
theorem requests_append (es es' : List (SatEvent Span)) :
    requests (es ++ es') = requests es ++ requests es' :=
  List.filterMap_append

/-- The spans of the `i`-th report request. -/
def spansOf (es : List (SatEvent Span)) (i : ℕ) : List Span :=
  (((requests es)[i]?).bind fun r => parse r.2).getD []

/-- The add steps so far, each with its request and the spans it added. -/
def adds (es : List (SatEvent Span)) : List (ℕ × List Span) :=
  es.filterMap fun
    | .post i (.add spans) => some (i, spans)
    | _ => none

omit [DecidableEq Span] in
theorem adds_append (es es' : List (SatEvent Span)) : adds (es ++ es') = adds es ++ adds es' :=
  List.filterMap_append

/-- The requests whose add step has run. -/
def added (es : List (SatEvent Span)) : List ℕ :=
  (adds es).map Prod.fst

/-- The requests answered 200. -/
def acked (es : List (SatEvent Span)) : List ℕ :=
  es.filterMap fun
    | .post i (.respond 200) => some i
    | _ => none

/-- The `GET` requests so far. -/
def getRequests (es : List (SatEvent Span)) : List String :=
  es.filterMap fun
    | .acceptGet path => some path
    | _ => none

/-- The spans counted so far. -/
def countedSpans (es : List (SatEvent Span)) : ℕ :=
  ((added es).map fun i => (spansOf parse es i).length).sum

/-- The spans of the reports acknowledged so far. -/
def ackedSpans (es : List (SatEvent Span)) : ℕ :=
  ((acked es).map fun i => (spansOf parse es i).length).sum

end Satellite

/-! ## What a step can do -/

variable {parse mode}

theorem PostPc.step_cases {path : String} {binaryBody : List UInt8} {pc pc' : PostPc Span}
    {e : PostStep Span} (h : pc.step parse mode path binaryBody e = some pc') :
    (pc = .entered ∧ e = .parse ∧
      ((∃ spans, path = "/api/v2/reports" ∧ parse binaryBody = some spans ∧
          pc' = .sleeping spans) ∨
        pc' = .responding (POST parse mode path binaryBody 0).1 ∧
          (POST parse mode path binaryBody 0).1 ≠ 200)) ∨
    (∃ spans, pc = .sleeping spans ∧ e = .wake ∧
      (mode = .slowFail ∧ pc' = .responding 400 ∨ mode ≠ .slowFail ∧ pc' = .adding spans)) ∨
    (∃ spans, pc = .adding spans ∧ e = .add spans ∧ pc' = .responding 200) ∨
    (∃ code, pc = .responding code ∧ e = .respond code ∧ pc' = .answered code) ∨
    ∃ code, pc = .responding code ∧ e = .hangUp ∧ pc' = .hungUp code := by
  cases pc <;> cases e <;> simp only [PostPc.step, reduceCtorEq] at h
  case entered.parse =>
    refine Or.inl ⟨rfl, rfl, ?_⟩
    split_ifs at h with hp
    · cases hb : parse binaryBody with
      | none =>
        rw [hb] at h
        exact Or.inr (by simpa [POST, hp, hb] using h.symm)
      | some spans =>
        rw [hb] at h
        exact Or.inl ⟨spans, hp, rfl, (Option.some.inj h).symm⟩
    · exact Or.inr (by simpa [POST, hp] using h.symm)
  case sleeping.wake spans =>
    refine Or.inr (Or.inl ⟨spans, rfl, rfl, ?_⟩)
    cases mode <;> simp_all
  case adding.add spans spans' =>
    split_ifs at h with hs
    exact Or.inr (Or.inr (Or.inl ⟨spans, rfl, by rw [hs], (Option.some.inj h).symm⟩))
  case responding.respond code code' =>
    split_ifs at h with hc
    exact Or.inr (Or.inr (Or.inr (Or.inl ⟨code, rfl, by rw [hc], (Option.some.inj h).symm⟩)))
  case responding.hangUp code =>
    exact Or.inr (Or.inr (Or.inr (Or.inr ⟨code, rfl, rfl, (Option.some.inj h).symm⟩)))

theorem Satellite.step_cases {s s' : Satellite Span} {e : SatEvent Span}
    (h : s.step parse mode e = some s') :
    (∃ path binaryBody, e = .accept path binaryBody ∧
      s' = { s with posts := s.posts ++ [⟨path, binaryBody, .entered⟩] }) ∨
    (∃ i t p pc, e = .post i p ∧ s.posts[i]? = some t ∧
      t.pc.step parse mode t.path t.binaryBody p = some pc ∧
      s' = ⟨s.spansReceived + p.counted, s.posts.set i { t with pc := pc }, s.gets⟩) ∨
    (∃ path, e = .acceptGet path ∧ s' = { s with gets := s.gets ++ [.entered path] }) ∨
    ∃ j t g t', e = .get j g ∧ s.gets[j]? = some t ∧ t.step s.spansReceived g = some t' ∧
      s' = { s with gets := s.gets.set j t' } := by
  cases e with
  | accept path binaryBody => exact Or.inl ⟨path, binaryBody, rfl, (Option.some.inj h).symm⟩
  | post i p =>
    simp only [Satellite.step] at h
    split at h
    · simp at h
    · next t ht =>
      obtain ⟨pc, hpc, rfl⟩ := Option.map_eq_some_iff.1 h
      exact Or.inr (Or.inl ⟨i, t, p, pc, rfl, ht, hpc, rfl⟩)
  | acceptGet path => exact Or.inr (Or.inr (Or.inl ⟨path, rfl, (Option.some.inj h).symm⟩))
  | get j g =>
    simp only [Satellite.step] at h
    split at h
    · simp at h
    · next t ht =>
      obtain ⟨t', ht', rfl⟩ := Option.map_eq_some_iff.1 h
      exact Or.inr (Or.inr (Or.inr ⟨j, t, g, t', rfl, ht, ht', rfl⟩))

/-- A step of a thread in `POST`, and nothing else, is taken under its label. -/
theorem Satellite.post_step {s s' : Satellite Span} {i : ℕ} {p : PostStep Span}
    (h : s.step parse mode (.post i p) = some s') :
    ∃ t pc, s.posts[i]? = some t ∧ t.pc.step parse mode t.path t.binaryBody p = some pc ∧
      s' = ⟨s.spansReceived + p.counted, s.posts.set i { t with pc := pc }, s.gets⟩ := by
  rcases step_cases h with ⟨_, _, he, -⟩ | ⟨k, t, p, pc, he, ht, hpc, hs⟩ | ⟨_, he, -⟩ |
    ⟨_, _, _, _, he, -⟩
  · simp at he
  · obtain ⟨rfl, rfl⟩ := SatEvent.post.inj he
    exact ⟨t, pc, ht, hpc, hs⟩
  · simp at he
  · simp at he

theorem PostPc.step_add {path : String} {binaryBody : List UInt8} {pc pc' : PostPc Span}
    {spans : List Span} (h : pc.step parse mode path binaryBody (.add spans) = some pc') :
    pc = .adding spans ∧ pc' = .responding 200 := by
  rcases step_cases h with ⟨-, he, -⟩ | ⟨_, -, he, -⟩ | ⟨_, hpc, he, hpc'⟩ | ⟨_, -, he, -⟩ |
    ⟨_, -, he, -⟩ <;> simp_all

theorem PostPc.step_respond {path : String} {binaryBody : List UInt8} {pc pc' : PostPc Span}
    {code : ℕ} (h : pc.step parse mode path binaryBody (.respond code) = some pc') :
    pc = .responding code ∧ pc' = .answered code := by
  rcases step_cases h with ⟨-, he, -⟩ | ⟨_, -, he, -⟩ | ⟨_, -, he, -⟩ | ⟨_, hpc, he, hpc'⟩ |
    ⟨_, -, he, -⟩ <;> simp_all

/-! ## Invariants -/

/-- Replacing an entry by one that looks the same. -/
theorem map_set_eq {α β : Type*} {l : List α} {i : ℕ} {x y : α} {f : α → β}
    (hx : l[i]? = some x) (hf : f y = f x) : (l.set i y).map f = l.map f := by
  ext j : 1
  rw [List.getElem?_map, List.getElem?_map]
  rcases eq_or_ne i j with rfl | hne
  · rw [List.getElem?_set_self (List.getElem?_eq_some_iff.1 hx).1, hx, Option.map_some,
      Option.map_some, hf]
  · rw [List.getElem?_set_ne hne]

/-- The code a thread answers or has tried to answer. -/
def PostPc.code? : PostPc Span → Option ℕ
  | .responding code | .answered code | .hungUp code => some code
  | _ => none

/-- A thread has come this far only if its request leads here. -/
def PostThread.Valid (parse : List UInt8 → Option (List Span)) (mode : Mode)
    (t : PostThread Span) : Prop :=
  match t.pc with
  | .entered => True
  | .sleeping spans => t.path = "/api/v2/reports" ∧ parse t.binaryBody = some spans
  | .adding spans =>
    t.path = "/api/v2/reports" ∧ parse t.binaryBody = some spans ∧ mode ≠ .slowFail
  | .responding code | .answered code | .hungUp code =>
    code = (POST parse mode t.path t.binaryBody 0).1

theorem PostThread.Valid.step {t : PostThread Span} {pc : PostPc Span} {e : PostStep Span}
    (ht : t.Valid parse mode) (h : t.pc.step parse mode t.path t.binaryBody e = some pc) :
    ({ t with pc := pc } : PostThread Span).Valid parse mode := by
  obtain ⟨path, binaryBody, pc₀⟩ := t
  rcases PostPc.step_cases h with ⟨rfl, rfl, ⟨spans, hp, hb, rfl⟩ | ⟨rfl, -⟩⟩ |
    ⟨spans, rfl, rfl, ⟨hm, rfl⟩ | ⟨hm, rfl⟩⟩ | ⟨spans, rfl, rfl, rfl⟩ | ⟨code, rfl, rfl, rfl⟩ |
    ⟨code, rfl, rfl, rfl⟩
  · exact ⟨hp, hb⟩
  · rfl
  · obtain ⟨hp, hb⟩ := ht
    simp only at hp hb
    simp [PostThread.Valid, POST, hp, hb, hm]
  · exact ⟨ht.1, ht.2, hm⟩
  · obtain ⟨hp, hb, hm⟩ := ht
    simp only at hp hb
    cases mode <;> simp_all [PostThread.Valid, POST]
  · exact ht
  · exact ht

namespace Satellite

variable {s : Satellite Span} {es : List (SatEvent Span)}

/-- The requests of the history are those of the threads, and each thread is valid. -/
theorem posts_eq (h : run (Satellite.step parse mode) .init es = some s) :
    s.posts.map (fun t => (t.path, t.binaryBody)) = requests es ∧
      ∀ t ∈ s.posts, t.Valid parse mode := by
  refine run_induction (P := fun es (m : Satellite Span) =>
    m.posts.map (fun t => (t.path, t.binaryBody)) = requests es ∧
      ∀ t ∈ m.posts, t.Valid parse mode) ⟨rfl, by simp [Satellite.init]⟩ ?_ h
  rintro es m e m' - ⟨hreq, hval⟩ he
  rcases step_cases he with ⟨path, body, rfl, rfl⟩ | ⟨i, t, p, pc, rfl, ht, hpc, rfl⟩ |
    ⟨path, rfl, rfl⟩ | ⟨j, t, g, t', rfl, ht, ht', rfl⟩
  · refine ⟨by rw [requests_append, ← hreq]; simp [requests], fun t ht => ?_⟩
    rcases List.mem_append.1 ht with ht | ht
    · exact hval t ht
    · rw [List.mem_singleton.1 ht]
      trivial
  · refine ⟨?_, fun x hx => ?_⟩
    · refine (map_set_eq ht ?_).trans ?_
      · rfl
      · rw [hreq, requests_append]
        simp [requests]
    · rcases List.mem_or_eq_of_mem_set hx with hx | rfl
      · exact hval x hx
      · exact (hval t (List.mem_of_getElem? ht)).step hpc
  · exact ⟨by rw [requests_append, ← hreq]; simp [requests], hval⟩
  · exact ⟨by rw [requests_append, ← hreq]; simp [requests], hval⟩

/-- How often the steps of request `i` count under `v`. -/
def tally (v : PostStep Span → ℕ) (i : ℕ) (es : List (SatEvent Span)) : ℕ :=
  (es.map fun
    | .post k e => if k = i then v e else 0
    | _ => 0).sum

/-- If each step of a thread raises `w` by what the step counts under `v`, then `w` of a
thread is what its steps so far count. -/
theorem tally_eq (w : PostPc Span → ℕ) (v : PostStep Span → ℕ) (h0 : w .entered = 0)
    (hstep : ∀ path body pc e pc', PostPc.step parse mode path body pc e = some pc' →
      w pc' = w pc + v e)
    (h : run (Satellite.step parse mode) .init es = some s) (i : ℕ) :
    tally v i es = (s.posts[i]?).elim 0 fun t => w t.pc := by
  refine run_induction (P := fun es (m : Satellite Span) =>
    tally v i es = (m.posts[i]?).elim 0 fun t => w t.pc) (by simp [tally, Satellite.init]) ?_ h
  intro es m e m' _ ih he
  have happ : tally v i (es ++ [e]) = tally v i es + tally v i [e] := by simp [tally]
  rw [happ, ih]
  rcases step_cases he with ⟨path, body, rfl, rfl⟩ | ⟨k, t, p, pc, rfl, ht, hpc, rfl⟩ |
    ⟨path, rfl, rfl⟩ | ⟨j, t, g, t', rfl, ht, ht', rfl⟩
  · rcases lt_trichotomy i m.posts.length with hi | rfl | hi
    · simp [tally, List.getElem?_append_left hi]
    · simp [tally, h0]
    · rw [List.getElem?_eq_none (by omega), List.getElem?_eq_none (by simp; omega)]
      simp [tally]
  · rcases eq_or_ne k i with rfl | hne
    · simp [tally, ht, List.getElem?_set_self (List.getElem?_eq_some_iff.1 ht).1,
        hstep _ _ _ _ _ hpc]
    · simp [tally, hne, List.getElem?_set_ne hne]
  · simp [tally]
  · simp [tally]

/-- An add step, for `tally`. -/
def addCount : PostStep Span → ℕ
  | .add _ => 1
  | _ => 0

/-- An answer of 200, for `tally`. -/
def ackCount : PostStep Span → ℕ
  | .respond 200 => 1
  | _ => 0

omit [DecidableEq Span] in
theorem count_added_eq_tally (i : ℕ) : ∀ es : List (SatEvent Span),
    (added es).count i = tally addCount i es
  | [] => rfl
  | e :: es => by
    have ih := count_added_eq_tally i es
    have hcons : tally addCount i (e :: es) = tally addCount i [e] + tally addCount i es := by
      simp [tally]
    rw [hcons, ← ih]
    rcases e with _ | ⟨k, _ | _ | spans | code | _⟩ | _ | _ <;>
      simp [added, adds, tally, addCount, List.count_cons, add_comm]

omit [DecidableEq Span] in
theorem count_acked_eq_tally (i : ℕ) : ∀ es : List (SatEvent Span),
    (acked es).count i = tally ackCount i es
  | [] => rfl
  | e :: es => by
    have ih := count_acked_eq_tally i es
    have hcons : tally ackCount i (e :: es) = tally ackCount i [e] + tally ackCount i es := by
      simp [tally]
    rw [hcons, ← ih]
    rcases e with _ | ⟨k, _ | _ | spans | code | _⟩ | _ | _
    case post.respond =>
      by_cases hc : code = 200
      · subst hc
        simp [acked, tally, ackCount, List.count_cons, add_comm]
      · simp [acked, tally, ackCount, hc]
    all_goals simp [acked, tally, ackCount]

/-- A request has been added once if its thread is past the lock, and never if not. -/
theorem count_added (h : run (Satellite.step parse mode) .init es = some s) (i : ℕ) :
    (added es).count i = if ((s.posts[i]?).bind (·.pc.code?)) = some 200 then 1 else 0 := by
  have htally := tally_eq (fun pc => if pc.code? = some 200 then 1 else 0) addCount
    (by simp [PostPc.code?]) ?_ h i
  · rw [count_added_eq_tally, htally]
    cases s.posts[i]? <;> simp
  · intro path body pc e pc' hpc
    rcases PostPc.step_cases hpc with ⟨rfl, rfl, ⟨spans, hp, hb, rfl⟩ | ⟨rfl, hne⟩⟩ |
      ⟨spans, rfl, rfl, ⟨hm, rfl⟩ | ⟨hm, rfl⟩⟩ | ⟨spans, rfl, rfl, rfl⟩ | ⟨code, rfl, rfl, rfl⟩ |
      ⟨code, rfl, rfl, rfl⟩ <;> simp_all [PostPc.code?, addCount]

/-- No request is added twice. -/
theorem added_nodup (h : run (Satellite.step parse mode) .init es = some s) :
    (added es).Nodup := by
  refine List.nodup_iff_count.2 fun i => ?_
  rw [count_added h]
  split_ifs
  · exact le_rfl
  · exact Nat.zero_le _

/-- A request has been answered 200 once or never. -/
theorem count_acked (h : run (Satellite.step parse mode) .init es = some s) (i : ℕ) :
    (acked es).count i = if (s.posts[i]?).map (·.pc) = some (.answered 200) then 1 else 0 := by
  have htally := tally_eq (fun pc => if pc = .answered 200 then 1 else 0) ackCount (by simp) ?_ h i
  · rw [count_acked_eq_tally, htally]
    cases s.posts[i]? <;> simp
  · intro path body pc e pc' hpc
    rcases PostPc.step_cases hpc with ⟨rfl, rfl, ⟨spans, hp, hb, rfl⟩ | ⟨rfl, hne⟩⟩ |
      ⟨spans, rfl, rfl, ⟨hm, rfl⟩ | ⟨hm, rfl⟩⟩ | ⟨spans, rfl, rfl, rfl⟩ | ⟨code, rfl, rfl, rfl⟩ |
      ⟨code, rfl, rfl, rfl⟩
    case inr.inr.inr.inl =>
      by_cases hc : code = 200
      · simp [hc, ackCount]
      · simp [hc, ackCount]
    all_goals simp [ackCount]

/-- What was acknowledged is part of what was added. -/
theorem acked_subperm_added (h : run (Satellite.step parse mode) .init es = some s) :
    List.Subperm (acked es) (added es) := by
  refine List.subperm_ext_iff.2 fun i _ => ?_
  rw [count_acked h, count_added h]
  by_cases hans : (s.posts[i]?).map (·.pc) = some (.answered 200)
  · obtain ⟨t, ht, hpc⟩ := Option.map_eq_some_iff.1 hans
    rw [if_pos hans, if_pos (by simp [ht, hpc, PostPc.code?])]
  · rw [if_neg hans]
    exact Nat.zero_le _

theorem ackedSpans_le (h : run (Satellite.step parse mode) .init es = some s) :
    ackedSpans parse es ≤ countedSpans parse es := by
  obtain ⟨l, hperm, hsub⟩ := acked_subperm_added h
  unfold ackedSpans countedSpans
  rw [← (hperm.map _).sum_eq]
  exact (hsub.map _).sum_le_sum fun _ _ => Nat.zero_le _

/-- An answer given stays given. -/
theorem answered_of_mem (h : run (Satellite.step parse mode) .init es = some s) {i code : ℕ}
    (hmem : SatEvent.post i (.respond code) ∈ es) :
    (s.posts[i]?).map (·.pc) = some (.answered code) := by
  refine run_induction (P := fun es (m : Satellite Span) =>
    SatEvent.post i (.respond code) ∈ es → (m.posts[i]?).map (·.pc) = some (.answered code))
    (by simp) ?_ h hmem
  intro es m e m' _ ih he hmem
  have hmem' := (List.mem_append.1 hmem).imp_right List.mem_singleton.1
  rcases step_cases he with ⟨path, body, rfl, rfl⟩ | ⟨k, t, p, pc, rfl, ht, hpc, rfl⟩ |
    ⟨path, rfl, rfl⟩ | ⟨j, t, g, t', rfl, ht, ht', rfl⟩
  · obtain ⟨t, ht, hpc⟩ := Option.map_eq_some_iff.1 (ih (by simpa using hmem'))
    have hi := (List.getElem?_eq_some_iff.1 ht).1
    simp [List.getElem?_append_left hi, ht, hpc]
  · rcases eq_or_ne k i with rfl | hne
    · have hk := (List.getElem?_eq_some_iff.1 ht).1
      simp only [List.getElem?_set_self hk, Option.map_some]
      rcases hmem' with hold | hnew
      · -- an answered thread has no step left
        have hans := ih hold
        simp only [ht, Option.map_some, Option.some.injEq] at hans
        simp [hans, PostPc.step] at hpc
      · obtain rfl : p = .respond code := by simpa using hnew.symm
        rw [(PostPc.step_respond hpc).2]
    · simp only [List.getElem?_set_ne hne]
      exact ih (hmem'.resolve_right fun heq => hne (by simp_all))
  · exact ih (by simpa using hmem')
  · exact ih (by simpa using hmem')

/-- What an add step added are the spans of its request, which is a report in a mode that
accepts it. -/
theorem adds_valid (h : run (Satellite.step parse mode) .init es = some s)
    {p : ℕ × List Span} (hp : p ∈ adds es) :
    ∃ r, (requests es)[p.1]? = some r ∧ r.1 = "/api/v2/reports" ∧ parse r.2 = some p.2 ∧
      mode ≠ .slowFail := by
  refine run_induction (P := fun es _ => p ∈ adds es → ∃ r, (requests es)[p.1]? = some r ∧
    r.1 = "/api/v2/reports" ∧ parse r.2 = some p.2 ∧ mode ≠ .slowFail) (by simp [adds]) ?_ h hp
  intro es m e m' hm ih he hp
  rw [adds_append, List.mem_append] at hp
  rcases hp with hp | hp
  · obtain ⟨r, hr, hvalid⟩ := ih hp
    refine ⟨r, ?_, hvalid⟩
    rw [requests_append, List.getElem?_append_left (List.getElem?_eq_some_iff.1 hr).1, hr]
  · -- the add step is this one, and its thread was valid
    obtain ⟨i, spans, rfl, rfl⟩ : ∃ i spans, e = .post i (.add spans) ∧ p = (i, spans) := by
      rcases e with _ | ⟨i, _ | _ | spans | code | _⟩ | _ | _ <;> simp_all [adds]
    obtain ⟨hreq, hval⟩ := posts_eq hm
    obtain ⟨t, pc, ht, hpc, -⟩ := post_step he
    have hv := hval t (List.mem_of_getElem? ht)
    rw [PostThread.Valid, (PostPc.step_add hpc).1] at hv
    refine ⟨(t.path, t.binaryBody), ?_, hv⟩
    rw [requests_append, ← hreq]
    simp [requests, ht]

/-- The counter is the sum of what the add steps added. -/
theorem counter_eq_adds (h : run (Satellite.step parse mode) .init es = some s) :
    s.spansReceived = ((adds es).map fun p => p.2.length).sum := by
  refine run_induction (P := fun es (m : Satellite Span) =>
    m.spansReceived = ((adds es).map fun p => p.2.length).sum) rfl ?_ h
  intro es m e m' _ ih he
  rcases step_cases he with ⟨path, body, rfl, rfl⟩ | ⟨k, t, p, pc, rfl, ht, hpc, rfl⟩ |
    ⟨path, rfl, rfl⟩ | ⟨j, t, g, t', rfl, ht, ht', rfl⟩
  · simpa [adds] using ih
  · cases p <;> simpa [adds, PostStep.counted] using ih
  · simpa [adds] using ih
  · simpa [adds] using ih

/-- The threads answer what `POST` answers when it runs by itself. -/
theorem respond_eq_POST (h : run (Satellite.step parse mode) .init es = some s) {i code : ℕ}
    (hmem : SatEvent.post i (.respond code) ∈ es) :
    ∃ r, (requests es)[i]? = some r ∧ code = (POST parse mode r.1 r.2 0).1 := by
  obtain ⟨t, ht, hpc⟩ := Option.map_eq_some_iff.1 (answered_of_mem h hmem)
  obtain ⟨hreq, hval⟩ := posts_eq h
  refine ⟨(t.path, t.binaryBody), by rw [← hreq]; simp [ht], ?_⟩
  have hv := hval t (List.mem_of_getElem? ht)
  rwa [PostThread.Valid, hpc] at hv

theorem spansOf_eq (h : run (Satellite.step parse mode) .init es = some s)
    {p : ℕ × List Span} (hp : p ∈ adds es) : spansOf parse es p.1 = p.2 := by
  obtain ⟨r, hr, -, hparse, -⟩ := adds_valid h hp
  simp [spansOf, hr, hparse]

/-- The counter is the sum of the spans of the reports whose add step has run. -/
theorem counter_eq_countedSpans (h : run (Satellite.step parse mode) .init es = some s) :
    s.spansReceived = countedSpans parse es := by
  rw [counter_eq_adds h, countedSpans, added, List.map_map]
  refine congrArg List.sum (List.map_congr_left fun p hp => ?_)
  simp [spansOf_eq h hp]

/-- No step lowers the counter. -/
theorem counter_le {m m' : Satellite Span} {e : SatEvent Span}
    (he : m.step parse mode e = some m') : m.spansReceived ≤ m'.spansReceived := by
  rcases step_cases he with ⟨path, body, rfl, rfl⟩ | ⟨k, t, p, pc, rfl, ht, hpc, rfl⟩ |
    ⟨path, rfl, rfl⟩ | ⟨j, t, g, t', rfl, ht, ht', rfl⟩
  · exact le_rfl
  · exact Nat.le_add_right _ _
  · exact le_rfl
  · exact le_rfl

/-! ## `GET` -/

theorem length_gets (h : run (Satellite.step parse mode) .init es = some s) :
    s.gets.length = (getRequests es).length := by
  refine run_induction (P := fun es (m : Satellite Span) =>
    m.gets.length = (getRequests es).length) rfl ?_ h
  intro es m e m' _ ih he
  rcases step_cases he with ⟨path, body, rfl, rfl⟩ | ⟨k, t, p, pc, rfl, ht, hpc, rfl⟩ |
    ⟨path, rfl, rfl⟩ | ⟨j, t, g, t', rfl, ht, ht', rfl⟩
  all_goals simpa [getRequests] using ih

/-- A `GET` of `path` that has answered, or is about to, with a counter between `lo` and
`hi`. -/
def Reads (path : String) (lo hi : ℕ) : GetThread → Prop
  | .entered path' => path' = path
  | .responding res | .answered res => ∃ v, lo ≤ v ∧ v ≤ hi ∧ res = GET path v

theorem Reads.step {path : String} {lo hi : ℕ} {t t' : GetThread} {g : GetStep}
    (ht : Reads path lo hi t) (hle : lo ≤ hi) (h : t.step hi g = some t') :
    Reads path lo hi t' := by
  cases t <;> cases g <;> simp only [GetThread.step, reduceCtorEq] at h
  case entered.read path' =>
    obtain rfl : path' = path := ht
    rw [← Option.some.inj h]
    exact ⟨hi, hle, le_rfl, rfl⟩
  case responding.respond res res' =>
    split_ifs at h
    rw [← Option.some.inj h]
    exact ht

theorem Reads.mono {path : String} {lo hi hi' : ℕ} (hle : hi ≤ hi') :
    ∀ {t : GetThread}, Reads path lo hi t → Reads path lo hi' t
  | .entered _, ht => ht
  | .responding _, ⟨v, hlo, hhi, hres⟩ | .answered _, ⟨v, hlo, hhi, hres⟩ =>
    ⟨v, hlo, hhi.trans hle, hres⟩

/-- Once a `GET` has come in, no step lets it answer with less than the counter was then,
or with more than it is now. -/
theorem reads_step {path : String} {lo j : ℕ} {m m' : Satellite Span} {e : SatEvent Span}
    (hm : lo ≤ m.spansReceived ∧ ∃ t, m.gets[j]? = some t ∧ Reads path lo m.spansReceived t)
    (he : m.step parse mode e = some m') :
    lo ≤ m'.spansReceived ∧ ∃ t, m'.gets[j]? = some t ∧ Reads path lo m'.spansReceived t := by
  obtain ⟨hlo, t, ht, hreads⟩ := hm
  have hle := counter_le he
  refine ⟨hlo.trans hle, ?_⟩
  rcases step_cases he with ⟨_, _, rfl, rfl⟩ | ⟨k, _, p, pc, rfl, _, hpc, rfl⟩ |
    ⟨path', rfl, rfl⟩ | ⟨k, t₁, g, t', rfl, ht₁, ht', rfl⟩
  · exact ⟨t, ht, hreads⟩
  · exact ⟨t, ht, hreads.mono hle⟩
  · exact ⟨t, by rw [List.getElem?_append_left (List.getElem?_eq_some_iff.1 ht).1, ht], hreads⟩
  · rcases eq_or_ne k j with rfl | hne
    · obtain rfl : t₁ = t := Option.some.inj (ht₁.symm.trans ht)
      exact ⟨t', List.getElem?_set_self (List.getElem?_eq_some_iff.1 ht).1,
        hreads.step hlo ht'⟩
    · exact ⟨t, by rw [List.getElem?_set_ne hne, ht], hreads⟩

/-- A `GET` that came in after `a` and was answered after `b` answers with a value between
the counters at these two times. -/
theorem get_bounds {a b c : List (SatEvent Span)} {path : String} {res : Response}
    (h : run (Satellite.step parse mode) .init
      (a ++ .acceptGet path :: (b ++ .get (getRequests a).length (.respond res) :: c)) = some s) :
    ∃ v, res = GET path v ∧ ackedSpans parse a ≤ v ∧
      v ≤ countedSpans parse (a ++ .acceptGet path :: b) := by
  obtain ⟨m, m', ha, hget, hrest⟩ := run_split h
  obtain ⟨n, n', hb, hans, -⟩ := run_split hrest
  have hlen := length_gets ha
  have hm' : m' = { m with gets := m.gets ++ [.entered path] } := (Option.some.inj hget).symm
  have hn : run (Satellite.step parse mode) .init (a ++ .acceptGet path :: b) = some n :=
    run_append_eq_some.2 ⟨m, ha, run_cons_eq_some.2 ⟨m', hget, hb⟩⟩
  obtain ⟨-, t, ht, hreads⟩ := run_invariant (I := fun k : Satellite Span =>
      m.spansReceived ≤ k.spansReceived ∧
        ∃ t, k.gets[(getRequests a).length]? = some t ∧
          Reads path m.spansReceived k.spansReceived t)
    ⟨by rw [hm'], .entered path, by simp [hm', ← hlen], rfl⟩
    (fun k e k' hk he => reads_step hk he) hb
  simp only [Satellite.step, ht, Option.map_eq_some_iff] at hans
  obtain ⟨t', ht', -⟩ := hans
  obtain ⟨v, hlo, hhi, hres⟩ : ∃ v, m.spansReceived ≤ v ∧ v ≤ n.spansReceived ∧
      res = GET path v := by
    cases t <;> simp only [GetThread.step, reduceCtorEq] at ht'
    case responding res' =>
      split_ifs at ht' with heq
      exact heq ▸ hreads
  refine ⟨v, hres, ?_, ?_⟩
  · exact ((ackedSpans_le ha).trans (counter_eq_countedSpans ha).ge).trans hlo
  · exact hhi.trans (counter_eq_countedSpans hn).le

end Satellite

/-- Exactly the accepted reports are counted, over any run of the handler threads. -/
theorem spansReceived_accounts (parse : List UInt8 → Option (List Span)) (mode : Mode)
    {es : List (SatEvent Span)} {s : Satellite Span}
    (h : run (Satellite.step parse mode) .init es = some s) :
    s.spansReceived = Satellite.countedSpans parse es ∧
    (Satellite.added es).Nodup ∧
    (∀ i a b, es = a ++ .post i (.respond 200) :: b → (Satellite.added a).count i = 1) ∧
    (∀ i code, SatEvent.post i (.respond code) ∈ es → code = 400 ∨ code = 500 →
      i ∉ Satellite.added es) ∧
    (∀ i ∈ Satellite.added es, ∃ r, (Satellite.requests es)[i]? = some r ∧
      r.1 = "/api/v2/reports" ∧ (parse r.2).isSome ∧ mode ≠ .slowFail) ∧
    ∀ a b c res, es = a ++ .acceptGet "/spans_received" ::
        (b ++ .get (Satellite.getRequests a).length (.respond res) :: c) →
      ∃ v, res = ⟨200, str v⟩ ∧ Satellite.ackedSpans parse a ≤ v ∧
        v ≤ Satellite.countedSpans parse (a ++ .acceptGet "/spans_received" :: b) := by
  refine ⟨Satellite.counter_eq_countedSpans h, Satellite.added_nodup h, ?_, ?_, ?_, ?_⟩
  · rintro i a b rfl
    obtain ⟨m, m', ha, he, -⟩ := run_split h
    obtain ⟨t, pc, ht, hpc, -⟩ := Satellite.post_step he
    rw [Satellite.count_added ha, if_pos]
    simp [ht, (PostPc.step_respond hpc).1, PostPc.code?]
  · intro i code hmem hcode
    obtain ⟨t, ht, hpc⟩ := Option.map_eq_some_iff.1 (Satellite.answered_of_mem h hmem)
    have hne : code ≠ 200 := by omega
    rw [← List.count_eq_zero, Satellite.count_added h, if_neg]
    simp [ht, hpc, PostPc.code?, hne]
  · intro i hi
    obtain ⟨p, hp, rfl⟩ := List.mem_map.1 hi
    obtain ⟨r, hr, hpath, hparse, hmode⟩ := Satellite.adds_valid h hp
    exact ⟨r, hr, hpath, by simp [hparse], hmode⟩
  · rintro a b c res rfl
    exact Satellite.get_bounds h

/-! ## Reports on the wire -/

/-- The spans of a report in protobuf's wire format, each as its bytes. Only the field
`spans`, number 3, is read, and a span has fewer than 128 bytes : tag, length, bytes. -/
def parseFields : ℕ → List UInt8 → Option (List (List UInt8))
  | _, [] => some []
  | fuel + 1, 26 :: n :: bytes =>
    if n < 128 ∧ n.toNat ≤ bytes.length then
      (parseFields fuel (bytes.drop n.toNat)).map (bytes.take n.toNat :: ·)
    else none
  | _, _ => none

def parseSpans (bytes : List UInt8) : Option (List (List UInt8)) :=
  parseFields bytes.length bytes

/-- Two reports and a `GET` that comes between their add steps; the second body is cut. -/
def sampleRequests : List (SatEvent (List UInt8)) :=
  [.accept "/api/v2/reports" [26, 0, 26, 0], .acceptGet "/spans_received",
    .accept "/api/v2/reports" [26], .post 0 .parse, .post 0 .wake, .post 1 .parse,
    .post 0 (.add [[], []]), .get 0 .read, .post 1 (.respond 500), .post 0 (.respond 200),
    .get 0 (.respond ⟨200, str 2⟩)]

theorem spansReceived_accounts_sample :
    ∃ s, run (Satellite.step parseSpans .typical) .init sampleRequests = some s ∧
      s.spansReceived = Satellite.countedSpans parseSpans sampleRequests ∧
      (Satellite.added sampleRequests).Nodup ∧ 1 ∉ Satellite.added sampleRequests := by
  have hrun : run (Satellite.step parseSpans .typical) .init sampleRequests = some _ := rfl
  have h := spansReceived_accounts parseSpans .typical hrun
  exact ⟨_, hrun, h.1, h.2.1, h.2.2.2.1 1 500 (by simp [sampleRequests]) (Or.inr rfl)⟩

end TracerBench
