import TracerBench.Linearizability
import TracerBench.Satellite

/-!
# What the clients of a satellite see

`benchmark/mock_satellite.py` handles every request in a thread of its own, and only
`spans_received += spans_in_report` is done under the lock : the parse, the sleep, the
`GET` and the answers are not. Its clients cannot tell. `satellite_linearizable` puts the
requests of any run in an order in which `POST` and `GET`, run to their ends one after the
other, give the same answers and leave the same counter, and in which a request answered
before another came in stays in front of it.

A report takes effect at the step that settles its answer, which for an accepted report is
the one under the lock. A report whose client has hung up has taken effect all the same.
-/

namespace TracerBench

inductive Request where
  | post (path : String) (binaryBody : List UInt8)
  | get (path : String)

inductive Answer where
  | post (code : ℕ)
  | get (res : Response)

variable {Span : Type*} (parse : List UInt8 → Option (List Span)) (mode : Mode)

/-- The satellite, one request at a time. -/
def serve : Request → ℕ → Answer × ℕ
  | .post path binaryBody, spansReceived =>
    ((.post (POST parse mode path binaryBody spansReceived).1),
      (POST parse mode path binaryBody spansReceived).2)
  | .get path, spansReceived => (.get (GET path spansReceived), spansReceived)

/-! ## Where a request is -/

/-- A report in its thread. -/
def PostThread.phase (t : PostThread Span) : Phase Request Answer :=
  match t.pc with
  | .entered | .sleeping _ | .adding _ => .called (.post t.path t.binaryBody)
  | .responding code | .hungUp code => .performed (.post t.path t.binaryBody) (.post code)
  | .answered code => .returned (.post t.path t.binaryBody) (.post code)

/-- A `GET` of `path` in its thread. -/
def GetThread.phase (path : String) : GetThread → Phase Request Answer
  | .entered _ => .called (.get path)
  | .responding res => .performed (.get path) (.get res)
  | .answered res => .returned (.get path) (.get res)

section

variable {parse mode}

/-- Only an accepted report is counted. -/
theorem serve_post {path : String} {binaryBody : List UInt8} {code : ℕ}
    (hcode : code = (POST parse mode path binaryBody 0).1) (hne : code ≠ 200)
    (spansReceived : ℕ) :
    serve parse mode (.post path binaryBody) spansReceived = (.post code, spansReceived) := by
  subst hcode
  by_cases hpath : path = "/api/v2/reports"
  · cases hb : parse binaryBody with
    | none => simp [serve, POST, hpath, hb]
    | some spans => cases mode <;> simp_all [serve, POST]
  · simp [serve, POST, hpath]

theorem serve_post_add {path : String} {binaryBody : List UInt8} {spans : List Span}
    (hpath : path = "/api/v2/reports") (hparse : parse binaryBody = some spans)
    (hmode : mode ≠ .slowFail) (spansReceived : ℕ) :
    serve parse mode (.post path binaryBody) spansReceived =
      (.post 200, spansReceived + spans.length) := by
  cases mode <;> simp_all [serve, POST]

end

namespace Satellite

/-- What a step does for the request whose thread takes it. Requests are numbered as they
come in, reports and `GET`s each by themselves. -/
def act [DecidableEq Span] (s : Satellite Span) :
    SatEvent Span → Option (Act (ℕ ⊕ ℕ) Request Answer)
  | .accept path binaryBody => some (.call (.inl s.posts.length) (.post path binaryBody))
  | .post i (.respond code) => some (.ret (.inl i) (.post code))
  | .post i e =>
    match s.posts[i]? with
    | none => none
    | some t =>
      match t.pc.step parse mode t.path t.binaryBody e with
      | some (.responding code) => some (.perform ⟨.inl i, .post t.path t.binaryBody, .post code⟩)
      | _ => none
  | .acceptGet path => some (.call (.inr s.gets.length) (.get path))
  | .get j .read =>
    match s.gets[j]? with
    | some (.entered path) => some (.perform ⟨.inr j, .get path, .get (GET path s.spansReceived)⟩)
    | _ => none
  | .get j (.respond res) => some (.ret (.inr j) (.get res))

/-- The requests that came in and the answers that went out. -/
def observed [DecidableEq Span] (es : List (SatEvent Span)) :
    List (Observation (ℕ ⊕ ℕ) Request Answer) :=
  history (Satellite.step parse mode) (act parse mode) .init es

/-- Where each request is after the steps `es`. A thread in `GET` does not keep its path. -/
def phase (es : List (SatEvent Span)) (s : Satellite Span) : ℕ ⊕ ℕ → Phase Request Answer
  | .inl i => (s.posts[i]?).elim .idle PostThread.phase
  | .inr j => (s.gets[j]?).elim .idle (GetThread.phase ((getRequests es)[j]?.getD ""))

variable {parse mode} {es : List (SatEvent Span)} {s : Satellite Span}

/-! ## One step -/

theorem phase_accept (path : String) (binaryBody : List UInt8) :
    phase (es ++ [.accept path binaryBody])
        { s with posts := s.posts ++ [⟨path, binaryBody, .entered⟩] } =
      Function.update (phase es s) (.inl s.posts.length) (.called (.post path binaryBody)) := by
  funext i
  rcases eq_or_ne i (.inl s.posts.length) with rfl | hi
  · simp [phase, PostThread.phase]
  · rw [Function.update_of_ne hi]
    rcases i with i | j
    · have hne : i ≠ s.posts.length := fun h => hi (by rw [h])
      rcases Nat.lt_or_ge i s.posts.length with hlt | hge
      · simp [phase, List.getElem?_append_left hlt]
      · rw [phase, phase, List.getElem?_eq_none hge, List.getElem?_eq_none (by simp; omega)]
    · simp [phase, getRequests]

theorem phase_acceptGet (path : String) (hlen : s.gets.length = (getRequests es).length) :
    phase (es ++ [.acceptGet path]) { s with gets := s.gets ++ [.entered path] } =
      Function.update (phase es s) (.inr s.gets.length) (.called (.get path)) := by
  have hreq : getRequests (es ++ [.acceptGet path]) = getRequests es ++ [path] := by
    simp [getRequests]
  funext i
  rcases eq_or_ne i (.inr s.gets.length) with rfl | hi
  · simp [phase, GetThread.phase, hreq, hlen]
  · rw [Function.update_of_ne hi]
    rcases i with i | j
    · rfl
    · have hne : j ≠ s.gets.length := fun h => hi (by rw [h])
      rcases Nat.lt_or_ge j s.gets.length with hlt | hge
      · simp [phase, hreq, List.getElem?_append_left hlt, List.getElem?_append_left (hlen ▸ hlt)]
      · rw [phase, phase, List.getElem?_eq_none hge, List.getElem?_eq_none (by simp; omega)]
        rfl

/-- A step of a report's thread moves that report. -/
theorem phase_post {i : ℕ} {t : PostThread Span} (ht : s.posts[i]? = some t) (e : PostStep Span)
    (n : ℕ) (pc : PostPc Span) :
    phase (es ++ [.post i e]) ⟨n, s.posts.set i { t with pc := pc }, s.gets⟩ =
      Function.update (phase es s) (.inl i) (PostThread.phase { t with pc := pc }) := by
  have hlt := (List.getElem?_eq_some_iff.1 ht).1
  funext k
  rcases eq_or_ne k (.inl i) with rfl | hk
  · simp [phase, List.getElem?_set_self hlt]
  · rw [Function.update_of_ne hk]
    rcases k with k | j
    · have hne : i ≠ k := fun h => hk (by rw [h])
      simp [phase, List.getElem?_set_ne hne]
    · simp [phase, getRequests]

/-- A step of a `GET` moves that `GET`. -/
theorem phase_get {j : ℕ} {t : GetThread} (ht : s.gets[j]? = some t) (e : GetStep)
    (t' : GetThread) :
    phase (es ++ [.get j e]) { s with gets := s.gets.set j t' } =
      Function.update (phase es s) (.inr j) (t'.phase ((getRequests es)[j]?.getD "")) := by
  have hlt := (List.getElem?_eq_some_iff.1 ht).1
  have hreq : getRequests (es ++ [.get j e]) = getRequests es := by simp [getRequests]
  funext k
  rcases eq_or_ne k (.inr j) with rfl | hk
  · simp [phase, hreq, List.getElem?_set_self hlt]
  · rw [Function.update_of_ne hk]
    rcases k with i | k
    · rfl
    · have hne : j ≠ k := fun h => hk (by rw [h])
      simp [phase, hreq, List.getElem?_set_ne hne]

variable [DecidableEq Span]

/-- A `GET` that has not been read yet is the one that came in. -/
theorem getRequests_of_entered (h : run (Satellite.step parse mode) .init es = some s) {j : ℕ}
    {path : String} (hj : s.gets[j]? = some (.entered path)) :
    (getRequests es)[j]? = some path := by
  refine run_induction (P := fun es (m : Satellite Span) => ∀ path,
    m.gets[j]? = some (.entered path) → (getRequests es)[j]? = some path)
    (by simp [Satellite.init]) ?_ h path hj
  intro es m e m' hm ih he path hj
  rcases step_cases he with ⟨_, _, rfl, rfl⟩ | ⟨i, t, p, pc, rfl, ht, hpc, rfl⟩ |
    ⟨path', rfl, rfl⟩ | ⟨k, t, g, t', rfl, ht, ht', rfl⟩
  · simpa [getRequests] using ih path hj
  · simpa [getRequests] using ih path hj
  · have hlen := length_gets hm
    simp only [getRequests, List.filterMap_append] at ih hlen ⊢
    rcases Nat.lt_trichotomy j m.gets.length with hlt | rfl | hgt
    · rw [List.getElem?_append_left hlt] at hj
      rw [List.getElem?_append_left (hlen ▸ hlt)]
      exact ih path hj
    · rw [hlen]
      simpa using hj
    · rw [List.getElem?_eq_none (by simp; omega)] at hj
      simp at hj
  · have hreq : getRequests (es ++ [.get k g]) = getRequests es := by simp [getRequests]
    rw [hreq]
    rcases eq_or_ne k j with rfl | hne
    · -- its step has taken it out of `entered`
      rw [List.getElem?_set_self (List.getElem?_eq_some_iff.1 ht).1, Option.some.injEq] at hj
      subst hj
      cases t <;> cases g <;> simp_all [GetThread.step]
    · exact ih path (by rwa [List.getElem?_set_ne hne] at hj)

/-- Each step of a thread does to the counter and to the requests what its act says. -/
theorem tracks_step {m m' : Satellite Span} {e : SatEvent Span}
    (h : run (Satellite.step parse mode) .init es = some m)
    (he : m.step parse mode e = some m') :
    Tracks (serve parse mode) m.spansReceived m'.spansReceived (phase es m) (phase (es ++ [e]) m')
      (act parse mode m e) := by
  rcases step_cases he with ⟨path, body, rfl, rfl⟩ | ⟨i, t, p, pc, rfl, ht, hpc, rfl⟩ |
    ⟨path, rfl, rfl⟩ | ⟨j, t, g, t', rfl, ht, ht', rfl⟩
  · exact ⟨rfl, by simp [phase], phase_accept path body⟩
  · have hval := (posts_eq h).2 t (List.mem_of_getElem? ht)
    have hphase : phase es m (.inl i) = t.phase := by simp [phase, ht]
    obtain ⟨path, binaryBody, pc₀⟩ := t
    rcases PostPc.step_cases hpc with ⟨rfl, rfl, ⟨spans, hpath, hb, rfl⟩ | ⟨rfl, hne⟩⟩ |
      ⟨spans, rfl, rfl, ⟨hm, rfl⟩ | ⟨hm, rfl⟩⟩ | ⟨spans, rfl, rfl, rfl⟩ | ⟨code, rfl, rfl, rfl⟩ |
      ⟨code, rfl, rfl, rfl⟩ <;> simp only [act, ht, hpc]
    case inl.inl =>
      refine ⟨rfl, (phase_post ht _ _ _).trans ?_⟩
      exact Function.update_eq_self_iff.2 hphase.symm
    case inl.inr =>
      exact ⟨serve_post rfl hne _, hphase, phase_post ht _ _ _⟩
    case inr.inl.inl =>
      obtain ⟨hpath, hparse⟩ := hval
      refine ⟨serve_post ?_ (by decide) _, hphase, phase_post ht _ _ _⟩
      simp_all [POST]
    case inr.inl.inr =>
      refine ⟨rfl, (phase_post ht _ _ _).trans ?_⟩
      exact Function.update_eq_self_iff.2 hphase.symm
    case inr.inr.inl =>
      obtain ⟨hpath, hparse, hmode⟩ := hval
      exact ⟨serve_post_add hpath hparse hmode _, hphase, phase_post ht _ _ _⟩
    case inr.inr.inr.inl =>
      exact ⟨rfl, _, hphase, phase_post ht _ _ _⟩
    case inr.inr.inr.inr =>
      refine ⟨rfl, (phase_post ht _ _ _).trans ?_⟩
      exact Function.update_eq_self_iff.2 hphase.symm
  · exact ⟨rfl, by simp [phase], phase_acceptGet path (length_gets h)⟩
  · have hphase : phase es m (.inr j) = t.phase ((getRequests es)[j]?.getD "") := by
      simp [phase, ht]
    cases t <;> cases g <;> simp only [GetThread.step, reduceCtorEq] at ht'
    case entered.read path =>
      have hpath := getRequests_of_entered h ht
      simp only [act, ht]
      rw [hpath] at hphase
      refine ⟨rfl, hphase, (phase_get ht _ _).trans ?_⟩
      rw [← Option.some.inj ht', hpath]
      rfl
    case responding.respond res res' =>
      split_ifs at ht' with hres
      rw [← Option.some.inj ht', ← hres]
      exact ⟨rfl, _, hphase, phase_get ht _ _⟩

omit [DecidableEq Span] in
theorem phase_init (i : ℕ ⊕ ℕ) : phase [] (.init : Satellite Span) i = .idle := by
  rcases i with i | j <;> rfl

theorem call_unique (h : run (Satellite.step parse mode) .init es = some s) {i : ℕ ⊕ ℕ}
    {o o' : Request} (ho : .call i o ∈ observed parse mode es)
    (ho' : .call i o' ∈ observed parse mode es) : o = o' :=
  call_unique_of_run Satellite.spansReceived phase phase_init
    (fun _ _ _ _ hm he => tracks_step hm he) h ho ho'

theorem linearizable_observed (h : run (Satellite.step parse mode) .init es = some s) :
    Linearizable (serve parse mode) 0 s.spansReceived (observed parse mode es) :=
  linearizable_of_run Satellite.spansReceived phase phase_init
    (fun _ _ _ _ hm he => tracks_step hm he) h

end Satellite

/-- The handler threads answer every request as if each were handled by itself, at one
moment between its coming in and its answer. -/
theorem satellite_linearizable (parse : List UInt8 → Option (List Span)) (mode : Mode)
    [DecidableEq Span] {es : List (SatEvent Span)} {s : Satellite Span}
    (h : run (Satellite.step parse mode) .init es = some s) :
    Linearizable (serve parse mode) 0 s.spansReceived (Satellite.observed parse mode es) :=
  Satellite.linearizable_observed h

theorem satellite_linearizable_sample : ∃ s,
    run (Satellite.step parseSpans .typical) .init sampleRequests = some s ∧
      Linearizable (serve parseSpans .typical) 0 2
        (Satellite.observed parseSpans .typical sampleRequests) := by
  have hrun : run (Satellite.step parseSpans .typical) .init sampleRequests = some _ := rfl
  exact ⟨_, hrun, satellite_linearizable parseSpans .typical hrun⟩

/-! ## Two reads of the counter -/

/-- The spans a request has added. -/
def Effect.counted (parse : List UInt8 → Option (List Span))
    (x : Effect (ℕ ⊕ ℕ) Request Answer) : ℕ :=
  match x.op, x.res with
  | .post _ binaryBody, .post 200 => ((parse binaryBody).getD []).length
  | _, _ => 0

/-- The report a request has added. -/
def Effect.report? (x : Effect (ℕ ⊕ ℕ) Request Answer) : Option ((ℕ ⊕ ℕ) × List UInt8) :=
  match x.op, x.res with
  | .post _ binaryBody, .post 200 => some (x.id, binaryBody)
  | _, _ => none

theorem Effect.report_eq_some {x : Effect (ℕ ⊕ ℕ) Request Answer} {r : (ℕ ⊕ ℕ) × List UInt8} :
    x.report? = some r ↔ ∃ path, x = ⟨r.1, .post path r.2, .post 200⟩ := by
  obtain ⟨i, op, res⟩ := x
  obtain ⟨k, binaryBody⟩ := r
  unfold Effect.report?
  split
  · next path body hop hres =>
    obtain rfl : op = _ := hop
    obtain rfl : res = _ := hres
    simp
  · next hne =>
    simp only [reduceCtorEq, Effect.mk.injEq, false_iff, not_exists, not_and]
    rintro path rfl rfl rfl
    exact hne path binaryBody rfl rfl

section

variable {parse : List UInt8 → Option (List Span)} {mode : Mode}

theorem serve_counted {x : Effect (ℕ ⊕ ℕ) Request Answer} {n n' : ℕ}
    (h : serve parse mode x.op n = (x.res, n')) : n' = n + x.counted parse := by
  obtain ⟨i, op, res⟩ := x
  rcases op with ⟨path, binaryBody⟩ | path
  · obtain ⟨hres, hn⟩ := Prod.mk.inj h
    subst hres hn
    by_cases hpath : path = "/api/v2/reports"
    · cases hb : parse binaryBody with
      | none => simp [Effect.counted, POST, hpath, hb]
      | some spans => cases mode <;> simp [Effect.counted, POST, hpath, hb]
    · simp [Effect.counted, POST, hpath]
  · obtain ⟨hres, hn⟩ := Prod.mk.inj h
    subst hres hn
    rfl

theorem legal_counted {order : List (Effect (ℕ ⊕ ℕ) Request Answer)} {n n' : ℕ}
    (h : Legal (serve parse mode) n order n') :
    n' = n + (order.map (Effect.counted parse)).sum := by
  induction order generalizing n with
  | nil => exact h.symm
  | cons x order ih =>
    obtain ⟨m, hx, h⟩ := h
    rw [ih h, serve_counted hx, List.map_cons, List.sum_cons, Nat.add_assoc]

theorem serve_path {path : String} {binaryBody : List UInt8} {n n' : ℕ}
    (h : serve parse mode (.post path binaryBody) n = (.post 200, n')) :
    path = "/api/v2/reports" := by
  by_contra hpath
  simp [serve, POST, hpath] at h

theorem str_inj {m n : ℕ} (h : str m = str n) : m = n := by
  have heq := congrArg (int 10) h
  rw [int_str, int_str] at heq
  exact_mod_cast Option.some.inj heq

/-- A read that returned `v` found `v`. -/
theorem serve_read {v n n' : ℕ}
    (h : serve parse mode (.get "/spans_received") n = (.get ⟨200, str v⟩, n')) :
    n = v ∧ n' = v := by
  obtain ⟨hres, hn⟩ := Prod.mk.inj h
  have hbody := congrArg Response.body (Answer.get.inj hres)
  have hv : n = v := str_inj (by simpa [GET] using hbody)
  exact ⟨hv, by rw [← hn, hv]⟩

theorem sum_counted (order : List (Effect (ℕ ⊕ ℕ) Request Answer)) :
    (order.map (Effect.counted parse)).sum =
      ((order.filterMap Effect.report?).map fun r => ((parse r.2).getD []).length).sum := by
  induction order with
  | nil => rfl
  | cons x order ih =>
    rw [List.map_cons, List.sum_cons, ih, List.filterMap_cons]
    unfold Effect.counted Effect.report?
    split <;> simp

/-- The reports of an order are those of different requests. -/
theorem nodup_reports {order : List (Effect (ℕ ⊕ ℕ) Request Answer)}
    (h : (order.map (·.id)).Nodup) : ((order.filterMap Effect.report?).map (·.1)).Nodup := by
  refine h.sublist ?_
  induction order with
  | nil => simp
  | cons x order ih =>
    have ih := ih (List.nodup_cons.1 h).2
    rw [List.filterMap_cons, List.map_cons]
    split
    · exact ih.trans (List.sublist_cons_self _ _)
    · next r hr =>
      obtain ⟨path, rfl⟩ := Effect.report_eq_some.1 hr
      exact ih.cons_cons _

end

/-- What two reads of `/spans_received`, one after the other, differ by : the spans of
accepted reports, each counted once. All that came in and were accepted in between are among
them, and none that was answered before the first read or came in after the second. -/
theorem reads_differ (parse : List UInt8 → Option (List Span)) (mode : Mode)
    [DecidableEq Span] {es : List (SatEvent Span)} {s : Satellite Span}
    (h : run (Satellite.step parse mode) .init es = some s) {j k v v' : ℕ}
    {h₁ h₂ h₃ h₄ h₅ : List (Observation (ℕ ⊕ ℕ) Request Answer)}
    (hhist : Satellite.observed parse mode es =
      h₁ ++ .call (.inr j) (.get "/spans_received") :: (h₂ ++
        .ret (.inr j) (.get ⟨200, str v⟩) :: (h₃ ++
        .call (.inr k) (.get "/spans_received") :: (h₄ ++
        .ret (.inr k) (.get ⟨200, str v'⟩) :: h₅)))) :
    ∃ reports : List ((ℕ ⊕ ℕ) × List UInt8), (reports.map (·.1)).Nodup ∧
      v' = v + (reports.map fun r => ((parse r.2).getD []).length).sum ∧
      (∀ i binaryBody, .call i (.post "/api/v2/reports" binaryBody) ∈ h₃ →
        .ret i (.post 200) ∈ h₃ → (i, binaryBody) ∈ reports) ∧
      ∀ r ∈ reports, .call r.1 (.post "/api/v2/reports" r.2) ∈ Satellite.observed parse mode es ∧
        .call r.1 (.post "/api/v2/reports" r.2) ∉ h₅ ∧
        (∀ code, .ret r.1 (.post code) ∈ Satellite.observed parse mode es → code = 200) ∧
        ∀ code, .ret r.1 (.post code) ∉ h₁ := by
  obtain ⟨order, hlin⟩ := Satellite.linearizable_observed h
  have hmem : ∀ {i op res}, .call i op ∈ Satellite.observed parse mode es →
      .ret i res ∈ Satellite.observed parse mode es →
      (⟨i, op, res⟩ : Effect (ℕ ⊕ ℕ) Request Answer) ∈ order := by
    intro i op res hcall hret
    obtain ⟨o, ho⟩ := hlin.returned i res hret
    obtain rfl : o = op := Satellite.call_unique h (hlin.called _ ho) hcall
    exact ho
  -- the two reads, and what stands between them
  have hj : ⟨.inr j, .get "/spans_received", .get ⟨200, str v⟩⟩ ∈ order :=
    hmem (by simp [hhist]) (by simp [hhist])
  have hk : ⟨.inr k, .get "/spans_received", .get ⟨200, str v'⟩⟩ ∈ order :=
    hmem (by simp [hhist]) (by simp [hhist])
  obtain ⟨l₁, l, horder⟩ := List.append_of_mem hj
  have hhist' : Satellite.observed parse mode es =
      (h₁ ++ .call (.inr j) (.get "/spans_received") :: h₂) ++
        .ret (.inr j) (.get ⟨200, str v⟩) :: (h₃ ++ .call (.inr k) (.get "/spans_received") ::
          (h₄ ++ .ret (.inr k) (.get ⟨200, str v'⟩) :: h₅)) := by
    simp [hhist]
  have hkl := hlin.mem_behind (o := .get "/spans_received") hhist' (by simp) horder hk
  obtain ⟨l₂, l₃, rfl⟩ := List.append_of_mem hkl
  have horder' : order = (l₁ ++ ⟨.inr j, .get "/spans_received", .get ⟨200, str v⟩⟩ :: l₂) ++
      ⟨.inr k, .get "/spans_received", .get ⟨200, str v'⟩⟩ :: l₃ := by
    simp [horder]
  obtain ⟨n, -, n₁, hread, hlegal⟩ := legal_append.1 (horder ▸ hlin.legal)
  obtain ⟨n₂, hbetween, n₃, hread', -⟩ := legal_append.1 hlegal
  obtain ⟨-, rfl⟩ := serve_read hread
  obtain ⟨rfl, -⟩ := serve_read hread'
  refine ⟨l₂.filterMap Effect.report?, nodup_reports ?_, ?_, fun i binaryBody hcall hret => ?_,
    fun r hr => ?_⟩
  · refine hlin.nodup.sublist (List.Sublist.map _ ?_)
    rw [horder]
    exact ((List.sublist_append_left _ _).cons _).trans (List.sublist_append_right _ _)
  · rw [legal_counted hbetween, sum_counted]
  · have hx : ⟨i, .post "/api/v2/reports" binaryBody, .post 200⟩ ∈ order :=
      hmem (by simp [hhist, hcall]) (by simp [hhist, hret])
    -- it is behind the first read, and not behind the second
    have hback := hlin.mem_behind (o := .post "/api/v2/reports" binaryBody) hhist'
      (by simp [hcall]) horder hx
    obtain ⟨g, g', rfl⟩ := List.append_of_mem hret
    have hfront := hlin.notMem_behind (o := .get "/spans_received")
      (y := ⟨i, .post "/api/v2/reports" binaryBody, .post 200⟩) (r := .post 200)
      (g := h₁ ++ .call (.inr j) (.get "/spans_received") ::
        (h₂ ++ .ret (.inr j) (.get ⟨200, str n₁⟩) :: g))
      (by rw [hhist]; simp; rfl) (by simp) horder'
    exact List.mem_filterMap.2 ⟨_, by simpa [hfront] using hback, Effect.report_eq_some.2 ⟨_, rfl⟩⟩
  · obtain ⟨x, hx, hxr⟩ := List.mem_filterMap.1 hr
    obtain ⟨path, rfl⟩ := Effect.report_eq_some.1 hxr
    have hmemx : ⟨r.1, .post path r.2, .post 200⟩ ∈ order := by simp [horder, hx]
    obtain ⟨_, _, hserve⟩ := hlin.legal.mem hmemx
    obtain rfl := serve_path hserve
    refine ⟨hlin.called _ hmemx, fun hcall => ?_, fun code hret => ?_, fun code hret => ?_⟩
    · have hback := hlin.mem_behind (x := ⟨.inr k, .get "/spans_received", .get ⟨200, str n₂⟩⟩)
        (y := ⟨r.1, .post "/api/v2/reports" r.2, .post 200⟩) (r := .get ⟨200, str n₂⟩)
        (g := h₁ ++ .call (.inr j) (.get "/spans_received") ::
          (h₂ ++ .ret (.inr j) (.get ⟨200, str n₁⟩) ::
            (h₃ ++ .call (.inr k) (.get "/spans_received") :: h₄)))
        (by simp [hhist]) hcall horder' hmemx
      exact hlin.id_ne_of_append horder' (List.mem_append_right _ (List.mem_cons_of_mem _ hx))
        (List.mem_cons_of_mem _ hback) rfl
    · obtain ⟨o, ho⟩ := hlin.returned _ _ hret
      have heq := hlin.eq_of_id ho hmemx rfl
      exact Answer.post.inj (Effect.mk.inj heq).2.2
    · obtain ⟨g, g', rfl⟩ := List.append_of_mem hret
      refine hlin.notMem_behind (o := .get "/spans_received")
        (y := ⟨r.1, .post "/api/v2/reports" r.2, .post 200⟩) (r := .post code) (g := g)
        (by rw [hhist]; simp; rfl) (by simp) horder ?_
      simp [hx]

/-- A `GET`, a report that is added but not answered, one that is, and a second `GET`. -/
def sampleReads : List (SatEvent (List UInt8)) :=
  [.acceptGet "/spans_received", .get 0 .read, .get 0 (.respond ⟨200, str 0⟩),
    .accept "/api/v2/reports" [26, 0], .accept "/api/v2/reports" [26, 0, 26, 0], .post 0 .parse,
    .post 1 .parse, .post 1 .wake, .post 0 .wake, .post 1 (.add [[], []]), .post 0 (.add [[]]),
    .post 1 (.respond 200), .acceptGet "/spans_received", .get 1 .read,
    .get 1 (.respond ⟨200, str 3⟩)]

theorem reads_differ_sample : ∃ reports : List ((ℕ ⊕ ℕ) × List UInt8),
    3 = 0 + (reports.map fun r => ((parseSpans r.2).getD []).length).sum ∧
      (.inl 1, [26, 0, 26, 0]) ∈ reports := by
  have hhist : Satellite.observed parseSpans .typical sampleReads =
      [] ++ .call (.inr 0) (.get "/spans_received") :: ([] ++
        .ret (.inr 0) (.get ⟨200, str 0⟩) :: ([.call (.inl 0) (.post "/api/v2/reports" [26, 0]),
          .call (.inl 1) (.post "/api/v2/reports" [26, 0, 26, 0]), .ret (.inl 1) (.post 200)] ++
        .call (.inr 1) (.get "/spans_received") :: ([] ++
        .ret (.inr 1) (.get ⟨200, str 3⟩) :: []))) := rfl
  have hrun : run (Satellite.step parseSpans .typical) .init sampleReads = some _ := rfl
  obtain ⟨reports, -, hsum, hin, -⟩ := reads_differ parseSpans .typical hrun hhist
  exact ⟨reports, hsum, hin (.inl 1) [26, 0, 26, 0] (by simp) (by simp)⟩

end TracerBench
