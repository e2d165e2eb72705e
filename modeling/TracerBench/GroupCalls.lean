import TracerBench.Startup

/-!
# Calls that fail

`reset_spans_received` asks one satellite after the other, and moves the baseline of each as
soon as it has answered. Where a satellite fails, the ones before it stay reset
(`reset_partial`).

The satellites can die, or be shut down by another thread, between any two steps of a call,
and something else than a satellite may answer on a port. `openStep` is `GroupSys.step` with
such answers. What a call raises is documented, unless a connection is refused or a loop over
`self._satellites` finds `None` there (`documented_iff`).
-/

namespace TracerBench

/-! ## A reset of all satellites -/

/-- What came back for one request, with the handler that made it. -/
abbrev Asked : Type :=
  MockSatelliteHandler × Except GroupError Response

/-- The loop of `reset_spans_received` : the handlers after it, and what it has raised. -/
def resetLoop : List Asked → List MockSatelliteHandler × Option GroupError
  | [] => ([], none)
  | (h, res) :: sats =>
    match h.resetSpansReceived res with
    | .ok h' => (h' :: (resetLoop sats).1, (resetLoop sats).2)
    | .error e => (h :: sats.map Prod.fst, some e)

/-- The counter a satellite has reported. -/
def reported? : Except GroupError Response → Option ℤ
  | .ok res => if res.code = 200 then int 10 res.body else none
  | .error _ => none

/-- The handler of a satellite that has reported its counter, reset to it. -/
def Asked.cleared (a : Asked) : MockSatelliteHandler :=
  { a.1 with spansReceivedBaseline := (reported? a.2).getD 0 }

namespace MockSatelliteHandler

/-- A get reads the counter that was reported, less the baseline, and a reset moves the
baseline to it. -/
theorem reported_some {res : Except GroupError Response} {n : ℤ} (h : MockSatelliteHandler)
    (hres : reported? res = some n) :
    h.getSpansReceived res = .ok (n - h.spansReceivedBaseline) ∧
      h.resetSpansReceived res = .ok { h with spansReceivedBaseline := n } := by
  rcases res with e | res
  · simp [reported?] at hres
  · rw [reported?] at hres
    split_ifs at hres with hcode
    simp [resetSpansReceived, getSpansReceived, hcode, hres]

/-- Without a counter both fail, with the same error. -/
theorem reported_none {res : Except GroupError Response} (h : MockSatelliteHandler)
    (hres : reported? res = none) :
    ∃ e, h.getSpansReceived res = .error e ∧ h.resetSpansReceived res = .error e := by
  rcases res with e | res
  · exact ⟨e, rfl, rfl⟩
  · rw [reported?] at hres
    by_cases hcode : res.code = 200
    · rw [if_pos hcode] at hres
      simp [resetSpansReceived, getSpansReceived, hcode, hres]
    · simp [resetSpansReceived, getSpansReceived, hcode]

end MockSatelliteHandler

/-- A loop goes on while the satellites can be reset. -/
theorem resetLoop_map {ι : Type*} (asked : ι → Asked) (h : ι → MockSatelliteHandler)
    (sats : List Asked) : ∀ {done : List ι},
      (∀ i ∈ done, (asked i).1.resetSpansReceived (asked i).2 = .ok (h i)) →
      resetLoop (done.map asked ++ sats) =
        (done.map h ++ (resetLoop sats).1, (resetLoop sats).2)
  | [], _ => rfl
  | i :: done, hdone => by
    have ih := resetLoop_map asked h sats fun j hj => hdone j (List.mem_cons_of_mem i hj)
    simp only [List.map_cons, List.cons_append, resetLoop, hdone i (by simp), ih]

/-- A loop over satellites that all report resets them all. -/
theorem resetLoop_append {done : List Asked} (hdone : ∀ a ∈ done, reported? a.2 ≠ none)
    (sats : List Asked) :
    resetLoop (done ++ sats) =
      (done.map Asked.cleared ++ (resetLoop sats).1, (resetLoop sats).2) := by
  have hreset : ∀ a ∈ done, (id a).1.resetSpansReceived (id a).2 = .ok a.cleared := by
    intro a ha
    obtain ⟨n, hn⟩ := Option.ne_none_iff_exists'.1 (hdone a ha)
    rw [id, (a.1.reported_some hn).2, Asked.cleared, hn]
    rfl
  have hloop := resetLoop_map id Asked.cleared sats hreset
  rwa [List.map_id] at hloop

/-- A loop ends at the first satellite that does not report. -/
theorem resetLoop_cases (sats : List Asked) :
    ((∀ a ∈ sats, reported? a.2 ≠ none) ∧ resetLoop sats = (sats.map Asked.cleared, none)) ∨
    ∃ done a rest e, sats = done ++ a :: rest ∧ (∀ b ∈ done, reported? b.2 ≠ none) ∧
      reported? a.2 = none ∧ a.1.resetSpansReceived a.2 = .error e ∧
      resetLoop sats = (done.map Asked.cleared ++ (a :: rest).map Prod.fst, some e) := by
  rcases hfind : sats.find? fun a => (reported? a.2).isNone with _ | a
  · have hall : ∀ a ∈ sats, reported? a.2 ≠ none := by simpa using hfind
    have hloop := resetLoop_append hall []
    simp only [List.append_nil, resetLoop] at hloop
    exact Or.inl ⟨hall, hloop⟩
  · obtain ⟨hnone, done, rest, rfl, hdone⟩ := List.find?_eq_some_iff_append.1 hfind
    rw [Option.isNone_iff_eq_none] at hnone
    have hdone : ∀ b ∈ done, reported? b.2 ≠ none := by
      simpa [Option.isSome_iff_ne_none] using hdone
    obtain ⟨e, -, he⟩ := a.1.reported_none hnone
    refine Or.inr ⟨done, a, rest, e, rfl, hdone, hnone, he, ?_⟩
    rw [resetLoop_append hdone, resetLoop, he]
    rfl

/-- A reset leaves alone what has counted nothing. -/
theorem cleared_eq_iff {b : Asked} (hb : reported? b.2 ≠ none) :
    b.cleared = b.1 ↔ reported? b.2 = some b.1.spansReceivedBaseline := by
  obtain ⟨n, hn⟩ := Option.ne_none_iff_exists'.1 hb
  rw [Asked.cleared, hn]
  constructor
  · intro h
    rw [← h]
    rfl
  · intro h
    rw [h]
    rfl

/-- What a get returns when the satellites report the counters `ns`. -/
def reading (hs : List MockSatelliteHandler) (ns : List ℤ) : ℤ :=
  (List.zipWith (fun h n => n - h.spansReceivedBaseline) hs ns).sum

/-- The reading of a group whose first satellites were reset is lower by what they had
counted. -/
theorem reading_cleared (rest : List MockSatelliteHandler) :
    ∀ (done : List Asked) (ns : List ℤ), ns.length = done.length + rest.length →
      reading (done.map Asked.cleared ++ rest) ns = reading (done.map Prod.fst ++ rest) ns -
        (done.map fun b => (reported? b.2).getD 0 - b.1.spansReceivedBaseline).sum
  | [], ns, _ => by simp
  | b :: done, [], h => by simp at h; omega
  | b :: done, n :: ns, h => by
    have ih := reading_cleared rest done ns (by simp at h; omega)
    simp only [reading, List.map_cons, List.cons_append, List.zipWith_cons_cons, List.sum_cons]
      at ih ⊢
    rw [ih, Asked.cleared]
    ring

/-- A reset that returns has set each baseline to the counter that was reported. One that
raises has done so for the satellites before the one that failed, and the next reading is
lower by what these had counted. -/
theorem reset_partial (sats : List Asked) :
    (∀ hs, resetLoop sats = (hs, none) →
      (∀ a ∈ sats, reported? a.2 ≠ none) ∧ hs = sats.map Asked.cleared) ∧
    ∀ hs e, resetLoop sats = (hs, some e) →
      ∃ done a rest, sats = done ++ a :: rest ∧ (∀ b ∈ done, reported? b.2 ≠ none) ∧
        a.1.resetSpansReceived a.2 = .error e ∧
        hs = done.map Asked.cleared ++ (a :: rest).map Prod.fst ∧
        (hs = sats.map Prod.fst ↔
          ∀ b ∈ done, reported? b.2 = some b.1.spansReceivedBaseline) ∧
        ∀ ns, ns.length = sats.length → reading hs ns = reading (sats.map Prod.fst) ns -
          (done.map fun b => (reported? b.2).getD 0 - b.1.spansReceivedBaseline).sum := by
  rcases resetLoop_cases sats with ⟨hall, hloop⟩ | ⟨done, a, rest, e, rfl, hdone, -, he, hloop⟩
  · rw [hloop]
    refine ⟨fun hs h => ⟨hall, (Prod.mk.inj h).1.symm⟩, fun hs e h => ?_⟩
    simp at h
  · rw [hloop]
    refine ⟨fun hs h => by simp at h, fun hs e' h => ?_⟩
    obtain ⟨rfl, he'⟩ := Prod.mk.inj h
    obtain rfl := Option.some.inj he'
    refine ⟨done, a, rest, rfl, hdone, he, rfl, ?_, fun ns hns => ?_⟩
    · rw [List.map_append, List.append_cancel_right_eq, List.map_inj_left]
      exact forall₂_congr fun b hb => cleared_eq_iff (hdone b hb)
    · rw [List.map_append]
      exact reading_cleared _ done ns (by simpa using hns)

/-- The first of two satellites reports, and the second answers with an error : the first one
stays reset, and the next reading misses what it had counted. -/
theorem reset_not_atomic :
    ∃ e, resetLoop [(⟨8360, 0⟩, .ok (GET "/spans_received" 3)), (⟨8361, 0⟩, .ok ⟨500, []⟩)] =
        ([⟨8360, 3⟩, ⟨8361, 0⟩], some e) ∧
      reading [⟨8360, 0⟩, ⟨8361, 0⟩] [3, 2] = 5 ∧ reading [⟨8360, 3⟩, ⟨8361, 0⟩] [3, 2] = 2 :=
  ⟨.satelliteBadResponse "Error getting /spans_received.", rfl, rfl, rfl⟩

/-! ## Calls on a group in the open -/

variable {Span : Type*}

inductive OpenEvent (Span : Type*) where
  | group (e : GroupEvent Span)
  /-- Something answers on the port of satellite `p`. -/
  | answer (c : Call) (p : ℕ) (res : Response)
  deriving DecidableEq

namespace GroupSys

/-- The caller uses the answer `res` to its request to satellite `p`. -/
def respond (s : GroupSys Span) (c : Call) (p : ℕ) (o : Spawned Span) (res : Response)
    (todo : List ℕ) (received : ℤ) : GroupSys Span :=
  match c with
  | .get =>
    match o.handler.getSpansReceived (.ok res) with
    | .ok n => { s with caller := .asking .get todo (received + n) }
    | .error e => { s with caller := .raising e }
  | .reset =>
    match o.handler.resetSpansReceived (.ok res) with
    | .ok h =>
      { s with
        spawned := s.spawned.set p { o with handler := h }
        caller := .asking .reset todo received }
    | .error e => { s with caller := .raising e }

/-- A satellite's answer is one of these. -/
theorem receive_eq_respond (s : GroupSys Span) (c : Call) (p : ℕ) (o : Spawned Span) (n : ℕ)
    (todo : List ℕ) (received : ℤ) :
    s.receive c p o n todo received =
      s.respond c p o (GET "/spans_received" n) todo received := by
  cases c <;> rfl

variable [DecidableEq Span] (parse : List UInt8 → Option (List Span))

/-- One step of the group, or an answer from outside. -/
def openStep (s : GroupSys Span) : OpenEvent Span → Option (GroupSys Span)
  | .group e => s.step parse e
  | .answer c p res =>
    match s.caller, s.spawned[p]? with
    | .asking c' (p' :: todo) received, some o =>
      if c = c' ∧ p = p' then some (s.respond c p o res todo received) else none
    | _, _ => none

/-! ## What is documented -/

/-- The end of a call. -/
def CallEnds : GroupEvent Span → Prop
  | .returned _ _ | .raised _ => True
  | _ => False

/-- The exceptions `get_spans_received` and `reset_spans_received` list. -/
def Listed : Call → GroupError → Prop
  | .get, .deadSatellites _ | _, .satelliteBadResponse _ => True
  | _, _ => False

/-- Call `c` ends as its documentation says. -/
def Documented (c : Call) (e : GroupEvent Span) : Prop :=
  (∃ v, e = .returned c v) ∨ ∃ x, e = .raised x ∧ Listed c x

/-- A connection is refused, or a loop over `self._satellites` finds `None`. -/
def Escapes (s : GroupSys Span) : OpenEvent Span → Prop
  | .group (.refuse _ _) => True
  | .group .callerStep =>
    (s.caller = .enteringPolls ∨ ∃ c, s.caller = .entering c) ∧ s.satellites = none
  | _ => False

/-- The caller is in call `c` and nothing has `escaped`, or it is about to raise, and that is
listed if nothing has. -/
def At (c : Call) (escaped : Prop) (pc : Caller) : Prop :=
  pc.call? = some c ∧ ¬escaped ∨ ∃ x, pc = .raising x ∧ (Listed c x ↔ ¬escaped)

variable {parse} {s s' : GroupSys Span} {c : Call}

theorem getSpansReceived_error {h : MockSatelliteHandler} {res : Response} {e : GroupError}
    (he : h.getSpansReceived (.ok res) = .error e) :
    ∃ message, e = .satelliteBadResponse message := by
  simp only [MockSatelliteHandler.getSpansReceived] at he
  split_ifs at he
  · exact ⟨_, (Except.error.inj he).symm⟩
  · split at he
    · simp at he
    · exact ⟨_, (Except.error.inj he).symm⟩

theorem resetSpansReceived_error {h : MockSatelliteHandler} {res : Response} {e : GroupError}
    (he : h.resetSpansReceived (.ok res) = .error e) :
    ∃ message, e = .satelliteBadResponse message := by
  simp only [MockSatelliteHandler.resetSpansReceived] at he
  split at he
  · next e' hget =>
    obtain rfl := Except.error.inj he
    exact getSpansReceived_error hget
  · simp at he

omit [DecidableEq Span] in
/-- An answer that cannot be used is a bad response. -/
theorem respond_at (s : GroupSys Span) (c : Call) (p : ℕ) (o : Spawned Span) (res : Response)
    (todo : List ℕ) (received : ℤ) {escaped : Prop} (hno : ¬escaped) :
    At c escaped (s.respond c p o res todo received).caller := by
  have hbad : ∀ k message, Listed k (.satelliteBadResponse message) := by
    rintro (_ | _) message <;> trivial
  unfold respond
  split <;> split
  · exact Or.inl ⟨rfl, hno⟩
  · next e he =>
    obtain ⟨message, rfl⟩ := getSpansReceived_error he
    exact Or.inr ⟨_, rfl, iff_of_true (hbad _ message) hno⟩
  · exact Or.inl ⟨rfl, hno⟩
  · next e he =>
    obtain ⟨message, rfl⟩ := resetSpansReceived_error he
    exact Or.inr ⟨_, rfl, iff_of_true (hbad _ message) hno⟩

omit [DecidableEq Span] in
/-- The caller's tests and polls raise what is listed, and its loops what is not. -/
theorem callerNext_at {pc : Caller} (hcall : s.caller.call? = some c)
    (h : s.callerNext s.caller = some pc) : At c (Escapes s (.group .callerStep)) pc := by
  have hquiet : s.caller ≠ .enteringPolls → (∀ k, s.caller ≠ .entering k) →
      ¬Escapes s (.group .callerStep) := by
    rintro hpolls hloop ⟨h | ⟨k, h⟩, -⟩
    · exact hpolls h
    · exact hloop k h
  rcases hpc : s.caller with _ | ⟨_ | _⟩ | _ | _ | ⟨_ | ⟨p, todo⟩⟩ | k | _ | _ | _ <;>
    rw [hpc] at h hcall hquiet <;> simp only [callerNext, reduceCtorEq] at h <;>
    obtain rfl := Option.some.inj hcall
  case enteringPolls | entering =>
    -- the loop starts over whatever `self._satellites` is now
    split at h <;> obtain rfl := Option.some.inj h
    · next hsat =>
      refine Or.inr ⟨_, rfl, iff_of_false ?_ (not_not.2 ⟨by simp [hpc], hsat⟩)⟩
      simp [Listed]
    · next ps hsat =>
      refine Or.inl ⟨rfl, fun hesc => ?_⟩
      simp [hesc.2] at hsat
  all_goals
    have hno := hquiet (by simp) (by simp)
    obtain rfl := Option.some.inj h
    try split_ifs
    all_goals first
      | exact Or.inl ⟨rfl, hno⟩
      | exact Or.inr ⟨_, rfl, iff_of_true trivial hno⟩

theorem At.step {escaped : Prop} {e : OpenEvent Span} (h : At c escaped s.caller)
    (he : openStep parse s e = some s') (hend : ∀ x, e = .group x → ¬CallEnds x) :
    At c (escaped ∨ Escapes s e) s'.caller := by
  -- the caller goes on with its call, and has not escaped before
  have hon : ∀ {pc}, (s.caller.call? = some c → At c (Escapes s e) pc) →
      (∀ x, s.caller ≠ .raising x) → At c (escaped ∨ Escapes s e) pc := by
    intro pc hpc hx
    rcases h with ⟨hcall, hno⟩ | ⟨x, hraise, -⟩
    · simpa [At, hno] using hpc hcall
    · exact absurd hraise (hx x)
  cases e with
  | answer k p res =>
    simp only [openStep] at he
    split at he
    · next k' p' todo r o hc ho =>
      split_ifs at he with hg
      obtain ⟨rfl, rfl⟩ := hg
      obtain rfl := Option.some.inj he
      refine hon (fun hcall => ?_) (by simp [hc])
      obtain rfl : k = c := by simpa [hc, Caller.call?] using hcall
      exact respond_at s k p o res todo r id
    · simp at he
  | group x =>
    have hx := hend x rfl
    rcases step_caller he with ⟨k, hc⟩ | ⟨pc, hc⟩ | ⟨k, p, todo, r, o, hc, ho⟩ |
      ⟨k, p, q, n, todo, r, hc, hp⟩ | ⟨k, p, n, todo, r, o, hc, ho⟩ | ⟨k, p, todo, r, hc, hp⟩ |
      ⟨k, v, hc⟩ | ⟨y, hc⟩ | ⟨hcaller, hc⟩
    · exact hon (fun hcall => by simp [hc, Caller.call?] at hcall) (by simp [hc])
    · refine hon (fun hcall => callerNext_at hcall hc) ?_
      rintro x hraise
      simp [hraise, callerNext] at hc
    · exact hon (fun hcall => Or.inl ⟨by simpa [hc, Caller.call?] using hcall, id⟩) (by simp [hc])
    · exact hon (fun hcall => Or.inl ⟨by simpa [hc, Caller.call?] using hcall, id⟩) (by simp [hc])
    · refine hon (fun hcall => ?_) (by simp [hc])
      obtain rfl : k = c := by simpa [hc, Caller.call?] using hcall
      rw [receive_eq_respond]
      exact respond_at s k p o _ todo r id
    · refine hon (fun _ => Or.inr ⟨_, rfl, iff_of_false ?_ (not_not.2 trivial)⟩) (by simp [hc])
      cases c <;> exact id
    · exact absurd trivial hx
    · exact absurd trivial hx
    · have hno : ¬Escapes s (.group x) := by
        cases x <;> first | exact id | exact absurd trivial hcaller
      rw [hc]
      simpa [hno] using h

/-- A step of the run has escaped. -/
def Escaped (parse : List UInt8 → Option (List Span)) (s : GroupSys Span)
    (es : List (OpenEvent Span)) : Prop :=
  ∃ a e b m, es = a ++ e :: b ∧ run (openStep parse) s a = some m ∧ Escapes m e

theorem escaped_cons {e : OpenEvent Span} {es : List (OpenEvent Span)}
    (h : openStep parse s e = some s') :
    Escaped parse s (e :: es) ↔ Escapes s e ∨ Escaped parse s' es := by
  constructor
  · rintro ⟨_ | ⟨e', a⟩, x, b, m, heq, hm, hesc⟩
    · obtain ⟨rfl, -⟩ := List.cons.inj heq
      obtain rfl := Option.some.inj hm
      exact Or.inl hesc
    · obtain ⟨rfl, hes⟩ := List.cons.inj heq
      obtain ⟨s'', hs'', hm⟩ := run_cons_eq_some.1 hm
      obtain rfl := Option.some.inj (h.symm.trans hs'')
      exact Or.inr ⟨a, x, b, m, hes, hm, hesc⟩
  · rintro (hesc | ⟨a, x, b, m, rfl, hm, hesc⟩)
    · exact ⟨[], e, es, s, rfl, rfl, hesc⟩
    · exact ⟨e :: a, x, b, m, rfl, run_cons_eq_some.2 ⟨s', h, hm⟩, hesc⟩

theorem escaped_snoc {e : OpenEvent Span} {es : List (OpenEvent Span)}
    (h : run (openStep parse) s es = some s') :
    Escaped parse s (es ++ [e]) ↔ Escaped parse s es ∨ Escapes s' e := by
  constructor
  · rintro ⟨a, x, b, m, heq, hm, hesc⟩
    rcases List.eq_nil_or_concat b with rfl | ⟨b, y, rfl⟩
    · obtain ⟨rfl, hx⟩ := List.append_inj' heq rfl
      obtain rfl := Option.some.inj (h.symm.trans hm)
      obtain ⟨rfl, -⟩ := List.cons.inj hx
      exact Or.inr hesc
    · rw [List.concat_eq_append, ← List.cons_append, ← List.append_assoc] at heq
      exact Or.inl ⟨a, x, b, m, (List.append_inj' heq rfl).1, hm, hesc⟩
  · rintro (⟨a, x, b, m, rfl, hm, hesc⟩ | hesc)
    · exact ⟨a, x, b ++ [e], m, by simp, hm, hesc⟩
    · exact ⟨es, e, [], s', rfl, h, hesc⟩

/-- What a call that has not ended is about to do. -/
theorem at_run {es : List (OpenEvent Span)} (hes : ∀ x, OpenEvent.group x ∈ es → ¬CallEnds x)
    (h : run (openStep parse) s (.group (.call c) :: es) = some s') :
    At c (Escaped parse s (.group (.call c) :: es)) s'.caller := by
  obtain ⟨m₀, hcall, hrun⟩ := run_cons_eq_some.1 h
  have hstart : m₀.caller = .testing c := by
    simp only [openStep, GroupSys.step] at hcall
    split_ifs at hcall
    obtain rfl := Option.some.inj hcall
    rfl
  rw [escaped_cons hcall, or_iff_right (id : ¬Escapes s (.group (.call c)))]
  refine run_induction (P := fun es (m : GroupSys Span) =>
    (∀ x, OpenEvent.group x ∈ es → ¬CallEnds x) → At c (Escaped parse m₀ es) m.caller)
    (fun _ => ?_) ?_ hrun hes
  · rw [hstart]
    exact Or.inl ⟨rfl, by rintro ⟨a, x, b, m, heq, -, -⟩; simp at heq⟩
  · intro es m e m' hm ih he hes
    rw [escaped_snoc hm]
    exact (ih fun x hx => hes x (by simp [hx])).step he
      (by rintro x rfl; exact hes x (by simp))

end GroupSys

open GroupSys in
/-- A call of `get_spans_received` or `reset_spans_received`, with satellites that die, answer
anything or are shut down at any time, returns or raises an exception it lists if and only if
no connection was refused and no loop found `None`. -/
theorem documented_iff [DecidableEq Span] (parse : List UInt8 → Option (List Span))
    {s t : GroupSys Span} {c : Call} {es : List (OpenEvent Span)} {e : GroupEvent Span}
    (hes : ∀ x, OpenEvent.group x ∈ es → ¬CallEnds x) (he : CallEnds e)
    (h : run (openStep parse) s (.group (.call c) :: (es ++ [.group e])) = some t) :
    Documented c e ↔ ¬Escaped parse s (.group (.call c) :: es) := by
  rw [← List.cons_append] at h
  obtain ⟨m, hm, hend⟩ := run_snoc_eq_some.1 h
  have hat := at_run hes hm
  change m.step parse e = some t at hend
  cases e with
  | returned k v =>
    obtain ⟨hc, -⟩ := returned_idle hend
    rw [hc] at hat
    rcases hat with ⟨hcall, hno⟩ | ⟨x, hx, -⟩
    · obtain rfl := Option.some.inj hcall
      exact iff_of_true (Or.inl ⟨v, rfl⟩) hno
    · simp at hx
  | raised x =>
    simp only [GroupSys.step] at hend
    split_ifs at hend with hc
    rw [hc] at hat
    rcases hat with ⟨hcall, -⟩ | ⟨y, hy, hiff⟩
    · simp [Caller.call?] at hcall
    · obtain rfl := Caller.raising.inj hy
      rw [← hiff]
      simp [Documented]
  | _ => exact absurd he id

/-- A get whose only satellite dies after the poll. -/
def sampleLateDeath : List (OpenEvent (List UInt8)) :=
  [.group .callerStep, .group .callerStep, .group .callerStep, .group .callerStep,
    .group .callerStep, .group (.die 0), .group .callerStep, .group (.refuse .get 0)]

/-- A reset during which the group is shut down. -/
def sampleLateShutdown : List (OpenEvent (List UInt8)) :=
  [.group .callerStep, .group .shutdown, .group (.terminate 0), .group .shutdownReturned,
    .group .callerStep]

open GroupSys in
/-- On a group that was running when the call began, a get raises `ConnectionError`, and a
reset raises `TypeError`. -/
theorem undocumented_raised :
    (constructed .typical [8360] : GroupSys (List UInt8)).allRunning = true ∧
    (∃ t, run (openStep parseSpans) (constructed .typical [8360])
      (.group (.call .get) :: (sampleLateDeath ++ [.group (.raised .connectionError)])) = some t) ∧
    ¬Documented .get (.raised .connectionError : GroupEvent (List UInt8)) ∧
    (∃ t, run (openStep parseSpans) (constructed .typical [8360])
      (.group (.call .reset) :: (sampleLateShutdown ++
        [.group (.raised (.python .typeError))])) = some t) ∧
    ¬Documented .reset (.raised (.python .typeError) : GroupEvent (List UInt8)) :=
  ⟨rfl, ⟨_, rfl⟩, by simp [Documented, Listed], ⟨_, rfl⟩, by simp [Documented, Listed]⟩

/-- A get whose satellite is not asked : another server on the port answers with an error. -/
def sampleStranger : List (OpenEvent (List UInt8)) :=
  [.group .callerStep, .group .callerStep, .group .callerStep, .group .callerStep,
    .group .callerStep, .group (.die 0), .group .callerStep, .answer .get 0 ⟨404, []⟩]

open GroupSys in
theorem documented_iff_sample : ∃ x t, run (openStep parseSpans) (constructed .typical [8360])
      (.group (.call .get) :: (sampleStranger ++ [.group (.raised x)])) = some t ∧
    ¬Escaped parseSpans (constructed .typical [8360]) (.group (.call .get) :: sampleStranger) := by
  obtain ⟨t, ht⟩ : ∃ t, run (openStep parseSpans) (constructed .typical [8360])
      (.group (.call .get) :: (sampleStranger ++
        [.group (.raised (.satelliteBadResponse "Error getting /spans_received."))])) = some t :=
    ⟨_, rfl⟩
  have hes : ∀ x, OpenEvent.group x ∈ sampleStranger → ¬CallEnds x := by
    simp [sampleStranger, CallEnds]
  exact ⟨_, t, ht, (documented_iff parseSpans hes (by trivial) ht).1 (Or.inr ⟨_, rfl, trivial⟩)⟩

/-! ## A reset of the group is the loop -/

namespace GroupSys

/-- The handler of satellite `p`. -/
def handler (s : GroupSys Span) (p : ℕ) : MockSatelliteHandler :=
  ((s.spawned.map (·.handler))[p]?).getD ⟨0, 0⟩

theorem handler_eq {s : GroupSys Span} {p : ℕ} {o : Spawned Span} (ho : s.spawned[p]? = some o) :
    s.handler p = o.handler := by
  simp [handler, ho]

theorem handler_set {s : GroupSys Span} {p : ℕ} {o : Spawned Span} (ho : s.spawned[p]? = some o)
    (h : MockSatelliteHandler) (pc : Caller) (q : ℕ) :
    ({ s with spawned := s.spawned.set p { o with handler := h }, caller := pc } :
      GroupSys Span).handler q = if q = p then h else s.handler q := by
  have hlt := (List.getElem?_eq_some_iff.1 ho).1
  split_ifs with hq
  · simp [handler, hq, hlt]
  · simp [handler, List.map_set, List.getElem?_set_ne (Ne.symm hq)]

variable [DecidableEq Span] {parse : List UInt8 → Option (List Span)} {s m m' : GroupSys Span}

/-- Only the use of an answer changes a handler. -/
theorem step_handler {e : GroupEvent Span} (h : m.step parse e = some m')
    (hspawn : ∀ port, e ≠ .spawn port) (hrecv : e ≠ .receive) (p : ℕ) :
    m'.handler p = m.handler p := by
  suffices hmap : m'.spawned.map (·.handler) = m.spawned.map (·.handler) by
    rw [handler, hmap, handler]
  rcases step_spawned h with ⟨q, x, w, sat, hw, -, -⟩ | ⟨q, w, todo, r, -, -⟩ |
    ⟨q, w, n, todo, r, -, hw⟩ | ⟨q, w, -, hw, -, hs'⟩ | ⟨mode, port, -, hs'⟩ | ⟨c, q, q', n, hs'⟩ |
    ⟨-, hs', -⟩
  · exact map_set_eq hw rfl
  · rfl
  · exact absurd rfl hrecv
  · rw [hs']
    exact map_set_eq hw rfl
  · exact absurd rfl (hspawn port)
  · rw [hs']
  · rw [hs']

/-- Between `s` and `m` the satellites `done` were reset, with the outcomes of their requests,
and no others. -/
def Cleared (s m : GroupSys Span) (outcome : ℕ → Except GroupError Response) (done : List ℕ) :
    Prop :=
  (∀ p ∈ done, (s.handler p).resetSpansReceived (outcome p) = .ok (m.handler p)) ∧
    ∀ p ∉ done, m.handler p = s.handler p

/-- Where a reset is that began in `s`. -/
inductive Resetting (s m : GroupSys Span) : Prop
  | starting (hc : m.caller = .testing .reset ∨ m.caller = .entering .reset ∧ m.group ≠ [])
    (h : ∀ p, m.handler p = s.handler p)
  | asking (outcome : ℕ → Except GroupError Response) (done todo : List ℕ) (r : ℤ)
    (hgroup : s.group = done ++ todo) (hc : m.caller = .asking .reset todo r)
    (h : Cleared s m outcome done)
  | holding (outcome : ℕ → Except GroupError Response) (done : List ℕ) (p n : ℕ) (todo : List ℕ)
    (r : ℤ) (hgroup : s.group = done ++ p :: todo) (hc : m.caller = .holding .reset p n todo r)
    (h : Cleared s m outcome done)
  | raising (outcome : ℕ → Except GroupError Response) (done : List ℕ) (p : ℕ) (todo : List ℕ)
    (x : GroupError) (hgroup : s.group = done ++ p :: todo) (hc : m.caller = .raising x)
    (h : Cleared s m outcome done)
    (hx : (s.handler p).resetSpansReceived (outcome p) = .error x)

omit [DecidableEq Span] in
/-- The next satellite is not one of those that were reset. -/
theorem notMem_done {done todo : List ℕ} {p : ℕ} (hnodup : s.group.Nodup)
    (hgroup : s.group = done ++ p :: todo) : p ∉ done := by
  intro hmem
  rw [hgroup] at hnodup
  exact (List.nodup_append.1 hnodup).2.2 p hmem p (by simp) rfl

omit [DecidableEq Span] in
theorem Cleared.update {outcome : ℕ → Except GroupError Response} {done : List ℕ} {p : ℕ}
    (h : Cleared s m outcome done) (hp : p ∉ done) (res : Except GroupError Response) :
    Cleared s m (Function.update outcome p res) done := by
  refine ⟨fun q hq => ?_, h.2⟩
  rw [Function.update_of_ne (by rintro rfl; exact hp hq)]
  exact h.1 q hq

omit [DecidableEq Span] in
/-- What becomes of a reset when the answer to its request to satellite `p` is used. -/
theorem Cleared.respond {outcome : ℕ → Except GroupError Response} {done todo : List ℕ} {p : ℕ}
    {o : Spawned Span} (h : Cleared s m outcome done) (hnodup : s.group.Nodup)
    (hgroup : s.group = done ++ p :: todo) (ho : m.spawned[p]? = some o) (res : Response) (r : ℤ) :
    Resetting s (m.respond .reset p o res todo r) := by
  have hp := notMem_done hnodup hgroup
  have hold : o.handler = s.handler p := by rw [← handler_eq ho, h.2 p hp]
  have hclear := h.update hp (.ok res)
  unfold GroupSys.respond
  simp only
  split
  · next h' hreset =>
    refine .asking (Function.update outcome p (.ok res)) (done ++ [p]) todo r (by simp [hgroup])
      rfl ⟨fun q hq => ?_, fun q hq => ?_⟩
    · rw [handler_set ho]
      split_ifs with hqp
      · rw [hqp, Function.update_self, ← hold]
        exact hreset
      · exact hclear.1 q (by simpa [hqp] using hq)
    · rw [handler_set ho, if_neg (by rintro rfl; simp at hq)]
      exact h.2 q fun hmem => hq (by simp [hmem])
  · next e he =>
    refine .raising (Function.update outcome p (.ok res)) done p todo e hgroup rfl hclear ?_
    rw [Function.update_self, ← hold]
    exact he

omit [DecidableEq Span] in
/-- A step that leaves the caller and the handlers alone. -/
theorem Resetting.other (h : Resetting s m) (hc : m'.caller = m.caller)
    (hgroup : m'.group = m.group) (hhandler : ∀ p, m'.handler p = m.handler p) :
    Resetting s m' := by
  have hclear : ∀ {outcome done}, Cleared s m outcome done → Cleared s m' outcome done :=
    fun hcl => ⟨fun p hp => by rw [hhandler, hcl.1 p hp], fun p hp => by rw [hhandler, hcl.2 p hp]⟩
  rcases h with ⟨hpc, h⟩ | ⟨outcome, done, todo, r, hs, hpc, h⟩ |
    ⟨outcome, done, p, n, todo, r, hs, hpc, h⟩ | ⟨outcome, done, p, todo, x, hs, hpc, h, hx⟩
  · exact .starting (by rwa [hc, hgroup]) fun p => (hhandler p).trans (h p)
  · exact .asking outcome done todo r hs (hc.trans hpc) (hclear h)
  · exact .holding outcome done p n todo r hs (hc.trans hpc) (hclear h)
  · exact .raising outcome done p todo x hs (hc.trans hpc) (hclear h) hx

omit [DecidableEq Span] in
/-- The tests of a reset lead to the loop over the group. -/
theorem Resetting.next (h : Resetting s m) (hgroup : m.group = s.group) {pc : Caller}
    (hpc : m.callerNext m.caller = some pc) : Resetting s { m with caller := pc } := by
  have hclear : (∀ p, m.handler p = s.handler p) →
      Cleared s { m with caller := pc } (fun _ => .error .connectionError) [] :=
    fun hh => ⟨by simp, fun p _ => hh p⟩
  rcases h with ⟨hc | ⟨hc, hne⟩, h⟩ | ⟨outcome, done, todo, r, hs, hc, h⟩ |
    ⟨outcome, done, p, n, todo, r, hs, hc, h⟩ | ⟨outcome, done, p, todo, x, hs, hc, h, hx⟩
  · rw [hc, callerNext] at hpc
    split_ifs at hpc with htruthy <;> obtain rfl := Option.some.inj hpc
    · exact .starting (Or.inr ⟨rfl, truthy_iff.1 htruthy⟩) h
    · refine .asking _ [] [] 0 ?_ rfl (hclear h)
      rw [← hgroup]
      exact not_not.1 (mt truthy_iff.2 htruthy)
  · rw [hc, callerNext] at hpc
    split at hpc <;> obtain rfl := Option.some.inj hpc
    · next hsat =>
      rw [group, hsat] at hne
      exact absurd rfl hne
    · next ps hsat =>
      refine .asking _ [] ps 0 ?_ rfl (hclear h)
      rw [← hgroup, group, hsat]
      rfl
  · simp [hc, callerNext] at hpc
  · simp [hc, callerNext] at hpc
  · simp [hc, callerNext] at hpc

omit [DecidableEq Span] in
theorem Resetting.of_asking {c : Call} {todo : List ℕ} {r : ℤ} (h : Resetting s m)
    (hc : m.caller = .asking c todo r) :
    c = .reset ∧ ∃ outcome done, s.group = done ++ todo ∧ Cleared s m outcome done := by
  rcases h with ⟨hpc | ⟨hpc, -⟩, -⟩ | ⟨outcome, done, todo', r', hs, hpc, h⟩ |
    ⟨_, _, _, _, _, _, -, hpc, -⟩ | ⟨_, _, _, _, _, -, hpc, -, -⟩ <;>
    rw [hpc] at hc <;> cases hc
  exact ⟨rfl, outcome, done, hs, h⟩

omit [DecidableEq Span] in
theorem Resetting.of_holding {c : Call} {p n : ℕ} {todo : List ℕ} {r : ℤ} (h : Resetting s m)
    (hc : m.caller = .holding c p n todo r) :
    c = .reset ∧ ∃ outcome done, s.group = done ++ p :: todo ∧ Cleared s m outcome done := by
  rcases h with ⟨hpc | ⟨hpc, -⟩, -⟩ | ⟨_, _, _, _, -, hpc, -⟩ |
    ⟨outcome, done, p', n', todo', r', hs, hpc, h⟩ | ⟨_, _, _, _, _, -, hpc, -, -⟩ <;>
    rw [hpc] at hc <;> cases hc
  exact ⟨rfl, outcome, done, hs, h⟩

omit [DecidableEq Span] in
theorem Resetting.of_raising {x : GroupError} (h : Resetting s m) (hc : m.caller = .raising x) :
    ∃ outcome done p todo, s.group = done ++ p :: todo ∧ Cleared s m outcome done ∧
      (s.handler p).resetSpansReceived (outcome p) = .error x := by
  rcases h with ⟨hpc | ⟨hpc, -⟩, -⟩ | ⟨_, _, _, _, -, hpc, -⟩ | ⟨_, _, _, _, _, _, -, hpc, -⟩ |
    ⟨outcome, done, p, todo, x', hs, hpc, h, hx⟩ <;> rw [hpc] at hc <;> cases hc
  exact ⟨outcome, done, p, todo, hs, h, hx⟩

omit [DecidableEq Span] in
theorem respond_group (m : GroupSys Span) (c : Call) (p : ℕ) (o : Spawned Span) (res : Response)
    (todo : List ℕ) (r : ℤ) : (m.respond c p o res todo r).group = m.group := by
  unfold respond
  split <;> split <;> rfl

theorem Resetting.step {e : OpenEvent Span} (h : Resetting s m) (hnodup : s.group.Nodup)
    (hgroup : m.group = s.group) (he : openStep parse m e = some m')
    (hes : ∀ x, e = .group x → ¬OfAdmin x ∧ ¬CallEnds x) :
    Resetting s m' ∧ m'.group = s.group := by
  cases e with
  | answer k p res =>
    simp only [openStep] at he
    split at he
    · next k' p' todo r o hc ho =>
      split_ifs at he with hg
      obtain ⟨rfl, rfl⟩ := hg
      obtain rfl := Option.some.inj he
      obtain ⟨rfl, outcome, done, hs, hclear⟩ := h.of_asking hc
      exact ⟨hclear.respond hnodup hs ho res r, (respond_group _ _ _ _ _ _ _).trans hgroup⟩
    · simp at he
  | group x =>
    obtain ⟨hof, hend⟩ := hes x rfl
    have hsame : m'.group = m.group := by
      rw [group, ((step_admin he).resolve_left hof).2, group]
    refine ⟨?_, hsame.trans hgroup⟩
    rcases step_caller he with ⟨k, hc⟩ | ⟨pc, hc⟩ | ⟨k, p, todo, r, o, hc, ho⟩ |
      ⟨k, p, q, n, todo, r, hc, hp⟩ | ⟨k, p, n, todo, r, o, hc, ho⟩ | ⟨k, p, todo, r, hc, hp⟩ |
      ⟨k, v, hc⟩ | ⟨y, hc⟩ | ⟨hcaller, hc⟩
    · rcases h with ⟨hpc | ⟨hpc, -⟩, -⟩ | ⟨_, _, _, _, -, hpc, -⟩ | ⟨_, _, _, _, _, _, -, hpc, -⟩ |
        ⟨_, _, _, _, _, -, hpc, -, -⟩ <;> simp [hpc] at hc
    · exact h.next hgroup hc
    · obtain ⟨rfl, outcome, done, hs, hclear⟩ := h.of_asking hc
      exact .holding outcome done p _ todo r hs rfl hclear
    · obtain ⟨rfl, outcome, done, hs, hclear⟩ := h.of_asking hc
      exact .holding outcome done p n todo r hs rfl hclear
    · obtain ⟨rfl, outcome, done, hs, hclear⟩ := h.of_holding hc
      rw [receive_eq_respond]
      exact hclear.respond hnodup hs ho _ r
    · obtain ⟨rfl, outcome, done, hs, hclear⟩ := h.of_asking hc
      refine .raising (Function.update outcome p (.error .connectionError)) done p todo _ hs rfl
        (hclear.update (notMem_done hnodup hs) _) ?_
      rw [Function.update_self]
      rfl
    · exact absurd trivial hend
    · exact absurd trivial hend
    · refine h.other hc hsame (step_handler he ?_ ?_)
      · rintro port rfl
        exact hof trivial
      · rintro rfl
        exact hcaller trivial

/-- How far a reset of a group that nobody starts or stops has come. -/
theorem resetting_run {es : List (OpenEvent Span)} (hnodup : s.group.Nodup)
    (hes : ∀ x, OpenEvent.group x ∈ es → ¬OfAdmin x ∧ ¬CallEnds x)
    (h : run (openStep parse) s (.group (.call .reset) :: es) = some m) : Resetting s m := by
  obtain ⟨m₀, hcall, hrun⟩ := run_cons_eq_some.1 h
  simp only [openStep, GroupSys.step] at hcall
  split_ifs at hcall
  obtain rfl := Option.some.inj hcall
  suffices hreset : Resetting s m ∧ m.group = s.group from hreset.1
  refine run_induction (P := fun es (m : GroupSys Span) =>
    (∀ x, OpenEvent.group x ∈ es → ¬OfAdmin x ∧ ¬CallEnds x) →
      Resetting s m ∧ m.group = s.group) (fun _ => ?_) ?_ hrun hes
  · exact ⟨.starting (Or.inl rfl) fun _ => rfl, rfl⟩
  · intro es m e m' _ ih he hes
    obtain ⟨hreset, hgroup⟩ := ih fun x hx => hes x (by simp [hx])
    exact hreset.step hnodup hgroup he (by rintro x rfl; exact hes x (by simp))

/-- What the end of a call raises. -/
def raised? : GroupEvent Span → Option GroupError
  | .raised x => some x
  | _ => none

/-- A reset of a group that nobody starts or stops is the loop over its handlers, for some
outcomes of the requests. -/
theorem reset_run {t : GroupSys Span} {es : List (OpenEvent Span)} {e : GroupEvent Span}
    (hnodup : s.group.Nodup) (hes : ∀ x, OpenEvent.group x ∈ es → ¬OfAdmin x ∧ ¬CallEnds x)
    (he : CallEnds e)
    (h : run (openStep parse) s (.group (.call .reset) :: (es ++ [.group e])) = some t) :
    (∃ outcome : ℕ → Except GroupError Response,
      resetLoop (s.group.map fun p => (s.handler p, outcome p)) =
        (s.group.map t.handler, raised? e)) ∧ ∀ p ∉ s.group, t.handler p = s.handler p := by
  rw [← List.cons_append] at h
  obtain ⟨m, hm, hend⟩ := run_snoc_eq_some.1 h
  have hreset := resetting_run hnodup hes hm
  change m.step parse e = some t at hend
  cases e with
  | returned k v =>
    obtain ⟨hc, rfl⟩ := returned_idle hend
    obtain ⟨rfl, outcome, done, hs, hclear⟩ := hreset.of_asking hc
    rw [List.append_nil] at hs
    have hloop := resetLoop_map (fun p => (s.handler p, outcome p)) m.handler [] hclear.1
    simp only [List.append_nil, resetLoop, ← hs] at hloop
    exact ⟨⟨outcome, hloop⟩, fun p hp => hclear.2 p (hs ▸ hp)⟩
  | raised x =>
    simp only [GroupSys.step] at hend
    split_ifs at hend with hc
    obtain rfl := Option.some.inj hend
    obtain ⟨outcome, done, p, todo, hs, hclear, hx⟩ := hreset.of_raising hc
    refine ⟨⟨outcome, ?_⟩, fun q hq => hclear.2 q fun hmem => hq (by simp [hs, hmem])⟩
    -- the satellite that failed and those after it keep their baselines
    have hrest : (p :: todo).map m.handler = (p :: todo).map s.handler := by
      refine List.map_congr_left fun q hq => hclear.2 q fun hmem => ?_
      rw [hs] at hnodup
      exact (List.nodup_append.1 hnodup).2.2 q hmem q hq rfl
    have hloop := resetLoop_map (fun q => (s.handler q, outcome q)) m.handler
      ((p :: todo).map fun q => (s.handler q, outcome q)) hclear.1
    rw [← List.map_append, ← hs] at hloop
    rw [hloop, List.map_cons, resetLoop, hx, hs, List.map_append]
    refine Prod.ext (congrArg (done.map m.handler ++ ·) ?_) rfl
    refine Eq.trans ?_ hrest.symm
    simp
  | _ => exact absurd he id

end GroupSys

end TracerBench
