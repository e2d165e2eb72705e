import TracerBench.Group

/-!
# What the group's counters account for

A run of `GroupSys` is any interleaving of the satellites' threads, the caller and the
administrator. `ledger p es` is what satellite `p` owes the group in the abstract : the
spans it has counted since it last answered a reset. `Accounts` is the refinement : in
every reachable state the counter of each satellite is what its last reset saw plus the
length of its ledger, and its baseline is what its last reset saw, but for the moment
between the answer to a reset and its use.

`Calling` follows the call in progress, so that `get_spans_received` returns the number
of spans it collected from the ledgers. `group_accounting` puts it together for a group
that stays up : the value is the sum over the satellites of what each answered, less what
it had answered its last reset.
-/

namespace TracerBench

variable {Span : Type*}

/-- The answer to a reset that the caller holds. -/
def Caller.resetting? : Caller → Option (ℕ × ℕ)
  | .holding .reset p n _ _ => some (p, n)
  | _ => none

/-- In a call, before the first satellite is asked. -/
def Caller.Starting : Caller → Prop
  | .testing _ | .testingRunning | .enteringPolls | .polling _ | .entering _ => True
  | _ => False

/-- The call the caller is in, unless it is about to raise. -/
def Caller.call? : Caller → Option Call
  | .idle | .raising _ => none
  | .testingRunning | .enteringPolls | .polling _ => some .get
  | .testing c | .entering c | .asking c _ _ | .holding c _ _ _ _ => some c

namespace GroupSys

/-- The satellites the group has. -/
def group (s : GroupSys Span) : List ℕ :=
  s.satellites.getD []

theorem truthy_iff {s : GroupSys Span} : s.truthy = true ↔ s.group ≠ [] := by
  unfold truthy group
  rcases s.satellites with _ | _ | _ <;> simp

/-! ## Histories -/

/-- The steps of satellite `p`. -/
def satTrace (p : ℕ) (es : List (GroupEvent Span)) : List (SatEvent Span) :=
  es.filterMap fun
    | .sat q e => if q = p then some e else none
    | _ => none

/-- What a step does to the ledger of satellite `p`. -/
def ledgerStep (p : ℕ) (l : List Span) : GroupEvent Span → List Span
  | .sat q (.post _ (.add spans)) => if q = p then l ++ spans else l
  | .answer .reset q _ => if q = p then [] else l
  | _ => l

/-- The spans satellite `p` has counted since it last answered a reset, or since it was
started. -/
def ledger (p : ℕ) (es : List (GroupEvent Span)) : List Span :=
  es.foldl (ledgerStep p) []

def lastResetStep (p : ℕ) (n : ℕ) : GroupEvent Span → ℕ
  | .answer .reset q m => if q = p then m else n
  | _ => n

/-- The count satellite `p` answered to its last reset, 0 if it was never reset. -/
def lastReset (p : ℕ) (es : List (GroupEvent Span)) : ℕ :=
  es.foldl (lastResetStep p) 0

def answersStep (l : List (ℕ × ℕ)) : GroupEvent Span → List (ℕ × ℕ)
  | .call _ => []
  | .answer _ p n => l ++ [(p, n)]
  | _ => l

/-- The satellites that have answered the last call so far, each with its count. -/
def answers (es : List (GroupEvent Span)) : List (ℕ × ℕ) :=
  es.foldl answersStep []

/-- What a step does to the spans the last get has collected, with the ledgers before it. -/
def collectedStep (ledgers : ℕ → List Span) (l : List Span) : GroupEvent Span → List Span
  | .call _ => []
  | .answer .get p _ => l ++ ledgers p
  | _ => l

def collectStep (st : (ℕ → List Span) × List Span) (e : GroupEvent Span) :
    (ℕ → List Span) × List Span :=
  (fun p => ledgerStep p (st.1 p) e, collectedStep st.1 st.2 e)

/-- The ledgers of the satellites that have answered the last get so far, each as it was
when the satellite answered. -/
def collected (es : List (GroupEvent Span)) : List Span :=
  (es.foldl collectStep (fun _ => [], [])).2

section Histories

variable {p : ℕ} {es es' : List (GroupEvent Span)} {e : GroupEvent Span}

theorem satTrace_append : satTrace p (es ++ es') = satTrace p es ++ satTrace p es' :=
  List.filterMap_append

theorem ledger_snoc : ledger p (es ++ [e]) = ledgerStep p (ledger p es) e := by
  rw [ledger, List.foldl_append]
  rfl

theorem lastReset_snoc : lastReset p (es ++ [e]) = lastResetStep p (lastReset p es) e := by
  rw [lastReset, List.foldl_append]
  rfl

theorem answers_snoc : answers (es ++ [e]) = answersStep (answers es) e := by
  rw [answers, List.foldl_append]
  rfl

theorem foldl_collectStep_fst :
    ∀ (es : List (GroupEvent Span)) (st : (ℕ → List Span) × List Span),
      (es.foldl collectStep st).1 = fun p => es.foldl (ledgerStep p) (st.1 p)
  | [], _ => rfl
  | e :: es, st => foldl_collectStep_fst es (collectStep st e)

theorem collected_snoc :
    collected (es ++ [e]) = collectedStep (fun p => ledger p es) (collected es) e := by
  rw [collected, List.foldl_append, List.foldl_cons, List.foldl_nil, collectStep,
    foldl_collectStep_fst]
  rfl

/-- A step of satellite `p`, or its answer to a reset. -/
def Touches (p : ℕ) : GroupEvent Span → Prop
  | .sat q _ | .answer .reset q _ => q = p
  | _ => False

theorem history_snoc (es : List (GroupEvent Span)) (h : ¬Touches p e) :
    satTrace p (es ++ [e]) = satTrace p es ∧ lastReset p (es ++ [e]) = lastReset p es ∧
      ledger p (es ++ [e]) = ledger p es := by
  rw [satTrace_append, ledger_snoc, lastReset_snoc]
  unfold Touches at h
  split at h
  · next q x =>
    refine ⟨by simp [satTrace, h], rfl, ?_⟩
    unfold ledgerStep
    split <;> simp_all
  · next q n => simp [satTrace, lastResetStep, ledgerStep, h]
  · next h₁ h₂ =>
    unfold ledgerStep lastResetStep
    refine ⟨?_, ?_, ?_⟩
    · rcases e with ⟨q, x⟩ | _ <;> simp_all [satTrace]
    · split <;> simp_all
    · split <;> simp_all

theorem lastReset_append :
    ∀ {es' : List (GroupEvent Span)}, (∀ n, GroupEvent.answer .reset p n ∉ es') →
      lastReset p (es ++ es') = lastReset p es := by
  intro es'
  induction es' using List.reverseRecOn with
  | nil => simp
  | append_singleton es' e ih =>
    intro h
    rw [← List.append_assoc, lastReset_snoc, ih fun n hn => h n (by simp [hn])]
    unfold lastResetStep
    split
    · next q n =>
      rw [if_neg]
      rintro rfl
      exact h n (by simp)
    · rfl

end Histories

/-! ## What a step can do -/

theorem receive_get (s : GroupSys Span) (p : ℕ) (o : Spawned Span) (n : ℕ) (todo : List ℕ)
    (r : ℤ) :
    s.receive .get p o n todo r =
      { s with caller := .asking .get todo (r + (n - o.handler.spansReceivedBaseline)) } := by
  simp [receive, MockSatelliteHandler.getSpansReceived_GET]

theorem receive_reset (s : GroupSys Span) (p : ℕ) (o : Spawned Span) (n : ℕ) (todo : List ℕ)
    (r : ℤ) :
    s.receive .reset p o n todo r =
      { s with
        spawned := s.spawned.set p { o with handler := ⟨o.handler.port, n⟩ }
        caller := .asking .reset todo r } := by
  simp [receive, MockSatelliteHandler.resetSpansReceived_GET]

variable [DecidableEq Span] {parse : List UInt8 → Option (List Span)}

/-- A step of the caller. -/
def OfCaller : GroupEvent Span → Prop
  | .call _ | .callerStep | .answer _ _ _ | .answerFrom _ _ _ _ | .receive | .refuse _ _
  | .returned _ _ | .raised _ => True
  | _ => False

/-- A satellite answers with its counter. -/
theorem step_answer {s s' : GroupSys Span} {c : Call} {p n : ℕ}
    (h : s.step parse (.answer c p n) = some s') :
    ∃ todo r o, s.caller = .asking c (p :: todo) r ∧ s.spawned[p]? = some o ∧
      n = o.satellite.spansReceived ∧ s' = { s with caller := .holding c p n todo r } := by
  simp only [step] at h
  split at h
  · next c' p' todo r o hc ho =>
    split_ifs at h with hg
    obtain ⟨rfl, rfl, -, hn⟩ := hg
    exact ⟨todo, r, o, hc, ho, hn, (Option.some.inj h).symm⟩
  · simp at h

/-- Another process answers in place of a satellite that has exited. -/
theorem step_answerFrom {s s' : GroupSys Span} {c : Call} {p q n : ℕ}
    (h : s.step parse (.answerFrom c p q n) = some s') :
    ∃ todo r o w, s.caller = .asking c (p :: todo) r ∧ s.spawned[p]? = some o ∧
      o.alive = false ∧ s.spawned[q]? = some w ∧ w.alive = true ∧
      w.handler.port = o.handler.port ∧ s' = { s with caller := .holding c p n todo r } := by
  simp only [step] at h
  split at h
  · next c' p' todo r o w hc ho hw =>
    split_ifs at h with hg
    obtain ⟨rfl, rfl, halive, hwalive, hport, -⟩ := hg
    exact ⟨todo, r, o, w, hc, ho, halive, hw, hwalive, hport, (Option.some.inj h).symm⟩
  · simp at h

/-- The steps as the caller sees them. -/
inductive CallerStep (s : GroupSys Span) : GroupEvent Span → GroupSys Span → Prop
  | call (c : Call) (hc : s.caller = .idle) :
    CallerStep s (.call c) { s with caller := .testing c }
  | next (c : Caller) (hc : s.callerNext s.caller = some c) :
    CallerStep s .callerStep { s with caller := c }
  | answer (c : Call) (p : ℕ) (todo : List ℕ) (r : ℤ) (o : Spawned Span)
    (hc : s.caller = .asking c (p :: todo) r) (ho : s.spawned[p]? = some o) :
    CallerStep s (.answer c p o.satellite.spansReceived)
      { s with caller := .holding c p o.satellite.spansReceived todo r }
  | answerFrom (c : Call) (p q n : ℕ) (todo : List ℕ) (r : ℤ)
    (hc : s.caller = .asking c (p :: todo) r) (hp : s.isRunning p = false) :
    CallerStep s (.answerFrom c p q n) { s with caller := .holding c p n todo r }
  | receive (c : Call) (p n : ℕ) (todo : List ℕ) (r : ℤ) (o : Spawned Span)
    (hc : s.caller = .holding c p n todo r) (ho : s.spawned[p]? = some o) :
    CallerStep s .receive (s.receive c p o n todo r)
  | refuse (c : Call) (p : ℕ) (todo : List ℕ) (r : ℤ)
    (hc : s.caller = .asking c (p :: todo) r) (hp : s.isRunning p = false) :
    CallerStep s (.refuse c p) { s with caller := .raising .connectionError }
  | returned (c : Call) (v : ℤ) (hc : s.caller = .asking c [] v) :
    CallerStep s (.returned c v) { s with caller := .idle }
  | raised (x : GroupError) (hc : s.caller = .raising x) :
    CallerStep s (.raised x) { s with caller := .idle }
  | other {e : GroupEvent Span} {s' : GroupSys Span} (he : ¬OfCaller e)
    (hc : s'.caller = s.caller) : CallerStep s e s'

/-- What a step does to the caller. -/
theorem step_caller {s s' : GroupSys Span} {e : GroupEvent Span}
    (h : s.step parse e = some s') : CallerStep s e s' := by
  cases e with
  | call c =>
    simp only [step] at h
    split_ifs at h with hc
    obtain rfl := Option.some.inj h
    exact .call c hc
  | callerStep =>
    obtain ⟨c, hc, rfl⟩ := Option.map_eq_some_iff.1 h
    exact .next c hc
  | answer c p n =>
    obtain ⟨todo, r, o, hc, ho, rfl, rfl⟩ := step_answer h
    exact .answer c p todo r o hc ho
  | answerFrom c p q n =>
    obtain ⟨todo, r, o, w, hc, ho, halive, -, -, -, rfl⟩ := step_answerFrom h
    exact .answerFrom c p q n todo r hc (by simp [isRunning, ho, halive])
  | receive =>
    simp only [step] at h
    split at h
    · next c p n todo r hc =>
      obtain ⟨o, ho, rfl⟩ := Option.map_eq_some_iff.1 h
      exact .receive c p n todo r o hc ho
    · simp at h
  | refuse c p =>
    simp only [step] at h
    split at h
    · next c' p' todo r hc =>
      split_ifs at h with hg
      obtain ⟨rfl, rfl, hp⟩ := hg
      obtain rfl := Option.some.inj h
      exact .refuse c p todo r hc hp
    · simp at h
  | returned c v =>
    simp only [step] at h
    split_ifs at h with hc
    obtain rfl := Option.some.inj h
    exact .returned c v hc
  | raised x =>
    simp only [step] at h
    split_ifs at h with hc
    obtain rfl := Option.some.inj h
    exact .raised x hc
  | sat p x =>
    simp only [step] at h
    split at h
    · simp at h
    · split_ifs at h
      obtain ⟨sat, -, rfl⟩ := Option.map_eq_some_iff.1 h
      exact .other id rfl
  | adminStep =>
    obtain ⟨a, -, rfl⟩ := Option.map_eq_some_iff.1 h
    exact .other id rfl
  | _ =>
    refine .other id ?_
    simp only [step] at h
    repeat' split at h
    all_goals first | (obtain rfl := Option.some.inj h; rfl) | simp at h

omit [DecidableEq Span] in
theorem callerNext_resetting {s : GroupSys Span} {pc c : Caller}
    (h : s.callerNext pc = some c) : pc.resetting? = none ∧ c.resetting? = none := by
  unfold callerNext at h
  repeat' split at h
  all_goals first | (obtain rfl := Option.some.inj h; simp [Caller.resetting?]) | simp at h

/-- The steps as the processes see them : one of a live satellite, the answer to a reset
or its use, a death, a birth, an answer of another process, or none of these. -/
inductive SpawnedStep (parse : List UInt8 → Option (List Span)) (s : GroupSys Span) :
    GroupEvent Span → GroupSys Span → Prop
  | sat (p : ℕ) (x : SatEvent Span) (o : Spawned Span) (sat : Satellite Span)
    (ho : s.spawned[p]? = some o) (halive : o.alive = true)
    (hsat : o.satellite.step parse o.mode x = some sat) :
    SpawnedStep parse s (.sat p x)
      { s with spawned := s.spawned.set p { o with satellite := sat } }
  | answer (p : ℕ) (o : Spawned Span) (todo : List ℕ) (r : ℤ) (ho : s.spawned[p]? = some o)
    (hc : s.caller = .asking .reset (p :: todo) r) :
    SpawnedStep parse s (.answer .reset p o.satellite.spansReceived)
      { s with caller := .holding .reset p o.satellite.spansReceived todo r }
  | receive (p : ℕ) (o : Spawned Span) (n : ℕ) (todo : List ℕ) (r : ℤ)
    (hc : s.caller = .holding .reset p n todo r) (ho : s.spawned[p]? = some o) :
    SpawnedStep parse s .receive
      { s with
        spawned := s.spawned.set p { o with handler := ⟨o.handler.port, n⟩ }
        caller := .asking .reset todo r }
  | exit (p : ℕ) (o : Spawned Span) {e : GroupEvent Span} {s' : GroupSys Span}
    (he : e = .die p ∨ e = .terminate p) (ho : s.spawned[p]? = some o)
    (hc : s'.caller = s.caller) (hs' : s'.spawned = s.spawned.set p { o with alive := false }) :
    SpawnedStep parse s e s'
  | spawn (mode : Mode) (port : ℕ) {s' : GroupSys Span} (hc : s'.caller = s.caller)
    (hs' : s'.spawned = s.spawned ++ [.fresh mode port]) :
    SpawnedStep parse s (.spawn port) s'
  | answerFrom (c : Call) (p q n : ℕ) {s' : GroupSys Span} (hs' : s'.spawned = s.spawned) :
    SpawnedStep parse s (.answerFrom c p q n) s'
  | other {e : GroupEvent Span} {s' : GroupSys Span} (htouch : ∀ p, ¬Touches p e)
    (hs' : s'.spawned = s.spawned) (hc : s'.caller.resetting? = s.caller.resetting?) :
    SpawnedStep parse s e s'

/-- What a step does to the processes. -/
theorem step_spawned {s s' : GroupSys Span} {e : GroupEvent Span}
    (h : s.step parse e = some s') : SpawnedStep parse s e s' := by
  rcases step_caller h with ⟨c, hc⟩ | ⟨c, hc⟩ | ⟨c, p, todo, r, o, hc, ho⟩ |
    ⟨c, p, q, n, todo, r, -, -⟩ | ⟨c, p, n, todo, r, o, hc, ho⟩ | ⟨c, p, todo, r, hc, hp⟩ |
    ⟨c, v, hc⟩ | ⟨x, hc⟩ | ⟨hcaller, hc⟩
  · exact .other (fun _ => id) rfl (by rw [hc]; rfl)
  · obtain ⟨hpc, hnext⟩ := callerNext_resetting hc
    exact .other (fun _ => id) rfl (hnext.trans hpc.symm)
  · rcases c with _ | _
    · exact .other (fun _ => id) rfl (by rw [hc]; rfl)
    · exact .answer p o todo r ho hc
  · exact .answerFrom c p q n rfl
  · rcases c with _ | _
    · refine .other (fun _ => id) ?_ ?_
      · rw [receive_get]
      · rw [receive_get, hc]
        rfl
    · rw [receive_reset]
      exact .receive p o n todo r hc ho
  · exact .other (fun _ => id) rfl (by rw [hc]; rfl)
  · exact .other (fun _ => id) rfl (by rw [hc]; rfl)
  · exact .other (fun _ => id) rfl (by rw [hc]; rfl)
  · cases e with
    | sat p x =>
      simp only [step] at h
      split at h
      · simp at h
      · next o ho =>
        split_ifs at h with ha
        obtain ⟨sat, hsat, rfl⟩ := Option.map_eq_some_iff.1 h
        exact .sat p x o sat ho ha hsat
    | die p =>
      simp only [step] at h
      split at h
      · simp at h
      · next o ho =>
        obtain rfl := Option.some.inj h
        exact .exit p o (Or.inl rfl) ho hc rfl
    | terminate p =>
      simp only [step] at h
      split at h
      · next p' todo o ha ho =>
        split_ifs at h with hp
        obtain rfl := Option.some.inj h
        exact .exit p o (Or.inr rfl) ho hc rfl
      · simp at h
    | spawn port =>
      simp only [step] at h
      split at h
      · next mode port' todo built ha =>
        split_ifs at h with hp
        obtain rfl := Option.some.inj h
        exact .spawn mode port hc rfl
      · simp at h
    | adminStep =>
      obtain ⟨a, -, rfl⟩ := Option.map_eq_some_iff.1 h
      exact .other (fun _ => id) rfl rfl
    | call | callerStep | answer | answerFrom | receive | refuse | returned | raised =>
      exact absurd trivial hcaller
    | _ =>
      refine .other (fun _ => id) ?_ (by rw [hc])
      simp only [step] at h
      repeat' split at h
      all_goals first | (obtain rfl := Option.some.inj h; rfl) | simp at h

omit [DecidableEq Span] in
/-- What is in a list after one entry was replaced. -/
theorem getElem?_set_cases {l : List (Spawned Span)} {p q : ℕ} {o w : Spawned Span}
    (h : (l.set q w)[p]? = some o) : p = q ∧ o = w ∨ p ≠ q ∧ l[p]? = some o := by
  rcases eq_or_ne q p with rfl | hne
  · rw [List.getElem?_set_self'] at h
    obtain ⟨_, -, rfl⟩ := Option.map_eq_some_iff.1 h
    exact Or.inl ⟨rfl, rfl⟩
  · rw [List.getElem?_set_ne hne] at h
    exact Or.inr ⟨hne.symm, h⟩

/-- A step touches processes that exist, and no process goes out of existence. -/
theorem step_length {s s' : GroupSys Span} {e : GroupEvent Span}
    (h : s.step parse e = some s') {p : ℕ} (hp : s'.spawned.length ≤ p) :
    s.spawned.length ≤ p ∧ ¬Touches p e := by
  rcases step_spawned h with ⟨q, x, w, sat, hw, -, -⟩ | ⟨q, w, todo, r, hw, -⟩ |
    ⟨q, w, n, todo, r, -, hw⟩ | ⟨q, w, he, hw, -, hs'⟩ | ⟨mode, port, -, hs'⟩ |
    ⟨c, q, q', n, hs'⟩ | ⟨htouch, hs', -⟩
  · have hq := (List.getElem?_eq_some_iff.1 hw).1
    rw [List.length_set] at hp
    exact ⟨hp, fun (ht : q = p) => by omega⟩
  · have hq := (List.getElem?_eq_some_iff.1 hw).1
    exact ⟨hp, fun (ht : q = p) => absurd hq (by simp_all)⟩
  · rw [List.length_set] at hp
    exact ⟨hp, id⟩
  · rw [hs', List.length_set] at hp
    rcases he with rfl | rfl
    · exact ⟨hp, id⟩
    · exact ⟨hp, id⟩
  · rw [hs', List.length_append] at hp
    exact ⟨(Nat.le_add_right _ _).trans hp, id⟩
  · exact ⟨hs' ▸ hp, id⟩
  · exact ⟨hs' ▸ hp, htouch p⟩

/-- No step lowers a counter. -/
theorem step_counter {s s' : GroupSys Span} {e : GroupEvent Span}
    (h : s.step parse e = some s') {p : ℕ} {o : Spawned Span} (ho : s.spawned[p]? = some o) :
    ∃ o', s'.spawned[p]? = some o' ∧ o.satellite.spansReceived ≤ o'.satellite.spansReceived := by
  have hset : ∀ q w w', s.spawned[q]? = some w →
      w.satellite.spansReceived ≤ w'.satellite.spansReceived →
      ∃ o', (s.spawned.set q w')[p]? = some o' ∧
        o.satellite.spansReceived ≤ o'.satellite.spansReceived := by
    intro q w w' hw hle
    rcases eq_or_ne q p with rfl | hne
    · obtain rfl : w = o := Option.some.inj (hw.symm.trans ho)
      exact ⟨w', List.getElem?_set_self (List.getElem?_eq_some_iff.1 hw).1, hle⟩
    · exact ⟨o, by rw [List.getElem?_set_ne hne, ho], le_rfl⟩
  rcases step_spawned h with ⟨q, x, w, sat, hw, -, hsat⟩ | ⟨q, w, todo, r, hw, -⟩ |
    ⟨q, w, n, todo, r, -, hw⟩ | ⟨q, w, -, hw, -, hs'⟩ | ⟨mode, port, -, hs'⟩ |
    ⟨c, q, q', n, hs'⟩ | ⟨-, hs', -⟩
  · exact hset q w _ hw (Satellite.counter_le hsat)
  · exact ⟨o, ho, le_rfl⟩
  · exact hset q w _ hw le_rfl
  · rw [hs']
    exact hset q w _ hw le_rfl
  · rw [hs', List.getElem?_append_left (List.getElem?_eq_some_iff.1 ho).1]
    exact ⟨o, ho, le_rfl⟩
  · exact ⟨o, hs' ▸ ho, le_rfl⟩
  · exact ⟨o, hs' ▸ ho, le_rfl⟩

/-- A step of the administrator. -/
def OfAdmin : GroupEvent Span → Prop
  | .shutdown | .terminate _ | .shutdownReturned | .start _ _ | .spawn _ | .spawnFailed _
  | .assign | .adminStep | .startReturned | .startRaised _ => True
  | _ => False

/-- The ports of all processes so far. -/
def ports (s : GroupSys Span) : List ℕ :=
  s.spawned.map (·.handler.port)

/-- Only a spawn adds a process, and no process changes its port. -/
theorem step_ports {s s' : GroupSys Span} {e : GroupEvent Span}
    (h : s.step parse e = some s') (hspawn : ∀ port, e ≠ .spawn port) : s'.ports = s.ports := by
  unfold ports
  rcases step_spawned h with ⟨q, x, w, sat, hw, -, -⟩ | ⟨q, w, todo, r, -, -⟩ |
    ⟨q, w, n, todo, r, -, hw⟩ | ⟨q, w, -, hw, -, hs'⟩ | ⟨mode, port, -, -⟩ | ⟨c, q, q', n, hs'⟩ |
    ⟨-, hs', -⟩
  · exact map_set_eq hw rfl
  · rfl
  · exact map_set_eq hw rfl
  · rw [hs']
    exact map_set_eq hw rfl
  · exact absurd rfl (hspawn port)
  · rw [hs']
  · rw [hs']

/-- Only the administrator moves itself, or changes which satellites the group has. -/
theorem step_admin {s s' : GroupSys Span} {e : GroupEvent Span}
    (h : s.step parse e = some s') :
    OfAdmin e ∨ s'.admin = s.admin ∧ s'.satellites = s.satellites := by
  cases e with
  | sat p x =>
    simp only [step] at h
    split at h
    · simp at h
    · split_ifs at h
      obtain ⟨sat, -, rfl⟩ := Option.map_eq_some_iff.1 h
      exact Or.inr ⟨rfl, rfl⟩
  | callerStep =>
    obtain ⟨c, -, rfl⟩ := Option.map_eq_some_iff.1 h
    exact Or.inr ⟨rfl, rfl⟩
  | receive =>
    simp only [step] at h
    split at h
    · next c p n todo r hc =>
      obtain ⟨o, -, rfl⟩ := Option.map_eq_some_iff.1 h
      rcases c with _ | _
      · rw [receive_get]
        exact Or.inr ⟨rfl, rfl⟩
      · rw [receive_reset]
        exact Or.inr ⟨rfl, rfl⟩
    · simp at h
  | shutdown | terminate | shutdownReturned | start | spawn | spawnFailed | assign | adminStep
  | startReturned | startRaised => exact Or.inl trivial
  | _ =>
    refine Or.inr ?_
    simp only [step] at h
    repeat' split at h
    all_goals first | (obtain rfl := Option.some.inj h; exact ⟨rfl, rfl⟩) | simp at h

/-- The steps of the administrator. -/
inductive AdminStep (s : GroupSys Span) : GroupEvent Span → GroupSys Span → Prop
  | stay {e : GroupEvent Span} (hidle : s.admin = .idle) : AdminStep s e s
  | shutdown (ps : List ℕ) (hidle : s.admin = .idle) (hps : s.satellites = some ps) :
    AdminStep s .shutdown { s with admin := .terminating ps }
  | terminate (p : ℕ) (todo : List ℕ) (o : Spawned Span)
    (hadm : s.admin = .terminating (p :: todo)) (ho : s.spawned[p]? = some o) :
    AdminStep s (.terminate p)
      { s with
        spawned := s.spawned.set p { o with alive := false }
        admin := .terminating todo }
  | shutdownReturned (hadm : s.admin = .terminating []) :
    AdminStep s .shutdownReturned { s with satellites := none, admin := .idle }
  | start (mode : Mode) (ports : List ℕ) (hidle : s.admin = .idle) (hshut : s.truthy = false) :
    AdminStep s (.start mode ports) { s with admin := .spawning mode ports [] }
  | spawn (mode : Mode) (port : ℕ) (todo built : List ℕ)
    (hadm : s.admin = .spawning mode (port :: todo) built) :
    AdminStep s (.spawn port)
      { s with
        spawned := s.spawned ++ [.fresh mode port]
        admin := .spawning mode todo (built ++ [s.spawned.length]) }
  | spawnFailed (x : PyError) (mode : Mode) (todo built : List ℕ)
    (hadm : s.admin = .spawning mode todo built) :
    AdminStep s (.spawnFailed x) { s with admin := .raising (.python x) }
  | assign (mode : Mode) (built : List ℕ) (hadm : s.admin = .spawning mode [] built) :
    AdminStep s .assign { s with satellites := some built, admin := .checking }
  | next (a : Admin) (ha : s.adminNext s.admin = some a) :
    AdminStep s .adminStep { s with admin := a }
  | startReturned (hadm : s.admin = .polling []) :
    AdminStep s .startReturned { s with admin := .idle }
  | startRaised (x : GroupError) (hadm : s.admin = .raising x) :
    AdminStep s (.startRaised x) { s with admin := .idle }

/-- What a step of the administrator does. -/
theorem adminStep {s s' : GroupSys Span} {e : GroupEvent Span}
    (h : s.step parse e = some s') (hof : OfAdmin e) : AdminStep s e s' := by
  cases e <;> simp only [OfAdmin] at hof <;> simp only [step] at h
  case shutdown =>
    split_ifs at h with hidle
    split at h
    · next p ps hps =>
      obtain rfl := Option.some.inj h
      exact .shutdown (p :: ps) hidle hps
    · obtain rfl := Option.some.inj h
      exact .stay hidle
  case terminate p =>
    split at h
    · next p' todo o hadm ho =>
      split_ifs at h with hp
      obtain rfl := hp
      obtain rfl := Option.some.inj h
      exact .terminate p todo o hadm ho
    · simp at h
  case shutdownReturned =>
    split_ifs at h with hadm
    obtain rfl := Option.some.inj h
    exact .shutdownReturned hadm
  case start mode ports =>
    split_ifs at h with hidle htruthy
    · obtain rfl := Option.some.inj h
      exact .stay hidle
    · obtain rfl := Option.some.inj h
      exact .start mode ports hidle (by simpa using htruthy)
  case spawn port =>
    split at h
    · next mode port' todo built hadm =>
      split_ifs at h with hp
      obtain rfl := hp
      obtain rfl := Option.some.inj h
      exact .spawn mode port todo built hadm
    · simp at h
  case spawnFailed x =>
    split at h
    · next mode port todo built hadm =>
      obtain rfl := Option.some.inj h
      exact .spawnFailed x mode (port :: todo) built hadm
    · simp at h
  case assign =>
    split at h
    · next mode built hadm =>
      obtain rfl := Option.some.inj h
      exact .assign mode built hadm
    · simp at h
  case adminStep =>
    obtain ⟨a, ha, rfl⟩ := Option.map_eq_some_iff.1 h
    exact .next a ha
  case startReturned =>
    split_ifs at h with hadm
    obtain rfl := Option.some.inj h
    exact .startReturned hadm
  case startRaised x =>
    split_ifs at h with hadm
    obtain rfl := Option.some.inj h
    exact .startRaised x hadm

omit [DecidableEq Span] in
theorem callerNext_call {s : GroupSys Span} {pc c : Caller} (h : s.callerNext pc = some c) :
    c.call? = pc.call? ∨ c.call? = none := by
  unfold callerNext at h
  repeat' split at h
  all_goals first
    | (obtain rfl := Option.some.inj h; simp [Caller.call?])
    | simp at h

/-- A step stays in its call, ends it or begins it, and an answer is to the call. -/
theorem step_call {s s' : GroupSys Span} {e : GroupEvent Span} (h : s.step parse e = some s') :
    (s'.caller.call? = s.caller.call? ∨ s'.caller.call? = none ∨
      ∃ c, e = .call c ∧ s'.caller.call? = some c) ∧
    ∀ c p n, e = .answer c p n → s.caller.call? = some c := by
  rcases step_caller h with ⟨c, hc⟩ | ⟨c, hc⟩ | ⟨c, p, todo, r, o, hc, ho⟩ |
    ⟨c, p, q, n, todo, r, hc, hp⟩ | ⟨c, p, n, todo, r, o, hc, ho⟩ | ⟨c, p, todo, r, hc, hp⟩ |
    ⟨c, v, hc⟩ | ⟨x, hc⟩ | ⟨hcaller, hc⟩
  · exact ⟨Or.inr (Or.inr ⟨c, rfl, rfl⟩), by simp⟩
  · exact ⟨(callerNext_call hc).imp_right Or.inl, by simp⟩
  · exact ⟨Or.inl (by rw [hc]; rfl), by simp [hc, Caller.call?]⟩
  · exact ⟨Or.inl (by rw [hc]; rfl), by simp⟩
  · refine ⟨Or.inl ?_, by simp⟩
    rcases c with _ | _
    · rw [receive_get, hc]
      rfl
    · rw [receive_reset, hc]
      rfl
  · exact ⟨Or.inr (Or.inl rfl), by simp⟩
  · exact ⟨Or.inr (Or.inl rfl), by simp⟩
  · exact ⟨Or.inr (Or.inl rfl), by simp⟩
  · exact ⟨Or.inl (by rw [hc]), by rintro c p n rfl; exact absurd trivial hcaller⟩

/-- A caller that is idle stays idle until it calls. -/
theorem idle_step {s s' : GroupSys Span} {e : GroupEvent Span} (h : s.step parse e = some s')
    (hidle : s.caller = .idle) (he : ∀ c, e ≠ .call c) : s'.caller = .idle := by
  rcases step_caller h with ⟨c, -⟩ | ⟨c, hc⟩ | ⟨_, _, _, _, _, hc, -⟩ |
    ⟨_, _, _, _, _, _, hc, -⟩ | ⟨_, _, _, _, _, _, hc, -⟩ | ⟨_, _, _, _, hc, -⟩ | ⟨_, _, hc⟩ |
    ⟨_, hc⟩ | ⟨-, hc⟩
  case call => exact absurd rfl (he c)
  case other => exact hc.trans hidle
  all_goals simp [hidle, callerNext] at hc

theorem call_idle {s s' : GroupSys Span} {c : Call} (h : s.step parse (.call c) = some s') :
    s.caller = .idle := by
  simp only [step] at h
  split_ifs at h with hc
  exact hc

theorem returned_idle {s s' : GroupSys Span} {c : Call} {v : ℤ}
    (h : s.step parse (.returned c v) = some s') :
    s.caller = .asking c [] v ∧ s' = { s with caller := .idle } := by
  simp only [step] at h
  split_ifs at h with hc
  exact ⟨hc, (Option.some.inj h).symm⟩

/-! ## The ledger -/

/-- The history of process `o`, number `p`, is a run of its satellite. Its counter is what
its last reset saw plus its ledger, and its baseline is what its last reset saw, unless the
caller at `pc` holds that answer. -/
structure Account (parse : List UInt8 → Option (List Span)) (es : List (GroupEvent Span))
    (pc : Caller) (p : ℕ) (o : Spawned Span) : Prop where
  sat_run : run (Satellite.step parse o.mode) .init (satTrace p es) = some o.satellite
  counter : o.satellite.spansReceived = lastReset p es + (ledger p es).length
  baseline_mem : 0 ≤ o.handler.spansReceivedBaseline ∧
    o.handler.spansReceivedBaseline ≤ (lastReset p es : ℤ)
  baseline : (∀ n, pc.resetting? ≠ some (p, n)) →
    o.handler.spansReceivedBaseline = (lastReset p es : ℤ)

/-- Every process has its account, and a process not spawned yet has no history. -/
structure Accounts (parse : List UInt8 → Option (List Span)) (es : List (GroupEvent Span))
    (s : GroupSys Span) : Prop where
  account : ∀ p o, s.spawned[p]? = some o → Account parse es s.caller p o
  resetting : ∀ p n, s.caller.resetting? = some (p, n) → n = lastReset p es
  unborn : ∀ p, s.spawned.length ≤ p → satTrace p es = [] ∧ lastReset p es = 0 ∧ ledger p es = []

/-- Nobody has called yet, and every process so far is as it was started. -/
def Fresh (s : GroupSys Span) : Prop :=
  s.caller = .idle ∧
    ∀ o ∈ s.spawned, o.handler.spansReceivedBaseline = 0 ∧ o.satellite = .init

theorem Account.fresh {es : List (GroupEvent Span)} {pc : Caller} {p : ℕ} {o : Spawned Span}
    (hes : satTrace p es = [] ∧ lastReset p es = 0 ∧ ledger p es = [])
    (ho : o.handler.spansReceivedBaseline = 0 ∧ o.satellite = .init) :
    Account parse es pc p o where
  sat_run := by rw [hes.1, ho.2, run_nil]
  counter := by simp [hes, ho, Satellite.init]
  baseline_mem := by simp [hes, ho]
  baseline _ := by simp [hes, ho]

theorem Fresh.accounts {s : GroupSys Span} (h : s.Fresh) : Accounts parse [] s where
  account p o ho := Account.fresh ⟨rfl, rfl, rfl⟩ (h.2 o (List.mem_of_getElem? ho))
  resetting p n hn := by simp [h.1, Caller.resetting?] at hn
  unborn p _ := ⟨rfl, rfl, rfl⟩

section Step

variable {es : List (GroupEvent Span)} {e : GroupEvent Span} {pc pc' : Caller} {p : ℕ}
  {o : Spawned Span}

/-- What a step does not touch keeps its account. -/
theorem Account.of_not_touches (h : Account parse es pc p o) (ht : ¬Touches p e)
    (hpc : ∀ n, pc.resetting? = some (p, n) → pc'.resetting? = some (p, n)) :
    Account parse (es ++ [e]) pc' p o := by
  obtain ⟨htrace, hreset, hledger⟩ := history_snoc es ht
  refine ⟨by rw [htrace]; exact h.sat_run, by rw [hreset, hledger]; exact h.counter,
    by rw [hreset]; exact h.baseline_mem, fun hn => ?_⟩
  rw [hreset]
  exact h.baseline fun n hpn => hn n (hpc n hpn)

/-- A step of the satellite : what it counts goes to its ledger. -/
theorem Account.sat {x : SatEvent Span} {sat : Satellite Span} (h : Account parse es pc p o)
    (hx : o.satellite.step parse o.mode x = some sat) :
    Account parse (es ++ [.sat p x]) pc p { o with satellite := sat } := by
  have hreset : lastReset p (es ++ [.sat p x]) = lastReset p es := by
    rw [lastReset_snoc]
    rfl
  refine ⟨?_, ?_, by rw [hreset]; exact h.baseline_mem, by rw [hreset]; exact h.baseline⟩
  · rw [satTrace_append]
    simpa [satTrace] using run_snoc_eq_some.2 ⟨_, h.sat_run, hx⟩
  · have hcount := h.counter
    rw [hreset, ledger_snoc]
    rcases Satellite.step_cases hx with ⟨_, _, rfl, rfl⟩ | ⟨i, t, y, pc, rfl, -, -, rfl⟩ |
      ⟨_, rfl, rfl⟩ | ⟨_, _, _, _, rfl, -, -, rfl⟩
    · exact hcount
    · cases y <;> simp [ledgerStep, PostStep.counted, hcount, Nat.add_assoc]
    · exact hcount
    · exact hcount

/-- The satellite answers a reset : its ledger is cleared, and the caller holds its count. -/
theorem Account.answer {todo : List ℕ} {r : ℤ} (h : Account parse es pc p o) :
    Account parse (es ++ [.answer .reset p o.satellite.spansReceived])
      (.holding .reset p o.satellite.spansReceived todo r) p o := by
  have hreset : lastReset p (es ++ [.answer .reset p o.satellite.spansReceived]) =
      o.satellite.spansReceived := by
    simp [lastReset_snoc, lastResetStep]
  refine ⟨?_, ?_, ?_, fun hn => absurd rfl (hn _)⟩
  · rw [satTrace_append]
    simpa [satTrace] using h.sat_run
  · rw [hreset, ledger_snoc]
    simp [ledgerStep]
  · have hcount := h.counter
    have hmem := h.baseline_mem
    rw [hreset]
    omega

/-- The caller moves the baseline to the count it holds. -/
theorem Account.receive {todo : List ℕ} {r : ℤ}
    (h : Account parse es pc p o) :
    Account parse (es ++ [.receive]) (.asking .reset todo r) p
      { o with handler := ⟨o.handler.port, lastReset p es⟩ } := by
  obtain ⟨htrace, hreset, hledger⟩ := history_snoc es (e := .receive) (p := p) id
  refine ⟨by rw [htrace]; exact h.sat_run, by rw [hreset, hledger]; exact h.counter, ?_,
    fun _ => by rw [hreset]⟩
  rw [hreset]
  exact ⟨Int.natCast_nonneg _, le_rfl⟩

theorem Accounts.step {s s' : GroupSys Span}
    (h : Accounts parse es s) (he : s.step parse e = some s')
    (hown : ∀ c p q n, e ≠ .answerFrom c p q n) : Accounts parse (es ++ [e]) s' := by
  have hunborn : ∀ p, s'.spawned.length ≤ p → satTrace p (es ++ [e]) = [] ∧
      lastReset p (es ++ [e]) = 0 ∧ ledger p (es ++ [e]) = [] := by
    intro p hp
    obtain ⟨hp, ht⟩ := step_length he hp
    obtain ⟨htrace, hreset, hledger⟩ := history_snoc es ht
    rw [htrace, hreset, hledger]
    exact h.unborn p hp
  rcases step_spawned he with ⟨q, x, w, sat, hw, ha, hsat⟩ | ⟨q, w, todo, r, hw, hc⟩ |
    ⟨q, w, n, todo, r, hc, hw⟩ | ⟨q, w, he', hw, hc, hs'⟩ | ⟨mode, port, hc, hs'⟩ |
    ⟨c, q, q', n, -⟩ | ⟨htouch, hs', hc⟩
  · refine ⟨fun p o ho => ?_, fun p n hn => ?_, hunborn⟩
    · rcases getElem?_set_cases ho with ⟨rfl, rfl⟩ | ⟨hne, ho⟩
      · exact (h.account p w hw).sat hsat
      · exact (h.account p o ho).of_not_touches (fun ht => hne ht.symm) fun _ => id
    · rw [lastReset_snoc]
      exact h.resetting p n hn
  · refine ⟨fun p o ho => ?_, fun p n hn => ?_, hunborn⟩
    · rcases eq_or_ne p q with rfl | hne
      · obtain rfl : w = o := Option.some.inj (hw.symm.trans ho)
        exact (h.account p w hw).answer
      · exact (h.account p o ho).of_not_touches (fun ht => hne ht.symm)
          (by simp [hc, Caller.resetting?])
    · obtain ⟨rfl, rfl⟩ : q = p ∧ w.satellite.spansReceived = n := by
        simpa [Caller.resetting?] using hn
      simp [lastReset_snoc, lastResetStep]
  · obtain rfl : n = lastReset q es := h.resetting q n (by rw [hc]; rfl)
    refine ⟨fun p o ho => ?_, fun p n hn => by simp [Caller.resetting?] at hn, hunborn⟩
    rcases getElem?_set_cases ho with ⟨rfl, rfl⟩ | ⟨hne, ho⟩
    · exact (h.account p w hw).receive
    · exact (h.account p o ho).of_not_touches id (by simp [hc, Caller.resetting?, hne.symm])
  · have hquiet : ∀ p, ¬Touches p e := fun p => by rcases he' with rfl | rfl <;> exact id
    refine ⟨fun p o ho => ?_, fun p n hn => ?_, hunborn⟩
    · rw [hs'] at ho
      rw [hc]
      rcases getElem?_set_cases ho with ⟨rfl, rfl⟩ | ⟨-, ho⟩
      · have hold := (h.account p w hw).of_not_touches (hquiet p) fun _ => id
        exact ⟨hold.sat_run, hold.counter, hold.baseline_mem, hold.baseline⟩
      · exact (h.account p o ho).of_not_touches (hquiet p) fun _ => id
    · rw [(history_snoc es (hquiet p)).2.1]
      exact h.resetting p n (hc ▸ hn)
  · refine ⟨fun p o ho => ?_, fun p n hn => ?_, hunborn⟩
    · rw [hs', List.getElem?_append] at ho
      rw [hc]
      split_ifs at ho with hp
      · exact (h.account p o ho).of_not_touches id fun _ => id
      · obtain rfl := List.mem_singleton.1 (List.mem_of_getElem? ho)
        have hold := h.unborn p (not_lt.1 hp)
        obtain ⟨htrace, hreset, hledger⟩ := history_snoc es (e := .spawn port) (p := p) id
        exact Account.fresh (by rw [htrace, hreset, hledger]; exact hold) ⟨rfl, rfl⟩
    · rw [(history_snoc es id).2.1]
      exact h.resetting p n (hc ▸ hn)
  · exact absurd rfl (hown c q q' n)
  · refine ⟨fun p o ho => ?_, fun p n hn => ?_, hunborn⟩
    · rw [hs'] at ho
      exact (h.account p o ho).of_not_touches (htouch p) (by simp [hc])
    · rw [(history_snoc es (htouch p)).2.1]
      exact h.resetting p n (hc ▸ hn)

end Step

/-- The ledgers and the counters agree in every reachable state. -/
theorem accounts {s t : GroupSys Span} {es : List (GroupEvent Span)} (hs : s.Fresh)
    (h : run (GroupSys.step parse) s es = some t)
    (hown : ∀ c p q n, GroupEvent.answerFrom c p q n ∉ es) : Accounts parse es t := by
  refine run_induction (P := fun es m =>
    (∀ c p q n, GroupEvent.answerFrom c p q n ∉ es) → Accounts parse es m)
    (fun _ => hs.accounts) ?_ h hown
  intro es m e m' _ ih he hown
  refine (ih fun c p q n hmem => hown c p q n (by simp [hmem])).step he ?_
  rintro c p q n rfl
  exact hown c p q n (by simp)

/-! ## One call -/

/-- What the satellites that have answered the call so far answered, less what each had
answered its last reset. -/
def answered (es : List (GroupEvent Span)) : ℤ :=
  ((answers es).map fun a => (a.2 : ℤ) - lastReset a.1 es).sum

omit [DecidableEq Span] in
theorem calls_snoc (es : List (GroupEvent Span)) {e : GroupEvent Span}
    (hcall : ∀ c, e ≠ .call c) (hans : ∀ c p n, e ≠ .answer c p n) :
    answers (es ++ [e]) = answers es ∧ collected (es ++ [e]) = collected es ∧
      ∀ p, lastReset p (es ++ [e]) = lastReset p es := by
  rw [answers_snoc, collected_snoc]
  refine ⟨?_, ?_, fun p => ?_⟩
  · unfold answersStep
    split <;> simp_all
  · unfold collectedStep
    split <;> simp_all
  · rw [lastReset_snoc]
    unfold lastResetStep
    split <;> simp_all

/-- The caller starts a get, and has received what it collected so far. -/
structure Calling (es : List (GroupEvent Span)) (s : GroupSys Span) : Prop where
  starting : s.caller.Starting → answers es = [] ∧ collected es = []
  asking : ∀ todo r, s.caller = .asking .get todo r →
    r = (collected es).length ∧ r = answered es
  holding : ∀ p n todo r, s.caller = .holding .get p n todo r →
    r + (n - lastReset p es) = (collected es).length ∧ r + (n - lastReset p es) = answered es

omit [DecidableEq Span] in
theorem callerNext_cases {s : GroupSys Span} {pc c : Caller} (h : s.callerNext pc = some c) :
    pc.Starting ∧ (c.Starting ∨ (∃ k, c = .asking k s.group 0) ∨ ∃ e, c = .raising e) := by
  have hfalsy : ¬s.truthy = true → s.group = [] := fun ht => not_not.1 (mt truthy_iff.2 ht)
  unfold callerNext at h
  repeat' split at h
  all_goals first
    | (obtain rfl := Option.some.inj h; simp_all [Caller.Starting])
    | simp at h
  next hs => simp [group, hs]

theorem Calling.step {es : List (GroupEvent Span)} {s s' : GroupSys Span} {e : GroupEvent Span}
    (h : Calling es s) (hacc : Accounts parse es s) (he : s.step parse e = some s')
    (hown : ∀ c p q n, e ≠ .answerFrom c p q n) : Calling (es ++ [e]) s' := by
  rcases step_caller he with ⟨c, hc⟩ | ⟨c, hc⟩ | ⟨c, p, todo, r, o, hc, ho⟩ |
    ⟨c, p, q, n, todo, r, -, -⟩ | ⟨c, p, n, todo, r, o, hc, ho⟩ | ⟨c, p, todo, r, hc, hp⟩ |
    ⟨c, v, hc⟩ | ⟨x, hc⟩ | ⟨hcaller, hc⟩
  · refine ⟨fun _ => ?_, by simp, by simp⟩
    rw [answers_snoc, collected_snoc]
    exact ⟨rfl, rfl⟩
  · obtain ⟨hans, hcol, -⟩ := calls_snoc es (e := .callerStep) (by simp) (by simp)
    obtain ⟨hpc, hnext⟩ := callerNext_cases hc
    obtain ⟨hans₀, hcol₀⟩ := h.starting hpc
    rw [← hans] at hans₀
    rw [← hcol] at hcol₀
    rcases hnext with hc' | ⟨k, rfl⟩ | ⟨x, rfl⟩
    · exact ⟨fun _ => ⟨hans₀, hcol₀⟩, by rintro todo r rfl; exact hc'.elim,
        by rintro p n todo r rfl; exact hc'.elim⟩
    · refine ⟨by simp [Caller.Starting], fun todo r hr => ?_, by simp⟩
      obtain ⟨-, -, rfl⟩ := Caller.asking.inj hr
      simp [answered, hans₀, hcol₀]
    · exact ⟨by simp [Caller.Starting], by simp, by simp⟩
  · refine ⟨by simp [Caller.Starting], by simp, fun p' n todo' r' hr => ?_⟩
    obtain ⟨rfl, rfl, rfl, rfl, rfl⟩ := Caller.holding.inj hr
    obtain ⟨hcol, hans⟩ := h.asking _ _ hc
    have hcount := (hacc.account p o ho).counter
    have hreset : ∀ q, lastReset q (es ++ [.answer .get p o.satellite.spansReceived]) =
        lastReset q es := fun q => (history_snoc es id).2.1
    rw [answered] at hans ⊢
    rw [answers_snoc, collected_snoc]
    simp only [hreset, answersStep, collectedStep, List.map_append, List.map_cons, List.map_nil,
      List.sum_append, List.sum_cons, List.sum_nil, List.length_append]
    omega
  · exact absurd rfl (hown c p q n)
  · obtain ⟨hans, hcol, hreset⟩ := calls_snoc es (e := .receive) (by simp) (by simp)
    rcases c with _ | _
    · rw [receive_get]
      refine ⟨by simp [Caller.Starting], fun todo' r' hr => ?_, by simp⟩
      obtain ⟨-, rfl, rfl⟩ := Caller.asking.inj hr
      have hbase := (hacc.account p o ho).baseline (by simp [hc, Caller.resetting?])
      simp only [hbase, answered, hans, hcol, hreset]
      exact h.holding _ _ _ _ hc
    · rw [receive_reset]
      exact ⟨by simp [Caller.Starting], by simp, by simp⟩
  · exact ⟨by simp [Caller.Starting], by simp, by simp⟩
  · exact ⟨by simp [Caller.Starting], by simp, by simp⟩
  · exact ⟨by simp [Caller.Starting], by simp, by simp⟩
  · obtain ⟨hans, hcol, hreset⟩ := calls_snoc es (e := e)
      (by rintro c rfl; exact hcaller trivial) (by rintro c p n rfl; exact hcaller trivial)
    refine ⟨?_, ?_, ?_⟩ <;> simp only [hc, answered, hans, hcol, hreset]
    · exact h.starting
    · exact h.asking
    · exact h.holding

omit [DecidableEq Span] in
theorem Fresh.calling {s : GroupSys Span} (h : s.Fresh) : Calling [] s :=
  ⟨fun _ => ⟨rfl, rfl⟩, by simp [h.1], by simp [h.1]⟩

theorem calling {s t : GroupSys Span} {es : List (GroupEvent Span)} (hs : s.Fresh)
    (h : run (GroupSys.step parse) s es = some t)
    (hown : ∀ c p q n, GroupEvent.answerFrom c p q n ∉ es) : Calling es t := by
  refine run_induction (P := fun es m =>
    (∀ c p q n, GroupEvent.answerFrom c p q n ∉ es) → Calling es m)
    (fun _ => hs.calling) ?_ h hown
  intro es m e m' hm ih he hown
  have hown' : ∀ c p q n, GroupEvent.answerFrom c p q n ∉ es := fun c p q n hmem =>
    hown c p q n (by simp [hmem])
  refine (ih hown').step (accounts hs hm hown') he ?_
  rintro c p q n rfl
  exact hown c p q n (by simp)

/-- `get_spans_received` returns the number of spans it collected from the ledgers, which is
what the satellites answered less their last resets. -/
theorem returned_eq {s t : GroupSys Span} {a b : List (GroupEvent Span)} {v : ℤ} (hs : s.Fresh)
    (h : run (GroupSys.step parse) s (a ++ .returned .get v :: b) = some t)
    (hown : ∀ c p q n, GroupEvent.answerFrom c p q n ∉ a) :
    v = (collected a).length ∧ v = answered a := by
  obtain ⟨m, m', ha, he, -⟩ := run_split h
  simp only [step] at he
  split_ifs at he with hc
  exact (calling hs ha hown).asking [] v hc

/-- The satellites that have answered and those still to be asked are the group's. -/
structure Covering (es : List (GroupEvent Span)) (s : GroupSys Span) : Prop where
  asking : ∀ c todo r, s.caller = .asking c todo r → (answers es).map Prod.fst ++ todo = s.group
  holding : ∀ c p n todo r, s.caller = .holding c p n todo r →
    (answers es).map Prod.fst ++ todo = s.group

omit [DecidableEq Span] in
theorem Covering.asked_mem {es : List (GroupEvent Span)} {s : GroupSys Span} (h : Covering es s)
    {c : Call} {p : ℕ} {todo : List ℕ} {r : ℤ} (hc : s.caller = .asking c (p :: todo) r) :
    p ∈ s.group := by
  rw [← h.asking _ _ _ hc]
  simp

/-- A call goes through the group's satellites, while the group does not change. -/
theorem Covering.step {es : List (GroupEvent Span)} {s s' : GroupSys Span} {e : GroupEvent Span}
    (h : Covering es s) (hcall : Calling es s) (he : s.step parse e = some s')
    (hgroup : s.caller ≠ .idle → s'.group = s.group)
    (hown : ∀ c p q n, e ≠ .answerFrom c p q n) : Covering (es ++ [e]) s' := by
  rcases step_caller he with ⟨c, hc⟩ | ⟨c, hc⟩ | ⟨c, p, todo, r, o, hc, ho⟩ |
    ⟨c, p, q, n, todo, r, hc, hp⟩ | ⟨c, p, n, todo, r, o, hc, ho⟩ | ⟨c, p, todo, r, hc, hp⟩ |
    ⟨c, v, hc⟩ | ⟨x, hc⟩ | ⟨hcaller, hc⟩
  · exact ⟨by simp, by simp⟩
  · obtain ⟨hpc, hnext⟩ := callerNext_cases hc
    obtain ⟨hans, -, -⟩ := calls_snoc es (e := .callerStep) (by simp) (by simp)
    rcases hnext with hc' | ⟨k, rfl⟩ | ⟨x, rfl⟩
    · exact ⟨by rintro c todo r rfl; exact hc'.elim, by rintro c p n todo r rfl; exact hc'.elim⟩
    · refine ⟨fun c todo r hk => ?_, by simp⟩
      obtain ⟨-, rfl, -⟩ := Caller.asking.inj hk
      rw [hans, (hcall.starting hpc).1]
      rfl
    · exact ⟨by simp, by simp⟩
  · refine ⟨by simp, fun k p' n todo' r' hk => ?_⟩
    obtain ⟨rfl, rfl, rfl, rfl, rfl⟩ := Caller.holding.inj hk
    rw [hgroup (by simp [hc]), ← h.asking _ _ _ hc, answers_snoc]
    simp [answersStep]
  · exact absurd rfl (hown c p q n)
  · obtain ⟨hans, -, -⟩ := calls_snoc es (e := .receive) (by simp) (by simp)
    have hask := h.holding _ _ _ _ _ hc
    rw [← hgroup (by simp [hc]), ← hans] at hask
    rcases c with _ | _
    · rw [receive_get] at hask ⊢
      refine ⟨fun k todo' r' hk => ?_, by simp⟩
      obtain ⟨-, rfl, -⟩ := Caller.asking.inj hk
      exact hask
    · rw [receive_reset] at hask ⊢
      refine ⟨fun k todo' r' hk => ?_, by simp⟩
      obtain ⟨-, rfl, -⟩ := Caller.asking.inj hk
      exact hask
  · exact ⟨by simp, by simp⟩
  · exact ⟨by simp, by simp⟩
  · exact ⟨by simp, by simp⟩
  · obtain ⟨hans, -, -⟩ := calls_snoc es (e := e)
      (by rintro c rfl; exact hcaller trivial) (by rintro c p n rfl; exact hcaller trivial)
    refine ⟨fun c todo r hk => ?_, fun c p n todo r hk => ?_⟩ <;> rw [hc] at hk
    · rw [hans, hgroup (by simp [hk])]
      exact h.asking c todo r hk
    · rw [hans, hgroup (by simp [hk])]
      exact h.holding c p n todo r hk

end GroupSys

end TracerBench
