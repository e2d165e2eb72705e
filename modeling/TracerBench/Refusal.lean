import TracerBench.Attribution
import TracerBench.Controller
import TracerBench.GroupCalls

/-!
# Benchmarks of groups that are not running

`benchmark` leaves it to `reset_spans_received` to raise when the satellites are not running.
A reset of a group that was shut down does nothing and returns. It never polls either : where
a satellite has died, whoever listens on its port answers for it, one of the group's processes
or a satellite of another group. `Bench.openStep` is `Bench.step` with the answers of such
others. `benchmark` is sure to raise before it starts its client only for arguments it rejects
itself, or if on the port of one of the group's satellites nobody reports a counter
(`benchmark_refused_iff`).
-/

namespace TracerBench

variable {Span : Type*}

namespace GroupSys

/-! ## Who serves a port -/

/-- A process that is running has the port of satellite `p`. -/
def Answers (s : GroupSys Span) (p : ℕ) : Prop :=
  ∃ w, s.isRunning w = true ∧ s.ports[w]? = s.ports[p]?

theorem ports_getElem? {s : GroupSys Span} {p : ℕ} {o : Spawned Span}
    (ho : s.spawned[p]? = some o) : s.ports[p]? = some o.handler.port := by
  simp [ports, ho]

/-- Somebody reports a counter on the port of satellite `p`, a process of the group or one of
the others, who answer as `outside` says. -/
def Served (outside : ℕ → Response → Bool) (s : GroupSys Span) (p : ℕ) : Prop :=
  s.Answers p ∨ ∃ port res,
    s.ports[p]? = some port ∧ outside port res = true ∧ reported? (.ok res) ≠ none

section Respond

variable {s : GroupSys Span} {o : Spawned Span}

/-- A reset goes on with an answer that reports a counter, and raises for any other. -/
theorem respond_reset (s : GroupSys Span) (p : ℕ) (o : Spawned Span) (res : Response)
    (todo : List ℕ) (r : ℤ) :
    (reported? (.ok res) ≠ none ∧
      (s.respond .reset p o res todo r).caller = .asking .reset todo r) ∨
    (reported? (.ok res) = none ∧ ∃ x, (s.respond .reset p o res todo r).caller = .raising x) := by
  rcases hres : reported? (.ok res) with _ | n
  · obtain ⟨x, -, hx⟩ := o.handler.reported_none hres
    exact Or.inr ⟨rfl, x, by simp [respond, hx]⟩
  · exact Or.inl ⟨by simp, by simp [respond, (o.handler.reported_some hres).2]⟩

/-- The use of an answer changes no more of the processes than a baseline. -/
theorem respond_map {α : Type*} {f : Spawned Span → α} {p : ℕ} (ho : s.spawned[p]? = some o)
    (hf : ∀ h, h.port = o.handler.port → f { o with handler := h } = f o) (c : Call)
    (res : Response) (todo : List ℕ) (r : ℤ) :
    (s.respond c p o res todo r).spawned.map f = s.spawned.map f := by
  cases c with
  | get =>
    simp only [respond]
    split <;> rfl
  | reset =>
    simp only [respond]
    split
    · next h hreset =>
      refine map_set_eq ho (hf h ?_)
      rw [MockSatelliteHandler.resetSpansReceived] at hreset
      split at hreset <;> cases hreset
      rfl
    · rfl

theorem respond_served {outside : ℕ → Response → Bool} {p : ℕ} (ho : s.spawned[p]? = some o)
    (c : Call) (res : Response) (todo : List ℕ) (r : ℤ) (q : ℕ) :
    (s.respond c p o res todo r).Served outside q ↔ s.Served outside q := by
  have hports : (s.respond c p o res todo r).ports = s.ports :=
    respond_map ho (fun h hport => hport) c res todo r
  have hrunning : ∀ w, (s.respond c p o res todo r).isRunning w = s.isRunning w :=
    isRunning_congr (respond_map ho (fun h _ => rfl) c res todo r)
  simp only [Served, Answers, hports, hrunning]

end Respond

variable [DecidableEq Span] {parse : List UInt8 → Option (List Span)} {m m' : GroupSys Span}
  {outside : ℕ → Response → Bool}

/-- One step of the group, or an answer of one of the others. -/
def servedStep (parse : List UInt8 → Option (List Span)) (outside : ℕ → Response → Bool)
    (s : GroupSys Span) : OpenEvent Span → Option (GroupSys Span)
  | .group e => s.step parse e
  | .answer c p res =>
    if s.ports[p]?.any (outside · res) then openStep parse s (.answer c p res) else none

theorem servedStep_answer {c : Call} {p : ℕ} {res : Response}
    (h : servedStep parse outside m (.answer c p res) = some m') :
    ∃ todo r o port, m.caller = .asking c (p :: todo) r ∧ m.spawned[p]? = some o ∧
      m.ports[p]? = some port ∧ outside port res = true ∧ m' = m.respond c p o res todo r := by
  rw [servedStep] at h
  split_ifs at h with hport
  obtain ⟨port, hport, hout⟩ := (Option.any_eq_true _ _).1 hport
  simp only [openStep] at h
  split at h
  · next c' p' todo r o hc ho =>
    split_ifs at h with hg
    obtain ⟨rfl, rfl⟩ := hg
    exact ⟨todo, r, o, port, hc, ho, hport, hout, (Option.some.inj h).symm⟩
  · simp at h

section Closed

variable {e : GroupEvent Span}

/-- Who answers is running on the port that is asked. -/
theorem step_answers {c : Call} {p n : ℕ} (h : m.step parse e = some m')
    (he : e = .answer c p n ∨ ∃ q, e = .answerFrom c p q n) : m.Answers p := by
  rcases he with rfl | ⟨q, rfl⟩
  · simp only [GroupSys.step] at h
    split at h
    · next c' p' todo r o hc ho =>
      split_ifs at h with hg
      obtain ⟨-, -, halive, -⟩ := hg
      exact ⟨p, isRunning_iff.2 ⟨o, ho, halive⟩, rfl⟩
    · simp at h
  · obtain ⟨todo, r, o, w, -, ho, -, hw, hwalive, hport, -⟩ := step_answerFrom h
    refine ⟨q, isRunning_iff.2 ⟨w, hw, hwalive⟩, ?_⟩
    rw [ports_getElem? ho, ports_getElem? hw, hport]

/-- Without the administrator, nobody comes to answer who did not before. -/
theorem Answers.of_step (h : m.step parse e = some m') (hof : ¬OfAdmin e) {p : ℕ}
    (hp : m'.Answers p) : m.Answers p := by
  obtain ⟨w, hw, hport⟩ := hp
  have hspawn : ∀ port, e ≠ .spawn port := by
    rintro port rfl
    exact hof trivial
  rw [step_ports h hspawn] at hport
  exact ⟨w, step_alive h hspawn hw, hport⟩

/-- Without a death either, nobody stops answering. -/
theorem answers_iff (h : m.step parse e = some m') (hof : ¬OfAdmin e) (hdie : ∀ p, e ≠ .die p)
    (p : ℕ) : m'.Answers p ↔ m.Answers p := by
  refine ⟨fun hp => hp.of_step h hof, fun ⟨w, hw, hport⟩ => ⟨w, ?_, ?_⟩⟩
  · exact step_isRunning h (hdie w) (by rintro rfl; exact hof trivial) hw
  · rw [step_ports h (by rintro port rfl; exact hof trivial)]
    exact hport

theorem Served.of_step (h : m.step parse e = some m') (hof : ¬OfAdmin e) {p : ℕ}
    (hp : m'.Served outside p) : m.Served outside p := by
  have hports : m'.ports = m.ports := step_ports h (by rintro port rfl; exact hof trivial)
  rw [Served, hports] at hp
  exact hp.imp_left (·.of_step h hof)

theorem served_iff (h : m.step parse e = some m') (hof : ¬OfAdmin e) (hdie : ∀ p, e ≠ .die p)
    (p : ℕ) : m'.Served outside p ↔ m.Served outside p := by
  have hports : m'.ports = m.ports := step_ports h (by rintro port rfl; exact hof trivial)
  rw [Served, hports, answers_iff h hof hdie, Served]

end Closed

/-- A reset has satellite `p` still before it, or is about to raise. -/
def Before (s : GroupSys Span) (p : ℕ) : Prop :=
  match s.caller with
  | .idle | .testing .reset | .entering .reset | .raising _ => True
  | .asking .reset todo _ => p ∈ todo
  | .holding .reset q _ todo _ => p ∈ todo ∧ q < s.spawned.length
  | _ => False

omit [DecidableEq Span] in
/-- The tests of a reset lead to the loop over the group, which has `p` before it. -/
theorem Before.next {p : ℕ} {pc : Caller} (h : m.Before p) (hp : p ∈ m.group)
    (hc : m.callerNext m.caller = some pc) : Before { m with caller := pc } p := by
  rw [Before] at h
  rcases hpc : m.caller with _ | ⟨_ | _⟩ | _ | _ | _ | ⟨_ | _⟩ | _ | _ | _ <;>
    rw [hpc] at hc h <;> simp only [callerNext, reduceCtorEq] at hc
  case testing.reset =>
    rw [if_pos (truthy_iff.2 (List.ne_nil_of_mem hp))] at hc
    obtain rfl := Option.some.inj hc
    trivial
  case entering.reset =>
    split at hc
    · next hsat => simp [group, hsat] at hp
    · next ps hsat =>
      obtain rfl := Option.some.inj hc
      rwa [group, hsat] at hp
  all_goals exact absurd h id

omit [DecidableEq Span] in
theorem Before.of_asking {p : ℕ} {c : Call} {todo : List ℕ} {r : ℤ} (h : m.Before p)
    (hc : m.caller = .asking c todo r) : c = .reset ∧ p ∈ todo := by
  rw [Before, hc] at h
  rcases c with _ | _
  · exact absurd h id
  · exact ⟨rfl, h⟩

/-- A reset does not get past a satellite of the group that nobody of it answers for. -/
theorem Before.step {e : GroupEvent Span} {p : ℕ} (h : m.Before p) (hp : p ∈ m.group)
    (hdead : ¬m.Answers p) (he : m.step parse e = some m') (hof : ¬OfAdmin e)
    (hget : e ≠ .call .get) : m'.Before p ∧ ∀ c v, e ≠ .returned c v := by
  -- whoever is asked and answered for is not `p`
  have hnext : ∀ {k q todo r}, m.caller = .asking k (q :: todo) r → m.Answers q →
      k = .reset ∧ p ∈ todo := by
    intro k q todo r hc hq
    obtain ⟨rfl, hmem⟩ := h.of_asking hc
    exact ⟨rfl, (List.mem_cons.1 hmem).resolve_left fun hpq => hdead (hpq ▸ hq)⟩
  rcases step_caller he with ⟨k, hc⟩ | ⟨pc, hc⟩ | ⟨k, q, todo, r, o, hc, ho⟩ |
    ⟨k, q, w, n, todo, r, hc, hq⟩ | ⟨k, q, n, todo, r, o, hc, ho⟩ | ⟨k, q, todo, r, hc, hq⟩ |
    ⟨k, v, hc⟩ | ⟨y, hc⟩ | ⟨hcaller, hc⟩
  case call =>
    rcases k with _ | _
    · exact absurd rfl hget
    · exact ⟨trivial, by simp⟩
  case next => exact ⟨h.next hp hc, by simp⟩
  case answer =>
    obtain ⟨rfl, hmem⟩ := hnext hc (step_answers he (Or.inl rfl))
    exact ⟨⟨hmem, (List.getElem?_eq_some_iff.1 ho).1⟩, by simp⟩
  case answerFrom =>
    obtain ⟨rfl, hmem⟩ := hnext hc (step_answers he (Or.inr ⟨w, rfl⟩))
    obtain ⟨_, _, o, _, _, ho, -⟩ := step_answerFrom he
    exact ⟨⟨hmem, (List.getElem?_eq_some_iff.1 ho).1⟩, by simp⟩
  case receive =>
    rw [Before, hc] at h
    rcases k with _ | _
    · exact absurd h id
    · rw [receive_reset]
      exact ⟨h.1, by simp⟩
  case refuse => exact ⟨trivial, by simp⟩
  case returned =>
    obtain ⟨-, hmem⟩ := h.of_asking hc
    simp at hmem
  case raised => exact ⟨trivial, by simp⟩
  case other =>
    refine ⟨?_, by rintro c v rfl; exact hcaller trivial⟩
    have hlen : ∀ q, q < m.spawned.length → q < m'.spawned.length := by
      intro q hq
      by_contra hle
      exact absurd hq (Nat.not_lt.2 (step_length he (Nat.le_of_not_lt hle)).1)
    rw [Before, hc]
    rw [Before] at h
    split <;> simp_all

/-- Nor past one on whose port the others do not report a counter either. -/
theorem Before.respond {c : Call} {p q : ℕ} {res : Response} (h : m.Before p)
    (hdead : ¬m.Served outside p)
    (he : servedStep parse outside m (.answer c q res) = some m') : m'.Before p := by
  obtain ⟨todo, r, o, port, hc, -, hport, hout, rfl⟩ := servedStep_answer he
  obtain ⟨rfl, hmem⟩ := h.of_asking hc
  rcases respond_reset m q o res todo r with ⟨hres, hasking⟩ | ⟨-, x, hraising⟩
  · rw [Before, hasking]
    refine (List.mem_cons.1 hmem).resolve_left ?_
    rintro rfl
    exact hdead (Or.inr ⟨port, res, hport, hout, hres⟩)
  · rw [Before, hraising]
    trivial

/-! ## Resets that go on undisturbed -/

/-- A step of a reset. -/
def OfReset : OpenEvent Span → Prop
  | .answer _ _ _ => True
  | .group (.call .reset) | .group .callerStep | .group (.answer _ _ _)
  | .group (.answerFrom _ _ _ _) | .group .receive | .group (.refuse _ _) => True
  | _ => False

/-- The reset can come to a state in which `P` holds. -/
def Reaches (parse : List UInt8 → Option (List Span)) (outside : ℕ → Response → Bool)
    (m : GroupSys Span) (P : GroupSys Span → Prop) : Prop :=
  ∃ es g, (∀ e ∈ es, OfReset e) ∧ run (servedStep parse outside) m es = some g ∧ P g

theorem Reaches.refl {P : GroupSys Span → Prop} (h : P m) : Reaches parse outside m P :=
  ⟨[], m, by simp, rfl, h⟩

theorem Reaches.cons {P : GroupSys Span → Prop} {e : OpenEvent Span}
    (he : servedStep parse outside m e = some m') (hof : OfReset e)
    (h : Reaches parse outside m' P) : Reaches parse outside m P := by
  obtain ⟨es, g, hes, hrun, hg⟩ := h
  refine ⟨e :: es, g, fun x hx => ?_, run_cons_eq_some.2 ⟨m', he, hrun⟩, hg⟩
  rcases List.mem_cons.1 hx with rfl | hx
  · exact hof
  · exact hes x hx

theorem Reaches.closed {P : GroupSys Span → Prop} {e : GroupEvent Span}
    (he : m.step parse e = some m') (hof : OfReset (.group e))
    (h : Reaches parse outside m' P) : Reaches parse outside m P :=
  Reaches.cons (e := .group e) he hof h

theorem Reaches.next {P : GroupSys Span → Prop} {pc : Caller}
    (hpc : m.callerNext m.caller = some pc)
    (h : Reaches parse outside { m with caller := pc } P) : Reaches parse outside m P := by
  refine Reaches.closed (e := .callerStep) ?_ trivial h
  simp [GroupSys.step, hpc]

/-- At its loop, a reset of a group that has satellites comes to asking them. -/
theorem Reaches.entering {P : GroupSys Span → Prop} (hc : m.caller = .entering .reset)
    (hne : m.group ≠ [])
    (h : Reaches parse outside { m with caller := .asking .reset m.group 0 } P) :
    Reaches parse outside m P := by
  refine Reaches.next ?_ h
  rw [hc, callerNext]
  rcases hsat : m.satellites with _ | ps
  · simp [group, hsat] at hne
  · simp [group, hsat]

/-- At its test, a reset comes to the loop over the group. -/
theorem Reaches.testing {P : GroupSys Span → Prop} (hc : m.caller = .testing .reset)
    (h : Reaches parse outside { m with caller := .asking .reset m.group 0 } P) :
    Reaches parse outside m P := by
  by_cases htruthy : m.truthy = true
  · have hpc : m.callerNext m.caller = some (.entering .reset) := by
      rw [hc, callerNext, if_pos htruthy]
    exact Reaches.next hpc (Reaches.entering rfl (truthy_iff.1 htruthy) h)
  · have hnil : m.group = [] := not_not.1 (mt truthy_iff.2 htruthy)
    rw [hnil] at h
    refine Reaches.next ?_ h
    rw [hc, callerNext, if_neg htruthy]

/-- A reset that begins comes to the loop over the group. -/
theorem Reaches.start {P : GroupSys Span → Prop} (hidle : m.caller = .idle)
    (h : Reaches parse outside { m with caller := .asking .reset m.group 0 } P) :
    Reaches parse outside m P := by
  have hcall : m.step parse (.call .reset) = some { m with caller := .testing .reset } := by
    simp [GroupSys.step, hidle]
  exact Reaches.closed hcall trivial (Reaches.testing rfl h)

/-- The answer a reset holds is used, and the next satellite asked. -/
theorem Reaches.holding {P : GroupSys Span → Prop} {q n : ℕ} {todo : List ℕ} {r : ℤ}
    (hc : m.caller = .holding .reset q n todo r) (hq : q < m.spawned.length)
    (h : ∀ g, g.caller = .asking .reset todo r →
      (∀ p, g.Served outside p ↔ m.Served outside p) → Reaches parse outside g P) :
    Reaches parse outside m P := by
  have hstep : m.step parse .receive = some (m.receive .reset q m.spawned[q] n todo r) := by
    simp [GroupSys.step, hc, List.getElem?_eq_getElem hq]
  refine Reaches.closed hstep trivial (h _ ?_ (served_iff hstep id (by simp)))
  rw [receive_reset]

/-- A satellite whose port is served is asked, and the answer used. -/
theorem Reaches.answered {P : GroupSys Span → Prop} {q : ℕ} {todo : List ℕ} {r : ℤ}
    (hc : m.caller = .asking .reset (q :: todo) r) (hq : m.Served outside q)
    (h : ∀ g, g.caller = .asking .reset todo r →
      (∀ p, g.Served outside p ↔ m.Served outside p) → Reaches parse outside g P) :
    Reaches parse outside m P := by
  have hspawned : ∀ {port}, m.ports[q]? = some port → q < m.spawned.length := by
    intro port hport
    rw [← length_ports]
    exact (List.getElem?_eq_some_iff.1 hport).1
  rcases hq with ⟨w, hw, hport⟩ | ⟨port, res, hport, hout, hres⟩
  · obtain ⟨o, ho, hoalive⟩ := isRunning_iff.1 hw
    rw [ports_getElem? ho] at hport
    have hlt := hspawned hport.symm
    have hq' : m.spawned[q]? = some m.spawned[q] := List.getElem?_eq_getElem hlt
    -- whoever answers, the caller then holds a count for `q`
    have hhold : ∀ n, Reaches parse outside { m with caller := .holding .reset q n todo r } P :=
      fun n => Reaches.holding rfl hlt h
    by_cases halive : m.spawned[q].alive = true
    · have hstep : m.step parse (.answer .reset q m.spawned[q].satellite.spansReceived) = some
          { m with
            caller := .holding .reset q m.spawned[q].satellite.spansReceived todo r } := by
        simp [GroupSys.step, hc, hq', halive]
      exact Reaches.closed hstep trivial (hhold _)
    · rw [ports_getElem? hq'] at hport
      have hstep : m.step parse (.answerFrom .reset q w o.satellite.spansReceived) = some
          { m with caller := .holding .reset q o.satellite.spansReceived todo r } := by
        simp [GroupSys.step, hc, hq', ho, halive, hoalive, Option.some.inj hport]
      exact Reaches.closed hstep trivial (hhold _)
  · have hlt := hspawned hport
    have hq' : m.spawned[q]? = some m.spawned[q] := List.getElem?_eq_getElem hlt
    have hstep : servedStep parse outside m (.answer .reset q res) =
        some (m.respond .reset q m.spawned[q] res todo r) := by
      rw [servedStep, if_pos ((Option.any_eq_true _ _).2 ⟨port, hport, hout⟩)]
      simp [openStep, hc, hq']
    refine Reaches.cons hstep trivial (h _ ?_ (respond_served hq' _ res todo r))
    exact ((respond_reset m q _ res todo r).resolve_right fun hnone => hres hnone.1).2

/-- When all satellites are served, the reset comes to its end. -/
theorem Reaches.returning {todo : List ℕ} {r : ℤ} (hc : m.caller = .asking .reset todo r)
    (h : ∀ q ∈ todo, m.Served outside q) :
    Reaches parse outside m fun g => g.caller = .asking .reset [] r := by
  induction todo generalizing m with
  | nil => exact Reaches.refl hc
  | cons q todo ih =>
    refine Reaches.answered hc (h q (by simp)) fun g hg hserved => ih hg fun p hp => ?_
    exact (hserved p).2 (h p (by simp [hp]))

/-- When one of them is not, it comes to raise. -/
theorem Reaches.raising {todo : List ℕ} {r : ℤ} {p : ℕ}
    (hc : m.caller = .asking .reset todo r) (hp : p ∈ todo) (hdead : ¬m.Served outside p) :
    Reaches parse outside m fun g => ∃ x, g.caller = .raising x := by
  induction todo generalizing m with
  | nil => simp at hp
  | cons q todo ih =>
    by_cases hq : m.Served outside q
    · have hmem : p ∈ todo :=
        (List.mem_cons.1 hp).resolve_left fun hpq => hdead (hpq ▸ hq)
      exact Reaches.answered hc hq fun g hg hserved => ih hg hmem (mt (hserved p).1 hdead)
    · have hstep : m.step parse (.refuse .reset q) =
          some { m with caller := .raising .connectionError } := by
        have hrun : m.isRunning q = false := by
          by_contra hrun
          exact hq (Or.inl ⟨q, by simpa using hrun, rfl⟩)
        simp [GroupSys.step, hc, hrun]
      exact Reaches.closed hstep trivial (Reaches.refl ⟨_, rfl⟩)

/-- A reset with a satellite before it that nobody serves comes to raise. -/
theorem Before.reaches {p : ℕ} (h : m.Before p) (hp : p ∈ m.group)
    (hdead : ¬m.Served outside p) :
    Reaches parse outside m fun g => ∃ x, g.caller = .raising x := by
  have hask : Reaches parse outside { m with caller := .asking .reset m.group 0 }
      fun g => ∃ x, g.caller = .raising x := Reaches.raising rfl hp hdead
  rw [Before] at h
  rcases hpc : m.caller with _ | ⟨_ | _⟩ | _ | _ | _ | ⟨_ | _⟩ | ⟨_ | _, todo, r⟩ |
    ⟨_ | _, q, n, todo, r⟩ | x <;> rw [hpc] at h
  case idle => exact Reaches.start hpc hask
  case testing.reset => exact Reaches.testing hpc hask
  case entering.reset => exact Reaches.entering hpc (List.ne_nil_of_mem hp) hask
  case asking.reset => exact Reaches.raising hpc h hdead
  case holding.reset =>
    exact Reaches.holding hpc h.2 fun g hg hserved =>
      Reaches.raising hg h.1 (mt (hserved p).1 hdead)
  case raising => exact Reaches.refl ⟨x, hpc⟩
  all_goals exact absurd h id

end GroupSys

/-! ## Benchmarks in the open -/

inductive OpenBenchEvent (Span : Type*) where
  | bench (e : BenchEvent Span)
  /-- A process that the group has not spawned answers on the port of satellite `p`. -/
  | answer (c : Call) (p : ℕ) (res : Response)
  deriving DecidableEq

namespace OpenBenchEvent

/-- The benchmark's part of a step of the open group. -/
def ofOpen : OpenEvent Span → OpenBenchEvent Span
  | .group e => .bench (.group e)
  | .answer c p res => .answer c p res

end OpenBenchEvent

namespace Bench

variable [DecidableEq Span]

/-- One step of the benchmark and its group, or an answer of one of the others to
`benchmark`'s call. -/
def openStep (parse : List UInt8 → Option (List Span)) (runOf : Span → ℕ)
    (outside : ℕ → Response → Bool) (s : Bench Span) : OpenBenchEvent Span → Option (Bench Span)
  | .bench e => s.step parse runOf e
  | .answer c p res =>
    (s.group.servedStep parse outside (.answer c p res)).map fun g => { s with group := g }

variable {parse : List UInt8 → Option (List Span)} {runOf : Span → ℕ}
  {outside : ℕ → Response → Bool} {m m' : Bench Span} {n p : ℕ}

/-- A benchmark is at its first reset, which has satellite `p` still before it, and nobody
serves `p`. -/
structure Held (outside : ℕ → Response → Bool) (n p : ℕ) (m : Bench Span) : Prop where
  pc : m.pc = .zeroing n
  before : m.group.Before p
  mem : p ∈ m.group.group
  dead : ¬m.group.Served outside p

theorem Held.step {e : BenchEvent Span} (h : Held outside n p m)
    (he : m.step parse runOf e = some m') (hraise : ∀ x, e ≠ .group (.raised x)) :
    Held outside n p m' ∧ e ≠ .launch := by
  have hpc := h.pc
  rcases step_cases he with ⟨k, rfl, hidle, rfl⟩ | ⟨k, rfl, hstart, rfl⟩ |
    ⟨k, rfl, hrun, -, rfl⟩ | ⟨x, g, rfl, hx, hg, rfl⟩
  · simp [hpc] at hidle
  · simp [hpc] at hstart
  · simp [hpc] at hrun
  · refine ⟨?_, by simp⟩
    have hof : ¬GroupSys.OfAdmin x := by
      intro hof
      obtain ⟨k, hrun⟩ := allows_admin hof hx
      simp [hpc] at hrun
    have hget : x ≠ .call .get := by
      rintro rfl
      simp [allows, hpc, BenchPc.call?] at hx
    obtain ⟨hbefore, hreturned⟩ :=
      h.before.step h.mem (fun hans => h.dead (Or.inl hans)) hg hof hget
    have hafter : m.after g x = { m with group := g } := by
      rcases after_cases m g x with ⟨c, v, rfl, -⟩ | ⟨y, rfl, -⟩ | ⟨-, -, hs⟩
      · exact absurd rfl (hreturned c v)
      · exact absurd rfl (hraise y)
      · exact hs
    have hgroup : g.group = m.group.group := by
      rw [GroupSys.group, ((GroupSys.step_admin hg).resolve_left hof).2, GroupSys.group]
    rw [hafter]
    exact ⟨hpc, hbefore, hgroup ▸ h.mem, fun hserved => h.dead (hserved.of_step hg hof)⟩

theorem Held.openStep {e : OpenBenchEvent Span} (h : Held outside n p m)
    (he : m.openStep parse runOf outside e = some m')
    (hraise : ∀ x, e ≠ .bench (.group (.raised x))) :
    Held outside n p m' ∧ e ≠ .bench .launch := by
  cases e with
  | bench e =>
    obtain ⟨hheld, hlaunch⟩ := h.step he (by rintro x rfl; exact hraise x rfl)
    exact ⟨hheld, by simpa using hlaunch⟩
  | answer c q res =>
    obtain ⟨g, hg, rfl⟩ := Option.map_eq_some_iff.1 he
    have hbefore := h.before.respond h.dead hg
    obtain ⟨todo, r, o, port, -, ho, -, -, rfl⟩ := GroupSys.servedStep_answer hg
    refine ⟨⟨h.pc, hbefore, ?_, ?_⟩, by simp⟩
    · rw [GroupSys.respond_group]
      exact h.mem
    · rw [GroupSys.respond_served ho]
      exact h.dead

/-- The benchmark makes the steps of its reset. -/
theorem run_reset : ∀ {es : List (OpenEvent Span)} {m : Bench Span} {g : GroupSys Span},
    m.pc = .zeroing n → (∀ e ∈ es, GroupSys.OfReset e) →
    run (GroupSys.servedStep parse outside) m.group es = some g →
    run (Bench.openStep parse runOf outside) m (es.map .ofOpen) = some { m with group := g }
  | [], m, g, _, _, h => by
    obtain rfl := Option.some.inj h
    rfl
  | .answer c p res :: es, m, g, hpc, hes, h => by
    obtain ⟨g', he, hrun⟩ := run_cons_eq_some.1 h
    refine run_cons_eq_some.2 ⟨{ m with group := g' }, ?_, ?_⟩
    · rw [OpenBenchEvent.ofOpen, Bench.openStep, he, Option.map_some]
    · exact run_reset hpc (fun x hx => hes x (by simp [hx])) hrun
  | .group e :: es, m, g, hpc, hes, h => by
    obtain ⟨g', he, hrun⟩ := run_cons_eq_some.1 h
    have hof := hes (.group e) (by simp)
    have hallows : m.allows parse runOf e = true := by
      cases e with
      | call c =>
        cases c with
        | get => exact absurd hof id
        | reset => simp [allows, hpc, BenchPc.call?]
      | callerStep | answer | answerFrom | receive | refuse => rfl
      | _ => exact absurd hof id
    have hafter : m.after g' e = { m with group := g' } := by
      cases e <;> first | rfl | exact absurd hof id
    have hstep : m.step parse runOf (.group e) = some { m with group := g' } := by
      rw [GroupSys.servedStep] at he
      rw [Bench.step, if_pos hallows, he, Option.map_some, hafter]
    refine run_cons_eq_some.2 ⟨_, hstep, ?_⟩
    exact run_reset hpc (fun x hx => hes x (by simp [hx])) hrun

open Controller in
/-- `benchmark` raises for its arguments, or makes its first reset, and starts no client
until that raises, which it does. -/
def Refuses (parse : List UInt8 → Option (List Span)) (runOf : Span → ℕ)
    (outside : ℕ → Response → Bool) (c : Controller) (args : BenchmarkArgs) (s : Bench Span) :
    Prop :=
  (∃ x, (c.benchmarkCommand args).Ends (.error x)) ∨
    ∃ command, (c.benchmarkCommand args).Ends (.ok command) ∧
      ∀ es t, (∀ x, OpenBenchEvent.bench (.group (.raised x)) ∉ es) →
        run (Bench.openStep parse runOf outside) s
          (.bench (.benchmark command.repeats.toNat) :: es) = some t →
        .bench .launch ∉ es ∧ ∃ es' x u, .bench .launch ∉ es' ∧
          run (Bench.openStep parse runOf outside) t (es' ++ [.bench (.group (.raised x))]) =
            some u

/-- Until its reset raises, a benchmark that is held starts no client. -/
theorem Held.stays {es : List (OpenBenchEvent Span)} (h : Held outside n p m)
    (hraise : ∀ x, OpenBenchEvent.bench (.group (.raised x)) ∉ es)
    (hrun : run (Bench.openStep parse runOf outside) m es = some m') :
    Held outside n p m' ∧ .bench .launch ∉ es := by
  refine run_induction (P := fun es (m' : Bench Span) =>
    (∀ x, OpenBenchEvent.bench (.group (.raised x)) ∉ es) →
      Held outside n p m' ∧ .bench .launch ∉ es) ?_ ?_ hrun hraise
  · exact fun _ => ⟨h, by simp⟩
  · intro es m e m' _ ih he hraise
    obtain ⟨hheld, hlaunch⟩ := ih fun x hx => hraise x (by simp [hx])
    obtain ⟨hheld', hne⟩ := hheld.openStep he (by rintro x rfl; exact hraise x (by simp))
    exact ⟨hheld', by simp [hlaunch, hne.symm]⟩

omit [DecidableEq Span] in
theorem launch_notMem (es : List (OpenEvent Span)) :
    .bench .launch ∉ es.map OpenBenchEvent.ofOpen := by
  intro hmem
  obtain ⟨e, -, he⟩ := List.mem_map.1 hmem
  cases e <;> simp [OpenBenchEvent.ofOpen] at he

/-- And its reset does raise. -/
theorem Held.raises (parse : List UInt8 → Option (List Span)) (runOf : Span → ℕ)
    (h : Held outside n p m) : ∃ es x u, .bench .launch ∉ es ∧
      run (Bench.openStep parse runOf outside) m (es ++ [.bench (.group (.raised x))]) =
        some u := by
  have hreach : GroupSys.Reaches parse outside m.group fun g => ∃ x, g.caller = .raising x :=
    h.before.reaches h.mem h.dead
  obtain ⟨es, g, hes, hrun, x, hx⟩ := hreach
  have hraised : g.step parse (.raised x) = some { g with caller := .idle } := by
    simp [GroupSys.step, hx]
  refine ⟨es.map .ofOpen, x, { m with group := { g with caller := .idle }, pc := .idle },
    launch_notMem es, run_snoc_eq_some.2 ⟨_, run_reset h.pc hes hrun, ?_⟩⟩
  simp [Bench.openStep, Bench.step, allows, hraised, after]

/-- When all satellites are served, a benchmark comes to start its client. -/
theorem launches (parse : List UInt8 → Option (List Span)) (runOf : Span → ℕ) (hpc : m.pc = .idle)
    (hcaller : m.group.caller = .idle) (hserved : ∀ p ∈ m.group.group, m.group.Served outside p)
    (n : ℕ) : ∃ es t, (∀ x, OpenBenchEvent.bench (.group (.raised x)) ∉ es) ∧
      .bench .launch ∈ es ∧
      run (Bench.openStep parse runOf outside) m (.bench (.benchmark n) :: es) = some t := by
  have hreach : GroupSys.Reaches parse outside m.group fun g => g.caller = .asking .reset [] 0 :=
    GroupSys.Reaches.start hcaller (GroupSys.Reaches.returning rfl hserved)
  obtain ⟨es, g, hes, hrun, hg⟩ := hreach
  have hstart : m.openStep parse runOf outside (.bench (.benchmark n)) =
      some { m with pc := .zeroing n } := by
    simp [Bench.openStep, Bench.step, hpc]
  have hreset : run (Bench.openStep parse runOf outside) { m with pc := .zeroing n }
      (es.map .ofOpen) = some { m with pc := .zeroing n, group := g } := run_reset rfl hes hrun
  have hreturned : g.step parse (.returned .reset 0) = some { g with caller := .idle } := by
    simp [GroupSys.step, hg]
  have hend : run (Bench.openStep parse runOf outside) { m with pc := .zeroing n, group := g }
      [.bench (.group (.returned .reset 0)), .bench .launch] = some { m with
        pc := .running n
        group := { g with caller := .idle }
        launched := m.launched + 1 } := by
    simp [Bench.openStep, Bench.step, allows, hreturned, after]
  refine ⟨es.map .ofOpen ++ [.bench (.group (.returned .reset 0)), .bench .launch], _,
    fun x hx => ?_, by simp,
    run_cons_eq_some.2 ⟨_, hstart, run_append_eq_some.2 ⟨_, hreset, hend⟩⟩⟩
  obtain ⟨e, he, heq⟩ : ∃ e ∈ es, OpenBenchEvent.ofOpen e = .bench (.group (.raised x)) := by
    simpa using hx
  cases e with
  | answer c q res => simp [OpenBenchEvent.ofOpen] at heq
  | group e =>
    obtain rfl : e = .raised x := by simpa [OpenBenchEvent.ofOpen] using heq
    exact hes _ he

end Bench

open Bench Controller in
/-- `benchmark` on a group is refused before it starts its client if and only if its
arguments are, or the calibration found no work done, or on the port of one of the group's
satellites nobody reports a counter. -/
theorem benchmark_refused_iff [DecidableEq Span] (parse : List UInt8 → Option (List Span))
    (runOf : Span → ℕ) (outside : ℕ → Response → Bool) (c : Controller) (args : BenchmarkArgs)
    {s : Bench Span} (hpc : s.pc = .idle) (hcaller : s.group.caller = .idle) :
    Refuses parse runOf outside c args s ↔ args.spansPerSecond = 0 ∨ c.workPerSecond = 0 ∨
      ∃ p ∈ s.group.group, ¬s.group.Served outside p := by
  by_cases hargs : args.spansPerSecond = 0 ∨ c.workPerSecond = 0
  · rw [← or_assoc]
    exact iff_of_true (Or.inl (benchmarkCommand_raises hargs)) (Or.inl hargs)
  rw [← or_assoc, or_iff_right hargs]
  push Not at hargs
  have hends := benchmarkCommand_ends hargs.1 hargs.2
  constructor
  · intro h
    by_contra hserved
    push Not at hserved
    rcases h with ⟨x, hx⟩ | ⟨command, -, hheld⟩
    · exact absurd (hx.unique hends) (by simp)
    · obtain ⟨es, t, hraise, hlaunch, hrun⟩ :=
        launches parse runOf hpc hcaller hserved command.repeats.toNat
      exact (hheld es t hraise hrun).1 hlaunch
  · rintro ⟨p, hp, hdead⟩
    refine Or.inr ⟨_, hends, fun es t hraise hrun => ?_⟩
    obtain ⟨m, hstart, hrun⟩ := run_cons_eq_some.1 hrun
    simp only [Bench.openStep, Bench.step, hpc, if_true] at hstart
    obtain rfl := Option.some.inj hstart
    have hheld : ∀ n, Held outside n p { s with pc := .zeroing n } := fun n =>
      ⟨rfl, by rw [GroupSys.Before, hcaller]; trivial, hp, hdead⟩
    obtain ⟨hheld', hlaunch⟩ := (hheld _).stays hraise hrun
    exact ⟨hlaunch, hheld'.raises parse runOf⟩

/-- A group is constructed and shut down. -/
def sampleShutdown : List (GroupEvent (List UInt8)) :=
  [.start .typical [8360], .spawn 8360, .assign, .adminStep, .adminStep, .startReturned,
    .shutdown, .terminate 0, .shutdownReturned]

/-- On port 8360 a satellite of another group has counted three spans. -/
def sampleOutside (port : ℕ) (res : Response) : Bool :=
  port = 8360 ∧ res = GET "/spans_received" 3

open Controller in
/-- A benchmark on a group that was shut down starts its client, and so does one on a group
whose satellite is dead, when a satellite of another group answers on its port. -/
theorem shut_down_launched :
    (∃ g command t,
      run (GroupSys.step parseSpans) .new sampleShutdown = some g ∧ g.allRunning = false ∧
      (Controller.sampleController.benchmarkCommand Controller.sampleArgs).Ends (.ok command) ∧
      run (Bench.openStep parseSpans sampleRunOf fun _ _ => false) ⟨g, .idle, 0, []⟩
        [.bench (.benchmark command.repeats.toNat), .bench (.group (.call .reset)),
          .bench (.group .callerStep), .bench (.group (.returned .reset 0)),
          .bench .launch] = some t ∧ t.launched = 1) ∧
    ∃ g command t,
      run (GroupSys.step parseSpans) (.constructed .typical [8360]) [.die 0] = some g ∧
      g.allRunning = false ∧
      (Controller.sampleController.benchmarkCommand Controller.sampleArgs).Ends (.ok command) ∧
      run (Bench.openStep parseSpans sampleRunOf sampleOutside) ⟨g, .idle, 0, []⟩
        [.bench (.benchmark command.repeats.toNat), .bench (.group (.call .reset)),
          .bench (.group .callerStep), .bench (.group .callerStep),
          .answer .reset 0 (GET "/spans_received" 3), .bench (.group (.returned .reset 0)),
          .bench .launch] = some t ∧ t.launched = 1 :=
  ⟨⟨_, _, _, rfl, rfl, benchmarkCommand_ends (by decide) (by decide), rfl, rfl⟩,
    _, _, _, rfl, rfl, benchmarkCommand_ends (by decide) (by decide), rfl, rfl⟩

open Bench Controller in
/-- With its satellite dead and nobody else on its port, a benchmark is refused. -/
theorem benchmark_refused_iff_sample : ∃ g : GroupSys (List UInt8),
    run (GroupSys.step parseSpans) (.constructed .typical [8361]) [.die 0] = some g ∧
    Refuses parseSpans sampleRunOf sampleOutside Controller.sampleController
      Controller.sampleArgs ⟨g, .idle, 0, []⟩ := by
  refine ⟨_, rfl, (benchmark_refused_iff parseSpans sampleRunOf sampleOutside
    Controller.sampleController Controller.sampleArgs rfl rfl).2
    (Or.inr (Or.inr ⟨0, by decide, ?_⟩))⟩
  rintro (⟨w, hw, -⟩ | ⟨port, res, hport, hout, -⟩)
  · have hlt : w < 1 := GroupSys.isRunning_lt hw
    obtain rfl : w = 0 := by omega
    exact absurd hw (by decide)
  · obtain rfl : port = 8361 := (Option.some.inj hport).symm
    simp [sampleOutside] at hout

end TracerBench
