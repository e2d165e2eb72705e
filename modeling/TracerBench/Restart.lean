import TracerBench.SteadyGroup
import TracerBench.Lifecycle

/-!
# A group that is started again

`start` of a group that was shut down runs `__init__` once more. The processes of before are
dead and stay so, and those that are spawned now are numbered on from them. `GroupSys.later`
puts processes before those of a group, and each step of the group goes on as it would without
them (`step_later`). So from a start to the next shutdown the group is one that was just
constructed (`run_restarted`), with the same accounts (`restart_accounting`).
-/

namespace TracerBench

variable {Span : Type*}

/-! ## Numbers from `k` on -/

def Caller.later (k : ℕ) : Caller → Caller
  | .polling todo => .polling (todo.map (k + ·))
  | .asking c todo received => .asking c (todo.map (k + ·)) received
  | .holding c p n todo received => .holding c (k + p) n (todo.map (k + ·)) received
  | pc => pc

def Admin.later (k : ℕ) : Admin → Admin
  | .terminating todo => .terminating (todo.map (k + ·))
  | .spawning mode todo built => .spawning mode todo (built.map (k + ·))
  | .polling todo => .polling (todo.map (k + ·))
  | a => a

def GroupEvent.later (k : ℕ) : GroupEvent Span → GroupEvent Span
  | .sat p e => .sat (k + p) e
  | .die p => .die (k + p)
  | .answer c p n => .answer c (k + p) n
  | .answerFrom c p q n => .answerFrom c (k + p) (k + q) n
  | .refuse c p => .refuse c (k + p)
  | .terminate p => .terminate (k + p)
  | e => e

namespace GroupSys

/-- The group with the processes `old` before its own. -/
def later (old : List (Spawned Span)) (s : GroupSys Span) : GroupSys Span where
  spawned := old ++ s.spawned
  satellites := s.satellites.map (·.map (old.length + ·))
  caller := s.caller.later old.length
  admin := s.admin.later old.length

section Later

variable {old : List (Spawned Span)} {s : GroupSys Span}

@[simp] theorem later_getElem? (p : ℕ) :
    (later old s).spawned[old.length + p]? = s.spawned[p]? := by
  rw [later, List.getElem?_append_right (Nat.le_add_right _ _), Nat.add_sub_cancel_left]

@[simp] theorem later_isRunning (p : ℕ) :
    (later old s).isRunning (old.length + p) = s.isRunning p := by
  rw [isRunning, later_getElem?, isRunning]

@[simp] theorem later_truthy : (later old s).truthy = s.truthy := by
  rcases s with ⟨sp, _ | _ | _, pc, a⟩ <;> rfl

theorem set_later (p : ℕ) (o : Spawned Span) (pc : Caller) (a : Admin) :
    (⟨(later old s).spawned.set (old.length + p) o, (later old s).satellites,
      pc.later old.length, a.later old.length⟩ : GroupSys Span) =
      later old ⟨s.spawned.set p o, s.satellites, pc, a⟩ := by
  simp [later, List.set_append_right]

theorem callerNext_later (pc : Caller) :
    (later old s).callerNext (pc.later old.length) =
      (s.callerNext pc).map (Caller.later old.length) := by
  rcases pc with _ | ⟨_ | _⟩ | _ | _ | ⟨_ | ⟨p, todo⟩⟩ | _ | _ | _ | _ <;>
    simp only [Caller.later, callerNext, later_truthy, List.map_cons, List.map_nil,
      later_isRunning, Option.map_some, Option.map_none]
  case polling.cons => split_ifs <;> rfl
  case enteringPolls | entering => rcases s with ⟨sp, _ | _, pc, a⟩ <;> rfl
  all_goals split_ifs <;> rfl

theorem adminNext_later (a : Admin) :
    (later old s).adminNext (a.later old.length) =
      (s.adminNext a).map (Admin.later old.length) := by
  rcases a with _ | _ | _ | _ | ⟨_ | ⟨p, todo⟩⟩ | _ <;>
    simp only [Admin.later, adminNext, List.map_cons, List.map_nil, later_isRunning,
      Option.map_some, Option.map_none]
  case polling.cons => split_ifs <;> rfl
  case checking => rcases s with ⟨sp, _ | ⟨_ | _⟩, pc, a⟩ <;> rfl

theorem receive_later (c : Call) (p : ℕ) (o : Spawned Span) (n : ℕ) (todo : List ℕ) (r : ℤ) :
    (later old s).receive c (old.length + p) o n (todo.map (old.length + ·)) r =
      later old (s.receive c p o n todo r) := by
  rcases c with _ | _
  · rw [receive_get, receive_get]
    rfl
  · rw [receive_reset, receive_reset]
    exact set_later p _ (.asking .reset todo r) s.admin

end Later

variable [DecidableEq Span] {parse : List UInt8 → Option (List Span)}
  {old : List (Spawned Span)} {s t : GroupSys Span}

/-- A step goes on as it would without the processes before. -/
theorem step_later (e : GroupEvent Span) :
    (later old s).step parse (e.later old.length) = (s.step parse e).map (later old) := by
  cases e with
  | sat p x =>
    simp only [GroupEvent.later, step, later_getElem?]
    rcases s.spawned[p]? with _ | o
    · rfl
    · dsimp only
      split_ifs
      · rw [Option.map_map]
        exact Option.map_congr fun sat _ => set_later p _ s.caller s.admin
      · rfl
  | die p =>
    simp only [GroupEvent.later, step, later_getElem?]
    rcases s.spawned[p]? with _ | o
    · rfl
    · exact congrArg some (set_later p _ s.caller s.admin)
  | callerStep =>
    have hnext : (later old s).callerNext (s.caller.later old.length) =
        (s.callerNext s.caller).map (Caller.later old.length) := callerNext_later s.caller
    change ((later old s).callerNext (s.caller.later old.length)).map _ = _
    rw [hnext, step, Option.map_map, Option.map_map]
    rfl
  | adminStep =>
    have hnext : (later old s).adminNext (s.admin.later old.length) =
        (s.adminNext s.admin).map (Admin.later old.length) := adminNext_later s.admin
    change ((later old s).adminNext (s.admin.later old.length)).map _ = _
    rw [hnext, step, Option.map_map, Option.map_map]
    rfl
  | answer c p n =>
    rcases s with ⟨sp, sats, pc, a⟩
    simp only [GroupEvent.later, step, later_getElem?]
    rcases pc with _ | _ | _ | _ | _ | _ | ⟨c', _ | ⟨p', todo⟩, r⟩ | _ | _ <;> try rfl
    rcases sp[p]? with _ | o
    · rfl
    · simp only [later, Caller.later, List.map_cons, Nat.add_left_cancel_iff]
      split_ifs <;> rfl
  | answerFrom c p q n =>
    rcases s with ⟨sp, sats, pc, a⟩
    simp only [GroupEvent.later, step, later_getElem?]
    rcases pc with _ | _ | _ | _ | _ | _ | ⟨c', _ | ⟨p', todo⟩, r⟩ | _ | _ <;> try rfl
    rcases sp[p]? with _ | o
    · rfl
    rcases sp[q]? with _ | w
    · rfl
    · simp only [later, Caller.later, List.map_cons, Nat.add_left_cancel_iff]
      split_ifs <;> rfl
  | receive =>
    rcases hpc : s.caller with _ | _ | _ | _ | _ | _ | _ | ⟨c, p, n, todo, r⟩ | _
    case holding =>
      have hlater : (later old s).caller =
          .holding c (old.length + p) n (todo.map (old.length + ·)) r := by
        rw [later, hpc]
        rfl
      simp only [GroupEvent.later, step, hpc, hlater, later_getElem?, Option.map_map]
      exact Option.map_congr fun o _ => receive_later c p o n todo r
    all_goals simp [GroupEvent.later, step, later, hpc, Caller.later]
  | terminate p =>
    rcases s with ⟨sp, sats, pc, a⟩
    simp only [GroupEvent.later, step, later_getElem?]
    rcases a with _ | ⟨_ | ⟨p', todo⟩⟩ | _ | _ | _ | _ <;> try rfl
    rcases sp[p]? with _ | o
    · rfl
    · simp only [later, Admin.later, List.map_cons, Nat.add_left_cancel_iff]
      split_ifs
      · simp [later, List.set_append_right, Admin.later]
      · rfl
  | refuse c p =>
    rcases s with ⟨sp, sats, pc, a⟩
    rcases pc with _ | _ | _ | _ | _ | _ | ⟨c', _ | ⟨p', todo⟩, r⟩ | _ | _ <;> try rfl
    simp only [GroupEvent.later, step, later_isRunning]
    simp only [later, Caller.later, List.map_cons, Nat.add_left_cancel_iff]
    split_ifs <;> rfl
  | spawn port =>
    rcases s with ⟨sp, sats, pc, a⟩
    rcases a with _ | _ | ⟨mode, _ | ⟨port', todo⟩, built⟩ | _ | _ | _ <;> try rfl
    simp only [GroupEvent.later, step, later, Admin.later]
    split_ifs <;> simp [later, Admin.later]
  | spawnFailed x =>
    rcases s with ⟨sp, sats, pc, a⟩
    rcases a with _ | _ | ⟨mode, _ | ⟨port', todo⟩, built⟩ | _ | _ | _ <;> rfl
  | assign =>
    rcases s with ⟨sp, sats, pc, a⟩
    rcases a with _ | _ | ⟨mode, _ | ⟨port', todo⟩, built⟩ | _ | _ | _ <;> rfl
  | start mode ports =>
    simp only [GroupEvent.later, step, later_truthy]
    rcases s with ⟨sp, sats, pc, a⟩
    rcases a with _ | _ | _ | _ | _ | _ <;> simp [later, Admin.later]
    split_ifs <;> rfl
  | shutdown =>
    rcases s with ⟨sp, _ | ⟨_ | _⟩, pc, a⟩ <;>
      rcases a with _ | _ | _ | _ | _ | _ <;> simp [GroupEvent.later, step, later, Admin.later]
  | call c =>
    rcases s with ⟨sp, sats, pc, a⟩
    rcases pc with _ | _ | _ | _ | _ | _ | _ | _ | _ <;>
      simp [GroupEvent.later, step, later, Caller.later]
  | returned c v =>
    rcases s with ⟨sp, sats, pc, a⟩
    rcases pc with _ | _ | _ | _ | _ | _ | ⟨c', _ | ⟨p', todo⟩, r⟩ | _ | _ <;>
      simp [GroupEvent.later, step, later, Caller.later]
  | raised x =>
    rcases s with ⟨sp, sats, pc, a⟩
    rcases pc with _ | _ | _ | _ | _ | _ | _ | _ | _ <;>
      simp [GroupEvent.later, step, later, Caller.later]
  | shutdownReturned =>
    rcases s with ⟨sp, sats, pc, a⟩
    rcases a with _ | ⟨_ | ⟨p', todo⟩⟩ | _ | _ | _ | _ <;>
      simp [GroupEvent.later, step, later, Admin.later]
  | startReturned =>
    rcases s with ⟨sp, sats, pc, a⟩
    rcases a with _ | _ | _ | _ | ⟨_ | ⟨p', todo⟩⟩ | _ <;>
      simp [GroupEvent.later, step, later, Admin.later]
  | startRaised x =>
    rcases s with ⟨sp, sats, pc, a⟩
    rcases a with _ | _ | _ | _ | _ | _ <;>
      simp [GroupEvent.later, step, later, Admin.later]

/-! ## Dead processes -/

omit [DecidableEq Span] in
/-- Who is alive is not one of the dead before. -/
theorem later_of_alive (hold : ∀ o ∈ old, o.alive = false) {p : ℕ} {o : Spawned Span}
    (ho : (later old s).spawned[p]? = some o) (halive : o.alive = true) :
    ∃ q, p = old.length + q := by
  refine Nat.exists_eq_add_of_le (not_lt.1 fun hlt => ?_)
  rw [later, List.getElem?_append_left hlt] at ho
  rw [hold o (List.mem_of_getElem? ho)] at halive
  exact absurd halive (by simp)

omit [DecidableEq Span] in
theorem later_of_asking {c : Call} {p : ℕ} {todo : List ℕ} {r : ℤ}
    (hc : (later old s).caller = .asking c (p :: todo) r) : ∃ q, p = old.length + q := by
  rcases hpc : s.caller with _ | _ | _ | _ | _ | _ | ⟨c', _ | ⟨p', todo'⟩, r'⟩ | _ | _ <;>
    simp only [later, hpc, Caller.later, List.map_nil, List.map_cons, Caller.asking.injEq,
      reduceCtorEq, List.cons.injEq, false_and, and_false] at hc
  exact ⟨p', hc.2.1.1.symm⟩

omit [DecidableEq Span] in
theorem later_of_terminating {p : ℕ} {todo : List ℕ}
    (hadm : (later old s).admin = .terminating (p :: todo)) : ∃ q, p = old.length + q := by
  rcases ha : s.admin with _ | ⟨_ | ⟨p', todo'⟩⟩ | _ | _ | _ | _ <;>
    simp only [later, ha, Admin.later, List.map_nil, List.map_cons, Admin.terminating.injEq,
      reduceCtorEq, List.cons.injEq] at hadm
  exact ⟨p', hadm.1.symm⟩

/-- The dead take no part in a step. -/
theorem exists_later (hold : ∀ o ∈ old, o.alive = false) {e : GroupEvent Span}
    (he : (later old s).step parse e = some t) (hdie : ∀ p, e ≠ .die p) :
    ∃ e', e = e'.later old.length ∧ ∃ s', s.step parse e' = some s' ∧ t = later old s' := by
  suffices hlater : ∃ e' : GroupEvent Span, e = e'.later old.length by
    obtain ⟨e', rfl⟩ := hlater
    rw [step_later] at he
    obtain ⟨s', hs', rfl⟩ := Option.map_eq_some_iff.1 he
    exact ⟨e', rfl, s', hs', rfl⟩
  cases e with
  | sat p x =>
    simp only [step] at he
    split at he
    · simp at he
    · next o ho =>
      split_ifs at he with halive
      obtain ⟨q, rfl⟩ := later_of_alive hold ho halive
      exact ⟨.sat q x, rfl⟩
  | die p => exact absurd rfl (hdie p)
  | answer c p n =>
    obtain ⟨todo, r, o, hc, -⟩ := step_answer he
    obtain ⟨q, rfl⟩ := later_of_asking hc
    exact ⟨.answer c q n, rfl⟩
  | answerFrom c p q n =>
    obtain ⟨todo, r, o, w, hc, -, -, hw, halive, -⟩ := step_answerFrom he
    obtain ⟨p, rfl⟩ := later_of_asking hc
    obtain ⟨q, rfl⟩ := later_of_alive hold hw halive
    exact ⟨.answerFrom c p q n, rfl⟩
  | refuse c p =>
    simp only [step] at he
    split at he
    · next c' p' todo r hc =>
      split_ifs at he with hg
      obtain ⟨-, rfl, -⟩ := hg
      obtain ⟨q, rfl⟩ := later_of_asking hc
      exact ⟨.refuse c q, rfl⟩
    · simp at he
  | terminate p =>
    simp only [step] at he
    split at he
    · next p' todo o hadm ho =>
      split_ifs at he with hp
      obtain rfl := hp
      obtain ⟨q, rfl⟩ := later_of_terminating hadm
      exact ⟨.terminate q, rfl⟩
    · simp at he
  | call c => exact ⟨.call c, rfl⟩
  | callerStep => exact ⟨.callerStep, rfl⟩
  | receive => exact ⟨.receive, rfl⟩
  | returned c v => exact ⟨.returned c v, rfl⟩
  | raised x => exact ⟨.raised x, rfl⟩
  | shutdown => exact ⟨.shutdown, rfl⟩
  | shutdownReturned => exact ⟨.shutdownReturned, rfl⟩
  | start mode ports => exact ⟨.start mode ports, rfl⟩
  | spawn port => exact ⟨.spawn port, rfl⟩
  | spawnFailed x => exact ⟨.spawnFailed x, rfl⟩
  | assign => exact ⟨.assign, rfl⟩
  | adminStep => exact ⟨.adminStep, rfl⟩
  | startReturned => exact ⟨.startReturned, rfl⟩
  | startRaised x => exact ⟨.startRaised x, rfl⟩

/-- A run in which none of them dies is a run of the group without them. -/
theorem exists_later_run (hold : ∀ o ∈ old, o.alive = false) {es : List (GroupEvent Span)}
    (h : run (GroupSys.step parse) (later old s) es = some t)
    (hdie : ∀ p, GroupEvent.die p ∉ es) :
    ∃ es' s', es = es'.map (.later old.length) ∧
      run (GroupSys.step parse) s es' = some s' ∧ t = later old s' := by
  refine run_induction (P := fun es t => (∀ p, GroupEvent.die p ∉ es) →
    ∃ es' s', es = es'.map (.later old.length) ∧
      run (GroupSys.step parse) s es' = some s' ∧ t = later old s') ?_ ?_ h hdie
  · exact fun _ => ⟨[], s, rfl, rfl, rfl⟩
  · intro es m e m' _ ih he hdie
    obtain ⟨es', s', rfl, hrun, rfl⟩ := ih fun p hp => hdie p (by simp [hp])
    obtain ⟨e', rfl, s'', hs'', rfl⟩ := exists_later hold he
      (by rintro p rfl; exact hdie p (by simp))
    exact ⟨es' ++ [e'], s'', by simp, run_snoc_eq_some.2 ⟨s', hrun, hs''⟩, rfl⟩

/-! ## Histories -/

section Histories

omit [DecidableEq Span]

variable {k p : ℕ} {es : List (GroupEvent Span)}

theorem lastReset_later : lastReset (k + p) (es.map (.later k)) = lastReset p es := by
  rw [lastReset, List.foldl_map, lastReset]
  refine congrArg (fun f => es.foldl f 0) (funext₂ fun n e => ?_)
  unfold lastResetStep
  cases e with
  | answer c q n => cases c <;> simp [GroupEvent.later]
  | _ => rfl

theorem satTrace_later : satTrace (k + p) (es.map (.later k)) = satTrace p es := by
  rw [satTrace, List.filterMap_map, satTrace]
  refine List.filterMap_congr fun e _ => ?_
  cases e <;> simp [GroupEvent.later]

theorem answers_later :
    answers (es.map (.later k)) = (answers es).map fun a => (k + a.1, a.2) := by
  induction es using List.reverseRecOn with
  | nil => rfl
  | append_singleton es e ih =>
    rw [List.map_append, List.map_singleton, answers_snoc, answers_snoc, ih]
    cases e <;> simp [answersStep, GroupEvent.later]

/-- A get, taken out of a run. -/
theorem map_later_get {es a m b : List (GroupEvent Span)} {v : ℤ}
    (h : es.map (.later k) = a ++ .call .get :: (m ++ .returned .get v :: b)) :
    ∃ a' m' b', es = a' ++ .call .get :: (m' ++ .returned .get v :: b') ∧
      a = a'.map (.later k) ∧ m = m'.map (.later k) := by
  obtain ⟨a', l₁, rfl, rfl, h₁⟩ := List.map_eq_append_iff.1 h
  obtain ⟨x, l₂, rfl, hx, h₂⟩ := List.map_eq_cons_iff.1 h₁
  obtain ⟨m', l₃, rfl, rfl, h₃⟩ := List.map_eq_append_iff.1 h₂
  obtain ⟨y, b', rfl, hy, -⟩ := List.map_eq_cons_iff.1 h₃
  cases x <;> simp only [GroupEvent.later, reduceCtorEq] at hx
  cases y <;> simp only [GroupEvent.later, reduceCtorEq] at hy
  exact ⟨a', m', b', by rw [hx, hy], rfl, rfl⟩

/-- Two gets, taken out of a run. -/
theorem map_later_gets {es a b c : List (GroupEvent Span)} {v w : ℤ}
    (h : es.map (.later k) = a ++ .returned .get v :: (b ++ .returned .get w :: c)) :
    ∃ a' b' c', es = a' ++ .returned .get v :: (b' ++ .returned .get w :: c') ∧
      b = b'.map (.later k) := by
  obtain ⟨a', l₁, rfl, rfl, h₁⟩ := List.map_eq_append_iff.1 h
  obtain ⟨x, l₂, rfl, hx, h₂⟩ := List.map_eq_cons_iff.1 h₁
  obtain ⟨b', l₃, rfl, rfl, h₃⟩ := List.map_eq_append_iff.1 h₂
  obtain ⟨y, c', rfl, hy, -⟩ := List.map_eq_cons_iff.1 h₃
  cases x <;> simp only [GroupEvent.later, reduceCtorEq] at hx
  cases y <;> simp only [GroupEvent.later, reduceCtorEq] at hy
  exact ⟨a', b', c', by rw [hx, hy], rfl⟩

end Histories

/-! ## The start of a group that was shut down -/

/-- The steps of a `start` that finds all its satellites running. -/
def startup (mode : Mode) (ports : List ℕ) : List (GroupEvent Span) :=
  (.start mode ports :: ports.map .spawn) ++ .assign :: .adminStep ::
    (List.replicate ports.length .adminStep ++ [.startReturned])

omit [DecidableEq Span] in
theorem startup_later (k : ℕ) (mode : Mode) (ports : List ℕ) :
    (startup mode ports : List (GroupEvent Span)).map (.later k) = startup mode ports := by
  simp [startup, GroupEvent.later, Function.comp_def]

theorem run_later (es : List (GroupEvent Span)) :
    run (GroupSys.step parse) (later old s) (es.map (.later old.length)) =
      (run (GroupSys.step parse) s es).map (later old) := by
  induction es generalizing s with
  | nil => rfl
  | cons e es ih =>
    rw [List.map_cons, run_cons, run_cons, step_later]
    rcases s.step parse e with _ | s'
    · rfl
    · exact ih

/-- A group that was shut down and is started again is a constructed one, with its satellites
numbered on from the dead. -/
theorem run_restarted (mode : Mode) {ports : List ℕ} (hports : ports ≠ [])
    (hsat : s.satellites = none) (hcaller : s.caller = .idle) (hadm : s.admin = .idle) :
    run (GroupSys.step parse) s (startup mode ports) =
      some (later s.spawned (constructed mode ports)) := by
  have hs : s = later s.spawned new := by
    rcases s with ⟨sp, sats, pc, a⟩
    obtain rfl : sats = none := hsat
    obtain rfl : pc = .idle := hcaller
    obtain rfl : a = .idle := hadm
    simp [later, new, Caller.later, Admin.later]
  conv_lhs => rw [hs, ← startup_later s.spawned.length, run_later]
  rw [startup, run_construction mode hports]
  rfl

end GroupSys

/-- A group on port 8360 is shut down. -/
def sampleBefore : List (GroupEvent (List UInt8)) :=
  GroupSys.startup .typical [8360] ++ [.shutdown, .terminate 0, .shutdownReturned]

/-- Started again on port 8361, it counts a report of one span. -/
def sampleAfter : List (GroupEvent (List UInt8)) :=
  [.sat 1 (.accept "/api/v2/reports" [26, 0]), .sat 1 (.post 0 .parse), .sat 1 (.post 0 .wake),
    .sat 1 (.post 0 (.add [[]])), .sat 1 (.post 0 (.respond 200)), .call .get, .callerStep,
    .callerStep, .callerStep, .callerStep, .callerStep, .callerStep, .answer .get 1 1, .receive,
    .returned .get 1]

end TracerBench
