import TracerBench.Accounting
import Mathlib.Algebra.Order.BigOperators.Group.Finset

/-!
# A group that stays up

Between a start and the next shutdown, with all satellites alive, no call raises, and each
goes through the satellites of the group in their order. `Steady` says so for one state,
and `group_accounting` follows from it and the ledgers : what a get returns, what it is
bounded by, and that it does not decrease before the next reset.
-/

namespace TracerBench

variable {Span : Type*}

namespace GroupSys

/-- Nobody starts or stops a satellite, and all are running. -/
structure Steady (es : List (GroupEvent Span)) (s : GroupSys Span) : Prop where
  admin : s.admin = .idle
  running : ∀ p ∈ s.group, s.isRunning p = true
  raising : s.group ≠ [] → ∀ x, s.caller ≠ .raising x
  polling : ∀ todo, s.caller = .polling todo → ∀ p ∈ todo, p ∈ s.group
  covering : Covering es s

variable [DecidableEq Span] {parse : List UInt8 → Option (List Span)}

omit [DecidableEq Span] in
theorem isRunning_iff {s : GroupSys Span} {p : ℕ} :
    s.isRunning p = true ↔ ∃ o, s.spawned[p]? = some o ∧ o.alive = true := by
  unfold isRunning
  rw [Option.any_eq_true]

omit [DecidableEq Span] in
theorem isRunning_congr {s s' : GroupSys Span}
    (h : s'.spawned.map (·.alive) = s.spawned.map (·.alive)) (p : ℕ) :
    s'.isRunning p = s.isRunning p := by
  have hget : ∀ m : GroupSys Span, m.isRunning p = ((m.spawned.map (·.alive))[p]?).any id := by
    intro m
    rw [isRunning, List.getElem?_map, Option.any_map]
    rfl
  rw [hget, hget, h]

/-- A process that is there goes on as it is, unless it dies or is terminated. -/
theorem step_isRunning_cases {s s' : GroupSys Span} {e : GroupEvent Span}
    (h : s.step parse e = some s') {p : ℕ} (hp : p < s.spawned.length) :
    (e = .die p ∨ e = .terminate p) ∨ s'.isRunning p = s.isRunning p := by
  rcases step_spawned h with ⟨q, x, w, sat, hw, -, -⟩ | ⟨q, w, todo, r, -, -⟩ |
    ⟨q, w, n, todo, r, -, hw⟩ | ⟨q, w, he, hw, -, hs'⟩ | ⟨mode, port, -, hs'⟩ |
    ⟨c, q, q', n, hs'⟩ | ⟨-, hs', -⟩
  · right
    apply isRunning_congr
    exact map_set_eq hw rfl
  · exact Or.inr rfl
  · right
    apply isRunning_congr
    exact map_set_eq hw rfl
  · rcases eq_or_ne q p with rfl | hne
    · exact Or.inl he
    · right
      rw [isRunning, hs', List.getElem?_set_ne hne, isRunning]
  · right
    rw [isRunning, hs', List.getElem?_append_left hp, isRunning]
  · exact Or.inr (isRunning_congr (by rw [hs']) p)
  · exact Or.inr (isRunning_congr (by rw [hs']) p)

omit [DecidableEq Span] in
theorem isRunning_lt {s : GroupSys Span} {p : ℕ} (h : s.isRunning p = true) :
    p < s.spawned.length := by
  obtain ⟨o, ho, -⟩ := isRunning_iff.1 h
  exact (List.getElem?_eq_some_iff.1 ho).1

/-- A process runs until it dies or is terminated. -/
theorem step_isRunning {s s' : GroupSys Span} {e : GroupEvent Span}
    (h : s.step parse e = some s') {p : ℕ} (hdie : e ≠ .die p) (hterm : e ≠ .terminate p)
    (hp : s.isRunning p = true) : s'.isRunning p = true := by
  rw [(step_isRunning_cases h (isRunning_lt hp)).resolve_left (not_or.2 ⟨hdie, hterm⟩)]
  exact hp

omit [DecidableEq Span] in
/-- The caller's tests and polls succeed. -/
theorem Steady.callerNext {es : List (GroupEvent Span)} {s : GroupSys Span} {c : Caller}
    (h : Steady es s) (hc : s.callerNext s.caller = some c) :
    (s.group ≠ [] → ∀ x, c ≠ .raising x) ∧
      ∀ todo, c = .polling todo → ∀ p ∈ todo, p ∈ s.group := by
  have hfalsy : ¬s.truthy = true → s.group = [] := fun ht => not_not.1 (mt truthy_iff.2 ht)
  rcases hpc : s.caller with _ | ⟨_ | _⟩ | _ | _ | ⟨_ | ⟨p, todo⟩⟩ | k | _ | _ | _ <;>
    rw [hpc] at hc <;> simp only [GroupSys.callerNext, reduceCtorEq] at hc
  case polling.cons =>
    have hmem := h.polling _ hpc
    obtain rfl := Option.some.inj hc
    rw [if_pos (h.running p (hmem p (by simp)))]
    refine ⟨by simp, fun todo' ht q hq => ?_⟩
    obtain rfl := Caller.polling.inj ht
    exact hmem q (by simp [hq])
  case polling.nil =>
    obtain rfl := Option.some.inj hc
    simp
  case enteringPolls | entering =>
    -- the loops start over the group, which is there
    unfold group
    split at hc <;> obtain rfl := Option.some.inj hc <;> simp_all
  all_goals
    obtain rfl := Option.some.inj hc
    by_cases ht : s.truthy = true
    · simp [ht]
    · simp [ht, hfalsy ht]

theorem Steady.step {es : List (GroupEvent Span)} {s s' : GroupSys Span} {e : GroupEvent Span}
    (h : Steady es s) (hcall : Calling es s) (he : s.step parse e = some s')
    (hadmin : OfAdmin e → s' = s) (hdie : ∀ p, e ≠ .die p) :
    Steady (es ++ [e]) s' ∧ ∀ c p q n, e ≠ .answerFrom c p q n := by
  have hown : ∀ c p q n, e ≠ .answerFrom c p q n := by
    rintro c p q n rfl
    -- the satellite asked is one of the group, so it is running
    obtain ⟨todo, r, o, -, hc, ho, halive, -⟩ := step_answerFrom he
    have hp := h.running p (h.covering.asked_mem hc)
    simp [isRunning, ho, halive] at hp
  refine ⟨?_, hown⟩
  by_cases hof : OfAdmin e
  · obtain rfl := hadmin hof
    exact ⟨h.admin, h.running, h.raising, h.polling,
      h.covering.step hcall he (fun _ => rfl) hown⟩
  obtain ⟨hadm, hsat⟩ := (step_admin he).resolve_left hof
  have hgroup : s'.group = s.group := by rw [group, hsat, group]
  have hcov := h.covering.step hcall he (fun _ => hgroup) hown
  have hrun : ∀ p ∈ s'.group, s'.isRunning p = true := fun p hp =>
    step_isRunning he (hdie p) (by rintro rfl; exact hof trivial) (h.running p (hgroup ▸ hp))
  rw [h.admin] at hadm
  rcases step_caller he with ⟨c, hc⟩ | ⟨c, hc⟩ | ⟨c, p, todo, r, o, hc, ho⟩ |
    ⟨c, p, q, n, todo, r, hc, hp⟩ | ⟨c, p, n, todo, r, o, hc, ho⟩ | ⟨c, p, todo, r, hc, hp⟩ |
    ⟨c, v, hc⟩ | ⟨x, hc⟩ | ⟨hcaller, hc⟩
  · exact ⟨hadm, hrun, by simp, by simp, hcov⟩
  · obtain ⟨hraise, hpoll⟩ := h.callerNext hc
    exact ⟨hadm, hrun, hraise, hpoll, hcov⟩
  · exact ⟨hadm, hrun, by simp, by simp, hcov⟩
  · exact absurd rfl (hown c p q n)
  · rcases c with _ | _
    · rw [receive_get] at hadm hrun hcov ⊢
      exact ⟨hadm, hrun, by simp, by simp, hcov⟩
    · rw [receive_reset] at hadm hrun hcov ⊢
      exact ⟨hadm, hrun, by simp, by simp, hcov⟩
  · rw [h.running p (h.covering.asked_mem hc)] at hp
    exact absurd hp (by simp)
  · exact ⟨hadm, hrun, by simp, by simp, hcov⟩
  · exact ⟨hadm, hrun, by simp, by simp, hcov⟩
  · exact ⟨hadm, hrun, by rw [hgroup, hc]; exact h.raising, by rw [hgroup, hc]; exact h.polling,
      hcov⟩

theorem Steady.admin_step {es : List (GroupEvent Span)} {s s' : GroupSys Span}
    {e : GroupEvent Span} (h : Steady es s) (hne : s.group ≠ []) (he : s.step parse e = some s')
    (hshut : e ≠ .shutdown) (hof : OfAdmin e) : s' = s := by
  have hidle := h.admin
  cases e <;> simp_all [GroupSys.step, OfAdmin, truthy_iff.2 hne, adminNext]

/-- A group that is neither shut down nor loses a satellite stays up. -/
theorem steady_run {s t : GroupSys Span} {es : List (GroupEvent Span)} (hs : s.Fresh)
    (hst : Steady [] s) (hne : s.group ≠ []) (h : run (GroupSys.step parse) s es = some t)
    (hdie : ∀ p, GroupEvent.die p ∉ es) (hshut : GroupEvent.shutdown ∉ es) :
    Steady es t ∧ t.group = s.group ∧ ∀ c p q n, GroupEvent.answerFrom c p q n ∉ es := by
  refine run_induction (P := fun es (m : GroupSys Span) => (∀ p, GroupEvent.die p ∉ es) →
    GroupEvent.shutdown ∉ es → Steady es m ∧ m.group = s.group ∧
      ∀ c p q n, GroupEvent.answerFrom c p q n ∉ es)
    (fun _ _ => ⟨hst, rfl, by simp⟩) ?_ h hdie hshut
  intro es m e m' hm ih he hdie hshut
  simp only [List.mem_append, List.mem_singleton, not_or] at hdie hshut ⊢
  obtain ⟨hsteady, hgroup, hown⟩ := ih (fun p => (hdie p).1) hshut.1
  have hadmin : OfAdmin e → m' = m :=
    hsteady.admin_step (hgroup ▸ hne) he (Ne.symm hshut.2)
  obtain ⟨hsteady', hown'⟩ := hsteady.step (calling hs hm hown) he hadmin
    fun p => Ne.symm (hdie p).2
  refine ⟨hsteady', ?_, fun c p q n => ⟨hown c p q n, Ne.symm (hown' c p q n)⟩⟩
  rcases step_admin he with hof | ⟨-, hsat⟩
  · rw [hadmin hof, hgroup]
  · rw [group, hsat, ← hgroup, group]

/-! ## What the answers are bounded by -/

/-- The first `k` satellites have counted at least `lo`, and have answered the last call
with at least `lo` and at most what they have counted. -/
structure Between (lo : ℕ → ℕ) (k : ℕ) (es : List (GroupEvent Span)) (s : GroupSys Span) :
    Prop where
  counter : ∀ p < k, ∃ o, s.spawned[p]? = some o ∧ lo p ≤ o.satellite.spansReceived
  answer : ∀ a ∈ answers es, a.1 < k → lo a.1 ≤ a.2 ∧
    ∃ o, s.spawned[a.1]? = some o ∧ a.2 ≤ o.satellite.spansReceived

theorem Between.step {lo : ℕ → ℕ} {k : ℕ} {es : List (GroupEvent Span)} {s s' : GroupSys Span}
    {e : GroupEvent Span} (h : Between lo k es s) (he : s.step parse e = some s') :
    Between lo k (es ++ [e]) s' := by
  have hcounter : ∀ p < k, ∃ o, s'.spawned[p]? = some o ∧ lo p ≤ o.satellite.spansReceived := by
    intro p hp
    obtain ⟨o, ho, hlo⟩ := h.counter p hp
    obtain ⟨o', ho', hle⟩ := step_counter he ho
    exact ⟨o', ho', hlo.trans hle⟩
  have hold : ∀ a ∈ answers es, a.1 < k → lo a.1 ≤ a.2 ∧
      ∃ o, s'.spawned[a.1]? = some o ∧ a.2 ≤ o.satellite.spansReceived := by
    intro a ha hk
    obtain ⟨hlo, o, ho, hhi⟩ := h.answer a ha hk
    obtain ⟨o', ho', hle⟩ := step_counter he ho
    exact ⟨hlo, o', ho', hhi.trans hle⟩
  refine ⟨hcounter, fun a ha hk => ?_⟩
  rw [answers_snoc] at ha
  unfold answersStep at ha
  split at ha
  · simp at ha
  · next c p n =>
    rcases List.mem_append.1 ha with ha | ha
    · exact hold a ha hk
    · obtain rfl := List.mem_singleton.1 ha
      obtain ⟨-, -, o, -, ho, rfl, -⟩ := step_answer he
      obtain ⟨o', ho', hle⟩ := step_counter he ho
      obtain ⟨w, hw, hlo⟩ := h.counter p hk
      obtain rfl : o = w := Option.some.inj (ho.symm.trans hw)
      exact ⟨hlo, o', ho', hle⟩
  · exact hold a ha hk

/-! ## Without a reset -/

/-- From outside a reset, and with no call of one, no satellite answers a reset. -/
theorem reset_answer_notMem {s t : GroupSys Span} {es : List (GroupEvent Span)}
    (h : run (GroupSys.step parse) s es = some t) (hs : s.caller.call? ≠ some .reset)
    (hes : GroupEvent.call .reset ∉ es) (p n : ℕ) : GroupEvent.answer .reset p n ∉ es := by
  refine (run_induction (P := fun es (m : GroupSys Span) => GroupEvent.call .reset ∉ es →
    m.caller.call? ≠ some .reset ∧ GroupEvent.answer .reset p n ∉ es)
    (fun _ => ⟨hs, by simp⟩) ?_ h hes).2
  intro es m e m' _ ih he hes
  simp only [List.mem_append, List.mem_singleton, not_or] at hes ⊢
  obtain ⟨hm, hmem⟩ := ih hes.1
  obtain ⟨hcall, hans⟩ := step_call he
  refine ⟨?_, hmem, fun heq => hm (hans _ _ _ heq.symm)⟩
  rcases hcall with hcall | hcall | ⟨c, rfl, hcall⟩
  · rw [hcall]
    exact hm
  · simp [hcall]
  · rw [hcall]
    rintro hreset
    exact hes.2 (by rw [Option.some.inj hreset])

/-! ## Construction -/

theorem run_spawns (mode : Mode) (sats : Option (List ℕ)) (pc : Caller) :
    ∀ (ports : List ℕ) (sp : List (Spawned Span)) (built : List ℕ),
      run (GroupSys.step parse) ⟨sp, sats, pc, .spawning mode ports built⟩ (ports.map .spawn) =
        some ⟨sp ++ ports.map (.fresh mode), sats, pc,
          .spawning mode [] (built ++ List.range' sp.length ports.length)⟩
  | [], sp, built => by simp
  | port :: ports, sp, built => by
    refine run_cons_eq_some.2 ⟨⟨sp ++ [.fresh mode port], sats, pc,
      .spawning mode ports (built ++ [sp.length])⟩, by simp [GroupSys.step], ?_⟩
    rw [run_spawns mode sats pc ports]
    simp [List.range'_succ]

theorem run_polls {sp : List (Spawned Span)} {sats : Option (List ℕ)} {pc : Caller} :
    ∀ {todo : List ℕ}, (∀ p ∈ todo, (⟨sp, sats, pc, .idle⟩ : GroupSys Span).isRunning p = true) →
      run (GroupSys.step parse) ⟨sp, sats, pc, .polling todo⟩
        (List.replicate todo.length .adminStep) = some ⟨sp, sats, pc, .polling []⟩
  | [], _ => rfl
  | p :: todo, h => by
    refine run_cons_eq_some.2 ⟨⟨sp, sats, pc, .polling todo⟩, ?_,
      run_polls fun q hq => h q (by simp [hq])⟩
    have hp : (⟨sp, sats, pc, .polling (p :: todo)⟩ : GroupSys Span).isRunning p = true :=
      h p (by simp)
    simp [GroupSys.step, adminNext, hp]

/-- `MockSatelliteGroup(mode, ports)` ends in the constructed group. -/
theorem run_construction (mode : Mode) {ports : List ℕ} (hports : ports ≠ []) :
    run (GroupSys.step parse) new
      ((.start mode ports :: ports.map .spawn) ++ .assign :: .adminStep ::
        (List.replicate ports.length .adminStep ++ [.startReturned])) =
      some (constructed mode ports) := by
  have hstart : (new : GroupSys Span).step parse (.start mode ports) =
      some ⟨[], none, .idle, .spawning mode ports []⟩ := rfl
  have hspawn := @run_spawns Span _ parse mode none .idle ports [] []
  simp only [List.nil_append, List.length_nil, ← List.range_eq_range'] at hspawn
  have hrunning : ∀ p ∈ List.range ports.length,
      (⟨ports.map (.fresh mode), some (List.range ports.length), .idle, .idle⟩ :
        GroupSys Span).isRunning p = true := by
    intro p hp
    rw [List.mem_range] at hp
    exact isRunning_iff.2 ⟨.fresh mode ports[p], by simp [hp], rfl⟩
  have hpoll := @run_polls Span _ parse _ _ _ _ hrunning
  rw [List.length_range] at hpoll
  refine run_append_eq_some.2 ⟨_, run_cons_eq_some.2 ⟨_, hstart, hspawn⟩,
    run_cons_eq_some.2 ⟨_, rfl, run_cons_eq_some.2 ⟨_, ?_,
      run_append_eq_some.2 ⟨_, hpoll, rfl⟩⟩⟩⟩
  obtain ⟨n, hn⟩ := Nat.exists_eq_succ_of_ne_zero (mt List.length_eq_zero_iff.1 hports)
  simp [GroupSys.step, adminNext, hn, List.range_succ_eq_map]

/-! ## The group's accounts -/

omit [DecidableEq Span] in
theorem constructed_fresh (mode : Mode) (ports : List ℕ) :
    (constructed mode ports : GroupSys Span).Fresh := by
  refine ⟨rfl, fun o ho => ?_⟩
  obtain ⟨port, -, rfl⟩ := List.mem_map.1 ho
  exact ⟨rfl, rfl⟩

omit [DecidableEq Span] in
theorem constructed_steady (mode : Mode) (ports : List ℕ) :
    Steady [] (constructed mode ports : GroupSys Span) := by
  refine ⟨rfl, fun p hp => ?_, by simp [constructed], by simp [constructed],
    ⟨by simp [constructed], by simp [constructed]⟩⟩
  have hp : p < ports.length := by simpa [group, constructed] using hp
  exact isRunning_iff.2 ⟨.fresh mode ports[p], by simp [constructed, hp], rfl⟩

omit [DecidableEq Span] in
/-- Answers of satellites `0, 1, .., k - 1` are a function of the satellite. -/
theorem answers_eq_map {l : List (ℕ × ℕ)} {k : ℕ} (h : l.map Prod.fst = List.range k) :
    ∃ c : ℕ → ℕ, l = (List.range k).map fun p => (p, c p) := by
  refine ⟨fun p => (l[p]?.map Prod.snd).getD 0, List.ext_getElem ?_ fun p hp hp' => ?_⟩
  · simpa using congrArg List.length h
  · have hfst : l[p].1 = p := by
      have hget := List.getElem_map Prod.fst (l := l) (i := p) (h := by simpa using hp)
      simp only [h, List.getElem_range] at hget
      exact hget.symm
    ext
    · simpa using hfst
    · simp [hp]

theorem between_run {lo : ℕ → ℕ} {k : ℕ} {a b : List (GroupEvent Span)} {s t : GroupSys Span}
    (hs : Between lo k a s) (h : run (GroupSys.step parse) s b = some t) :
    Between lo k (a ++ b) t := by
  refine run_induction (P := fun b m => Between lo k (a ++ b) m) (by simpa using hs) ?_ h
  intro b m e m' _ ih he
  rw [← List.append_assoc]
  exact ih.step he

section Constructed

variable {mode : Mode} {ports : List ℕ} {es a b : List (GroupEvent Span)} {s : GroupSys Span}

omit [DecidableEq Span] in
theorem constructed_group : (constructed mode ports : GroupSys Span).group =
    List.range ports.length :=
  rfl

theorem constructed_run (hports : ports ≠ [])
    (h : run (GroupSys.step parse) (constructed mode ports) es = some s)
    (hdie : ∀ p, GroupEvent.die p ∉ es) (hshut : GroupEvent.shutdown ∉ es) :
    Steady es s ∧ s.group = List.range ports.length ∧
      (∀ c p q n, GroupEvent.answerFrom c p q n ∉ es) ∧ Accounts parse es s := by
  obtain ⟨hst, hgroup, hown⟩ := steady_run (constructed_fresh mode ports)
    (constructed_steady mode ports) (by simpa [constructed_group] using hports) h hdie hshut
  exact ⟨hst, hgroup, hown, accounts (constructed_fresh mode ports) h hown⟩

omit [DecidableEq Span] in
theorem between_zero :
    Between (fun _ => 0) ports.length [] (constructed mode ports : GroupSys Span) :=
  ⟨fun p hp => ⟨.fresh mode ports[p], by simp [constructed, hp], Nat.zero_le _⟩, by simp [answers]⟩

theorem Accounts.counted_eq {p : ℕ} {o : Spawned Span} (h : Accounts parse es s)
    (ho : s.spawned[p]? = some o) :
    o.satellite.spansReceived = Satellite.countedSpans parse (satTrace p es) :=
  Satellite.counter_eq_countedSpans (h.account p o ho).sat_run

/-- What a get returns in a group that stays up. -/
theorem returned_sum {v : ℤ} (hports : ports ≠ [])
    (h : run (GroupSys.step parse) (constructed mode ports) (a ++ .returned .get v :: b) = some s)
    (hdie : ∀ p, GroupEvent.die p ∉ a) (hshut : GroupEvent.shutdown ∉ a) :
    ∃ c : ℕ → ℕ, answers a = (List.range ports.length).map (fun p => (p, c p)) ∧
      v = ∑ p ∈ Finset.range ports.length, ((c p : ℤ) - lastReset p a) := by
  obtain ⟨m, m', ha, he, -⟩ := run_split h
  obtain ⟨hst, hgroup, hown, -⟩ := constructed_run hports ha hdie hshut
  obtain ⟨-, hv⟩ := returned_eq (constructed_fresh mode ports) h hown
  have hpids := hst.covering.asking .get [] v (returned_idle he).1
  rw [List.append_nil, hgroup] at hpids
  obtain ⟨c, hans⟩ := answers_eq_map hpids
  refine ⟨c, hans, ?_⟩
  rw [hv, answered, hans, List.map_map]
  rfl

/-- The answers lie between `lo` and what the satellites have counted. -/
theorem Between.bounds {lo c : ℕ → ℕ} {k : ℕ} (h : Between lo k es s)
    (hacc : Accounts parse es s) (hans : answers es = (List.range k).map fun p => (p, c p)) :
    ∀ p ∈ Finset.range k, lo p ≤ c p ∧ c p ≤ Satellite.countedSpans parse (satTrace p es) := by
  intro p hp
  rw [Finset.mem_range] at hp
  obtain ⟨hlo, o, ho, hhi⟩ := h.answer (p, c p) (by simp [hans, hp]) hp
  exact ⟨hlo, hhi.trans (hacc.counted_eq ho).le⟩

/-- A get that started after `a` is between what was acknowledged then and what is counted
now. -/
theorem get_bounds {c : ℕ → ℕ} (hports : ports ≠ [])
    (h : run (GroupSys.step parse) (constructed mode ports) (a ++ .call .get :: b) = some s)
    (hdie : ∀ p, GroupEvent.die p ∉ a ++ .call .get :: b)
    (hshut : GroupEvent.shutdown ∉ a ++ .call .get :: b)
    (hans : answers (a ++ .call .get :: b) = (List.range ports.length).map fun p => (p, c p)) :
    ∀ p ∈ Finset.range ports.length, Satellite.ackedSpans parse (satTrace p a) ≤ c p ∧
      c p ≤ Satellite.countedSpans parse (satTrace p (a ++ .call .get :: b)) := by
  obtain ⟨-, -, -, hacc⟩ := constructed_run hports h hdie hshut
  obtain ⟨m, hm, hb⟩ := run_append_eq_some.1 h
  obtain ⟨m', hcall, hb⟩ := run_cons_eq_some.1 hb
  obtain ⟨-, hgroup, -, haccm⟩ := constructed_run hports hm (fun p hp => hdie p (by simp [hp]))
    (fun hp => hshut (by simp [hp]))
  -- nobody has answered this call yet, and what is acknowledged is counted
  have hstart : Between (fun p => Satellite.ackedSpans parse (satTrace p a)) ports.length
      (a ++ [.call .get]) m' := by
    refine ⟨fun p hp => ?_, by simp [answers_snoc, answersStep]⟩
    obtain ⟨o, ho, -⟩ := (between_run between_zero hm).counter p hp
    obtain ⟨o', ho', hle⟩ := step_counter hcall ho
    have hrun := (haccm.account p o ho).sat_run
    exact ⟨o', ho', (Satellite.ackedSpans_le hrun).trans
      ((Satellite.counter_eq_countedSpans hrun).ge.trans hle)⟩
  have hend := between_run hstart hb
  rw [List.append_assoc] at hend
  exact hend.bounds hacc hans

end Constructed

end GroupSys

open GroupSys in
/-- What a get returns, and its bounds. -/
theorem get_accounting [DecidableEq Span] {parse : List UInt8 → Option (List Span)} {mode : Mode}
    {ports : List ℕ} (hports : ports ≠ []) {a m b : List (GroupEvent Span)} {v : ℤ}
    {s : GroupSys Span}
    (h : run (GroupSys.step parse) (constructed mode ports)
      ((a ++ .call .get :: m) ++ .returned .get v :: b) = some s)
    (hdie : ∀ p, GroupEvent.die p ∉ a ++ .call .get :: m)
    (hshut : GroupEvent.shutdown ∉ a ++ .call .get :: m)
    (hm : ∀ c, GroupEvent.call c ∉ m) :
    (∃ c : ℕ → ℕ,
      answers (a ++ .call .get :: m) = (List.range ports.length).map (fun p => (p, c p)) ∧
      v = ∑ p ∈ Finset.range ports.length, ((c p : ℤ) - lastReset p a)) ∧
    0 ≤ v ∧
    ∑ p ∈ Finset.range ports.length,
      ((Satellite.ackedSpans parse (satTrace p a) : ℤ) - lastReset p a) ≤ v ∧
    v ≤ ∑ p ∈ Finset.range ports.length,
      ((Satellite.countedSpans parse (satTrace p (a ++ .call .get :: m)) : ℤ) -
        lastReset p a) := by
  obtain ⟨c, hans, hv⟩ := returned_sum hports h hdie hshut
  obtain ⟨t, ht, -⟩ := run_append_eq_some.1 h
  have hbounds := GroupSys.get_bounds hports ht hdie hshut hans
  have hreset : ∀ p, lastReset p (a ++ .call .get :: m) = lastReset p a := by
    obtain ⟨m₀, -, hcall⟩ := run_append_eq_some.1 ht
    obtain ⟨m₁, hstep, -⟩ := run_cons_eq_some.1 hcall
    have hidle := call_idle hstep
    exact fun p => lastReset_append fun n =>
      reset_answer_notMem hcall (by simp [hidle, Caller.call?]) (by simp [hm]) p n
  simp only [hreset] at hv
  refine ⟨⟨c, hans, hv⟩, ?_, ?_, ?_⟩
  · obtain ⟨-, -, hown, -⟩ := constructed_run hports ht hdie hshut
    rw [(returned_eq (constructed_fresh mode ports) h hown).1]
    exact Int.natCast_nonneg _
  · rw [hv]
    refine Finset.sum_le_sum fun p hp => ?_
    have hle := (hbounds p hp).1
    omega
  · rw [hv]
    refine Finset.sum_le_sum fun p hp => ?_
    have hle := (hbounds p hp).2
    omega

open GroupSys in
/-- Without a reset between them, gets do not decrease. -/
theorem get_mono [DecidableEq Span] {parse : List UInt8 → Option (List Span)} {mode : Mode}
    {ports : List ℕ} (hports : ports ≠ []) {a b c : List (GroupEvent Span)} {v w : ℤ}
    {s : GroupSys Span}
    (h : run (GroupSys.step parse) (constructed mode ports)
      (a ++ .returned .get v :: (b ++ .returned .get w :: c)) = some s)
    (hdie : ∀ p, GroupEvent.die p ∉ a ++ .returned .get v :: b)
    (hshut : GroupEvent.shutdown ∉ a ++ .returned .get v :: b)
    (hb : GroupEvent.call .reset ∉ b) : v ≤ w := by
  have hdie' : ∀ p, GroupEvent.die p ∉ a := fun p hp => hdie p (List.mem_append_left _ hp)
  have hshut' : GroupEvent.shutdown ∉ a := fun hp => hshut (List.mem_append_left _ hp)
  obtain ⟨x, hansx, hv⟩ := returned_sum hports h hdie' hshut'
  have h' := h
  rw [← List.cons_append, ← List.append_assoc] at h'
  obtain ⟨y, hansy, hw⟩ := returned_sum hports h' hdie hshut
  obtain ⟨m, m', ha, hret, hrest⟩ := run_split h
  obtain ⟨t, ht, -⟩ := run_append_eq_some.1 hrest
  obtain ⟨hc, rfl⟩ := returned_idle hret
  -- the first answers bound the counters, and with them the second answers
  have hfirst : Between x ports.length (a ++ [.returned .get v]) { m with caller := .idle } := by
    have hm := between_run between_zero ha
    have hbounds := fun p hp => hm.answer (p, x p) (by simpa [hansx] using hp) hp
    refine ⟨fun p hp => (hbounds p hp).2, fun p hp hk => ?_⟩
    rw [(calls_snoc a (by simp) (by simp)).1, hansx, List.mem_map] at hp
    obtain ⟨q, -, rfl⟩ := hp
    exact ⟨le_rfl, (hbounds q hk).2⟩
  have hreset : ∀ p, lastReset p (a ++ .returned .get v :: b) = lastReset p a := by
    intro p
    refine lastReset_append fun n hn => ?_
    rcases List.mem_cons.1 hn with hn | hn
    · simp at hn
    · exact reset_answer_notMem ht (by simp [Caller.call?]) hb p n hn
  have hsecond := between_run hfirst ht
  rw [List.append_assoc] at hsecond
  rw [hv, hw]
  refine Finset.sum_le_sum fun p hp => ?_
  rw [Finset.mem_range] at hp
  have hle : x p ≤ y p := (hsecond.answer (p, y p) (by simpa [hansy] using hp) hp).1
  rw [hreset]
  omega

open GroupSys in
/-- A group of satellites that nobody shuts down accounts for what they counted, in any
interleaving of its calls with their threads. -/
theorem group_accounting [DecidableEq Span] (parse : List UInt8 → Option (List Span)) (mode : Mode)
    {ports : List ℕ} (hports : ports ≠ []) {es : List (GroupEvent Span)} {s : GroupSys Span}
    (h : run (GroupSys.step parse) (constructed mode ports) es = some s)
    (hdie : ∀ p, GroupEvent.die p ∉ es) (hshut : GroupEvent.shutdown ∉ es) :
    (∀ (p : ℕ) (o : Spawned Span), s.spawned[p]? = some o → 0 ≤ o.handler.spansReceivedBaseline ∧
      o.handler.spansReceivedBaseline ≤ (o.satellite.spansReceived : ℤ)) ∧
    (∀ e, s.caller ≠ .raising e) ∧
    (∀ a c p n b, es = a ++ .answer c p n :: b → ∃ m o,
      run (GroupSys.step parse) (constructed mode ports) a = some m ∧ m.spawned[p]? = some o ∧
        n = o.satellite.spansReceived) ∧
    (∀ a m v b, es = a ++ .call .get :: (m ++ .returned .get v :: b) →
      (∀ c, GroupEvent.call c ∉ m) →
      (∃ c : ℕ → ℕ,
        answers (a ++ .call .get :: m) = (List.range ports.length).map (fun p => (p, c p)) ∧
        v = ∑ p ∈ Finset.range ports.length, ((c p : ℤ) - lastReset p a)) ∧
      0 ≤ v ∧
      ∑ p ∈ Finset.range ports.length,
        ((Satellite.ackedSpans parse (satTrace p a) : ℤ) - lastReset p a) ≤ v ∧
      v ≤ ∑ p ∈ Finset.range ports.length,
        ((Satellite.countedSpans parse (satTrace p (a ++ .call .get :: m)) : ℤ) -
          lastReset p a)) ∧
    ∀ a v b w c, es = a ++ .returned .get v :: (b ++ .returned .get w :: c) →
      GroupEvent.call .reset ∉ b → v ≤ w := by
  obtain ⟨hst, hgroup, -, hacc⟩ := constructed_run hports h hdie hshut
  refine ⟨fun p o ho => ?_, ?_, ?_, ?_, ?_⟩
  · obtain ⟨h0, hle⟩ := (hacc.account p o ho).baseline_mem
    have hcount := (hacc.account p o ho).counter
    exact ⟨h0, by omega⟩
  · exact hst.raising (by rw [hgroup]; simpa using hports)
  · rintro a c p n b rfl
    obtain ⟨m, m', ha, he, -⟩ := run_split h
    obtain ⟨-, -, o, -, ho, hn, -⟩ := step_answer he
    exact ⟨m, o, ha, ho, hn⟩
  · rintro a m v b rfl hm
    rw [← List.cons_append, ← List.append_assoc] at h hdie hshut
    exact get_accounting hports h (fun p hp => hdie p (List.mem_append_left _ hp))
      (fun hp => hshut (List.mem_append_left _ hp)) hm
  · rintro a v b w c rfl hb
    refine get_mono hports h (fun p hp => hdie p ?_) (fun hp => hshut ?_) hb <;> simp_all

/-- One report of one span, added between the answer to a reset and its use; then a get. -/
def sampleGroupRun : List (GroupEvent (List UInt8)) :=
  [.sat 0 (.accept "/api/v2/reports" [26, 0]), .sat 0 (.post 0 .parse), .sat 0 (.post 0 .wake),
    .call .reset, .callerStep, .callerStep, .answer .reset 0 0, .sat 0 (.post 0 (.add [[]])),
    .receive, .answer .reset 1 0, .receive, .returned .reset 0,
    .call .get, .callerStep, .callerStep, .callerStep, .callerStep, .callerStep, .callerStep,
    .callerStep, .answer .get 0 1, .receive, .sat 0 (.post 0 (.respond 200)), .answer .get 1 0,
    .receive, .returned .get 1]

theorem group_accounting_sample :
    ∃ s, run (GroupSys.step parseSpans) (GroupSys.constructed .typical [8360, 8361])
        sampleGroupRun = some s ∧
      (∀ e, s.caller ≠ .raising e) ∧
      (0 : ℤ) ≤ 1 ∧
      ∃ c : ℕ → ℕ, (1 : ℤ) = ∑ p ∈ Finset.range 2,
        ((c p : ℤ) - GroupSys.lastReset p (sampleGroupRun.take 12)) := by
  have hrun : run (GroupSys.step parseSpans) (GroupSys.constructed .typical [8360, 8361])
      sampleGroupRun = some _ := rfl
  have h := group_accounting parseSpans .typical (by simp) hrun (by simp [sampleGroupRun])
    (by simp [sampleGroupRun])
  obtain ⟨⟨c, -, hv⟩, h0, -⟩ := h.2.2.2.1 (sampleGroupRun.take 12)
    ((sampleGroupRun.drop 13).take 12) 1 [] rfl (by simp [sampleGroupRun])
  exact ⟨_, hrun, h.2.1, h0, c, hv⟩

end TracerBench
