import TracerBench.SteadyGroup

/-!
# What a failed startup leaves

`__init__` spawns its satellites one after the other, assigns them to `self._satellites` and
polls each. Where a spawn raises, the satellites spawned before it are in no list, and where
a poll fails, all of them stay in the group; none is terminated on either way out. So a
satellite a failed startup has spawned is dead afterwards only if it died by itself
(`startup_clean_iff`).

A process that has died stays dead, and only its own death or the administrator's `terminate`
ends it (`step_isRunning_iff`). `Deaths` keeps the processes started since some point beside
the deaths so far, and `Starting` says how far the startup has come.
-/

namespace TracerBench

variable {Span : Type*}

namespace GroupSys

/-- What `all_running` returns when nothing happens during the call. -/
def allRunning (s : GroupSys Span) : Bool :=
  s.truthy && s.group.all s.isRunning

theorem allRunning_iff {s : GroupSys Span} :
    s.allRunning = true ↔ s.group ≠ [] ∧ ∀ p ∈ s.group, s.isRunning p = true := by
  rw [allRunning, Bool.and_eq_true, truthy_iff, List.all_eq_true]

theorem allRunning_eq_false {s : GroupSys Span} :
    s.allRunning = false ↔ s.group = [] ∨ ∃ p ∈ s.group, s.isRunning p = false := by
  rw [← Bool.not_eq_true, allRunning_iff, not_and_or, not_not]
  push Not
  simp only [ne_eq, Bool.not_eq_true]

/-! ## Processes -/

theorem length_ports (s : GroupSys Span) : s.ports.length = s.spawned.length :=
  List.length_map _

section Step

variable [DecidableEq Span] {parse : List UInt8 → Option (List Span)} {s s' : GroupSys Span}
  {e : GroupEvent Span}

/-- A process that died or was terminated is not running. -/
theorem step_exit (h : s.step parse e = some s') {p : ℕ} (he : e = .die p ∨ e = .terminate p) :
    s'.isRunning p = false := by
  have hset : ∀ o, s.spawned[p]? = some o →
      ((s.spawned.set p { o with alive := false })[p]?).any (·.alive) = false := by
    intro o ho
    rw [List.getElem?_set_self (List.getElem?_eq_some_iff.1 ho).1]
    rfl
  rcases he with rfl | rfl <;> simp only [step] at h
  · split at h
    · simp at h
    · next o ho =>
      obtain rfl := Option.some.inj h
      exact hset o ho
  · split at h
    · next p' todo o hadm ho =>
      split_ifs at h with hp
      obtain rfl := Option.some.inj h
      exact hset o ho
    · simp at h

/-- A process that is there ends by its own death or by the administrator, and for good. -/
theorem step_isRunning_iff (h : s.step parse e = some s') {p : ℕ} (hp : p < s.spawned.length) :
    s'.isRunning p = true ↔ s.isRunning p = true ∧ e ≠ .die p ∧ e ≠ .terminate p := by
  rcases step_isRunning_cases h hp with he | heq
  · rw [step_exit h he]
    refine iff_of_false (by simp) ?_
    rintro ⟨-, hdie, hterm⟩
    exact he.elim hdie hterm
  · rw [heq]
    refine ⟨fun hrun => ⟨hrun, not_or.1 fun he => ?_⟩, And.left⟩
    rw [← heq, step_exit h he] at hrun
    simp at hrun

/-- A spawn adds a process on its port, and it runs. -/
theorem step_spawn {port : ℕ} (h : s.step parse (.spawn port) = some s') :
    s'.ports = s.ports ++ [port] ∧ s'.isRunning s.spawned.length = true := by
  simp only [step] at h
  split at h
  · next mode port' todo built hadm =>
    split_ifs at h with hport
    obtain rfl := Option.some.inj h
    exact ⟨by simp [ports, Spawned.fresh], isRunning_iff.2 ⟨.fresh mode port, by simp, rfl⟩⟩
  · simp at h

/-- Without a spawn, no process comes to life. -/
theorem step_alive (h : s.step parse e = some s') (hspawn : ∀ port, e ≠ .spawn port) {p : ℕ}
    (hp : s'.isRunning p = true) : s.isRunning p = true := by
  have hlt := isRunning_lt hp
  rw [← length_ports, step_ports h hspawn, length_ports] at hlt
  exact ((step_isRunning_iff h hlt).1 hp).1

end Step

/-! ## Deaths during a startup -/

/-- How many processes were spawned. -/
def spawns (es : List (GroupEvent Span)) : ℕ :=
  es.countP fun
    | .spawn _ => true
    | _ => false

/-- Of the processes from `k` on, which are those spawned in `es`, the running ones are those
that have not died. -/
structure Deaths (k : ℕ) (es : List (GroupEvent Span)) (m : GroupSys Span) : Prop where
  count : m.spawned.length = k + spawns es
  born : ∀ p, GroupEvent.die p ∈ es → p < m.spawned.length
  running : ∀ p, k ≤ p → p < m.spawned.length → (m.isRunning p = true ↔ GroupEvent.die p ∉ es)

variable [DecidableEq Span] {parse : List UInt8 → Option (List Span)}

theorem step_die {m m' : GroupSys Span} {p : ℕ} (h : m.step parse (.die p) = some m') :
    p < m.spawned.length := by
  simp only [step] at h
  split at h
  · simp at h
  · next o ho => exact (List.getElem?_eq_some_iff.1 ho).1

theorem Deaths.step {k : ℕ} {es : List (GroupEvent Span)} {m m' : GroupSys Span}
    {e : GroupEvent Span} (h : Deaths k es m) (he : m.step parse e = some m')
    (hterm : ∀ p, e ≠ .terminate p) : Deaths k (es ++ [e]) m' := by
  -- a process that was there before
  have hold : ∀ p, k ≤ p → p < m.spawned.length →
      (m'.isRunning p = true ↔ GroupEvent.die p ∉ es ++ [e]) := by
    intro p hk hp
    rw [step_isRunning_iff he hp, h.running p hk hp]
    simp [hterm p, eq_comm]
  by_cases hspawn : ∃ port, e = .spawn port
  · obtain ⟨port, rfl⟩ := hspawn
    obtain ⟨hports, hnew⟩ := step_spawn he
    have hlen : m'.spawned.length = m.spawned.length + 1 := by
      rw [← length_ports, hports, List.length_append, length_ports]
      rfl
    refine ⟨?_, fun p hp => ?_, fun p hk hp => ?_⟩
    · rw [hlen, h.count, spawns, spawns, List.countP_append]
      rfl
    · have := h.born p (by simpa using hp)
      omega
    · rcases Nat.lt_or_ge p m.spawned.length with hp' | hp'
      · exact hold p hk hp'
      · -- the new one runs, and nothing died under its number
        obtain rfl : p = m.spawned.length := by omega
        have hdie : GroupEvent.die m.spawned.length ∉ es := fun hmem =>
          absurd (h.born _ hmem) (Nat.lt_irrefl _)
        simp [hnew, hdie]
  · push Not at hspawn
    have hlen : m'.spawned.length = m.spawned.length := by
      rw [← length_ports, step_ports he hspawn, length_ports]
    refine ⟨?_, fun p hp => ?_, fun p hk hp => hold p hk (hlen ▸ hp)⟩
    · rw [hlen, h.count, spawns, spawns, List.countP_append, List.countP_singleton]
      cases e <;> simp_all
    · rw [hlen]
      rcases List.mem_append.1 hp with hp | hp
      · exact h.born p hp
      · obtain rfl := List.mem_singleton.1 hp
        exact step_die he

/-- Where a startup of `ports` from `s` is after `es`. -/
inductive Starting (s : GroupSys Span) (ports : List ℕ) (es : List (GroupEvent Span))
    (m : GroupSys Span) : Prop
  | spawning (mode : Mode) (done todo : List ℕ) (hports : ports = done ++ todo)
    (hadm : m.admin = .spawning mode todo (List.range' s.spawned.length done.length))
    (hsat : m.satellites = s.satellites) (hmap : m.ports = s.ports ++ done)
    (hes : ∀ x, GroupEvent.spawnFailed x ∉ es)
  /-- A spawn has raised. -/
  | failed (x : PyError) (hadm : m.admin = .raising (.python x))
    (hsat : m.satellites = s.satellites) (hes : GroupEvent.spawnFailed x ∈ es)
  /-- All are spawned and assigned, and a poll that fails was right. -/
  | assigned
    (hadm : m.admin = .checking ∨ (∃ todo, m.admin = .polling todo ∧ ∀ p ∈ todo, p ∈ m.group) ∨
      ∃ x, m.admin = .raising x ∧ m.allRunning = false)
    (hsat : m.satellites = some (List.range' s.spawned.length ports.length))
    (hmap : m.ports = s.ports ++ ports) (hes : ∀ x, GroupEvent.spawnFailed x ∉ es)

/-- Without a step of the administrator, no satellite that is needed comes back. -/
theorem step_allRunning {m m' : GroupSys Span} {e : GroupEvent Span}
    (he : m.step parse e = some m') (hof : ¬OfAdmin e) (h : m.allRunning = false) :
    m'.allRunning = false := by
  have hgroup : m'.group = m.group := by
    rw [group, ((step_admin he).resolve_left hof).2, group]
  rw [allRunning_eq_false, hgroup]
  refine (allRunning_eq_false.1 h).imp_right ?_
  rintro ⟨p, hp, hdead⟩
  refine ⟨p, hp, ?_⟩
  by_contra hrun
  rw [Bool.not_eq_false] at hrun
  simp [step_alive he (by rintro port rfl; exact hof trivial) hrun] at hdead

theorem Starting.other {s m m' : GroupSys Span} {ports : List ℕ} {es : List (GroupEvent Span)}
    {e : GroupEvent Span} (h : Starting s ports es m) (he : m.step parse e = some m')
    (hof : ¬OfAdmin e) : Starting s ports (es ++ [e]) m' := by
  obtain ⟨hadm', hsat'⟩ := (step_admin he).resolve_left hof
  have hmap' : m'.ports = m.ports := step_ports he (by rintro port rfl; exact hof trivial)
  have hes' : (∀ x, GroupEvent.spawnFailed x ∉ es) → ∀ x, GroupEvent.spawnFailed x ∉ es ++ [e] := by
    intro hes x hx
    rcases List.mem_append.1 hx with hx | hx
    · exact hes x hx
    · obtain rfl := List.mem_singleton.1 hx
      exact hof trivial
  rcases h with ⟨mode, done, todo, hports, hadm, hsat, hmap, hes⟩ | ⟨x, hadm, hsat, hes⟩ |
    ⟨hadm, hsat, hmap, hes⟩
  · exact .spawning mode done todo hports (hadm'.trans hadm) (hsat'.trans hsat) (hmap'.trans hmap)
      (hes' hes)
  · exact .failed x (hadm'.trans hadm) (hsat'.trans hsat) (List.mem_append_left _ hes)
  · have hgroup : m'.group = m.group := by rw [group, hsat', group]
    refine .assigned ?_ (hsat'.trans hsat) (hmap'.trans hmap) (hes' hes)
    rw [hadm', hgroup]
    refine hadm.imp_right (Or.imp_right ?_)
    rintro ⟨x, hx, hrun⟩
    exact ⟨x, hx, step_allRunning he hof hrun⟩

omit [DecidableEq Span] in
/-- A startup that goes on is no shutdown. -/
theorem Starting.admin_ne {s m : GroupSys Span} {ports : List ℕ} {es : List (GroupEvent Span)}
    (h : Starting s ports es m) : m.admin ≠ .idle ∧ ∀ todo, m.admin ≠ .terminating todo := by
  rcases h with ⟨mode, done, todo, -, hadm, -, -, -⟩ | ⟨x, hadm, -, -⟩ |
    ⟨hadm | ⟨todo, hadm, -⟩ | ⟨x, hadm, -⟩, -, -, -⟩ <;> simp [hadm]

omit [DecidableEq Span] in
/-- While it spawns, a startup has built what it has spawned. -/
theorem Starting.built {s m : GroupSys Span} {ports : List ℕ} {es : List (GroupEvent Span)}
    {mode : Mode} {todo built : List ℕ} (h : Starting s ports es m)
    (hadm : m.admin = .spawning mode todo built) :
    ∃ done, ports = done ++ todo ∧ built = List.range' s.spawned.length done.length ∧
      m.satellites = s.satellites ∧ m.ports = s.ports ++ done ∧
      ∀ x, GroupEvent.spawnFailed x ∉ es := by
  rcases h with ⟨mode', done, todo', hports, hadm', hsat, hmap, hes⟩ | ⟨x, hadm', -, -⟩ |
    ⟨hadm' | ⟨todo', hadm', -⟩ | ⟨x, hadm', -⟩, -, -, -⟩ <;> simp [hadm'] at hadm
  obtain ⟨-, rfl, rfl⟩ := hadm
  exact ⟨done, hports, rfl, hsat, hmap, hes⟩

omit [DecidableEq Span] in
/-- A poll goes on with the satellites that are left, or ends the startup. -/
theorem Starting.next {s m : GroupSys Span} {ports : List ℕ} {es : List (GroupEvent Span)}
    {a : Admin} (h : Starting s ports es m) (ha : m.adminNext m.admin = some a) :
    Starting s ports (es ++ [.adminStep]) { m with admin := a } := by
  rcases h with ⟨mode, done, todo, hports, hadm, hsat, hmap, hes⟩ | ⟨x, hadm, hsat, hes⟩ |
    ⟨hadm, hsat, hmap, hes⟩
  · simp [hadm, adminNext] at ha
  · simp [hadm, adminNext] at ha
  refine .assigned ?_ hsat hmap (by simpa using hes)
  change a = .checking ∨ (∃ todo, a = .polling todo ∧ ∀ p ∈ todo, p ∈ m.group) ∨
    ∃ x, a = .raising x ∧ m.allRunning = false
  rcases hadm with hadm | ⟨_ | ⟨p, todo⟩, hadm, hmem⟩ | ⟨x, hadm, -⟩
  · rw [hadm, adminNext] at ha
    split at ha
    · next p ps hps =>
      obtain rfl := Option.some.inj ha
      refine Or.inr (Or.inl ⟨_, rfl, ?_⟩)
      simp [group, hps]
    · next hne =>
      obtain rfl := Option.some.inj ha
      refine Or.inr (Or.inr ⟨_, rfl, allRunning_eq_false.2 (Or.inl ?_)⟩)
      unfold group
      rcases hps : m.satellites with _ | _ | ⟨p, ps⟩
      · rfl
      · rfl
      · exact absurd hps (hne p ps)
  · simp [hadm, adminNext] at ha
  · rw [hadm, adminNext] at ha
    obtain rfl := Option.some.inj ha
    split_ifs with hp
    · exact Or.inr (Or.inl ⟨todo, rfl, fun q hq => hmem q (by simp [hq])⟩)
    · refine Or.inr (Or.inr ⟨_, rfl, allRunning_eq_false.2 (Or.inr ⟨p, hmem p (by simp), ?_⟩)⟩)
      simpa using hp
  · simp [hadm, adminNext] at ha

theorem Starting.step {s m m' : GroupSys Span} {ports : List ℕ} {es : List (GroupEvent Span)}
    {e : GroupEvent Span} (h : Starting s ports es m) (he : m.step parse e = some m')
    (hret : e ≠ .startReturned) (hraise : ∀ x, e ≠ .startRaised x) :
    Starting s ports (es ++ [e]) m' ∧ ∀ p, e ≠ .terminate p := by
  by_cases hof : OfAdmin e
  swap
  · exact ⟨h.other he hof, by rintro p rfl; exact hof trivial⟩
  obtain ⟨hidle, hterm⟩ := h.admin_ne
  rcases adminStep he hof with hadm' | ⟨ps, hadm', -⟩ | ⟨p, todo, o, hadm', ho⟩ | hadm' |
    ⟨mode', ports', hadm'⟩ | ⟨mode', port, todo', built, hadm'⟩ | ⟨x, mode', todo', built, hadm'⟩ |
    ⟨mode', built, hadm'⟩ | ⟨a, ha⟩ | hadm' | ⟨x, hadm'⟩
  case stay | shutdown | start => exact absurd hadm' hidle
  case startReturned => exact absurd rfl hret
  case startRaised => exact absurd rfl (hraise x)
  case terminate | shutdownReturned => exact absurd hadm' (hterm _)
  all_goals refine ⟨?_, by simp⟩
  case spawn =>
    obtain ⟨done, hports, rfl, hsat, hmap, hes⟩ := h.built hadm'
    have hlen : m.spawned.length = s.spawned.length + done.length := by
      rw [← length_ports, hmap, List.length_append, length_ports]
    refine .spawning mode' (done ++ [port]) todo' (by simp [hports]) ?_ hsat ?_ (by simpa using hes)
    · simp [hlen, List.range'_concat]
    · rw [(step_spawn he).1, hmap, List.append_assoc]
  case spawnFailed =>
    obtain ⟨done, -, -, hsat, -, -⟩ := h.built hadm'
    exact .failed x rfl hsat (by simp)
  case assign =>
    obtain ⟨done, rfl, rfl, -, hmap, hes⟩ := h.built hadm'
    rw [List.append_nil]
    exact .assigned (Or.inl rfl) rfl hmap (by simpa using hes)
  case next => exact h.next ha

/-- A startup has not ended. -/
def InStartup (es : List (GroupEvent Span)) : Prop :=
  GroupEvent.startReturned ∉ es ∧ ∀ x, GroupEvent.startRaised x ∉ es

/-- What a startup of a group that is shut down has done so far. -/
theorem starting_run {s t : GroupSys Span} {mode : Mode} {ports : List ℕ}
    {es : List (GroupEvent Span)} (hshut : s.truthy = false) (hes : InStartup es)
    (h : run (GroupSys.step parse) s (.start mode ports :: es) = some t) :
    Starting s ports es t ∧ Deaths s.spawned.length es t := by
  obtain ⟨m, hstart, hrun⟩ := run_cons_eq_some.1 h
  simp only [GroupSys.step, hshut, Bool.false_eq_true, if_false] at hstart
  split_ifs at hstart
  obtain rfl := Option.some.inj hstart
  refine run_induction (P := fun es (m : GroupSys Span) => InStartup es →
    Starting s ports es m ∧ Deaths s.spawned.length es m) ?_ ?_ hrun hes
  · exact fun _ => ⟨.spawning mode [] ports rfl rfl rfl (by simp [GroupSys.ports]) (by simp),
      rfl, by simp, fun p hk hp => absurd hp (Nat.not_lt.2 hk)⟩
  · intro es m e m' _ ih he hes
    obtain ⟨hret, hraise⟩ := hes
    obtain ⟨hstart, hdeaths⟩ :=
      ih ⟨fun hx => hret (by simp [hx]), fun x hx => hraise x (by simp [hx])⟩
    obtain ⟨hstart', hterm⟩ := hstart.step he (by rintro rfl; exact hret (by simp))
      (by rintro x rfl; exact hraise x (by simp))
    exact ⟨hstart', hdeaths.step he hterm⟩

/-- Of the satellites a startup has spawned those run that have not died. -/
theorem Deaths.none_running_iff {k : ℕ} {es : List (GroupEvent Span)} {m : GroupSys Span}
    (h : Deaths k es m) :
    (∀ p, k ≤ p → m.isRunning p = false) ↔ ∀ i < spawns es, GroupEvent.die (k + i) ∈ es := by
  have hcount := h.count
  constructor
  · intro hdead i hi
    have hrun := h.running (k + i) (by omega) (by omega)
    rw [hdead (k + i) (by omega)] at hrun
    simpa using hrun
  · intro hdie p hk
    by_contra hp
    rw [Bool.not_eq_false] at hp
    have hlt := isRunning_lt hp
    have hmem := hdie (p - k) (by omega)
    rw [Nat.add_sub_cancel' hk] at hmem
    exact (h.running p hk hlt).1 hp hmem

/-- After a startup that raises, no satellite it has spawned is running if and only if each
has died by itself, and the group is shut down again, or still, if and only if a spawn
raised or there was nothing to spawn. -/
theorem startup_clean_iff (parse : List UInt8 → Option (List Span)) {s t : GroupSys Span}
    {mode : Mode} {ports : List ℕ} {es : List (GroupEvent Span)} {x : GroupError}
    (hshut : s.truthy = false) (hes : InStartup es)
    (h : run (GroupSys.step parse) s (.start mode ports :: (es ++ [.startRaised x])) = some t) :
    ((∀ p, s.spawned.length ≤ p → t.isRunning p = false) ↔
      ∀ i < spawns es, GroupEvent.die (s.spawned.length + i) ∈ es) ∧
    ((∀ p, s.spawned.length ≤ p → t.isRunning p = false) ∧ t.allRunning = false ∧
        t.truthy = false ↔
      (∀ i < spawns es, GroupEvent.die (s.spawned.length + i) ∈ es) ∧
        ((∃ y, GroupEvent.spawnFailed y ∈ es) ∨ ports = [])) := by
  rw [← List.cons_append] at h
  obtain ⟨m, hm, hraise⟩ := run_snoc_eq_some.1 h
  obtain ⟨hstart, hdeaths⟩ := starting_run hshut hes hm
  simp only [GroupSys.step] at hraise
  split_ifs at hraise with hadm
  obtain rfl := Option.some.inj hraise
  have hrun := hdeaths.none_running_iff
  refine ⟨hrun, ?_⟩
  have hgroup : m.allRunning = false ∧
      (m.truthy = false ↔ (∃ y, GroupEvent.spawnFailed y ∈ es) ∨ ports = []) := by
    rcases hstart with ⟨mode', done, todo, -, hadm', -, -, -⟩ | ⟨y, -, hsat, hes'⟩ |
      ⟨hadm', hsat, -, hes'⟩
    · simp [hadm'] at hadm
    · have hfalsy : m.truthy = false := by
        rw [← hshut, truthy, hsat, truthy]
      exact ⟨by rw [allRunning, hfalsy, Bool.false_and], iff_of_true hfalsy (Or.inl ⟨y, hes'⟩)⟩
    · rcases hadm' with hadm' | ⟨todo, hadm', -⟩ | ⟨y, -, hdead⟩
      · simp [hadm'] at hadm
      · simp [hadm'] at hadm
      · refine ⟨hdead, ?_⟩
        rw [← Bool.not_eq_true, truthy_iff, group, hsat]
        simp [hes']
  exact and_congr hrun ((and_iff_right hgroup.1).trans hgroup.2)

/-- Of two satellites that were spawned the second dies. -/
def sampleStartup : List (GroupEvent (List UInt8)) :=
  [.spawn 8360, .spawn 8361, .assign, .die 1, .adminStep, .adminStep, .adminStep]

/-- The startup raises, the first satellite is still running, and the group is not shut
down. -/
theorem survivor_left : ∃ x t, InStartup sampleStartup ∧
    run (GroupSys.step parseSpans) new
      (.start .typical [8360, 8361] :: (sampleStartup ++ [.startRaised x])) = some t ∧
    t.isRunning 0 = true ∧ t.truthy = true :=
  ⟨.deadSatellites "", _, by simp [InStartup, sampleStartup], rfl, rfl, rfl⟩

/-- The satellite that was spawned dies before the next spawn raises. -/
def sampleFailedSpawn : List (GroupEvent (List UInt8)) :=
  [.spawn 8360, .die 0, .spawnFailed (.exception "OSError")]

theorem startup_clean_iff_sample : ∃ x t, run (GroupSys.step parseSpans) new
      (.start .typical [8360, 8361] :: (sampleFailedSpawn ++ [.startRaised x])) = some t ∧
    (∀ p, 0 ≤ p → t.isRunning p = false) ∧ t.allRunning = false ∧ t.truthy = false := by
  obtain ⟨t, hrun⟩ : ∃ t, run (GroupSys.step parseSpans) new (.start .typical [8360, 8361] ::
    (sampleFailedSpawn ++ [.startRaised (.python (.exception "OSError"))])) = some t := ⟨_, rfl⟩
  have hes : InStartup sampleFailedSpawn := by simp [InStartup, sampleFailedSpawn]
  exact ⟨_, t, hrun, (startup_clean_iff parseSpans rfl hes hrun).2.2
    ⟨by decide, Or.inl ⟨.exception "OSError", by simp [sampleFailedSpawn]⟩⟩⟩

end GroupSys

end TracerBench
