import TracerBench.Lifecycle

/-!
# Groups on one machine

A satellite is known by its port alone. It is a process of its own, which binds the port
some time after it was spawned, or dies there if another process has it
(`ThreadingHTTPServer` raises). `__init__` sleeps between its spawns and its polls to let
that happen, and a request goes to the process that has the port, whoever started it.

`Host` is the groups of one machine and the processes that have bound their ports. At most
one process serves a port, and if startups wait long enough (`Patient`), a running satellite
of a group past its startup is the one that answers the requests its group sends it
(`ports_exclusive`). A startup that finds one of its ports served does not return, as
`test_startup_fail` expects, whether another group or an earlier failed startup serves it
(`occupied_startup_raises`). Groups that use different ports do not meet at all : each of them
goes through a run of `GroupSys` by itself (`groups_isolated`).
-/

namespace TracerBench

variable {Span : Type*}

structure Host (Span : Type*) where
  groups : List (GroupSys Span)
  /-- The processes that have bound their port, each by its group and its number. -/
  bound : List (ℕ × ℕ)

inductive HostEvent (Span : Type*) where
  /-- A group object is made. Its `__init__` is a `start`. -/
  | construct
  | group (g : ℕ) (e : GroupEvent Span)
  /-- Process `p` of group `g` binds its port. -/
  | bind (g p : ℕ)
  /-- Its port is taken, and it exits. -/
  | bindFailed (g p : ℕ)
  /-- A `GET` for satellite `p` of group `g` comes to process `q` of group `h`. -/
  | answerOther (g : ℕ) (c : Call) (p h q n : ℕ)
  /-- Satellite `p` has not bound its port yet, and nobody answers. -/
  | refuseEarly (g : ℕ) (c : Call) (p : ℕ)
  deriving DecidableEq

/-- The caller waits for an answer of satellite `p`. -/
def Caller.Asks (pc : Caller) (p : ℕ) : Prop :=
  ∃ c todo received, pc = .asking c (p :: todo) received

namespace Host

def empty : Host Span :=
  ⟨[], []⟩

/-- Process `p` of group `g` accepts connections on `port`. -/
def serves (w : Host Span) (g p port : ℕ) : Bool :=
  decide ((g, p) ∈ w.bound) &&
    (w.groups[g]?).any fun s => s.isRunning p && decide (s.ports[p]? = some port)

def taken (w : Host Span) (port : ℕ) : Bool :=
  w.bound.any fun b => w.serves b.1 b.2 port

def put (w : Host Span) (g : ℕ) (s : GroupSys Span) : Host Span :=
  { w with groups := w.groups.set g s }

/-- A satellite takes requests once it has bound its port, and a port nobody has bound
refuses them. -/
def permits (w : Host Span) (g : ℕ) (s : GroupSys Span) : GroupEvent Span → Bool
  | .sat p _ | .answer _ p _ | .answerFrom _ _ p _ => decide ((g, p) ∈ w.bound)
  | .refuse _ p => (s.ports[p]?).all fun port => !w.taken port
  | _ => true

variable [DecidableEq Span] (parse : List UInt8 → Option (List Span))

def step (w : Host Span) : HostEvent Span → Option (Host Span)
  | .construct => some { w with groups := w.groups ++ [.new] }
  | .group g e =>
    match w.groups[g]? with
    | none => none
    | some s => if w.permits g s e then (s.step parse e).map (w.put g) else none
  | .bind g p =>
    match w.groups[g]? with
    | none => none
    | some s =>
      match s.ports[p]? with
      | none => none
      | some port =>
        if s.isRunning p ∧ (g, p) ∉ w.bound ∧ w.taken port = false then
          some { w with bound := (g, p) :: w.bound }
        else none
  | .bindFailed g p =>
    match w.groups[g]? with
    | none => none
    | some s =>
      match s.ports[p]? with
      | none => none
      | some port =>
        if s.isRunning p ∧ (g, p) ∉ w.bound ∧ w.taken port then
          (s.step parse (.die p)).map (w.put g)
        else none
  | .answerOther g c p h q n =>
    match w.groups[g]?, w.groups[h]? with
    | some s, some r =>
      match s.caller, s.ports[p]?, r.spawned[q]? with
      | .asking c' (p' :: todo) received, some port, some o =>
        -- within one group this is `answerFrom` if `p` has exited
        if c = c' ∧ p = p' ∧ (h, q) ≠ (g, p) ∧ (h ≠ g ∨ s.isRunning p) ∧ w.serves h q port ∧
            n = o.satellite.spansReceived then
          some (w.put g { s with caller := .holding c p n todo received })
        else none
      | _, _, _ => none
    | _, _ => none
  | .refuseEarly g c p =>
    match w.groups[g]? with
    | none => none
    | some s =>
      match s.caller, s.ports[p]? with
      | .asking c' (p' :: _) _, some port =>
        if c = c' ∧ p = p' ∧ s.isRunning p ∧ w.taken port = false then
          some (w.put g { s with caller := .raising .connectionError })
        else none
      | _, _ => none

/-- The label group `g` takes its part in a step under. -/
def lab (g : ℕ) : HostEvent Span → Option (GroupEvent Span)
  | .group g' e => if g' = g then some e else none
  | .bindFailed g' p => if g' = g then some (.die p) else none
  | _ => none

/-- Each process of group `g` that is alive has bound its port. -/
def Settled (w : Host Span) (g : ℕ) : Prop :=
  ∀ s, w.groups[g]? = some s → ∀ p, s.isRunning p = true → (g, p) ∈ w.bound

/-- The sleep of `__init__` is long enough : when a group polls its satellites, each has
bound its port or died. -/
def Patient (es : List (HostEvent Span)) : Prop :=
  ∀ a b g w, es = a ++ .group g .adminStep :: b → run (step parse) empty a = some w → w.Settled g

variable {parse} {w w' : Host Span} {e : HostEvent Span} {s : GroupSys Span} {g : ℕ}

/-! ## What a step can do -/

omit [DecidableEq Span] in
theorem serves_iff {p port : ℕ} : w.serves g p port = true ↔
    (g, p) ∈ w.bound ∧ ∃ s, w.groups[g]? = some s ∧ s.isRunning p = true ∧
      s.ports[p]? = some port := by
  cases hs : w.groups[g]? <;> simp [serves, hs]

omit [DecidableEq Span] in
theorem taken_iff {port : ℕ} : w.taken port = true ↔ ∃ h q, w.serves h q port = true := by
  simp only [taken, List.any_eq_true, Prod.exists]
  exact ⟨fun ⟨h, q, _, hs⟩ => ⟨h, q, hs⟩, fun ⟨h, q, hs⟩ => ⟨h, q, (serves_iff.1 hs).1, hs⟩⟩

/-- A process binds its port, or a group takes a step of its own, or another process or
nobody answers its caller. -/
inductive HostStep (parse : List UInt8 → Option (List Span)) (w : Host Span) :
    HostEvent Span → Host Span → Prop
  | construct : HostStep parse w .construct { w with groups := w.groups ++ [.new] }
  | group (g : ℕ) (x : GroupEvent Span) (s s' : GroupSys Span) (hs : w.groups[g]? = some s)
    (hx : s.step parse x = some s') : HostStep parse w (.group g x) (w.put g s')
  | bind (g p port : ℕ) (s : GroupSys Span) (hs : w.groups[g]? = some s)
    (hport : s.ports[p]? = some port) (hrun : s.isRunning p = true) (hnew : (g, p) ∉ w.bound)
    (hfree : w.taken port = false) :
    HostStep parse w (.bind g p) { w with bound := (g, p) :: w.bound }
  | bindFailed (g p port : ℕ) (s s' : GroupSys Span) (hs : w.groups[g]? = some s)
    (hport : s.ports[p]? = some port) (hrun : s.isRunning p = true) (hnew : (g, p) ∉ w.bound)
    (htaken : w.taken port = true) (hx : s.step parse (.die p) = some s') :
    HostStep parse w (.bindFailed g p) (w.put g s')
  | answerOther (g : ℕ) (c : Call) (p h q n port : ℕ) (s : GroupSys Span) (pc : Caller)
    (hs : w.groups[g]? = some s) (hport : s.ports[p]? = some port) (hne : (h, q) ≠ (g, p))
    (hrun : h ≠ g ∨ s.isRunning p = true) (hserves : w.serves h q port = true)
    (hc : s.caller.Asks p) :
    HostStep parse w (.answerOther g c p h q n) (w.put g { s with caller := pc })
  | refuseEarly (g : ℕ) (c : Call) (p port : ℕ) (s : GroupSys Span) (pc : Caller)
    (hs : w.groups[g]? = some s) (hport : s.ports[p]? = some port)
    (hfree : w.taken port = false) (hc : s.caller.Asks p) :
    HostStep parse w (.refuseEarly g c p) (w.put g { s with caller := pc })

theorem hostStep (h : w.step parse e = some w') : HostStep parse w e w' := by
  cases e with
  | construct =>
    obtain rfl := Option.some.inj h
    exact .construct
  | group g x =>
    simp only [step] at h
    split at h
    · simp at h
    · next s hs =>
      split_ifs at h
      obtain ⟨s', hx, rfl⟩ := Option.map_eq_some_iff.1 h
      exact .group g x s s' hs hx
  | bind g p =>
    simp only [step] at h
    split at h
    · simp at h
    · next s hs =>
      split at h
      · simp at h
      · next port hport =>
        split_ifs at h with hcond
        obtain rfl := Option.some.inj h
        exact .bind g p port s hs hport hcond.1 hcond.2.1 hcond.2.2
  | bindFailed g p =>
    simp only [step] at h
    split at h
    · simp at h
    · next s hs =>
      split at h
      · simp at h
      · next port hport =>
        split_ifs at h with hcond
        obtain ⟨s', hx, rfl⟩ := Option.map_eq_some_iff.1 h
        exact .bindFailed g p port s s' hs hport hcond.1 hcond.2.1 hcond.2.2 hx
  | answerOther g c p h₂ q n =>
    simp only [step] at h
    split at h
    · next s r hs hr =>
      split at h
      · next port o hc hport ho =>
        split_ifs at h with hcond
        obtain rfl := Option.some.inj h
        obtain ⟨-, rfl, hne, hrun, hserves, -⟩ := hcond
        exact .answerOther g c p h₂ q n port s _ hs hport hne hrun hserves ⟨_, _, _, hc⟩
      · simp at h
    · simp at h
  | refuseEarly g c p =>
    simp only [step] at h
    split at h
    · simp at h
    · next s hs =>
      split at h
      · next port hc hport =>
        split_ifs at h with hcond
        obtain rfl := Option.some.inj h
        obtain ⟨-, rfl, -, hfree⟩ := hcond
        exact .refuseEarly g c p port s _ hs hport hfree ⟨_, _, _, hc⟩
      · simp at h

omit [DecidableEq Span] in
theorem put_groups (hs : w.groups[g]? = some s) (k : ℕ) (s' : GroupSys Span) :
    (w.put g s').groups[k]? = if g = k then some s' else w.groups[k]? := by
  rw [put, List.getElem?_set]
  split_ifs with hk hlt
  · rfl
  · exact absurd (List.getElem?_eq_some_iff.1 hs).1 hlt
  · rfl

/-- What a step does to a group : a step of the group under its label, or a change of its
caller only. -/
theorem step_group (h : w.step parse e = some w') (hs : w.groups[g]? = some s) :
    ∃ s', w'.groups[g]? = some s' ∧
      ((∃ x, lab g e = some x ∧ s.step parse x = some s') ∨
        lab g e = none ∧ ∃ pc, s' = { s with caller := pc }) := by
  have hstay : ∃ pc, s = { s with caller := pc } := ⟨s.caller, rfl⟩
  rcases hostStep h with _ | ⟨k, x, r, r', hr, hx⟩ | ⟨k, p, port, r, hr, -, -, -, -⟩ |
    ⟨k, p, port, r, r', hr, -, -, -, -, hx⟩ | ⟨k, c, p, h₂, q, n, port, r, pc, hr, -, -, -, -, -⟩ |
    ⟨k, c, p, port, r, pc, hr, -, -, -⟩
  case construct =>
    exact ⟨s, by simp [List.getElem?_append_left (List.getElem?_eq_some_iff.1 hs).1, hs],
      Or.inr ⟨rfl, hstay⟩⟩
  case bind => exact ⟨s, hs, Or.inr ⟨rfl, hstay⟩⟩
  all_goals
    rw [put_groups hr]
    by_cases hk : k = g
    swap
    · exact ⟨s, by rw [if_neg hk, hs], Or.inr ⟨by simp [lab, hk], hstay⟩⟩
    · obtain rfl := hk
      obtain rfl : r = s := Option.some.inj (hr.symm.trans hs)
      rw [if_pos rfl]
      first
        | exact ⟨_, rfl, Or.inl ⟨_, by simp [lab], hx⟩⟩
        | exact ⟨_, rfl, Or.inr ⟨rfl, pc, rfl⟩⟩

/-- A group object that was not there has not started anything. -/
theorem step_groups_of_none (h : w.step parse e = some w') (hs : w.groups[g]? = none)
    (hs' : w'.groups[g]? = some s) : s = .new := by
  rcases hostStep h with _ | ⟨k, x, r, r', hr, hx⟩ | ⟨k, p, port, r, hr, -, -, -, -⟩ |
    ⟨k, p, port, r, r', hr, -, -, -, -, hx⟩ | ⟨k, c, p, h₂, q, n, port, r, pc, hr, -, -, -, -, -⟩ |
    ⟨k, c, p, port, r, pc, hr, -, -, -⟩
  case construct =>
    rcases Nat.lt_or_ge g w.groups.length with hlt | hge
    · simp [List.getElem?_eq_getElem hlt] at hs
    · rw [List.getElem?_append_right hge] at hs'
      exact (List.mem_singleton.1 (List.mem_of_getElem? hs'))
  case bind => simp [hs] at hs'
  all_goals
    rw [put_groups hr] at hs'
    split_ifs at hs' with hk
    · simp [← hk, hr] at hs
    · simp [hs] at hs'

/-- A process binds its port by a step of its own, if nobody serves the port. -/
theorem step_bound (h : w.step parse e = some w') : w'.bound = w.bound ∨
    ∃ g p s port, e = .bind g p ∧ w'.groups = w.groups ∧ w'.bound = (g, p) :: w.bound ∧
      w.groups[g]? = some s ∧ s.ports[p]? = some port ∧ (g, p) ∉ w.bound ∧
      w.taken port = false := by
  rcases hostStep h with _ | ⟨k, x, r, r', hr, hx⟩ | ⟨k, p, port, r, hr, hport, hrun, hnew, hfree⟩ |
    ⟨k, p, port, r, r', hr, -, -, -, -, hx⟩ | ⟨k, c, p, h₂, q, n, port, r, pc, hr, -, -, -, -, -⟩ |
    ⟨k, c, p, port, r, pc, hr, -, -, -⟩
  case bind => exact Or.inr ⟨k, p, r, port, rfl, rfl, rfl, hr, hport, hnew, hfree⟩
  all_goals exact Or.inl rfl

/-- The processes of a group keep their ports, and none comes back to life. -/
theorem step_process (h : w.step parse e = some w') (hs : w.groups[g]? = some s)
    {s' : GroupSys Span} (hs' : w'.groups[g]? = some s') {p : ℕ} (hp : p < s.spawned.length) :
    s'.ports[p]? = s.ports[p]? ∧ (s'.isRunning p = true → s.isRunning p = true) := by
  obtain ⟨s₁, hs₁, ⟨x, -, hx⟩ | ⟨-, pc, rfl⟩⟩ := step_group h hs
  · obtain rfl : s₁ = s' := Option.some.inj (hs₁.symm.trans hs')
    refine ⟨?_, fun hrun => ((GroupSys.step_isRunning_iff hx hp).1 hrun).1⟩
    by_cases hspawn : ∃ port, x = .spawn port
    · obtain ⟨port, rfl⟩ := hspawn
      rw [(GroupSys.step_spawn hx).1, List.getElem?_append_left (by rwa [GroupSys.length_ports])]
    · rw [GroupSys.step_ports hx fun port hx => hspawn ⟨port, hx⟩]
  · obtain rfl := Option.some.inj (hs₁.symm.trans hs')
    exact ⟨rfl, id⟩

/-! ## One process a port -/

/-- Every process that has bound a port is there, and no two of those alive have the same. -/
structure Exclusive (w : Host Span) : Prop where
  spawned : ∀ g p, (g, p) ∈ w.bound → ∃ s, w.groups[g]? = some s ∧ p < s.spawned.length
  unique : ∀ g p h q port, w.serves g p port = true → w.serves h q port = true → (g, p) = (h, q)

/-- A process that serves a port did so before, unless it has just bound it. -/
theorem Exclusive.serves_of_step (hw : w.Exclusive) (h : w.step parse e = some w') {p port : ℕ}
    (hserves : w'.serves g p port = true) :
    w.serves g p port = true ∨ e = .bind g p ∧ w.taken port = false := by
  obtain ⟨hmem, s', hs', hrun, hport⟩ := serves_iff.1 hserves
  rcases step_bound h with hbound | ⟨k, q, s, port', rfl, hgroups, hbound, hs, hport', -, hfree⟩
  · rw [hbound] at hmem
    obtain ⟨s, hs, hp⟩ := hw.spawned g p hmem
    obtain ⟨hports, halive⟩ := step_process h hs hs' hp
    exact Or.inl (serves_iff.2 ⟨hmem, s, hs, halive hrun, hports ▸ hport⟩)
  · rw [hgroups] at hs'
    rw [hbound] at hmem
    rcases List.mem_cons.1 hmem with heq | hmem
    · obtain ⟨rfl, rfl⟩ := Prod.mk.inj heq
      obtain rfl := Option.some.inj (hs.symm.trans hs')
      obtain rfl := Option.some.inj (hport'.symm.trans hport)
      exact Or.inr ⟨rfl, hfree⟩
    · exact Or.inl (serves_iff.2 ⟨hmem, s', hs', hrun, hport⟩)

theorem Exclusive.step (hw : w.Exclusive) (h : w.step parse e = some w') : w'.Exclusive := by
  have hkeep : ∀ g p, (g, p) ∈ w.bound → ∃ s, w'.groups[g]? = some s ∧ p < s.spawned.length := by
    intro g p hmem
    obtain ⟨s, hs, hp⟩ := hw.spawned g p hmem
    obtain ⟨s', hs', -⟩ := step_group h hs
    refine ⟨s', hs', ?_⟩
    rw [← GroupSys.length_ports] at hp ⊢
    have hports := (step_process h hs hs' (by rwa [← GroupSys.length_ports])).1
    rw [List.getElem?_eq_getElem hp] at hports
    exact (List.getElem?_eq_some_iff.1 hports).1
  refine ⟨fun g p hmem => ?_, fun g p k q port hp hq => ?_⟩
  · rcases step_bound h with hbound | ⟨k, q, s, port, -, hgroups, hbound, hs, hport, -, -⟩
    · exact hkeep g p (hbound ▸ hmem)
    · rw [hbound] at hmem
      rcases List.mem_cons.1 hmem with heq | hmem
      · obtain ⟨rfl, rfl⟩ := Prod.mk.inj heq
        refine ⟨s, by rw [hgroups, hs], ?_⟩
        rw [← GroupSys.length_ports]
        exact (List.getElem?_eq_some_iff.1 hport).1
      · exact hkeep g p hmem
  · -- of two that serve the port, at most one has just bound it, and then nobody served it
    rcases hw.serves_of_step h hp with hp | ⟨rfl, hfree⟩ <;>
      rcases hw.serves_of_step h hq with hq | ⟨he, hfree'⟩
    · exact hw.unique g p k q port hp hq
    · rw [taken_iff.2 ⟨g, p, hp⟩] at hfree'
      simp at hfree'
    · rw [taken_iff.2 ⟨k, q, hq⟩] at hfree
      simp at hfree
    · obtain ⟨rfl, rfl⟩ := HostEvent.bind.inj he
      rfl

theorem exclusive_run {es : List (HostEvent Span)} (h : run (step parse) empty es = some w) :
    w.Exclusive :=
  run_invariant (I := Exclusive) ⟨by simp [empty], by simp [serves, empty]⟩
    (fun _ _ _ hm he => hm.step he) h

end Host

/-! ## Startups that wait -/

namespace GroupSys

/-- The satellites a startup has polled, and those of a group past its startup, have bound
their ports; `b` are the processes that have. -/
structure Ready (b : ℕ → Prop) (s : GroupSys Span) : Prop where
  members : ∀ p ∈ s.members, p < s.spawned.length
  settled : s.admin ≠ .checking → ∀ p ∈ s.group, s.isRunning p = true → b p
  polled : ∀ todo, s.admin = .polling todo → ∃ done, s.group = done ++ todo ∧ ∀ p ∈ done, b p

theorem Ready.mono {b b' : ℕ → Prop} {s : GroupSys Span} (h : s.Ready b) (hb : ∀ p, b p → b' p) :
    s.Ready b' where
  members := h.members
  settled hc p hp hrun := hb p (h.settled hc p hp hrun)
  polled todo ht :=
    let ⟨done, hdone, hbound⟩ := h.polled todo ht
    ⟨done, hdone, fun p hp => hb p (hbound p hp)⟩

theorem new_ready (b : ℕ → Prop) : (new : GroupSys Span).Ready b where
  members := by simp [new, GroupSys.members, group, Admin.built]
  settled := by simp [new, group]
  polled := by simp [new]

section Step

variable [DecidableEq Span] {parse : List UInt8 → Option (List Span)} {s s' : GroupSys Span}
  {e : GroupEvent Span} {b : ℕ → Prop}

theorem length_spawned_step (h : s.step parse e = some s') (hspawn : ∀ port, e ≠ .spawn port) :
    s'.spawned.length = s.spawned.length := by
  rw [← length_ports, step_ports h hspawn, length_ports]

/-- Steps that leave the group and where its startup is. -/
theorem Ready.other (h : s.Ready b) (he : s.step parse e = some s') (hof : ¬OfAdmin e) :
    s'.Ready b := by
  obtain ⟨hadm, hsat⟩ := (step_admin he).resolve_left hof
  have hspawn : ∀ port, e ≠ .spawn port := by
    rintro port rfl
    exact hof trivial
  have hgroup : s'.group = s.group := by rw [group, hsat, group]
  refine ⟨fun p hp => ?_, fun hc p hp hrun => ?_, fun todo ht => ?_⟩
  · rw [length_spawned_step he hspawn]
    exact h.members p (by rwa [GroupSys.members, hgroup, hadm] at hp)
  · exact h.settled (hadm ▸ hc) p (hgroup ▸ hp) (step_alive he hspawn hrun)
  · rw [hgroup]
    exact h.polled todo (hadm ▸ ht)

omit [DecidableEq Span] in
/-- A poll by a startup whose satellites have all bound their ports or died. -/
theorem Ready.next {a : Admin} (h : s.Ready b) (ha : s.adminNext s.admin = some a)
    (hb : ∀ p, s.isRunning p = true → b p) : ({ s with admin := a } : GroupSys Span).Ready b := by
  refine ⟨fun p hp => ?_, fun _ p _ hrun => hb p hrun, fun todo ht => ?_⟩
  · refine h.members p (List.mem_append_left _ ?_)
    rcases hadm : s.admin with _ | _ | _ | _ | ⟨_ | ⟨q, todo⟩⟩ | _ <;>
      simp only [hadm, adminNext, reduceCtorEq] at ha
    · split at ha <;> obtain rfl := Option.some.inj ha <;>
        simpa [GroupSys.members, Admin.built, group] using hp
    · obtain rfl := Option.some.inj ha
      split_ifs at hp <;> simpa [GroupSys.members, Admin.built, group] using hp
  · obtain rfl : a = .polling todo := ht
    rcases hadm : s.admin with _ | _ | _ | _ | ⟨_ | ⟨q, todo'⟩⟩ | _ <;>
      simp only [hadm, adminNext, reduceCtorEq] at ha
    · split at ha
      · next p ps hps =>
        obtain rfl := Admin.polling.inj (Option.some.inj ha)
        exact ⟨[], by simp [group, hps], by simp⟩
      · simp at ha
    · split_ifs at ha with hrun
      · obtain rfl := Admin.polling.inj (Option.some.inj ha)
        obtain ⟨done, hdone, hbound⟩ := h.polled _ hadm
        refine ⟨done ++ [q], by simpa [group] using hdone, fun p hp => ?_⟩
        rcases List.mem_append.1 hp with hp | hp
        · exact hbound p hp
        · exact hb p (by rwa [List.mem_singleton.1 hp])
      · simp at ha

theorem Ready.step (h : s.Ready b) (he : s.step parse e = some s')
    (hb : e = .adminStep → ∀ p, s.isRunning p = true → b p) : s'.Ready b := by
  by_cases hof : OfAdmin e
  swap
  · exact h.other he hof
  have hmem : ∀ p ∈ s.group, p < s.spawned.length := fun p hp =>
    h.members p (List.mem_append_left _ hp)
  have hsettled : (∀ port, e ≠ .spawn port) → s.admin ≠ .checking → ∀ p ∈ s.group,
      s'.isRunning p = true → b p :=
    fun hspawn hc p hp hrun => h.settled hc p hp (step_alive he hspawn hrun)
  rcases adminStep he hof with hadm | ⟨ps, hadm, hps⟩ | ⟨p, todo, o, hadm, ho⟩ | hadm |
    ⟨mode, ports, hadm, hshut⟩ | ⟨mode, port, todo, built, hadm⟩ | ⟨x, mode, todo, built, hadm⟩ |
    ⟨mode, built, hadm⟩ | ⟨a, ha⟩ | hadm | ⟨x, hadm⟩
  case stay => exact h
  case next => exact h.next ha (hb rfl)
  case shutdownReturned => exact ⟨by simp [GroupSys.members, group, Admin.built], by simp [group],
    by simp⟩
  case assign =>
    refine ⟨fun p hp => h.members p (List.mem_append_right _ ?_), by simp, by simp⟩
    rw [hadm]
    simpa [GroupSys.members, Admin.built, group] using hp
  case spawn =>
    refine ⟨fun p hp => ?_, fun _ p hp hrun => ?_, by simp⟩
    · simp only [GroupSys.members, Admin.built, List.mem_append, List.mem_singleton] at hp
      simp only [List.length_append, List.length_singleton]
      rcases hp with hp | hp | rfl
      · exact (hmem p hp).trans (Nat.lt_succ_self _)
      · exact (h.members p (by simp [GroupSys.members, hadm, Admin.built, hp])).trans
          (Nat.lt_succ_self _)
      · exact Nat.lt_succ_self _
    · exact h.settled (by simp [hadm]) p hp ((step_isRunning_iff he (hmem p hp)).1 hrun).1
  case terminate =>
    refine ⟨fun q hq => ?_, fun _ => hsettled (by simp) (by simp [hadm]), by simp⟩
    rw [List.length_set]
    exact hmem q (by simpa [GroupSys.members, Admin.built, group] using hq)
  all_goals
    refine ⟨fun p hp => hmem p ?_, fun _ => hsettled (by simp) (by simp [hadm]), by simp⟩
    simpa [GroupSys.members, Admin.built, group] using hp

/-- A startup raises what `Popen` raised, or `DeadSatellites`. -/
theorem step_raising (he : s.step parse e = some s')
    {x : GroupError} (hx : s'.admin = .raising x) :
    s.admin = .raising x ∨ x = .deadSatellites "" ∨ ∃ y, e = .spawnFailed y := by
  rcases step_admin he with hof | ⟨hadm, -⟩
  swap
  · exact Or.inl (hadm ▸ hx)
  rcases adminStep he hof with hadm | ⟨ps, hadm, hps⟩ | ⟨p, todo, o, hadm, ho⟩ | hadm |
    ⟨mode, ports, hadm, hshut⟩ | ⟨mode, port, todo, built, hadm⟩ | ⟨y, mode, todo, built, hadm⟩ |
    ⟨mode, built, hadm⟩ | ⟨a, ha⟩ | hadm | ⟨y, hadm⟩
  case stay => exact Or.inl hx
  case spawnFailed => exact Or.inr (Or.inr ⟨y, rfl⟩)
  case next =>
    obtain rfl : a = .raising x := hx
    refine Or.inr (Or.inl ?_)
    rcases hadm : s.admin with _ | _ | _ | _ | ⟨_ | ⟨q, todo⟩⟩ | _ <;>
      simp only [hadm, adminNext, reduceCtorEq] at ha <;> split at ha <;> simp_all
  all_goals simp at hx

end Step

/-- How far a startup has come is no matter of the caller. -/
theorem Starting.caller {s m : GroupSys Span} {ports : List ℕ} {es : List (GroupEvent Span)}
    (h : Starting s ports es m) (pc : Caller) : Starting s ports es { m with caller := pc } := by
  rcases h with ⟨mode, done, todo, hports, hadm, hsat, hmap, hes⟩ | ⟨x, hadm, hsat, hes⟩ |
    ⟨hadm, hsat, hmap, hes⟩
  · exact .spawning mode done todo hports hadm hsat hmap hes
  · exact .failed x hadm hsat hes
  · exact .assigned hadm hsat hmap hes

end GroupSys

namespace Host

variable [DecidableEq Span] {parse : List UInt8 → Option (List Span)} {w w' t : Host Span}
  {e : HostEvent Span} {es : List (HostEvent Span)} {s : GroupSys Span} {g : ℕ}

theorem mem_bound_step (h : w.step parse e = some w') {p : ℕ} (hp : (g, p) ∈ w.bound) :
    (g, p) ∈ w'.bound := by
  rcases step_bound h with hbound | ⟨k, q, s, port, -, -, hbound, -⟩ <;> rw [hbound]
  · exact hp
  · exact List.mem_cons_of_mem _ hp

theorem Patient.init (h : Patient parse (es ++ [e])) : Patient parse es :=
  fun a b g w hes => h a (b ++ [e]) g w (by simp [hes])

/-- Under patient startups each group is ready. -/
theorem ready_run (h : run (step parse) empty es = some w) (hpatient : Patient parse es) :
    ∀ (g : ℕ) (s : GroupSys Span), w.groups[g]? = some s → s.Ready fun p => (g, p) ∈ w.bound := by
  refine run_induction (P := fun es (w : Host Span) => Patient parse es →
    ∀ (g : ℕ) (s : GroupSys Span), w.groups[g]? = some s → s.Ready fun p => (g, p) ∈ w.bound)
    ?_ ?_ h hpatient
  · exact fun _ g s hs => by simp [empty] at hs
  · intro es w e w' hw ih he hpatient g s' hs'
    cases hs : w.groups[g]? with
    | none =>
      rw [step_groups_of_none he hs hs']
      exact GroupSys.new_ready _
    | some s =>
      have hready := ih hpatient.init g s hs
      refine GroupSys.Ready.mono (b := fun p => (g, p) ∈ w.bound) ?_
        fun p => mem_bound_step he
      obtain ⟨s₁, hs₁, ⟨x, hlab, hx⟩ | ⟨-, pc, rfl⟩⟩ := step_group he hs <;>
        obtain rfl := Option.some.inj (hs₁.symm.trans hs')
      · refine hready.step hx fun hadm => ?_
        subst hadm
        have heq : e = .group g .adminStep := by
          cases e <;> simp only [lab, reduceCtorEq] at hlab <;> split_ifs at hlab <;> simp_all
        exact hpatient es [] g w (by rw [heq]) hw s hs
      · exact ⟨hready.members, hready.settled, hready.polled⟩

/-- `Patient`, computed along a run from `w`. -/
def waits (parse : List UInt8 → Option (List Span)) : Host Span → List (HostEvent Span) → Bool
  | _, [] => true
  | w, e :: es =>
    (match e with
      | .group g .adminStep => (w.groups[g]?).all fun s =>
          (List.range s.spawned.length).all fun p => !s.isRunning p || decide ((g, p) ∈ w.bound)
      | _ => true) &&
    ((w.step parse e).all fun w' => waits parse w' es)

theorem waits_append {a b : List (HostEvent Span)} (h : waits parse w (a ++ b) = true)
    (ha : run (step parse) w a = some w') : waits parse w' b = true := by
  induction a generalizing w with
  | nil =>
    obtain rfl : w = w' := Option.some.inj ha
    exact h
  | cons x a ih =>
    obtain ⟨v, hx, ha⟩ := run_cons_eq_some.1 ha
    simp only [List.cons_append, waits, hx, Bool.and_eq_true, Option.all_some] at h
    exact ih h.2 ha

theorem patient_of_waits (h : waits parse empty es = true) : Patient parse es := by
  rintro a b g w rfl hw s hs p hp
  have hpoll := waits_append h hw
  simp only [waits, hs, Option.all_some, Bool.and_eq_true, List.all_eq_true, List.mem_range]
    at hpoll
  simpa [hp] using hpoll.1 p (GroupSys.isRunning_lt hp)

end Host

namespace Host

variable [DecidableEq Span] {parse : List UInt8 → Option (List Span)} {w w' : Host Span}
  {e : HostEvent Span} {s : GroupSys Span} {g : ℕ}

/-- Under patient startups the running satellites of a group past its startup serve their
ports. -/
theorem serves_of_patient {es : List (HostEvent Span)}
    (hw : run (Host.step parse) .empty es = some w) (hpatient : Patient parse es)
    (hs : w.groups[g]? = some s) (hadm : s.admin ≠ .checking) {p port : ℕ} (hp : p ∈ s.group)
    (hrun : s.isRunning p = true) (hport : s.ports[p]? = some port) :
    w.serves g p port = true :=
  serves_iff.2 ⟨(ready_run hw hpatient g s hs).settled hadm p hp hrun, s, hs, hrun, hport⟩

/-- Satellite `p` of group `g` has answered the request of its caller, with its counter. -/
def AnsweredBy (g : ℕ) (s : GroupSys Span) (p : ℕ) (e : HostEvent Span) : Prop :=
  ∃ c o, s.spawned[p]? = some o ∧ e = .group g (.answer c p o.satellite.spansReceived)

/-- A step of the group itself that answers a request to a running satellite is its answer. -/
theorem answered_own {x : GroupEvent Span} {s' : GroupSys Span} {p : ℕ}
    (hx : s.step parse x = some s') (hc : s.caller.Asks p) (hrun : s.isRunning p = true) :
    s'.caller = s.caller ∨
      ∃ c o, s.spawned[p]? = some o ∧ x = .answer c p o.satellite.spansReceived := by
  obtain ⟨c, todo, r, hc⟩ := hc
  have hasks : ∀ {k q todo' r'}, s.caller = .asking k (q :: todo') r' → q = p := by
    intro k q todo' r' hk
    obtain ⟨-, hq, -⟩ := Caller.asking.inj (hk.symm.trans hc)
    exact (List.cons.inj hq).1
  rcases GroupSys.step_caller hx with ⟨k, hk⟩ | ⟨pc, hk⟩ | ⟨k, q, todo', r', o, hk, ho⟩ |
    ⟨k, q, v, n, todo', r', hk, hq⟩ | ⟨k, q, n, todo', r', o, hk, ho⟩ |
    ⟨k, q, todo', r', hk, hq⟩ | ⟨k, v, hk⟩ | ⟨y, hk⟩ | ⟨-, hk⟩
  case next => simp [hc, GroupSys.callerNext] at hk
  case answer =>
    obtain rfl := hasks hk
    exact Or.inr ⟨k, o, ho, rfl⟩
  case answerFrom | refuse =>
    obtain rfl := hasks hk
    simp [hrun] at hq
  case other => exact Or.inl hk
  all_goals simp [hc] at hk

/-- A caller that asks a satellite which serves its port gets no other answer. -/
theorem Exclusive.answered (hw : w.Exclusive) (he : w.step parse e = some w')
    (hs : w.groups[g]? = some s) {p port : ℕ} (hc : s.caller.Asks p)
    (hport : s.ports[p]? = some port) (hserves : w.serves g p port = true) {s' : GroupSys Span}
    (hs' : w'.groups[g]? = some s') : s'.caller = s.caller ∨ AnsweredBy g s p e := by
  have hrun : s.isRunning p = true := by
    obtain ⟨-, s₁, hs₁, hrun, -⟩ := serves_iff.1 hserves
    obtain rfl := Option.some.inj (hs₁.symm.trans hs)
    exact hrun
  have hsame : ∀ {q}, s.caller.Asks q → q = p := by
    rintro q ⟨k, todo, r, hk⟩
    obtain ⟨c, todo', r', hc⟩ := hc
    obtain ⟨-, hq, -⟩ := Caller.asking.inj (hk.symm.trans hc)
    exact (List.cons.inj hq).1
  have hkeep : w'.groups[g]? = w.groups[g]? → s'.caller = s.caller := by
    intro h
    rw [h, hs] at hs'
    rw [Option.some.inj hs']
  rcases hostStep he with _ | ⟨k, x, m, m', hm, hx⟩ | ⟨k, q, port', m, hm, -, -, -, -⟩ |
    ⟨k, q, port', m, m', hm, -, -, -, -, hx⟩ |
    ⟨k, c', q, h, q', n, port', m, pc, hm, hport', hne, -, hother, hask⟩ |
    ⟨k, c', q, port', m, pc, hm, hport', hfree, hask⟩
  case construct =>
    exact Or.inl (hkeep (List.getElem?_append_left (List.getElem?_eq_some_iff.1 hs).1))
  case bind => exact Or.inl (hkeep rfl)
  all_goals
    rcases ne_or_eq k g with hk | rfl
    · exact Or.inl (hkeep (by rw [put_groups hm, if_neg hk]))
    rw [put_groups hm, if_pos rfl] at hs'
    obtain rfl := Option.some.inj (hm.symm.trans hs)
    obtain rfl := Option.some.inj hs'
  · refine (answered_own hx hc hrun).imp_right ?_
    rintro ⟨c, o, ho, rfl⟩
    exact ⟨c, o, ho, rfl⟩
  · exact (answered_own hx hc hrun).imp_right (by simp)
  · -- who answers has the port of `p`, and so is `p`
    obtain rfl := hsame hask
    obtain rfl := Option.some.inj (hport'.symm.trans hport)
    exact absurd (hw.unique _ _ _ _ _ hother hserves) hne
  · obtain rfl := hsame hask
    obtain rfl := Option.some.inj (hport'.symm.trans hport)
    rw [taken_iff.2 ⟨_, _, hserves⟩] at hfree
    simp at hfree

end Host

/-- A port is served by one process at a time. If startups wait, two running satellites of
groups past their startups are not on one port, and the requests of such a group to a running
satellite of its own are answered by that satellite only. -/
theorem ports_exclusive [DecidableEq Span] (parse : List UInt8 → Option (List Span))
    {es : List (HostEvent Span)} {w : Host Span} (hw : run (Host.step parse) .empty es = some w) :
    (∀ g p h q port, w.serves g p port = true → w.serves h q port = true → (g, p) = (h, q)) ∧
    (Host.Patient parse es → ∀ g s, w.groups[g]? = some s → s.admin ≠ .checking →
      ∀ p ∈ s.group, s.isRunning p = true →
        (∀ h r, w.groups[h]? = some r → r.admin ≠ .checking → ∀ q ∈ r.group,
          r.isRunning q = true → s.ports[p]? = r.ports[q]? → (g, p) = (h, q)) ∧
        (s.caller.Asks p → ∀ e w' s', w.step parse e = some w' → w'.groups[g]? = some s' →
          s'.caller = s.caller ∨ Host.AnsweredBy g s p e)) := by
  have hex := Host.exclusive_run hw
  refine ⟨hex.unique, fun hpatient g s hs hadm p hp hrun => ?_⟩
  have hlt := GroupSys.isRunning_lt hrun
  rw [← GroupSys.length_ports] at hlt
  have hport : s.ports[p]? = some s.ports[p] := List.getElem?_eq_getElem hlt
  have hserves := Host.serves_of_patient hw hpatient hs hadm hp hrun hport
  refine ⟨fun h r hr hadm' q hq hrun' heq => ?_, fun hc e w' s' he hs' => ?_⟩
  · exact hex.unique g p h q _ hserves
      (Host.serves_of_patient hw hpatient hr hadm' hq hrun' (heq.symm.trans hport))
  · exact hex.answered he hs hc hport hserves hs'

/-- The first group of `test_startup_fail`, with one satellite. -/
def sampleFirst : List (HostEvent (List UInt8)) :=
  [.construct, .group 0 (.start .typical [8360]), .group 0 (.spawn 8360), .group 0 .assign,
    .bind 0 0, .group 0 .adminStep, .group 0 .adminStep, .group 0 .startReturned, .construct]

/-- Its satellite is asked, with the port served. -/
theorem ports_exclusive_sample : ∃ w s,
    run (Host.step parseSpans) .empty (sampleFirst ++ [.group 0 (.call .reset),
      .group 0 .callerStep, .group 0 .callerStep]) = some w ∧ w.groups[0]? = some s ∧
    ∀ e w' s', w.step parseSpans e = some w' → w'.groups[0]? = some s' →
      s'.caller = s.caller ∨ Host.AnsweredBy 0 s 0 e := by
  have hrun : run (Host.step parseSpans) .empty (sampleFirst ++ [.group 0 (.call .reset),
    .group 0 .callerStep, .group 0 .callerStep]) = some _ := rfl
  have hports := (ports_exclusive parseSpans hrun).2 (Host.patient_of_waits rfl)
  exact ⟨_, _, hrun, rfl, (hports 0 _ rfl (by decide) 0 (by decide) rfl).2 ⟨_, _, _, rfl⟩⟩

namespace Host

variable [DecidableEq Span] {parse : List UInt8 → Option (List Span)} {w w' t : Host Span}
  {e : HostEvent Span} {es : List (HostEvent Span)} {s : GroupSys Span} {g : ℕ}

/-! ## A port that is taken -/

/-- The startup of group `g` has done this much since `k` processes were there, and while
`(h, q)` serves `port` none of those it has spawned has bound it. -/
structure Barred (g k : ℕ) (s : GroupSys Span) (ports : List ℕ) (h q port : ℕ)
    (es : List (HostEvent Span)) (w : Host Span) : Prop where
  bound : (h, q) ∈ w.bound
  starting : ∃ m, w.groups[g]? = some m ∧ GroupSys.Starting s ports (es.filterMap (lab g)) m ∧
    k ≤ m.spawned.length
  barred : w.serves h q port = true → ∀ m, w.groups[g]? = some m →
    ∀ p, k ≤ p → m.ports[p]? = some port → (g, p) ∉ w.bound

theorem Barred.step {k : ℕ} {ports : List ℕ} {h q port : ℕ} (hb : Barred g k s ports h q port es w)
    (hw : w.Exclusive) (he : w.step parse e = some w')
    (hin : GroupSys.InStartup ((es ++ [e]).filterMap (lab g))) :
    Barred g k s ports h q port (es ++ [e]) w' := by
  obtain ⟨m, hm, hstart, hk⟩ := hb.starting
  obtain ⟨m', hm', hmove⟩ := step_group he hm
  refine ⟨mem_bound_step he hb.bound, ⟨m', hm', ?_, ?_⟩, fun hserves n hn p hp hport => ?_⟩
  · rw [List.filterMap_append]
    rcases hmove with ⟨x, hlab, hx⟩ | ⟨hlab, pc, rfl⟩
    · rw [List.filterMap_append] at hin
      have hone : [e].filterMap (lab g) = [x] := by simp [hlab]
      rw [hone] at hin ⊢
      exact (hstart.step hx (by rintro rfl; exact hin.1 (by simp))
        (by rintro y rfl; exact hin.2 y (by simp))).1
    · have hnone : [e].filterMap (lab g) = [] := by simp [hlab]
      rw [hnone, List.append_nil]
      exact hstart.caller pc
  · rcases hmove with ⟨x, hlab, hx⟩ | ⟨hlab, pc, rfl⟩
    · exact hk.trans (GroupSys.step_length hx le_rfl).1
    · exact hk
  · obtain rfl : m' = n := Option.some.inj (hm'.symm.trans hn)
    have hold : w.serves h q port = true := by
      refine (hw.serves_of_step he hserves).resolve_right ?_
      rintro ⟨rfl, -⟩
      rcases hostStep he with _ | _ | ⟨_, _, _, _, _, _, _, hnew, _⟩
      exact hnew hb.bound
    have hfree : w.taken port = true := taken_iff.2 ⟨h, q, hold⟩
    intro hmem
    rcases step_bound he with
      hbound | ⟨g', p', r, port', rfl, hgroups, hbound, hr, hport', -, htaken⟩
    · rw [hbound] at hmem
      obtain ⟨r, hr, hlt⟩ := hw.spawned g p hmem
      obtain rfl := Option.some.inj (hm.symm.trans hr)
      exact hb.barred hold m hm p hp ((step_process he hm hm' hlt).1 ▸ hport) hmem
    · rw [hgroups] at hm'
      obtain rfl := Option.some.inj (hm.symm.trans hm')
      rw [hbound] at hmem
      rcases List.mem_cons.1 hmem with heq | hmem
      · obtain ⟨rfl, rfl⟩ := Prod.mk.inj heq
        obtain rfl := Option.some.inj (hm.symm.trans hr)
        obtain rfl := Option.some.inj (hport'.symm.trans hport)
        simp [hfree] at htaken
      · exact hb.barred hold m hm p hp hport hmem

theorem barred_run {mode : Mode} {ports : List ℕ} {h q port : ℕ} (hw : w.Exclusive)
    (hs : w.groups[g]? = some s) (hshut : s.truthy = false) (hserves : w.serves h q port = true)
    (hin : GroupSys.InStartup (es.filterMap (lab g)))
    (hrun : run (step parse) w (.group g (.start mode ports) :: es) = some t) :
    Barred g s.spawned.length s ports h q port es t ∧
      ∀ m x, t.groups[g]? = some m → m.admin = .raising x →
        x = .deadSatellites "" ∨ ∃ y, HostEvent.group g (.spawnFailed y) ∈ es := by
  obtain ⟨w₁, hstart, hrun⟩ := run_cons_eq_some.1 hrun
  have hw₁ : w₁.Exclusive := hw.step hstart
  rcases hostStep hstart with _ | ⟨_, _, r, s₁, hr, hx⟩
  obtain rfl := Option.some.inj (hs.symm.trans hr)
  simp only [GroupSys.step, hshut, Bool.false_eq_true, if_false] at hx
  split_ifs at hx
  obtain rfl := Option.some.inj hx
  refine run_induction (P := fun es w => GroupSys.InStartup (es.filterMap (lab g)) →
    Barred g s.spawned.length s ports h q port es w ∧
      ∀ m x, w.groups[g]? = some m → m.admin = .raising x →
        x = .deadSatellites "" ∨ ∃ y, HostEvent.group g (.spawnFailed y) ∈ es) ?_ ?_ hrun hin
  · have hget := put_groups hr g { s with admin := .spawning mode ports [] }
    rw [if_pos rfl] at hget
    refine fun _ => ⟨⟨(serves_iff.1 hserves).1, ⟨_, hget, .spawning mode [] ports rfl rfl rfl
      (by simp [GroupSys.ports]) (by simp), le_rfl⟩, fun _ m hm p hp hport hmem => ?_⟩, ?_⟩
    · obtain ⟨r, hr', hlt⟩ := hw.spawned g p hmem
      obtain rfl := Option.some.inj (hs.symm.trans hr')
      omega
    · rintro m x hm hx
      obtain rfl := Option.some.inj (hget.symm.trans hm)
      simp at hx
  · intro es v e v' hv ih he hin
    have hex : v.Exclusive := run_invariant (I := Exclusive) hw₁ (fun _ _ _ hm he => hm.step he) hv
    have hin' : GroupSys.InStartup (es.filterMap (lab g)) := by
      rw [List.filterMap_append] at hin
      exact ⟨fun hx => hin.1 (by simp [hx]), fun x hx => hin.2 x (by simp [hx])⟩
    obtain ⟨hb, hraise⟩ := ih hin'
    refine ⟨hb.step hex he hin, fun m' x hm' hx => ?_⟩
    obtain ⟨m, hm, -⟩ := hb.starting
    obtain ⟨m₁, hm₁, hmove⟩ := step_group he hm
    obtain rfl := Option.some.inj (hm₁.symm.trans hm')
    rcases hmove with ⟨y, hlab, hy⟩ | ⟨-, pc, rfl⟩
    · rcases GroupSys.step_raising hy hx with hold | hdead | ⟨z, rfl⟩
      · exact (hraise m x hm hold).imp_right (Exists.imp fun z hz => by simp [hz])
      · exact Or.inl hdead
      · have heq : e = .group g (.spawnFailed z) := by
          cases e <;> simp only [lab, reduceCtorEq] at hlab <;> split_ifs at hlab <;> simp_all
        exact Or.inr ⟨z, by simp [heq]⟩
    · exact (hraise m x hm hx).imp_right (Exists.imp fun z hz => by simp [hz])

end Host

/-- A startup on a port that another process serves all the while ends, if it ends, by
raising `DeadSatellites`. -/
theorem occupied_startup_raises [DecidableEq Span] (parse : List UInt8 → Option (List Span))
    {es es' : List (HostEvent Span)} {w t : Host Span} {g h q port : ℕ} {s : GroupSys Span}
    {mode : Mode} {ports : List ℕ} {l : GroupEvent Span}
    (hw : run (Host.step parse) .empty es = some w) (hs : w.groups[g]? = some s)
    (hshut : s.truthy = false) (hserves : w.serves h q port = true) (hport : port ∈ ports)
    (hrun : run (Host.step parse) w (.group g (.start mode ports) :: (es' ++ [.group g l])) =
      some t)
    (hin : GroupSys.InStartup (es'.filterMap (Host.lab g)))
    (hpatient : Host.Patient parse (es ++ .group g (.start mode ports) :: es'))
    (hspawn : ∀ x, HostEvent.group g (.spawnFailed x) ∉ es')
    (hl : l = .startReturned ∨ ∃ x, l = .startRaised x) (halive : t.serves h q port = true) :
    l = .startRaised (.deadSatellites "") := by
  obtain ⟨v, hv, hend⟩ := run_snoc_eq_some.1 (List.cons_append ▸ hrun)
  have hall : run (Host.step parse) .empty (es ++ .group g (.start mode ports) :: es') = some v :=
    run_append_eq_some.2 ⟨w, hw, hv⟩
  obtain ⟨hb, hraise⟩ := Host.barred_run (Host.exclusive_run hw) hs hshut hserves hin hv
  have hserved : v.serves h q port = true := by
    refine ((Host.exclusive_run hall).serves_of_step hend halive).resolve_right ?_
    rintro ⟨he, -⟩
    cases he
  rcases Host.hostStep hend with _ | ⟨_, _, m, m', hm, hx⟩
  rcases hl with rfl | ⟨x, rfl⟩
  · -- all have been polled, so the one on this port has bound it
    exfalso
    simp only [GroupSys.step] at hx
    split_ifs at hx with hadm
    obtain ⟨m₁, hm₁, hstart, -⟩ := hb.starting
    obtain rfl := Option.some.inj (hm₁.symm.trans hm)
    rcases hstart with ⟨mode', done, todo, -, hadm', -⟩ | ⟨x, hadm', -⟩ | ⟨-, hsat, hmap, -⟩
    · simp [hadm'] at hadm
    · simp [hadm'] at hadm
    obtain ⟨done, hdone, hbound⟩ := (Host.ready_run hall hpatient g m₁ hm).polled [] hadm
    obtain ⟨i, hi, hget⟩ := List.mem_iff_getElem.1 hport
    refine hb.barred hserved m₁ hm (s.spawned.length + i) (Nat.le_add_right _ _) ?_ (hbound _ ?_)
    · rw [hmap, List.getElem?_append_right (by rw [GroupSys.length_ports]; omega),
        GroupSys.length_ports, Nat.add_sub_cancel_left, List.getElem?_eq_getElem hi, hget]
    · rw [List.append_nil] at hdone
      rw [← hdone, GroupSys.group, hsat]
      exact List.mem_range'_1.2 ⟨by omega, by omega⟩
  · simp only [GroupSys.step] at hx
    split_ifs at hx with hadm
    rw [(hraise m x hm hadm).resolve_right (not_exists.2 hspawn)]

/-- The second group finds the port of the first one served. Its other satellite comes up,
and stays when `__init__` raises. -/
def sampleSecond : List (HostEvent (List UInt8)) :=
  [.group 1 (.spawn 8360), .group 1 (.spawn 8361), .group 1 .assign, .bind 1 1, .bindFailed 1 0,
    .group 1 .adminStep, .group 1 .adminStep]

def sampleHost : Host (List UInt8) :=
  (run (Host.step parseSpans) .empty sampleFirst).getD .empty

theorem occupied_startup_raises_sample : ∃ t,
    run (Host.step parseSpans) .empty sampleFirst = some sampleHost ∧
    run (Host.step parseSpans) sampleHost (.group 1 (.start .typical [8360, 8361]) ::
      (sampleSecond ++ [.group 1 (.startRaised (.deadSatellites ""))])) = some t ∧
    GroupEvent.startRaised (.deadSatellites "") =
      (GroupEvent.startRaised (.deadSatellites "") : GroupEvent (List UInt8)) ∧
    t.serves 0 0 8360 = true ∧ t.serves 1 1 8361 = true := by
  have hin : GroupSys.InStartup (sampleSecond.filterMap (Host.lab 1)) :=
    ⟨by decide, by simp [sampleSecond, Host.lab]⟩
  have hrun : run (Host.step parseSpans) sampleHost (.group 1 (.start .typical [8360, 8361]) ::
    (sampleSecond ++ [.group 1 (.startRaised (.deadSatellites ""))])) = some _ := rfl
  have hfirst : run (Host.step parseSpans) .empty sampleFirst = some sampleHost := rfl
  refine ⟨_, hfirst, hrun, ?_, rfl, rfl⟩
  exact occupied_startup_raises parseSpans hfirst rfl rfl
    (show sampleHost.serves 0 0 8360 = true from rfl) (by decide) hrun hin
    (Host.patient_of_waits rfl) (by simp [sampleSecond]) (Or.inr ⟨_, rfl⟩) rfl

/-! ## Ports that are not shared -/

namespace GroupSys

/-- Of the ports that `owner` gives to group `g`, no two running processes have the same, and
a startup has none of those it is still to spawn on in use. -/
structure Apart (owner : ℕ → ℕ) (g : ℕ) (s : GroupSys Span) : Prop where
  owned : s.Owned
  own : ∀ x ∈ s.ports, owner x = g
  distinct : ∀ p q, s.isRunning p = true → s.isRunning q = true → s.ports[p]? = s.ports[q]? → p = q
  todo : ∀ mode todo built, s.admin = .spawning mode todo built → todo.Nodup ∧
    ∀ x ∈ todo, owner x = g ∧ ∀ p, s.isRunning p = true → s.ports[p]? ≠ some x

variable {owner : ℕ → ℕ} {g : ℕ}

theorem new_apart : (new : GroupSys Span).Apart owner g where
  owned := new_owned
  own := by simp [new, GroupSys.ports]
  distinct p q hp := absurd (isRunning_lt hp) (by simp [new])
  todo := by simp [new]

variable [DecidableEq Span] {parse : List UInt8 → Option (List Span)} {s s' : GroupSys Span}
  {e : GroupEvent Span}

/-- A startup spawns from where it was, or has just begun. -/
theorem step_spawning (he : s.step parse e = some s') (hspawn : ∀ port, e ≠ .spawn port)
    {mode : Mode} {todo built : List ℕ} (hadm' : s'.admin = .spawning mode todo built) :
    s.admin = .spawning mode todo built ∨
      e = .start mode todo ∧ s.admin = .idle ∧ s.truthy = false := by
  rcases step_admin he with hof | ⟨hadm, -⟩
  swap
  · exact Or.inl (hadm ▸ hadm')
  rcases adminStep he hof with hadm | ⟨ps, hadm, hps⟩ | ⟨p, todo, o, hadm, ho⟩ | hadm |
    ⟨mode, ports, hadm, hshut⟩ | ⟨mode, port, todo, built, hadm⟩ | ⟨y, mode, todo, built, hadm⟩ |
    ⟨mode, built, hadm⟩ | ⟨a, ha⟩ | hadm | ⟨y, hadm⟩
  case stay => exact Or.inl hadm'
  case start =>
    obtain ⟨rfl, rfl, -⟩ := Admin.spawning.inj hadm'
    exact Or.inr ⟨rfl, hadm, hshut⟩
  case spawn => exact absurd rfl (hspawn port)
  case next =>
    obtain rfl : a = .spawning mode todo built := hadm'
    rcases hadm : s.admin with _ | _ | _ | _ | ⟨_ | ⟨q, todo⟩⟩ | _ <;>
      simp only [hadm, adminNext, reduceCtorEq] at ha <;> split at ha <;> simp at ha
  all_goals simp at hadm'

theorem Apart.spawn {mode : Mode} {port : ℕ} {todo built : List ℕ} (h : s.Apart owner g)
    (hadm : s.admin = .spawning mode (port :: todo) built)
    (he : s.step parse (.spawn port) = some s')
    (hadm' : s'.admin = .spawning mode todo (built ++ [s.spawned.length])) :
    s'.Apart owner g := by
  obtain ⟨hnodup, htodo⟩ := h.todo _ _ _ hadm
  obtain ⟨hport, hfree⟩ := htodo port (by simp)
  have hports := (step_spawn he).1
  -- a process of `s'` is one of `s`, or the new one
  have hproc : ∀ p, s'.isRunning p = true →
      s.isRunning p = true ∧ s'.ports[p]? = s.ports[p]? ∨
        p = s.spawned.length ∧ s'.ports[p]? = some port := by
    intro p hp
    rw [hports]
    rcases Nat.lt_or_ge p s.spawned.length with hlt | hge
    · exact Or.inl ⟨((step_isRunning_iff he hlt).1 hp).1,
        List.getElem?_append_left (by rwa [length_ports])⟩
    · have hlt := isRunning_lt hp
      rw [← length_ports, hports, List.length_append, length_ports, List.length_singleton] at hlt
      obtain rfl : p = s.spawned.length := by omega
      exact Or.inr ⟨rfl, by rw [← length_ports]; simp⟩
  refine ⟨h.owned.step he (by simp), fun x hx => ?_, fun p q hp hq heq => ?_, ?_⟩
  · rw [hports, List.mem_append, List.mem_singleton] at hx
    rcases hx with hx | rfl
    · exact h.own x hx
    · exact hport
  · rcases hproc p hp with ⟨hp, hpx⟩ | ⟨rfl, hpx⟩ <;> rcases hproc q hq with ⟨hq, hqx⟩ | ⟨rfl, hqx⟩
    · exact h.distinct p q hp hq (by rw [← hpx, heq, hqx])
    · exact absurd (hpx.symm.trans (heq.trans hqx)) (hfree p hp)
    · exact absurd (hqx.symm.trans (heq.symm.trans hpx)) (hfree q hq)
    · rfl
  · intro mode' todo' built' ht
    obtain ⟨-, rfl, -⟩ := Admin.spawning.inj (hadm'.symm.trans ht)
    obtain ⟨hnotMem, hnodup⟩ := List.nodup_cons.1 hnodup
    refine ⟨hnodup, fun x hx => ⟨(htodo x (by simp [hx])).1, fun p hp => ?_⟩⟩
    rcases hproc p hp with ⟨hp, hpx⟩ | ⟨rfl, hpx⟩ <;> rw [hpx]
    · exact (htodo x (by simp [hx])).2 p hp
    · exact fun heq => hnotMem (Option.some.inj heq ▸ hx)

theorem Apart.step (h : s.Apart owner g) (he : s.step parse e = some s')
    (hstart : ∀ mode ports, e = .start mode ports → ports.Nodup ∧ ∀ x ∈ ports, owner x = g)
    (hspawn : ∀ x, e ≠ .spawnFailed x) : s'.Apart owner g := by
  by_cases hsp : ∃ port, e = .spawn port
  · obtain ⟨port, rfl⟩ := hsp
    cases adminStep he trivial with
    | stay hidle => exact h
    | spawn mode _ todo built hadm => exact h.spawn hadm he rfl
  · have hsp : ∀ port, e ≠ .spawn port := fun port hx => hsp ⟨port, hx⟩
    have hports := step_ports he hsp
    refine ⟨h.owned.step he hspawn, hports ▸ h.own, fun p q hp hq heq => ?_, ?_⟩
    · rw [hports] at heq
      exact h.distinct p q (step_alive he hsp hp) (step_alive he hsp hq) heq
    · intro mode todo built hadm'
      rw [hports]
      rcases step_spawning he hsp hadm' with hadm | ⟨rfl, hidle, hshut⟩
      · obtain ⟨hnodup, htodo⟩ := h.todo mode todo built hadm
        exact ⟨hnodup, fun x hx => ⟨(htodo x hx).1, fun p hp =>
          (htodo x hx).2 p (step_alive he hsp hp)⟩⟩
      · obtain ⟨hnodup, howner⟩ := hstart mode todo rfl
        refine ⟨hnodup, fun x hx => ⟨howner x hx, fun p hp => ?_⟩⟩
        have hdead := h.owned.shut hidle hshut p
        rw [step_alive he hsp hp] at hdead
        simp at hdead

end GroupSys

namespace Host

variable [DecidableEq Span] {parse : List UInt8 → Option (List Span)} {w w' : Host Span}
  {e : HostEvent Span} {g : ℕ} {owner : ℕ → ℕ}

theorem lab_of_none (h : w.step parse e = some w') (hs : w.groups[g]? = none) : lab g e = none := by
  rcases hostStep h with _ | ⟨k, x, r, r', hr, hx⟩ | _ | ⟨k, p, port, r, r', hr⟩ | _ | _
  case group | bindFailed =>
    have hne : k ≠ g := by
      rintro rfl
      simp [hs] at hr
    simp [lab, hne]
  all_goals rfl

omit [DecidableEq Span] in
/-- Where each group has its own ports, a process that serves the port of another one is that
process. -/
theorem serves_eq (hapart : ∀ g (s : GroupSys Span), w.groups[g]? = some s → s.Apart owner g)
    {s : GroupSys Span} (hs : w.groups[g]? = some s) {p port h q : ℕ}
    (hport : s.ports[p]? = some port) (hserves : w.serves h q port = true) :
    h = g ∧ (s.isRunning p = true → q = p) := by
  obtain ⟨-, r, hr, hrun, hq⟩ := serves_iff.1 hserves
  have hh := (hapart h r hr).own port (List.mem_of_getElem? hq)
  have hg := (hapart g s hs).own port (List.mem_of_getElem? hport)
  obtain rfl : h = g := hh.symm.trans hg
  obtain rfl := Option.some.inj (hs.symm.trans hr)
  exact ⟨rfl, fun hp => (hapart h s hs).distinct q p hrun hp (hq.trans hport.symm)⟩

/-- A step in which no group meets another one is a step of one group, or of none. -/
theorem step_own {s : GroupSys Span} (h : w.step parse e = some w')
    (hs : w.groups[g]? = some s) (hbind : ∀ g p, e ≠ .bindFailed g p)
    (hother : ∀ g c p h q n, e ≠ .answerOther g c p h q n)
    (hearly : ∀ g c p, e ≠ .refuseEarly g c p) :
    ∃ s', w'.groups[g]? = some s' ∧
      ((∃ x, e = .group g x ∧ s.step parse x = some s') ∨ lab g e = none ∧ s' = s) := by
  rcases hostStep h with _ | ⟨k, x, r, r', hr, hx⟩ | _ | ⟨k, p⟩ | ⟨k, c, p, h₂, q, n⟩ | ⟨k, c, p⟩
  case construct =>
    exact ⟨s, by simp [List.getElem?_append_left (List.getElem?_eq_some_iff.1 hs).1, hs],
      Or.inr ⟨rfl, rfl⟩⟩
  case group =>
    rw [put_groups hr]
    by_cases hk : k = g
    · obtain rfl := hk
      obtain rfl := Option.some.inj (hr.symm.trans hs)
      exact ⟨r', if_pos rfl, Or.inl ⟨x, rfl, hx⟩⟩
    · exact ⟨s, by rw [if_neg hk, hs], Or.inr ⟨by simp [lab, hk], rfl⟩⟩
  case bind => exact ⟨s, hs, Or.inr ⟨rfl, rfl⟩⟩
  case bindFailed => exact absurd rfl (hbind k p)
  case answerOther => exact absurd rfl (hother k c p h₂ q n)
  case refuseEarly => exact absurd rfl (hearly k c p)

/-- The groups have not met so far. -/
structure Isolated (parse : List UInt8 → Option (List Span)) (owner : ℕ → ℕ)
    (es : List (HostEvent Span)) (w : Host Span) : Prop where
  apart : ∀ g (s : GroupSys Span), w.groups[g]? = some s → s.Apart owner g
  absent : ∀ g, w.groups[g]? = none → es.filterMap (lab g) = []
  bind : ∀ g p, HostEvent.bindFailed g p ∉ es
  other : ∀ g c p h q n, HostEvent.answerOther g c p h q n ∉ es
  alone : ∀ g s, w.groups[g]? = some s →
    run (GroupSys.step parse) .new (es.filterMap (lab g)) = some s

variable {es : List (HostEvent Span)}

theorem Isolated.step (hw : Isolated parse owner es w) (he : w.step parse e = some w')
    (hstart : ∀ g mode ports, e = .group g (.start mode ports) →
      ports.Nodup ∧ ∀ x ∈ ports, owner x = g)
    (hspawn : ∀ g x, e ≠ .group g (.spawnFailed x)) (hearly : ∀ g c p, e ≠ .refuseEarly g c p) :
    Isolated parse owner (es ++ [e]) w' := by
  have hbind : ∀ g p, e ≠ .bindFailed g p := by
    rintro g p rfl
    rcases hostStep he with
      _ | _ | _ | ⟨_, _, port, s, s', hs, hport, hrun, hnew, htaken, -⟩ | _ | _
    obtain ⟨k, q, hserves⟩ := taken_iff.1 htaken
    obtain ⟨rfl, heq⟩ := serves_eq hw.apart hs hport hserves
    exact hnew (heq hrun ▸ (serves_iff.1 hserves).1)
  have hother : ∀ g c p k q n, e ≠ .answerOther g c p k q n := by
    rintro g c p k q n rfl
    rcases hostStep he with
      _ | _ | _ | _ | ⟨_, _, _, _, _, _, port, s, pc, hs, hport, hne, hrun, hserves⟩ | _
    obtain ⟨rfl, heq⟩ := serves_eq hw.apart hs hport hserves
    exact hne (by rw [heq (hrun.resolve_left (by simp))])
  -- so each group takes its own steps, and a new group has taken none
  have hgroup : ∀ g s', w'.groups[g]? = some s' → s'.Apart owner g ∧
      run (GroupSys.step parse) .new ((es ++ [e]).filterMap (lab g)) = some s' := by
    intro g s' hs'
    rw [List.filterMap_append]
    cases hs : w.groups[g]? with
    | none =>
      obtain rfl := step_groups_of_none he hs hs'
      rw [hw.absent g hs, show [e].filterMap (lab g) = [] by simp [lab_of_none he hs]]
      exact ⟨GroupSys.new_apart, rfl⟩
    | some s =>
      obtain ⟨s₁, hs₁, hmove⟩ := step_own he hs hbind hother hearly
      obtain rfl := Option.some.inj (hs₁.symm.trans hs')
      rcases hmove with ⟨x, rfl, hx⟩ | ⟨hlab, rfl⟩
      · refine ⟨(hw.apart g s hs).step hx (fun mode ports hst => hstart g mode ports (by rw [hst]))
          (fun y hy => hspawn g y (by rw [hy])), ?_⟩
        rw [show [HostEvent.group g x].filterMap (lab g) = [x] by simp [lab]]
        exact run_snoc_eq_some.2 ⟨s, hw.alone g s hs, hx⟩
      · rw [show [e].filterMap (lab g) = [] by simp [hlab], List.append_nil]
        exact ⟨hw.apart g s₁ hs, hw.alone g s₁ hs⟩
  refine ⟨fun g s' hs' => (hgroup g s' hs').1, fun g hs' => ?_, fun g p hmem => ?_,
    fun g c p k q n hmem => ?_, fun g s' hs' => (hgroup g s' hs').2⟩
  · cases hs : w.groups[g]? with
    | none => simp [hw.absent g hs, lab_of_none he hs]
    | some s =>
      obtain ⟨s₁, hs₁, -⟩ := step_group he hs
      simp [hs₁] at hs'
  · rcases List.mem_append.1 hmem with hmem | hmem
    · exact hw.bind g p hmem
    · exact hbind g p (List.mem_singleton.1 hmem).symm
  · rcases List.mem_append.1 hmem with hmem | hmem
    · exact hw.other g c p k q n hmem
    · exact hother g c p k q n (List.mem_singleton.1 hmem).symm

end Host

/-- Groups that use different ports, each of them without duplicates, do not meet : no process
finds its port taken, no request comes to a process of another group, and each group has gone
through a run by itself. -/
theorem groups_isolated [DecidableEq Span] (parse : List UInt8 → Option (List Span))
    (owner : ℕ → ℕ) {es : List (HostEvent Span)} {w : Host Span}
    (h : run (Host.step parse) .empty es = some w)
    (hstart : ∀ g mode ports, HostEvent.group g (.start mode ports) ∈ es →
      ports.Nodup ∧ ∀ x ∈ ports, owner x = g)
    (hspawn : ∀ g x, HostEvent.group g (.spawnFailed x) ∉ es)
    (hearly : ∀ g c p, HostEvent.refuseEarly g c p ∉ es) :
    (∀ g p, HostEvent.bindFailed g p ∉ es) ∧
      (∀ g c p h q n, HostEvent.answerOther g c p h q n ∉ es) ∧
      ∀ g s, w.groups[g]? = some s →
        run (GroupSys.step parse) .new (es.filterMap (Host.lab g)) = some s := by
  have hw : Host.Isolated parse owner es w := by
    refine run_induction (P := fun es (w : Host Span) =>
      (∀ g mode ports, HostEvent.group g (.start mode ports) ∈ es →
        ports.Nodup ∧ ∀ x ∈ ports, owner x = g) →
      (∀ g x, HostEvent.group g (.spawnFailed x) ∉ es) →
      (∀ g c p, HostEvent.refuseEarly g c p ∉ es) → Host.Isolated parse owner es w)
      ?_ ?_ h hstart hspawn hearly
    · exact fun _ _ _ => ⟨by simp [Host.empty], by simp, by simp, by simp, by simp [Host.empty]⟩
    · intro es w e w' _ ih he hstart hspawn hearly
      refine (ih (fun g mode ports hx => hstart g mode ports (by simp [hx]))
        (fun g x hx => hspawn g x (by simp [hx])) fun g c p hx => hearly g c p (by simp [hx])).step
        he (fun g mode ports hx => hstart g mode ports (by simp [hx])) ?_ ?_
      · rintro g x rfl
        exact hspawn g x (by simp)
      · rintro g c p rfl
        exact hearly g c p (by simp)
  exact ⟨hw.bind, hw.other, hw.alone⟩

/-- Two groups on different ports, one of them restarted. -/
def sampleApart : List (HostEvent (List UInt8)) :=
  [.construct, .construct, .group 0 (.start .typical [8360]), .group 1 (.start .slowFail [8361]),
    .group 1 (.spawn 8361), .group 0 (.spawn 8360), .bind 1 0, .group 0 .assign, .bind 0 0,
    .group 1 .assign, .group 0 .adminStep, .group 1 .adminStep, .group 0 .adminStep,
    .group 0 .startReturned, .group 0 .shutdown, .group 0 (.terminate 0),
    .group 0 .shutdownReturned, .group 0 (.start .typical [8360]), .group 0 (.spawn 8360),
    .bind 0 1, .group 1 .adminStep, .group 1 .startReturned]

theorem groups_isolated_sample : ∃ w s, run (Host.step parseSpans) .empty sampleApart = some w ∧
    w.groups[1]? = some s ∧
    run (GroupSys.step parseSpans) .new (sampleApart.filterMap (Host.lab 1)) = some s := by
  have hstart : ∀ g mode ports, HostEvent.group g (.start mode ports) ∈ sampleApart →
      ports.Nodup ∧ ∀ x ∈ ports, (if x = 8361 then 1 else 0) = g := by
    intro g mode ports hmem
    simp only [sampleApart, List.mem_cons, HostEvent.group.injEq, GroupEvent.start.injEq] at hmem
    rcases hmem with _ | _ | hmem
    · contradiction
    · contradiction
    · simp at hmem
      rcases hmem with ⟨rfl, -, rfl⟩ | ⟨rfl, -, rfl⟩ | ⟨rfl, -, rfl⟩ <;> simp
  have hrun : run (Host.step parseSpans) .empty sampleApart = some _ := rfl
  exact ⟨_, _, hrun, rfl, (groups_isolated parseSpans (fun x => if x = 8361 then 1 else 0) hrun
    hstart (by simp [sampleApart]) (by simp [sampleApart])).2.2 1 _ rfl⟩

end TracerBench
