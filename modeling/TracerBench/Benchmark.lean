import TracerBench.SteadyGroup

/-!
# Benchmarks that share a group

`Controller.benchmark`, with `satellites` given, calls the group three times : a reset
before it starts the client, a get after the client has exited and the satellites had a
second, and a reset to leave the group as it was. While the client runs another thread may
shut the group down and start it again.

A span belongs to the client that made it, which is what `runOf` says; clients are numbered
from 1 in the order they were launched. Reports may arrive, and handler threads may add
them, at any time after the client's launch, also after its exit : the second that
`benchmark` sleeps bounds nothing, so it is no step here.

`harvest` is what a result counts : from each satellite of the group, the spans added since
it answered the benchmark's first reset, or was started, until it answered the get.
-/

namespace TracerBench

variable {Span : Type*}

/-! ## The controller -/

/-- The span counts of a `Result`. -/
structure Result where
  spansSent : ℕ
  spansReceived : ℤ
  deriving DecidableEq

/-- `dropped_spans`. -/
def Result.droppedSpans (r : Result) : ℤ :=
  r.spansSent - r.spansReceived

/-- Where `benchmark` is, with its `int(repeat)`. -/
inductive BenchPc where
  | idle
  /-- At the first `reset_spans_received`. -/
  | zeroing (spansSent : ℕ)
  | starting (spansSent : ℕ)
  | running (spansSent : ℕ)
  /-- At `get_spans_received`. -/
  | reading (spansSent : ℕ)
  /-- At the last `reset_spans_received`. -/
  | clearing (spansSent : ℕ) (spansReceived : ℤ)
  deriving DecidableEq

/-- The call on the group that `benchmark` makes here. -/
def BenchPc.call? : BenchPc → Option Call
  | .zeroing _ | .clearing _ _ => some .reset
  | .reading _ => some .get
  | _ => none

/-- From the client's launch to the end of the get. -/
def BenchPc.Counting : BenchPc → Prop
  | .starting _ | .running _ | .reading _ => True
  | _ => False

/-- The handlers `__init__` has built so far. -/
def Admin.built : Admin → List ℕ
  | .spawning _ _ built => built
  | _ => []

/-- The satellites the group has or is about to have. -/
def GroupSys.members (s : GroupSys Span) : List ℕ :=
  s.group ++ s.admin.built

structure Bench (Span : Type*) where
  group : GroupSys Span
  pc : BenchPc
  /-- How many clients were launched. -/
  launched : ℕ
  /-- What the benchmarks returned, each with the number of its client. -/
  results : List (ℕ × Result)

inductive BenchEvent (Span : Type*) where
  | benchmark (spansSent : ℕ)
  | launch
  | clientExit
  | group (e : GroupEvent Span)
  deriving DecidableEq

namespace Bench

/-- A constructed group, and no benchmark yet. -/
def init (mode : Mode) (ports : List ℕ) : Bench Span :=
  ⟨.constructed mode ports, .idle, 0, []⟩

/-- `benchmark` makes its own calls. A report holds spans of clients launched so far. The
administrator works while a client runs. -/
def allows (parse : List UInt8 → Option (List Span)) (runOf : Span → ℕ) (s : Bench Span) :
    GroupEvent Span → Bool
  | .call c => s.pc.call? = some c
  | .sat _ (.accept _ binaryBody) => ((parse binaryBody).getD []).all (runOf · ≤ s.launched)
  | .shutdown | .terminate _ | .shutdownReturned | .start _ _ | .spawn _ | .spawnFailed _
  | .assign | .adminStep | .startReturned | .startRaised _ =>
    match s.pc with
    | .running _ => true
    | _ => false
  | _ => true

/-- Where `benchmark` goes when the group has moved to `g`. -/
def after (s : Bench Span) (g : GroupSys Span) : GroupEvent Span → Bench Span
  | .returned _ v =>
    match s.pc with
    | .zeroing n => { s with group := g, pc := .starting n }
    | .reading n => { s with group := g, pc := .clearing n v }
    | .clearing n received =>
      { s with
        group := g
        pc := .idle
        results := s.results ++ [(s.launched, ⟨n, received⟩)] }
    | _ => { s with group := g }
  | .raised _ => { s with group := g, pc := .idle }
  | _ => { s with group := g }

variable [DecidableEq Span] (parse : List UInt8 → Option (List Span)) (runOf : Span → ℕ)

/-- One step of `benchmark` and its group, with nobody but the group's processes on its
ports. -/
def step (s : Bench Span) : BenchEvent Span → Option (Bench Span)
  | .benchmark n => if s.pc = .idle then some { s with pc := .zeroing n } else none
  | .launch =>
    match s.pc with
    | .starting n => some { s with pc := .running n, launched := s.launched + 1 }
    | _ => none
  | .clientExit =>
    match s.pc with
    | .running n => if s.group.admin = .idle then some { s with pc := .reading n } else none
    | _ => none
  | .group e =>
    if s.allows parse runOf e then (s.group.step parse e).map fun g => s.after g e else none

/-! ## Histories -/

/-- The steps of the group. -/
def groupTrace (es : List (BenchEvent Span)) : List (GroupEvent Span) :=
  es.filterMap fun
    | .group e => some e
    | _ => none

/-- What a step does to the window of satellite `p`. -/
def windowStep (p : ℕ) (l : List Span) : BenchEvent Span → List Span
  | .benchmark _ => []
  | .group e => GroupSys.ledgerStep p l e
  | _ => l

/-- The spans satellite `p` has counted since the benchmark began, or since it last answered
a reset, if that was later. -/
def window (p : ℕ) (es : List (BenchEvent Span)) : List Span :=
  es.foldl (windowStep p) []

/-- What a step does to the spans the last get has harvested, with the windows before it. -/
def harvestedStep (windows : ℕ → List Span) (l : List Span) : BenchEvent Span → List Span
  | .group (.call _) => []
  | .group (.answer .get p _) => l ++ windows p
  | _ => l

def harvestStep (st : (ℕ → List Span) × List Span) (e : BenchEvent Span) :
    (ℕ → List Span) × List Span :=
  (fun p => windowStep p (st.1 p) e, harvestedStep st.1 st.2 e)

/-- The windows of the satellites that have answered the last get so far, each as it was
when the satellite answered. -/
def harvest (es : List (BenchEvent Span)) : List Span :=
  (es.foldl harvestStep (fun _ => [], [])).2

section Histories

variable {p : ℕ} {es : List (BenchEvent Span)} {e : BenchEvent Span}

omit [DecidableEq Span] in
theorem window_snoc : window p (es ++ [e]) = windowStep p (window p es) e := by
  rw [window, List.foldl_append]
  rfl

omit [DecidableEq Span] in
theorem foldl_harvestStep_fst :
    ∀ (es : List (BenchEvent Span)) (st : (ℕ → List Span) × List Span),
      (es.foldl harvestStep st).1 = fun p => es.foldl (windowStep p) (st.1 p)
  | [], _ => rfl
  | e :: es, st => foldl_harvestStep_fst es (harvestStep st e)

omit [DecidableEq Span] in
theorem harvest_snoc :
    harvest (es ++ [e]) = harvestedStep (fun p => window p es) (harvest es) e := by
  rw [harvest, List.foldl_append, List.foldl_cons, List.foldl_nil, harvestStep,
    foldl_harvestStep_fst]
  rfl

omit [DecidableEq Span] in
theorem groupTrace_append {es' : List (BenchEvent Span)} :
    groupTrace (es ++ es') = groupTrace es ++ groupTrace es' :=
  List.filterMap_append

omit [DecidableEq Span] in
theorem groupTrace_group {x : GroupEvent Span} :
    groupTrace (es ++ [.group x]) = groupTrace es ++ [x] := by
  simp [groupTrace]

end Histories

/-! ## What a step can do -/

variable {parse runOf}

theorem step_cases {s s' : Bench Span} {e : BenchEvent Span}
    (h : s.step parse runOf e = some s') :
    (∃ n, e = .benchmark n ∧ s.pc = .idle ∧ s' = { s with pc := .zeroing n }) ∨
    (∃ n, e = .launch ∧ s.pc = .starting n ∧
      s' = { s with pc := .running n, launched := s.launched + 1 }) ∨
    (∃ n, e = .clientExit ∧ s.pc = .running n ∧ s.group.admin = .idle ∧
      s' = { s with pc := .reading n }) ∨
    ∃ x g, e = .group x ∧ s.allows parse runOf x = true ∧ s.group.step parse x = some g ∧
      s' = s.after g x := by
  cases e with
  | benchmark n =>
    simp only [step] at h
    split_ifs at h with hpc
    exact Or.inl ⟨n, rfl, hpc, (Option.some.inj h).symm⟩
  | launch =>
    simp only [step] at h
    split at h
    · next n hpc => exact Or.inr (Or.inl ⟨n, rfl, hpc, (Option.some.inj h).symm⟩)
    · simp at h
  | clientExit =>
    simp only [step] at h
    split at h
    · next n hpc =>
      split_ifs at h with hadm
      exact Or.inr (Or.inr (Or.inl ⟨n, rfl, hpc, hadm, (Option.some.inj h).symm⟩))
    · simp at h
  | group x =>
    simp only [step] at h
    split_ifs at h with hx
    obtain ⟨g, hg, rfl⟩ := Option.map_eq_some_iff.1 h
    exact Or.inr (Or.inr (Or.inr ⟨x, g, rfl, hx, hg, rfl⟩))

omit [DecidableEq Span] in
/-- A step of the group moves `benchmark` only when it ends a call. -/
theorem after_cases (s : Bench Span) (g : GroupSys Span) (x : GroupEvent Span) :
    (∃ c v, x = .returned c v ∧
      ((∃ n, s.pc = .zeroing n ∧ s.after g x = { s with group := g, pc := .starting n }) ∨
       (∃ n, s.pc = .reading n ∧ s.after g x = { s with group := g, pc := .clearing n v }) ∨
       (∃ n received, s.pc = .clearing n received ∧ s.after g x =
         ⟨g, .idle, s.launched, s.results ++ [(s.launched, ⟨n, received⟩)]⟩) ∨
       (s.pc.call? = none ∧ s.after g x = { s with group := g }))) ∨
    (∃ y, x = .raised y ∧ s.after g x = { s with group := g, pc := .idle }) ∨
    ((∀ c v, x ≠ .returned c v) ∧ (∀ y, x ≠ .raised y) ∧ s.after g x = { s with group := g }) := by
  cases x with
  | returned c v =>
    refine Or.inl ⟨c, v, rfl, ?_⟩
    rcases hpc : s.pc with _ | n | n | n | n | ⟨n, r⟩ <;> simp [after, hpc, BenchPc.call?]
  | raised y => exact Or.inr (Or.inl ⟨y, rfl, rfl⟩)
  | _ => exact Or.inr (Or.inr ⟨by simp, by simp, rfl⟩)

omit [DecidableEq Span] in
theorem after_group (s : Bench Span) (g : GroupSys Span) (x : GroupEvent Span) :
    (s.after g x).group = g := by
  rcases after_cases s g x with ⟨_, _, -, ⟨_, -, hs⟩ | ⟨_, -, hs⟩ | ⟨_, _, -, hs⟩ | ⟨-, hs⟩⟩ |
    ⟨_, -, hs⟩ | ⟨-, -, hs⟩ <;> rw [hs]

omit [DecidableEq Span] in
theorem after_launched (s : Bench Span) (g : GroupSys Span) (x : GroupEvent Span) :
    (s.after g x).launched = s.launched := by
  rcases after_cases s g x with ⟨_, _, -, ⟨_, -, hs⟩ | ⟨_, -, hs⟩ | ⟨_, _, -, hs⟩ | ⟨-, hs⟩⟩ |
    ⟨_, -, hs⟩ | ⟨-, -, hs⟩ <;> rw [hs]

omit [DecidableEq Span] in
/-- The end of a call leaves `zeroing` and `reading`, and no step of the group enters them. -/
theorem after_pc {s : Bench Span} {g : GroupSys Span} {x : GroupEvent Span} {n : ℕ}
    {pc : BenchPc} (h : (s.after g x).pc = pc) (hpc : pc = .zeroing n ∨ pc = .reading n) :
    s.pc = pc := by
  rcases after_cases s g x with ⟨_, _, -, ⟨_, -, hs⟩ | ⟨_, -, hs⟩ | ⟨_, _, -, hs⟩ | ⟨-, hs⟩⟩ |
    ⟨_, -, hs⟩ | ⟨-, -, hs⟩ <;> rw [hs] at h
  case inl.inr.inr.inr => exact h
  case inr.inr => exact h
  all_goals rcases hpc with rfl | rfl <;> simp at h

omit [DecidableEq Span] in
theorem allows_admin {s : Bench Span} {x : GroupEvent Span} (hx : GroupSys.OfAdmin x)
    (h : s.allows parse runOf x = true) : ∃ n, s.pc = .running n := by
  rcases hpc : s.pc with _ | n | n | n | n | ⟨n, r⟩
  case running => exact ⟨n, rfl⟩
  all_goals cases x <;> simp_all [allows, GroupSys.OfAdmin]

/-! ## Who moves when -/

/-- The caller is in the call `benchmark` is at, and the administrator works only while the
client runs. -/
structure Control (s : Bench Span) : Prop where
  idle : s.pc.call? = none → s.group.caller = .idle
  call : ∀ c, s.group.caller.call? = some c → s.pc.call? = some c
  admin : (∀ n, s.pc ≠ .running n) → s.group.admin = .idle

theorem Control.step {s s' : Bench Span} {e : BenchEvent Span} (h : s.Control)
    (he : s.step parse runOf e = some s') : s'.Control := by
  rcases step_cases he with ⟨n, rfl, hpc, rfl⟩ | ⟨n, rfl, hpc, rfl⟩ | ⟨n, rfl, hpc, hadm, rfl⟩ |
    ⟨x, g, rfl, hx, hg, rfl⟩
  · have hidle := h.idle (by rw [hpc]; rfl)
    exact ⟨fun _ => hidle, by simp [hidle, Caller.call?], fun _ => h.admin (by simp [hpc])⟩
  · have hidle := h.idle (by rw [hpc]; rfl)
    exact ⟨fun _ => hidle, by simp [hidle, Caller.call?], fun hn => absurd rfl (hn n)⟩
  · have hidle := h.idle (by rw [hpc]; rfl)
    exact ⟨fun _ => hidle, by simp [hidle, Caller.call?], fun _ => hadm⟩
  · have hadmin : (∀ n, s.pc ≠ .running n) → g.admin = .idle := by
      intro hn
      rcases GroupSys.step_admin hg with hof | ⟨ha, -⟩
      · obtain ⟨n, hpc⟩ := allows_admin hof hx
        exact absurd hpc (hn n)
      · exact ha.trans (h.admin hn)
    rcases after_cases s g x with ⟨c, v, rfl, hafter⟩ | ⟨y, rfl, hs'⟩ | ⟨-, hraised, hs'⟩
    · obtain ⟨hc, rfl⟩ := GroupSys.returned_idle hg
      have hcall := h.call c (by rw [hc]; rfl)
      have hadm := hadmin (by rintro n hpc; rw [hpc] at hcall; simp [BenchPc.call?] at hcall)
      rcases hafter with ⟨n, hpc, hs'⟩ | ⟨n, hpc, hs'⟩ | ⟨n, r, hpc, hs'⟩ | ⟨hnone, -⟩
      · rw [hs']
        exact ⟨fun _ => rfl, by simp [Caller.call?], fun _ => hadm⟩
      · rw [hs']
        exact ⟨fun _ => rfl, by simp [Caller.call?], fun _ => hadm⟩
      · rw [hs']
        exact ⟨fun _ => rfl, by simp [Caller.call?], fun _ => hadm⟩
      · rw [hnone] at hcall
        simp at hcall
    · rw [hs']
      simp only [GroupSys.step] at hg
      split_ifs at hg with hc
      obtain rfl := Option.some.inj hg
      refine ⟨fun _ => rfl, by simp [Caller.call?], fun _ => hadmin fun n hpc => ?_⟩
      have hidle := h.idle (by rw [hpc]; rfl)
      simp [hc] at hidle
    · rw [hs']
      obtain ⟨hcall, -⟩ := GroupSys.step_call hg
      refine ⟨fun hpc => ?_, fun c hc => ?_, hadmin⟩
      · refine GroupSys.idle_step hg (h.idle hpc) ?_
        rintro c rfl
        simp [allows, hpc] at hx
      · rcases hcall with hcall | hcall | ⟨k, rfl, hcall⟩
        · exact h.call c (hcall ▸ hc)
        · simp [hc] at hcall
        · obtain rfl : k = c := Option.some.inj (hcall.symm.trans hc)
          simpa [allows] using hx

/-! ## Windows and ledgers -/

theorem group_run {s t : Bench Span} {es : List (BenchEvent Span)}
    (h : run (Bench.step parse runOf) s es = some t) :
    run (GroupSys.step parse) s.group (groupTrace es) = some t.group := by
  refine run_project Bench.group (fun
    | .group e => some e
    | _ => none) (fun s e s' he => ?_) h
  rcases step_cases he with ⟨n, rfl, -, rfl⟩ | ⟨n, rfl, -, rfl⟩ | ⟨n, rfl, -, -, rfl⟩ |
    ⟨x, g, rfl, -, hg, rfl⟩
  · rfl
  · rfl
  · rfl
  · change s.group.step parse x = some (s.after g x).group
    rw [after_group, hg]

omit [DecidableEq Span] in
/-- The administrator polls the satellites of the group. -/
theorem adminNext_built {s : GroupSys Span} {a : Admin} (h : s.adminNext s.admin = some a) :
    s.admin.built = [] ∧ a.built = [] ∧ ∀ todo, s.admin ≠ .terminating todo := by
  unfold GroupSys.adminNext at h
  repeat' split at h
  all_goals first
    | (obtain rfl := Option.some.inj h; simp_all [Admin.built])
    | simp at h

/-- A satellite becomes a member when it is spawned. -/
theorem members_step {s s' : GroupSys Span} {e : GroupEvent Span}
    (h : s.step parse e = some s') {p : ℕ} (hp : p ∈ s'.members) :
    p ∈ s.members ∨ s.spawned.length ≤ p := by
  unfold GroupSys.members at hp ⊢
  rcases GroupSys.step_admin h with hof | ⟨hadm, hsat⟩
  · cases GroupSys.adminStep h hof with
    | spawn mode port todo built hadm =>
      simp only [hadm, Admin.built, List.mem_append, List.mem_singleton] at hp ⊢
      rcases hp with hp | hp | rfl
      · exact Or.inl (Or.inl hp)
      · exact Or.inl (Or.inr hp)
      · exact Or.inr le_rfl
    | assign mode built hadm =>
      rw [hadm]
      simp only [Admin.built, List.append_nil] at hp
      exact Or.inl (List.mem_append_right _ hp)
    | next a ha =>
      rw [(adminNext_built ha).2.1] at hp
      rw [(adminNext_built ha).1]
      exact Or.inl hp
    | shutdownReturned => simp [GroupSys.group, Admin.built] at hp
    | stay => exact Or.inl hp
    | _ =>
      simp only [Admin.built, List.append_nil] at hp
      exact Or.inl (List.mem_append_left _ hp)
  · rw [GroupSys.group, hsat, hadm] at hp
    exact Or.inl hp

/-- The windows follow the ledgers. -/
structure Books (parse : List UInt8 → Option (List Span)) (es : List (BenchEvent Span))
    (s : Bench Span) : Prop where
  control : s.Control
  accounts : GroupSys.Accounts parse (groupTrace es) s.group
  calling : GroupSys.Calling (groupTrace es) s.group
  covering : GroupSys.Covering (groupTrace es) s.group
  suffix : ∀ p, window p es <:+ GroupSys.ledger p (groupTrace es)
  zeroing : ∀ n, s.pc = .zeroing n → s.group.caller.call? = some .reset →
    ∀ a ∈ GroupSys.answers (groupTrace es), window a.1 es = GroupSys.ledger a.1 (groupTrace es)
  counting : s.pc.Counting → ∀ p ∈ s.group.members,
    window p es = GroupSys.ledger p (groupTrace es)
  reading : ∀ n, s.pc = .reading n → s.group.caller.call? = some .get →
    harvest es = GroupSys.collected (groupTrace es)

omit [DecidableEq Span] in
theorem ledgerStep_suffix {p : ℕ} {l l' : List Span} {x : GroupEvent Span} (h : l <:+ l') :
    GroupSys.ledgerStep p l x <:+ GroupSys.ledgerStep p l' x := by
  obtain ⟨u, rfl⟩ := h
  unfold GroupSys.ledgerStep
  split
  · split_ifs
    · exact ⟨u, by simp⟩
    · exact List.suffix_append _ _
  · split_ifs
    · exact List.suffix_rfl
    · exact List.suffix_append _ _
  · exact List.suffix_append _ _

section BooksStep

variable {s s' : Bench Span} {es : List (BenchEvent Span)} {x : GroupEvent Span}
  {g : GroupSys Span}

omit [DecidableEq Span] in
/-- A window that is its ledger stays so while the group moves. -/
theorem window_group {p : ℕ} (hp : window p es = GroupSys.ledger p (groupTrace es)) :
    window p (es ++ [.group x]) = GroupSys.ledger p (groupTrace es ++ [x]) := by
  rw [window_snoc, windowStep, GroupSys.ledger_snoc, hp]

theorem Books.window_members (h : Books parse es s) (hg : s.group.step parse x = some g)
    (hpc : s.pc.Counting) {p : ℕ} (hp : p ∈ g.members) :
    window p (es ++ [.group x]) = GroupSys.ledger p (groupTrace es ++ [x]) := by
  refine window_group ?_
  rcases members_step hg hp with hp | hp
  · exact h.counting hpc p hp
  · have hnil := (h.accounts.unborn p hp).2.2
    have hsuf := h.suffix p
    rw [hnil, List.suffix_nil] at hsuf
    rw [hnil, hsuf]

theorem Books.zeroing_group (h : Books parse es s) (hg : s.group.step parse x = some g) {n : ℕ}
    (hpc : s.pc = .zeroing n) (hcall : g.caller.call? = some .reset) {a : ℕ × ℕ}
    (ha : a ∈ GroupSys.answers (groupTrace es ++ [x])) :
    window a.1 (es ++ [.group x]) = GroupSys.ledger a.1 (groupTrace es ++ [x]) := by
  obtain ⟨hstay, hanswer⟩ := GroupSys.step_call hg
  rcases hstay with hstay | hstay | ⟨c, rfl, -⟩
  · have hold := h.zeroing n hpc (hstay ▸ hcall)
    rw [GroupSys.answers_snoc] at ha
    unfold GroupSys.answersStep at ha
    split at ha
    · simp at ha
    · next c p m =>
      rcases List.mem_append.1 ha with ha | ha
      · exact window_group (hold a ha)
      · -- this one has just been reset
        obtain rfl := List.mem_singleton.1 ha
        obtain rfl : Call.reset = c :=
          Option.some.inj ((hstay ▸ hcall).symm.trans (hanswer c p m rfl))
        rw [window_snoc, windowStep, GroupSys.ledger_snoc]
        simp [GroupSys.ledgerStep]
    · exact window_group (hold a ha)
  · simp [hstay] at hcall
  · simp [GroupSys.answers_snoc, GroupSys.answersStep] at ha

theorem Books.counting_group (h : Books parse es s) (hg : s.group.step parse x = some g)
    (hpc : (s.after g x).pc.Counting) {p : ℕ} (hp : p ∈ g.members) :
    window p (es ++ [.group x]) = GroupSys.ledger p (groupTrace es ++ [x]) := by
  rcases after_cases s g x with ⟨c, v, rfl, hafter⟩ | ⟨y, rfl, hs⟩ | ⟨-, -, hs⟩
  · rcases hafter with ⟨n, hpc₀, hs⟩ | ⟨n, hpc₀, hs⟩ | ⟨n, r, hpc₀, hs⟩ | ⟨-, hs⟩
    · -- the first reset has gone through the whole group
      obtain ⟨hc, rfl⟩ := GroupSys.returned_idle hg
      have hcall := h.control.call c (by rw [hc]; rfl)
      rw [hpc₀] at hcall
      obtain rfl : Call.reset = c := Option.some.inj hcall
      have hadm := h.control.admin (by simp [hpc₀])
      have hcov := h.covering.asking _ _ _ hc
      have hp : p ∈ s.group.group := by
        simpa [GroupSys.members, hadm, Admin.built, GroupSys.group] using hp
      rw [← hcov, List.append_nil] at hp
      obtain ⟨a, ha, rfl⟩ := List.mem_map.1 hp
      exact window_group (h.zeroing n hpc₀ (by rw [hc]; rfl) a ha)
    · rw [hs] at hpc
      exact hpc.elim
    · rw [hs] at hpc
      exact hpc.elim
    · rw [hs] at hpc
      exact h.window_members hg hpc hp
  · rw [hs] at hpc
    exact hpc.elim
  · rw [hs] at hpc
    exact h.window_members hg hpc hp

theorem Books.reading_group (h : Books parse es s) (hg : s.group.step parse x = some g) {n : ℕ}
    (hpc : s.pc = .reading n) (hcall : g.caller.call? = some .get) :
    harvest (es ++ [.group x]) = GroupSys.collected (groupTrace es ++ [x]) := by
  obtain ⟨hstay, hanswer⟩ := GroupSys.step_call hg
  rw [harvest_snoc, GroupSys.collected_snoc]
  rcases hstay with hstay | hstay | ⟨c, rfl, -⟩
  · have hold := h.reading n hpc (hstay ▸ hcall)
    cases x with
    | call c => rfl
    | answer c p m =>
      obtain rfl : Call.get = c :=
        Option.some.inj ((hstay ▸ hcall).symm.trans (hanswer c p m rfl))
      obtain ⟨todo, r, o, hc, -, -, -⟩ := GroupSys.step_answer hg
      have hp : p ∈ s.group.members :=
        List.mem_append_left _ (h.covering.asked_mem hc)
      have hw := h.counting (by rw [hpc]; trivial) p hp
      simp only [harvestedStep, GroupSys.collectedStep, hold, hw]
    | _ => exact hold
  · simp [hstay] at hcall
  · rfl

/-- The group moves under a benchmark. -/
theorem Books.group (h : Books parse es s) (hx : s.allows parse runOf x = true)
    (hg : s.group.step parse x = some g) (hcontrol : (s.after g x).Control)
    (hown : ∀ c p q n, x ≠ .answerFrom c p q n) : Books parse (es ++ [.group x]) (s.after g x) := by
  have hgroup : s.group.caller ≠ .idle → g.group = s.group.group := by
    intro hne
    rcases GroupSys.step_admin hg with hof | ⟨-, hsat⟩
    · obtain ⟨n, hpc⟩ := allows_admin hof hx
      exact absurd (h.control.idle (by rw [hpc]; rfl)) hne
    · rw [GroupSys.group, hsat, GroupSys.group]
  refine ⟨hcontrol, ?_, ?_, ?_, fun p => ?_, fun n hpc hcall a ha => ?_, fun hpc p hp => ?_,
    fun n hpc hcall => ?_⟩ <;> rw [groupTrace_group]
  · rw [after_group]
    exact h.accounts.step hg hown
  · rw [after_group]
    exact h.calling.step h.accounts hg hown
  · rw [after_group]
    exact h.covering.step h.calling hg hgroup hown
  · rw [window_snoc, windowStep, GroupSys.ledger_snoc]
    exact ledgerStep_suffix (h.suffix p)
  · rw [after_group] at hcall
    rw [groupTrace_group] at ha
    exact h.zeroing_group hg (after_pc hpc (Or.inl rfl)) hcall ha
  · rw [after_group] at hp
    exact h.counting_group hg hpc hp
  · rw [after_group] at hcall
    exact h.reading_group hg (after_pc hpc (Or.inr rfl)) hcall

/-- A step that leaves the group alone, from a client's launch to the get. -/
theorem Books.quiet {e : BenchEvent Span} (h : Books parse es s)
    (htrace : groupTrace (es ++ [e]) = groupTrace es)
    (hwindow : ∀ p, window p (es ++ [e]) = window p es) (hgroup : s'.group = s.group)
    (hcontrol : s'.Control) (hpc : s.pc.Counting) (hzeroing : ∀ n, s'.pc ≠ .zeroing n)
    (hreading : ∀ n, s'.pc = .reading n → s.group.caller = .idle) :
    Books parse (es ++ [e]) s' := by
  refine ⟨hcontrol, ?_, ?_, ?_, fun p => ?_, fun n hn => absurd hn (hzeroing n),
    fun _ p hp => ?_, fun n hn hcall => ?_⟩
  · rw [htrace, hgroup]
    exact h.accounts
  · rw [htrace, hgroup]
    exact h.calling
  · rw [htrace, hgroup]
    exact h.covering
  · rw [htrace, hwindow]
    exact h.suffix p
  · rw [hgroup] at hp
    rw [htrace, hwindow]
    exact h.counting hpc p hp
  · rw [hgroup, hreading n hn] at hcall
    simp [Caller.call?] at hcall

theorem Books.step {e : BenchEvent Span} (h : Books parse es s)
    (he : s.step parse runOf e = some s') (hown : ∀ c p q n, e ≠ .group (.answerFrom c p q n)) :
    Books parse (es ++ [e]) s' := by
  have hcontrol := h.control.step he
  rcases step_cases he with ⟨n, rfl, hpc, rfl⟩ | ⟨n, rfl, hpc, rfl⟩ | ⟨n, rfl, hpc, hadm, rfl⟩ |
    ⟨x, g, rfl, hx, hg, rfl⟩
  · have htrace : groupTrace (es ++ [.benchmark n]) = groupTrace es := by simp [groupTrace]
    have hidle := h.control.idle (by rw [hpc]; rfl)
    refine ⟨hcontrol, htrace ▸ h.accounts, htrace ▸ h.calling, htrace ▸ h.covering, fun p => ?_,
      by simp [hidle, Caller.call?], by simp [BenchPc.Counting], by simp⟩
    rw [window_snoc]
    exact List.nil_suffix
  · exact h.quiet (by simp [groupTrace]) (fun p => by rw [window_snoc]; rfl) rfl hcontrol
      (by rw [hpc]; trivial) (by simp) (by simp)
  · have hidle := h.control.idle (by rw [hpc]; rfl)
    exact h.quiet (by simp [groupTrace]) (fun p => by rw [window_snoc]; rfl) rfl hcontrol
      (by rw [hpc]; trivial) (by simp) fun _ _ => hidle
  · exact h.group hx hg hcontrol fun c p q n hxe => hown c p q n (by rw [hxe])

end BooksStep

section Runs

variable {mode : Mode} {ports : List ℕ} {es : List (BenchEvent Span)} {s : Bench Span}

omit [DecidableEq Span] in
theorem init_control : (init mode ports : Bench Span).Control :=
  ⟨fun _ => rfl, by simp [init, GroupSys.constructed, Caller.call?], fun _ => rfl⟩

theorem init_books : Books parse [] (init mode ports) where
  control := init_control
  accounts := (GroupSys.constructed_fresh mode ports).accounts
  calling := (GroupSys.constructed_fresh mode ports).calling
  covering := (GroupSys.constructed_steady mode ports).covering
  suffix _ := List.suffix_rfl
  zeroing n hpc := by simp [init] at hpc
  counting hpc := hpc.elim
  reading n hpc := by simp [init] at hpc

theorem books (h : run (Bench.step parse runOf) (init mode ports) es = some s)
    (hown : ∀ c p q n, BenchEvent.group (.answerFrom c p q n) ∉ es) : Books parse es s := by
  refine run_induction (P := fun es m =>
    (∀ c p q n, BenchEvent.group (.answerFrom c p q n) ∉ es) → Books parse es m)
    (fun _ => init_books) ?_ h hown
  intro es m e m' _ ih he hown
  refine (ih fun c p q n hmem => hown c p q n (by simp [hmem])).step he ?_
  rintro c p q n rfl
  exact hown c p q n (by simp)

theorem control (h : run (Bench.step parse runOf) (init mode ports) es = some s) : s.Control :=
  run_invariant init_control (fun _ _ _ hm he => hm.step he) h

/-! ## Results -/

/-- Client `k`, which was to send `n` spans, ended with a get that returned `v`. -/
def Read (parse : List UInt8 → Option (List Span)) (runOf : Span → ℕ) (mode : Mode)
    (ports : List ℕ) (es : List (BenchEvent Span)) (k n : ℕ) (v : ℤ) : Prop :=
  ∃ a m b, es = a ++ .group (.returned .get v) :: b ∧
    run (Bench.step parse runOf) (init mode ports) a = some m ∧ m.pc = .reading n ∧
    m.launched = k ∧ m.group.caller = .asking .get [] v

theorem Read.append {k n : ℕ} {v : ℤ} {es' : List (BenchEvent Span)}
    (h : Read parse runOf mode ports es k n v) : Read parse runOf mode ports (es ++ es') k n v := by
  obtain ⟨a, m, b, rfl, hm⟩ := h
  exact ⟨a, m, b ++ es', by simp, hm⟩

/-- Each result has been read in a get of its own benchmark. -/
theorem results_read (h : run (Bench.step parse runOf) (init mode ports) es = some s) :
    (∀ x ∈ s.results, Read parse runOf mode ports es x.1 x.2.spansSent x.2.spansReceived) ∧
      ∀ n v, s.pc = .clearing n v → Read parse runOf mode ports es s.launched n v := by
  refine run_induction (P := fun es (m : Bench Span) =>
    (∀ x ∈ m.results, Read parse runOf mode ports es x.1 x.2.spansSent x.2.spansReceived) ∧
      ∀ n v, m.pc = .clearing n v → Read parse runOf mode ports es m.launched n v)
    ⟨by simp [init], by simp [init]⟩ ?_ h
  rintro es m e m' hm ⟨hres, hclear⟩ he
  have hold : ∀ x ∈ m.results,
      Read parse runOf mode ports (es ++ [e]) x.1 x.2.spansSent x.2.spansReceived :=
    fun x hx => (hres x hx).append
  rcases step_cases he with ⟨n, rfl, hpc, rfl⟩ | ⟨n, rfl, hpc, rfl⟩ | ⟨n, rfl, hpc, hadm, rfl⟩ |
    ⟨x, g, rfl, hx, hg, rfl⟩
  · exact ⟨hold, by simp⟩
  · exact ⟨hold, by simp⟩
  · exact ⟨hold, by simp⟩
  · rcases after_cases m g x with ⟨c, v, rfl, hafter⟩ | ⟨y, rfl, hs⟩ | ⟨-, -, hs⟩
    · obtain ⟨hc, -⟩ := GroupSys.returned_idle hg
      have hcall := (control hm).call c (by rw [hc]; rfl)
      rcases hafter with ⟨n, hpc, hs⟩ | ⟨n, hpc, hs⟩ | ⟨n, r, hpc, hs⟩ | ⟨hnone, -⟩
      · rw [hs]
        exact ⟨hold, by simp⟩
      · rw [hs]
        refine ⟨hold, fun n' v' hv => ?_⟩
        obtain ⟨rfl, rfl⟩ := BenchPc.clearing.inj hv
        rw [hpc] at hcall
        obtain rfl : Call.get = c := Option.some.inj hcall
        exact ⟨es, m, [], rfl, hm, hpc, rfl, hc⟩
      · rw [hs]
        refine ⟨fun x hx => ?_, by simp⟩
        rcases List.mem_append.1 hx with hx | hx
        · exact hold x hx
        · obtain rfl := List.mem_singleton.1 hx
          exact (hclear n r hpc).append
      · rw [hnone] at hcall
        simp at hcall
    · rw [hs]
      exact ⟨hold, by simp⟩
    · rw [hs]
      exact ⟨hold, fun n v hpc => (hclear n v hpc).append⟩

/-- A get returns what it harvested, from the satellites the group has. -/
theorem Read.harvest {k n : ℕ} {v : ℤ} (h : Read parse runOf mode ports es k n v)
    (hown : ∀ c p q n, BenchEvent.group (.answerFrom c p q n) ∉ es) :
    ∃ a m b, es = a ++ .group (.returned .get v) :: b ∧
      run (Bench.step parse runOf) (init mode ports) a = some m ∧ m.pc = .reading n ∧
      m.launched = k ∧ (GroupSys.answers (groupTrace a)).map Prod.fst = m.group.group ∧
      v = (Bench.harvest a).length ∧ Bench.harvest a = GroupSys.collected (groupTrace a) := by
  obtain ⟨a, m, b, rfl, hm, hpc, hk, hc⟩ := h
  have hbooks := books hm fun c p q n hmem => hown c p q n (by simp [hmem])
  have hcov := hbooks.covering.asking _ _ _ hc
  have hharvest := hbooks.reading n hpc (by rw [hc]; rfl)
  rw [List.append_nil] at hcov
  refine ⟨a, m, b, rfl, hm, hpc, hk, hcov, ?_, hharvest⟩
  rw [hharvest]
  exact (hbooks.calling.asking [] v hc).1

end Runs

end Bench

/-- A benchmark of a client that sends one span, on a group of one satellite whose counter
is `reset` at the first reset. The get is answered by satellite `p`, with `sum`. -/
def sampleBenchmark (reset p sum : ℕ) (v : ℤ) (client : List (GroupEvent (List UInt8))) :
    List (BenchEvent (List UInt8)) :=
  .benchmark 1 :: ([.call .reset, .callerStep, .callerStep, .answer .reset 0 reset, .receive,
      .returned .reset 0].map .group ++ .launch :: client.map .group ++ .clientExit ::
    [.call .get, .callerStep, .callerStep, .callerStep, .callerStep, .callerStep, .callerStep,
      .answer .get p sum, .receive, .returned .get v, .call .reset, .callerStep, .callerStep,
      .answer .reset p sum, .receive, .returned .reset 0].map .group)

end TracerBench
