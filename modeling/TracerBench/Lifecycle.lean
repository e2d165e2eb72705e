import TracerBench.Startup
import TracerBench.Benchmark

/-!
# The life of a group

Over any sequence of calls, with satellites dying at any time, the processes alive are those
of the group, up to the ones a startup in progress has not yet assigned (`Owned`). So after
a `shutdown` none is alive, and the next startup spawns the satellites of its ports and no
others.

A call of `all_running` polls the satellites one after the other, and satellites die
meanwhile. `Watched` is the group with such a call beside it, made by the administrator's
thread. When it returns `True`, all satellites were running when it was called; when it
returns `False`, one is not running when it returns. So its answer is right at one of the two
moments, and at both when nothing dies in between.
-/

namespace TracerBench

variable {Span : Type*}

namespace GroupSys

/-! ## Whose the processes are -/

/-- The processes that may be alive : those a shutdown has left, those a startup has built,
or the group's. -/
def owners (s : GroupSys Span) : List ℕ :=
  match s.admin with
  | .terminating todo => todo
  | .spawning _ _ built => built
  | _ => s.group

/-- Every process that is alive belongs to the group or to the startup in progress. -/
structure Owned (s : GroupSys Span) : Prop where
  alive : ∀ p, s.isRunning p = true → p ∈ s.owners
  terminating : ∀ todo, s.admin = .terminating todo → ∀ p ∈ todo, p ∈ s.group

theorem Owned.mem_members {s : GroupSys Span} (h : s.Owned) {p : ℕ} (hp : s.isRunning p = true) :
    p ∈ s.members := by
  have hmem := h.alive p hp
  unfold owners at hmem
  rw [members, List.mem_append]
  split at hmem
  · next todo hadm => exact Or.inl (h.terminating todo hadm p hmem)
  · next built hadm => exact Or.inr (by rwa [hadm])
  · exact Or.inl hmem

theorem new_owned : (new : GroupSys Span).Owned :=
  ⟨fun p hp => absurd (isRunning_lt hp) (by simp [new]), by simp [new]⟩

section Step

variable [DecidableEq Span] {parse : List UInt8 → Option (List Span)} {s s' : GroupSys Span}
  {e : GroupEvent Span}

omit [DecidableEq Span] in
/-- What a test or a poll of the administrator leads to is neither a shutdown nor a spawn. -/
theorem adminNext_owners {a : Admin} (ha : s.adminNext s.admin = some a) :
    ({ s with admin := a } : GroupSys Span).owners = s.group ∧ s.owners = s.group ∧
      ∀ todo, a ≠ .terminating todo := by
  unfold owners
  rcases hadm : s.admin with _ | _ | _ | _ | ⟨_ | ⟨p, todo⟩⟩ | _ <;>
    simp only [hadm, adminNext, reduceCtorEq] at ha
  · split at ha <;> obtain rfl := Option.some.inj ha <;> simp [group]
  · obtain rfl := Option.some.inj ha
    split_ifs <;> simp [group]

/-- A group that has satellites is not started again. -/
theorem step_start_refused (hidle : s.admin = .idle) (htruthy : s.truthy = true) (mode : Mode)
    (ports : List ℕ) : s.step parse (.start mode ports) = some s := by
  simp [GroupSys.step, hidle, htruthy]

/-- A group that has no satellites is not shut down again. -/
theorem step_shutdown_refused (hidle : s.admin = .idle) (hshut : s.truthy = false) :
    s.step parse .shutdown = some s := by
  simp only [GroupSys.step, hidle, if_true]
  split
  · next p ps hps => simp [truthy, hps] at hshut
  · rfl

/-- The satellite a shutdown terminates is no longer running. -/
theorem Owned.terminate {p : ℕ} {todo : List ℕ} (h : s.Owned)
    (hadm : s.admin = .terminating (p :: todo)) (he : s.step parse (.terminate p) = some s')
    (hadm' : s'.admin = .terminating todo) (hgroup : s'.group = s.group) : s'.Owned := by
  have howners : s.owners = p :: todo := by rw [owners, hadm]
  have howners' : s'.owners = todo := by rw [owners, hadm']
  refine ⟨fun q hq => ?_, fun todo' ht q hq => ?_⟩
  · have hne : q ≠ p := by
      rintro rfl
      simp [step_exit he (Or.inr rfl)] at hq
    have hmem := h.alive q (step_alive he (by simp) hq)
    rw [howners] at hmem
    rw [howners']
    exact (List.mem_cons.1 hmem).resolve_left hne
  · obtain rfl := Admin.terminating.inj (hadm'.symm.trans ht)
    rw [hgroup]
    exact h.terminating _ hadm q (by simp [hq])

/-- The satellite a startup spawns is one it has built. -/
theorem Owned.spawn {mode : Mode} {port : ℕ} {todo built : List ℕ} (h : s.Owned)
    (hadm : s.admin = .spawning mode (port :: todo) built)
    (he : s.step parse (.spawn port) = some s')
    (hadm' : s'.admin = .spawning mode todo (built ++ [s.spawned.length])) : s'.Owned := by
  have howners : s.owners = built := by rw [owners, hadm]
  have howners' : s'.owners = built ++ [s.spawned.length] := by rw [owners, hadm']
  refine ⟨fun p hp => ?_, by simp [hadm']⟩
  rw [howners']
  rcases Nat.lt_or_ge p s.spawned.length with hlt | hge
  · have hmem := h.alive p ((step_isRunning_iff he hlt).1 hp).1
    rw [howners] at hmem
    exact List.mem_append_left _ hmem
  · have hlt := isRunning_lt hp
    rw [← length_ports, (step_spawn he).1, List.length_append, length_ports,
      List.length_singleton] at hlt
    obtain rfl : p = s.spawned.length := by omega
    exact List.mem_append_right _ (by simp)

theorem Owned.step (h : s.Owned) (he : s.step parse e = some s')
    (hspawn : ∀ x, e ≠ .spawnFailed x) : s'.Owned := by
  by_cases hof : OfAdmin e
  swap
  · -- nobody but the administrator starts processes or changes whose they are
    obtain ⟨hadm, hsat⟩ := (step_admin he).resolve_left hof
    have hgroup : s'.group = s.group := by rw [group, hsat, group]
    have howners : s'.owners = s.owners := by rw [owners, owners, hadm, hgroup]
    refine ⟨fun p hp => ?_, by rw [hadm, hgroup]; exact h.terminating⟩
    rw [howners]
    exact h.alive p (step_alive he (by rintro port rfl; exact hof trivial) hp)
  rcases adminStep he hof with hadm | ⟨ps, hadm, hps⟩ | ⟨p, todo, o, hadm, ho⟩ | hadm |
    ⟨mode, ports, hadm, hshut⟩ | ⟨mode, port, todo, built, hadm⟩ | ⟨x, mode, todo, built, hadm⟩ |
    ⟨mode, built, hadm⟩ | ⟨a, ha⟩ | hadm | ⟨x, hadm⟩
  case spawnFailed => exact absurd rfl (hspawn x)
  case stay => exact h
  case shutdown =>
    have howners : s.owners = ps := by rw [owners, hadm, group, hps]; rfl
    refine ⟨fun p hp => howners ▸ h.alive p hp, fun todo ht p hp => ?_⟩
    obtain rfl := Admin.terminating.inj ht
    rw [group, hps]
    exact hp
  case terminate => exact h.terminate hadm he rfl rfl
  case shutdownReturned =>
    have howners : s.owners = [] := by rw [owners, hadm]
    refine ⟨fun p hp => ?_, by simp⟩
    have hmem := h.alive p hp
    simp [howners] at hmem
  case start =>
    have howners : s.owners = [] := by
      rw [owners, hadm]
      exact not_not.1 (mt truthy_iff.2 (by simp [hshut]))
    exact ⟨fun p hp => howners ▸ h.alive p hp, by simp⟩
  case spawn => exact h.spawn hadm he rfl
  case assign =>
    have howners : s.owners = built := by rw [owners, hadm]
    exact ⟨fun p hp => howners ▸ h.alive p hp, by simp⟩
  case next =>
    obtain ⟨howners, howners', hne⟩ := adminNext_owners ha
    refine ⟨fun p hp => ?_, fun todo ht => absurd ht (hne todo)⟩
    rw [howners, ← howners']
    exact h.alive p hp
  case startReturned | startRaised =>
    have howners : s.owners = s.group := by rw [owners, hadm]
    refine ⟨fun p hp => ?_, by simp⟩
    have hmem := h.alive p hp
    rw [howners] at hmem
    exact hmem

/-- Along any run in which no spawn raises, every process alive is the group's, or is in the
list a startup is building. -/
theorem owned_run {es : List (GroupEvent Span)} (h : run (GroupSys.step parse) new es = some s)
    (hspawn : ∀ x, GroupEvent.spawnFailed x ∉ es) : s.Owned := by
  refine run_induction (P := fun es (m : GroupSys Span) =>
    (∀ x, GroupEvent.spawnFailed x ∉ es) → m.Owned) (fun _ => new_owned) ?_ h hspawn
  intro es m e m' _ ih he hes
  exact (ih fun x hx => hes x (by simp [hx])).step he (by rintro x rfl; exact hes x (by simp))

omit [DecidableEq Span] in
/-- When a shutdown has terminated the last satellite, none is alive. -/
theorem Owned.shutdown (h : s.Owned) (hadm : s.admin = .terminating []) (p : ℕ) :
    s.isRunning p = false := by
  by_contra hp
  have hmem := h.alive p (by simpa using hp)
  simp [owners, hadm] at hmem

omit [DecidableEq Span] in
/-- Of a group that is shut down none is alive. -/
theorem Owned.shut (h : s.Owned) (hidle : s.admin = .idle) (hshut : s.truthy = false) (p : ℕ) :
    s.isRunning p = false := by
  by_contra hp
  have hmem := h.alive p (by simpa using hp)
  rw [owners, hidle, not_not.1 (mt truthy_iff.2 (by simp [hshut]))] at hmem
  simp at hmem

end Step

end GroupSys

/-! ## Watching the group -/

/-- Where a call of `all_running` is. -/
inductive Watcher where
  | idle
  /-- At `if not self._satellites`. -/
  | testing
  | polling (todo : List ℕ)
  | answering (running : Bool)
  deriving DecidableEq

/-- The group, and a call of `all_running` by the administrator's thread. -/
structure Watched (Span : Type*) where
  group : GroupSys Span
  watcher : Watcher

inductive WatchEvent (Span : Type*) where
  | group (e : GroupEvent Span)
  /-- `all_running` is called. -/
  | allRunning
  /-- Its test, or one of its polls. -/
  | watch
  /-- It returns. -/
  | told (running : Bool)
  deriving DecidableEq

namespace Watched

instance (e : GroupEvent Span) : Decidable (GroupSys.OfAdmin e) :=
  match e with
  | .shutdown | .terminate _ | .shutdownReturned | .start _ _ | .spawn _ | .spawnFailed _
  | .assign | .adminStep | .startReturned | .startRaised _ => isTrue trivial
  | .sat _ _ | .die _ | .call _ | .callerStep | .answer _ _ _ | .answerFrom _ _ _ _ | .receive
  | .refuse _ _ | .returned _ _ | .raised _ => isFalse id

/-- The next step of `all_running`. -/
def next (s : GroupSys Span) : Watcher → Option Watcher
  | .testing => some (if s.truthy then .polling s.group else .answering false)
  | .polling [] => some (.answering true)
  | .polling (p :: todo) => some (if s.isRunning p then .polling todo else .answering false)
  | _ => none

def new : Watched Span :=
  ⟨.new, .idle⟩

variable [DecidableEq Span] (parse : List UInt8 → Option (List Span))

/-- The calls of one thread follow one another. -/
def step (s : Watched Span) : WatchEvent Span → Option (Watched Span)
  | .group e =>
    if GroupSys.OfAdmin e ∧ s.watcher ≠ .idle then none
    else (s.group.step parse e).map fun g => { s with group := g }
  | .allRunning =>
    if s.watcher = .idle ∧ s.group.admin = .idle then some { s with watcher := .testing } else none
  | .watch => (next s.group s.watcher).map fun w => { s with watcher := w }
  | .told b => if s.watcher = .answering b then some { s with watcher := .idle } else none

/-- The steps of the group. -/
def groupTrace (es : List (WatchEvent Span)) : List (GroupEvent Span) :=
  es.filterMap fun
    | .group e => some e
    | _ => none

/-! ## What a call of `all_running` has seen -/

/-- The watcher is right about what it has seen of `s`, the state in which it was called, or
of `g`, the one now. -/
def Right (s g : GroupSys Span) : Watcher → Prop
  | .idle => False
  | .testing => True
  | .polling todo =>
    s.truthy = true ∧ ∃ done, s.group = done ++ todo ∧ ∀ p ∈ done, s.isRunning p = true
  | .answering true => s.allRunning = true
  | .answering false => g.allRunning = false

/-- What holds after the steps `es` of a call that began in `s`. -/
structure Watching (s : GroupSys Span) (es : List (WatchEvent Span)) (m : Watched Span) :
    Prop where
  satellites : m.group.satellites = s.satellites
  alive : ∀ p, m.group.isRunning p = true → s.isRunning p = true
  unharmed : (∀ p, WatchEvent.group (.die p) ∉ es) →
    ∀ p, s.isRunning p = true → m.group.isRunning p = true
  right : Right s m.group m.watcher

variable {parse} {s m m' : Watched Span}

/-- While the call is at work, the administrator is not. -/
theorem step_group {x : GroupEvent Span} (h : m.step parse (.group x) = some m')
    (hw : m.watcher ≠ .idle) : ¬GroupSys.OfAdmin x ∧
      ∃ g, m.group.step parse x = some g ∧ m' = { m with group := g } := by
  simp only [step] at h
  split_ifs at h with hof
  obtain ⟨g, hg, rfl⟩ := Option.map_eq_some_iff.1 h
  exact ⟨fun hx => hof ⟨hx, hw⟩, g, hg, rfl⟩

theorem step_group_self {x : GroupEvent Span} (hw : m.watcher = .idle)
    (h : m.group.step parse x = some m.group) : m.step parse (.group x) = some m := by
  rw [step, if_neg (by simp [hw]), h]
  rfl

omit [DecidableEq Span] in
theorem Watching.watch {s : GroupSys Span} {es : List (WatchEvent Span)} {w : Watcher}
    (h : Watching s es m) (hw : next m.group m.watcher = some w) : Right s m.group w := by
  have hright := h.right
  have hgroup : m.group.group = s.group := by rw [GroupSys.group, h.satellites, GroupSys.group]
  have htruthy : m.group.truthy = s.truthy := by
    rw [GroupSys.truthy, h.satellites, GroupSys.truthy]
  rcases hwatch : m.watcher with _ | _ | ⟨_ | ⟨p, todo⟩⟩ | b <;>
    rw [hwatch] at hw hright <;> simp only [next, reduceCtorEq] at hw <;>
    obtain rfl := Option.some.inj hw
  · split_ifs with ht
    · exact ⟨htruthy ▸ ht, [], by rw [hgroup]; rfl, by simp⟩
    · exact GroupSys.allRunning_eq_false.2 (Or.inl (not_not.1 (mt GroupSys.truthy_iff.2 ht)))
  · obtain ⟨ht, done, hdone, hrun⟩ := hright
    rw [List.append_nil] at hdone
    exact GroupSys.allRunning_iff.2 ⟨GroupSys.truthy_iff.1 ht, hdone ▸ hrun⟩
  · obtain ⟨ht, done, hdone, hrun⟩ := hright
    split_ifs with hp
    · refine ⟨ht, done ++ [p], by simp [hdone], fun q hq => ?_⟩
      rcases List.mem_append.1 hq with hq | hq
      · exact hrun q hq
      · obtain rfl := List.mem_singleton.1 hq
        exact h.alive q hp
    · refine GroupSys.allRunning_eq_false.2 (Or.inr ⟨p, ?_, by simpa using hp⟩)
      simp [hgroup, hdone]

theorem Watching.step {s : GroupSys Span} {es : List (WatchEvent Span)} {e : WatchEvent Span}
    (h : Watching s es m) (he : m.step parse e = some m') (htold : ∀ b, e ≠ .told b) :
    Watching s (es ++ [e]) m' := by
  have hw : m.watcher ≠ .idle := by
    intro hidle
    have hright := h.right
    rw [hidle] at hright
    exact hright
  cases e with
  | group x =>
    obtain ⟨hof, g, hg, rfl⟩ := step_group he hw
    have hspawn : ∀ port, x ≠ .spawn port := by
      rintro port rfl
      exact hof trivial
    refine ⟨?_, fun p hp => h.alive p (GroupSys.step_alive hg hspawn hp), fun hdie p hp => ?_, ?_⟩
    · exact ((GroupSys.step_admin hg).resolve_left hof).2.trans h.satellites
    · refine GroupSys.step_isRunning hg ?_ ?_
        (h.unharmed (fun q hq => hdie q (by simp [hq])) p hp)
      · rintro rfl
        exact hdie p (by simp)
      · rintro rfl
        exact hof trivial
    · have hright := h.right
      rcases hwatch : m.watcher with _ | _ | todo | (_ | _) <;> rw [hwatch] at hright
      · exact hright
      · trivial
      · exact hright
      · exact GroupSys.step_allRunning hg hof hright
      · exact hright
  | allRunning =>
    simp only [Watched.step] at he
    split_ifs at he with hidle
    exact absurd hidle.1 hw
  | watch =>
    obtain ⟨w, hnext, rfl⟩ := Option.map_eq_some_iff.1 he
    exact ⟨h.satellites, h.alive, fun hdie => h.unharmed fun p hp => hdie p (by simp [hp]),
      h.watch hnext⟩
  | told b => exact absurd rfl (htold b)

/-- What a call that has not returned has seen. -/
theorem watching_run {es : List (WatchEvent Span)} (htold : ∀ b, WatchEvent.told b ∉ es)
    (h : run (Watched.step parse) s (.allRunning :: es) = some m) : Watching s.group es m := by
  obtain ⟨m₀, hcall, hrun⟩ := run_cons_eq_some.1 h
  simp only [Watched.step] at hcall
  split_ifs at hcall
  obtain rfl := Option.some.inj hcall
  refine run_induction (P := fun es (m : Watched Span) =>
    (∀ b, WatchEvent.told b ∉ es) → Watching s.group es m) ?_ ?_ hrun htold
  · exact fun _ => ⟨rfl, fun _ => id, fun _ _ => id, trivial⟩
  · intro es m e m' _ ih he htold
    exact (ih fun b hb => htold b (by simp [hb])).step he
      (by rintro b rfl; exact htold b (by simp))

/-- `True` was right when the call began and `False` is right when it ends, so without a
death in between the answer is right throughout. -/
theorem allRunning_told {es : List (WatchEvent Span)} {b : Bool} {t : Watched Span}
    (h : run (Watched.step parse) s (.allRunning :: (es ++ [.told b])) = some t)
    (htold : ∀ b', WatchEvent.told b' ∉ es) :
    (b = true → s.group.allRunning = true) ∧ (b = false → t.group.allRunning = false) ∧
      ((∀ p, WatchEvent.group (.die p) ∉ es) →
        s.group.allRunning = b ∧ t.group.allRunning = b) := by
  rw [← List.cons_append] at h
  obtain ⟨m, hm, hend⟩ := run_snoc_eq_some.1 h
  simp only [Watched.step] at hend
  split_ifs at hend with hwatch
  obtain rfl := Option.some.inj hend
  have hwatching := watching_run htold hm
  have hright := hwatching.right
  rw [hwatch] at hright
  have htrue : b = true → s.group.allRunning = true := by
    rintro rfl
    exact hright
  have hfalse : b = false → m.group.allRunning = false := by
    rintro rfl
    exact hright
  refine ⟨htrue, hfalse, fun hdie => ?_⟩
  have hgroup : m.group.group = s.group.group := by
    rw [GroupSys.group, hwatching.satellites, GroupSys.group]
  have hsame : m.group.allRunning = s.group.allRunning := by
    rw [Bool.eq_iff_iff, GroupSys.allRunning_iff, GroupSys.allRunning_iff, hgroup]
    exact and_congr_right fun _ => forall₂_congr fun p _ =>
      ⟨hwatching.alive p, hwatching.unharmed hdie p⟩
  cases b with
  | true => exact ⟨htrue rfl, hsame.trans (htrue rfl)⟩
  | false => exact ⟨hsame.symm.trans (hfalse rfl), hfalse rfl⟩

/-- The steps of the group in a run make a run of the group. -/
theorem group_run {es : List (WatchEvent Span)} {t : Watched Span}
    (h : run (Watched.step parse) s es = some t) :
    run (GroupSys.step parse) s.group (groupTrace es) = some t.group := by
  refine run_project Watched.group _ (fun s e s' he => ?_) h
  cases e with
  | group x =>
    simp only [Watched.step] at he
    split_ifs at he
    obtain ⟨g, hg, rfl⟩ := Option.map_eq_some_iff.1 he
    exact hg
  | allRunning =>
    simp only [Watched.step] at he
    split_ifs at he
    obtain rfl := Option.some.inj he
    rfl
  | watch =>
    obtain ⟨w, -, rfl⟩ := Option.map_eq_some_iff.1 he
    rfl
  | told b =>
    simp only [Watched.step] at he
    split_ifs at he
    obtain rfl := Option.some.inj he
    rfl

end Watched

namespace GroupSys

variable [DecidableEq Span] {parse : List UInt8 → Option (List Span)} {s t : GroupSys Span}

/-- A startup in which no spawn raises starts one satellite on each port, in their order, and
the group is those. -/
theorem startup_spawns {mode : Mode} {ports : List ℕ} {es : List (GroupEvent Span)}
    {e : GroupEvent Span} (hshut : s.truthy = false) (hes : InStartup es)
    (hspawn : ∀ x, GroupEvent.spawnFailed x ∉ es)
    (he : e = .startReturned ∨ ∃ x, e = .startRaised x)
    (h : run (GroupSys.step parse) s (.start mode ports :: (es ++ [e])) = some t) :
    t.ports = s.ports ++ ports ∧
      t.satellites = some (List.range' s.spawned.length ports.length) := by
  rw [← List.cons_append] at h
  obtain ⟨m, hm, hend⟩ := run_snoc_eq_some.1 h
  -- the last step only ends the call
  have hlast : t.ports = m.ports ∧ t.satellites = m.satellites ∧
      ∀ mode' todo built, m.admin ≠ .spawning mode' todo built := by
    rcases he with rfl | ⟨x, rfl⟩ <;> simp only [GroupSys.step] at hend <;>
      split_ifs at hend with hadm <;> obtain rfl := Option.some.inj hend <;>
      exact ⟨rfl, rfl, by simp [hadm]⟩
  rw [hlast.1, hlast.2.1]
  rcases (starting_run hshut hes hm).1 with ⟨mode', done, todo, -, hadm, -, -, -⟩ |
    ⟨y, -, -, hes'⟩ | ⟨-, hsat, hmap, -⟩
  · exact absurd hadm (hlast.2.2 _ _ _)
  · exact absurd hes' (hspawn y)
  · exact ⟨hmap, hsat⟩

end GroupSys

open GroupSys in
/-- After any calls, with any deaths, and no spawn that raises : whatever is alive is the
group's, or of the startup in progress; a `start` of a group that has satellites and a
`shutdown` of one that has none change nothing; `all_running` is right when it is called or
when it returns; and when a shutdown returns nothing is alive, and the next startup spawns
one satellite for each port. -/
theorem group_lifecycle [DecidableEq Span] (parse : List UInt8 → Option (List Span))
    {es : List (WatchEvent Span)} {s : Watched Span}
    (h : run (Watched.step parse) Watched.new es = some s)
    (hspawn : ∀ x, GroupEvent.spawnFailed x ∉ Watched.groupTrace es) :
    (∀ p, s.group.isRunning p = true →
      p ∈ s.group.members ∧ (s.group.admin = .idle → p ∈ s.group.group)) ∧
    (s.group.admin = .idle → s.watcher = .idle →
      (∀ mode ports, s.group.truthy = true →
        s.step parse (.group (.start mode ports)) = some s) ∧
      (s.group.truthy = false → s.step parse (.group .shutdown) = some s)) ∧
    (∀ es' b t, (∀ b', WatchEvent.told b' ∉ es') →
      run (Watched.step parse) s (.allRunning :: (es' ++ [.told b])) = some t →
      (b = true → s.group.allRunning = true) ∧ (b = false → t.group.allRunning = false) ∧
        ((∀ p, WatchEvent.group (.die p) ∉ es') →
          s.group.allRunning = b ∧ t.group.allRunning = b)) ∧
    (∀ t, s.step parse (.group .shutdownReturned) = some t →
      t.group.truthy = false ∧ ∀ p, t.group.isRunning p = false) ∧
    (s.group.admin = .idle → s.group.truthy = false → (∀ p, s.group.isRunning p = false) ∧
      ∀ mode ports es' e t, InStartup (Watched.groupTrace es') →
        (∀ x, GroupEvent.spawnFailed x ∉ Watched.groupTrace es') →
        (e = .startReturned ∨ ∃ x, e = .startRaised x) →
        run (Watched.step parse) s (.group (.start mode ports) :: (es' ++ [.group e])) = some t →
        t.group.ports = s.group.ports ++ ports ∧ t.group.group =
          List.range' s.group.spawned.length ports.length) := by
  have howned : s.group.Owned := owned_run (Watched.group_run h) hspawn
  refine ⟨fun p hp => ⟨howned.mem_members hp, fun hidle => ?_⟩, fun hidle hwatch =>
    ⟨fun mode ports htruthy => ?_, fun hshut => ?_⟩, fun es' b t htold hrun =>
    Watched.allRunning_told hrun htold, fun t ht => ?_, fun hidle hshut =>
    ⟨howned.shut hidle hshut, fun mode ports es' e t hes' hfail he hrun => ?_⟩⟩
  · have hmem := howned.alive p hp
    rwa [owners, hidle] at hmem
  · exact Watched.step_group_self hwatch (step_start_refused hidle htruthy mode ports)
  · exact Watched.step_group_self hwatch (step_shutdown_refused hidle hshut)
  · simp only [Watched.step] at ht
    split_ifs at ht
    obtain ⟨g, hg, rfl⟩ := Option.map_eq_some_iff.1 ht
    simp only [GroupSys.step] at hg
    split_ifs at hg with hadm
    obtain rfl := Option.some.inj hg
    exact ⟨rfl, howned.shutdown hadm⟩
  · have hgroup := Watched.group_run hrun
    have htrace : Watched.groupTrace (.group (.start mode ports) :: (es' ++ [.group e])) =
        .start mode ports :: (Watched.groupTrace es' ++ [e]) := by
      simp [Watched.groupTrace]
    rw [htrace] at hgroup
    obtain ⟨hports, hsat⟩ := startup_spawns hshut hes' hfail he hgroup
    exact ⟨hports, by rw [group, hsat]; rfl⟩

/-- A satellite of a group of two dies, the group is shut down, and started on one port. -/
def sampleLifecycle : List (WatchEvent (List UInt8)) :=
  [.group (.start .typical [8360, 8361]), .group (.spawn 8360), .group (.spawn 8361),
    .group .assign, .group .adminStep, .group .adminStep, .group .adminStep,
    .group .startReturned, .allRunning, .watch, .group (.die 0), .watch, .told false,
    .group .shutdown, .group (.terminate 0), .group (.terminate 1), .group .shutdownReturned]

open GroupSys in
theorem group_lifecycle_sample : ∃ s t,
    run (Watched.step parseSpans) Watched.new sampleLifecycle = some s ∧
    run (Watched.step parseSpans) s [.group (.start .typical [8362]), .group (.spawn 8362),
      .group .assign, .group .adminStep, .group .adminStep, .group .startReturned] = some t ∧
    (∀ p, s.group.isRunning p = false) ∧ t.group.ports = s.group.ports ++ [8362] ∧
    t.group.group = [2] := by
  obtain ⟨s, hs, hidle, hshut, t, ht⟩ : ∃ s : Watched (List UInt8),
      run (Watched.step parseSpans) Watched.new sampleLifecycle = some s ∧
      s.group.admin = .idle ∧ s.group.truthy = false ∧ ∃ t, run (Watched.step parseSpans) s
        (.group (.start .typical [8362]) :: ([.group (.spawn 8362), .group .assign,
          .group .adminStep, .group .adminStep] ++ [.group .startReturned])) = some t :=
    ⟨_, rfl, rfl, rfl, _, rfl⟩
  have hspawn : ∀ x, GroupEvent.spawnFailed x ∉ Watched.groupTrace sampleLifecycle := by
    simp [Watched.groupTrace, sampleLifecycle]
  obtain ⟨-, -, -, -, hlast⟩ := group_lifecycle parseSpans hs hspawn
  obtain ⟨hdead, hstart⟩ := hlast hidle hshut
  obtain ⟨hports, hgroup⟩ := hstart _ _ _ _ t (by simp [InStartup, Watched.groupTrace])
    (by simp [Watched.groupTrace]) (Or.inl rfl) ht
  refine ⟨s, t, hs, ht, hdead, hports, hgroup.trans ?_⟩
  obtain rfl := Option.some.inj hs
  rfl

end TracerBench
