import TracerBench.DisconnectGraphs

/-!
# When the trials disturb each other

In a run the callback of an iteration may be over before its benchmark, so that the loop
comes to the next iteration with nothing left of the ones before (`reaches_fresh`). In an
iteration with a short benchmark the callback may be late instead. `proper_iff` puts this
together with `proper_of_run`.
-/

namespace TracerBench

namespace Disconnect

namespace State

variable {x : Experiment} {s s' : State} {P : State → Prop}

theorem Reaches.main (hs : s.mainNext x = some s') (h : Reaches (step x) s' P) :
    Reaches (step x) s P :=
  Reaches.cons (e := .mainStep) hs h

/-! ## Steps of the last callback -/

section Callback

variable {now t₀ : ℚ} {m : Main} {a : Option Action} {k : ℕ} {G : List Bool} {ts : List Timer}
  {p : Point}

theorem Reaches.callback {q : Point} {H : List Bool}
    (hnext : timerNext ⟨now, m, a, k, G, ts ++ [⟨t₀, p⟩]⟩ ⟨t₀, p⟩ = some (q, H))
    (h : Reaches (step x) ⟨now, m, a, k, H, ts ++ [⟨t₀, q⟩]⟩ P) :
    Reaches (step x) ⟨now, m, a, k, G, ts ++ [⟨t₀, p⟩]⟩ P := by
  refine Reaches.cons (e := .timerStep ts.length) ?_ h
  simp [step, hnext, setTimer]

/-- A step of the last callback that leaves the groups alone. -/
theorem Reaches.goOn (q : Point)
    (hnext : timerNext ⟨now, m, a, k, G, ts ++ [⟨t₀, p⟩]⟩ ⟨t₀, p⟩ = some (q, G))
    (h : Reaches (step x) ⟨now, m, a, k, G, ts ++ [⟨t₀, q⟩]⟩ P) :
    Reaches (step x) ⟨now, m, a, k, G, ts ++ [⟨t₀, p⟩]⟩ P :=
  Reaches.callback hnext h

/-- The others being over, time passes as the last callback lets it. -/
theorem Reaches.pass (now' : ℚ) (hnow : now ≤ now') (hts : ∀ u ∈ ts, u.point = .ended)
    (hdue : ∀ d ∈ p.due, now' ≤ t₀ + d + x.lateness)
    (h : Reaches (step x) ⟨now', m, a, k, G, ts ++ [⟨t₀, p⟩]⟩ P) :
    Reaches (step x) ⟨now, m, a, k, G, ts ++ [⟨t₀, p⟩]⟩ P := by
  refine Reaches.cons (e := .tick (now' - now)) ?_ h
  rw [step, if_pos, add_sub_cancel]
  refine ⟨sub_nonneg.2 hnow, fun u hu d hd => ?_⟩
  rw [add_sub_cancel]
  rcases List.mem_append.1 hu with hu | hu
  · simp [hts u hu, Point.due] at hd
  · obtain rfl := List.mem_singleton.1 hu
    exact hdue d hd

theorem step_timerShutdown {branch : Action} :
    step x ⟨now, m, a, k, G, ts ++ [⟨t₀, .calling branch⟩]⟩ (.timerShutdown ts.length k branch) =
      some ⟨now, m, a, k, G, ts ++ [⟨t₀, .testing branch k⟩]⟩ := by
  simp [step, setTimer]

theorem step_timerStart :
    step x ⟨now, m, a, k, G, ts ++ [⟨t₀, .callingStart⟩]⟩ (.timerStart ts.length k) =
      some ⟨now, m, a, k, G, ts ++ [⟨t₀, .testingStart k⟩]⟩ := by
  simp [step, setTimer]

/-- The group of the callback is up, and it shuts it down. -/
theorem Reaches.shutdown {branch : Action} (hup : G[k]? = some true)
    (h : Reaches (step x) ⟨now, m, a, k, G.set k false,
      ts ++ [⟨t₀, afterShutdown ⟨now, m, a, k, G, ts⟩ branch⟩]⟩ P) :
    Reaches (step x) ⟨now, m, a, k, G, ts ++ [⟨t₀, .calling branch⟩]⟩ P := by
  refine Reaches.cons step_timerShutdown ?_
  refine Reaches.goOn (.shuttingDown branch k) (by simp [timerNext, hup]) ?_
  refine Reaches.goOn (.terminating branch k) (by simp [timerNext, hup]) ?_
  exact Reaches.callback rfl h

/-- The group of the callback is shut down, and the callback starts it again. -/
theorem Reaches.restart {wake : ℚ} (hwake : wake ≤ now) (hdown : G[k]? = some false)
    (h : Reaches (step x) ⟨now, m, a, k, G.set k true, ts ++ [⟨t₀, .ended⟩]⟩ P) :
    Reaches (step x) ⟨now, m, a, k, G, ts ++ [⟨t₀, .sleeping wake⟩]⟩ P := by
  refine Reaches.goOn .callingStart (by simp [timerNext, hwake]) ?_
  refine Reaches.cons step_timerStart ?_
  refine Reaches.goOn (.assigning k) (by simp [timerNext, hdown]) ?_
  exact Reaches.callback rfl h

/-- The timer fires on time. -/
theorem Reaches.fire (hts : ∀ u ∈ ts, u.point = .ended)
    (h : Reaches (step x) ⟨t₀ + disconnectTime, m, a, k, G, ts ++ [⟨t₀, .testingDisconnect⟩]⟩ P) :
    Reaches (step x) ⟨t₀, m, a, k, G, ts ++ [⟨t₀, .waiting⟩]⟩ P := by
  have hlate := x.lateness_nonneg
  refine Reaches.pass (t₀ + disconnectTime) ?_ hts (fun d hd => ?_) ?_
  · norm_num [disconnectTime]
  · obtain rfl := Option.some.inj hd
    linarith
  exact Reaches.goOn .testingDisconnect (by simp [timerNext]) h

/-- The callback is on time, and disconnects to connect again. -/
theorem Reaches.disconnected (ha : a = some .reconnect) (hup : G[k]? = some true)
    (hts : ∀ u ∈ ts, u.point = .ended)
    (h : Reaches (step x) ⟨t₀ + disconnectTime, m, a, k, G.set k false,
      ts ++ [⟨t₀, .sleeping (t₀ + reconnectTime)⟩]⟩ P) :
    Reaches (step x) ⟨t₀, m, a, k, G, ts ++ [⟨t₀, .waiting⟩]⟩ P := by
  refine Reaches.fire hts ?_
  refine Reaches.goOn .testingReconnect (by simp [timerNext, ha]) ?_
  refine Reaches.goOn (.calling .reconnect) (by simp [timerNext, ha]) ?_
  refine Reaches.shutdown hup ?_
  rw [afterShutdown, add_add_sub_cancel]
  exact h

/-- The callback is on time to its end. -/
theorem Reaches.onTime (hup : G[k]? = some true)
    (hts : ∀ u ∈ ts, u.point = .ended)
    (h : ∀ now' G', G'.length = G.length →
      Reaches (step x) ⟨now', m, a, k, G', ts ++ [⟨t₀, .ended⟩]⟩ P) :
    Reaches (step x) ⟨t₀, m, a, k, G, ts ++ [⟨t₀, .waiting⟩]⟩ P := by
  have hlate := x.lateness_nonneg
  by_cases hreconnect : a = some .reconnect
  · refine Reaches.disconnected hreconnect hup hts ?_
    refine Reaches.pass (t₀ + reconnectTime) ?_ hts (fun d hd => ?_) ?_
    · norm_num [disconnectTime, reconnectTime]
    · obtain rfl := Option.some.inj hd
      linarith
    refine Reaches.restart le_rfl ?_ (h _ _ (by simp))
    rw [List.getElem?_set_self (List.getElem?_eq_some_iff.1 hup).1]
  · refine Reaches.fire hts ?_
    by_cases hdisconnect : a = some .disconnect
    · refine Reaches.goOn (.calling .disconnect) (by simp [timerNext, hdisconnect]) ?_
      refine Reaches.shutdown hup ?_
      rw [afterShutdown]
      refine Reaches.goOn .ended (by simp [timerNext, hreconnect]) ?_
      exact h _ _ (by simp)
    · refine Reaches.goOn .testingReconnect (by simp [timerNext, hdisconnect]) ?_
      refine Reaches.goOn .ended (by simp [timerNext, hreconnect]) ?_
      exact h _ _ rfl

end Callback

/-! ## Iterations -/

/-- The loop comes to iteration `k`, and the callbacks of the ones before are over. -/
structure Fresh (k : ℕ) (s : State) : Prop where
  main : s.main = .assigning k
  timers : s.timers.length = k
  groups : s.groups.length = k
  ended : ∀ t ∈ s.timers, t.point = .ended

section Iteration

variable {now t₀ : ℚ} {k : ℕ} {G : List Bool} {ts : List Timer} {p : Point}

/-- An iteration begins its benchmark. -/
theorem Fresh.begin (h : Fresh k s) (hk : k < 4 * x.trials)
    (hP : ∀ t₀ G ts, G.length = k → ts.length = k → (∀ u ∈ ts, u.point = .ended) →
      Reaches (step x) ⟨t₀, .benchmarking k (t₀ + x.duration k), actionOf k, k, G ++ [true],
        ts ++ [⟨t₀, .waiting⟩]⟩ P) : Reaches (step x) s P := by
  obtain ⟨now, m, a, g, G, ts⟩ := s
  obtain ⟨rfl, hts, hG, hended⟩ := h
  refine Reaches.main (if_pos hk) ?_
  refine Reaches.cons (e := .create k) (if_pos rfl) ?_
  refine Reaches.cons (e := .tick 1) (if_pos ?_) ?_
  · refine ⟨zero_le_one, fun u hu d hd => ?_⟩
    simp [hended u hu, Point.due] at hd
  refine Reaches.main (if_pos le_rfl) ?_
  refine Reaches.main rfl ?_
  exact Reaches.main rfl (hP (now + 1) G ts hG hts hended)

/-- From the end of its benchmark the iteration goes on to the next one, its group shut down
unless its action is `'disconnect'`. -/
theorem Reaches.finish {limit : ℚ} (hlimit : limit ≤ now) (hk : k < G.length)
    (h : Reaches (step x) ⟨now, .assigning (k + 1), actionOf k, k,
      if actionOf k = some .disconnect then G else G.set k false, ts ++ [⟨t₀, p⟩]⟩ P) :
    Reaches (step x) ⟨now, .benchmarking k limit, actionOf k, k, G, ts ++ [⟨t₀, p⟩]⟩ P := by
  refine Reaches.main (if_pos hlimit) ?_
  refine Reaches.main rfl ?_
  by_cases ha : actionOf k = some .disconnect
  · rw [if_pos ha] at h
    rw [if_neg (not_not.2 ha)]
    exact Reaches.main rfl h
  · rw [if_neg ha] at h
    rw [if_pos ha]
    refine Reaches.main rfl ?_
    by_cases hup : G[k]? = some true
    · rw [if_pos hup]
      refine Reaches.main rfl ?_
      rw [if_pos hup]
      exact Reaches.main rfl (Reaches.main rfl h)
    · have hset : G.set k false = G := by
        rw [List.getElem?_eq_getElem hk] at hup
        have hdown : G[k] = false := by simpa using hup
        rw [← hdown, List.set_getElem_self]
      rw [hset] at h
      rw [if_neg hup]
      exact Reaches.main rfl h

/-- An iteration may leave nothing to the next one. -/
theorem Fresh.next (h : Fresh k s) (hk : k < 4 * x.trials) :
    Reaches (step x) s (Fresh (k + 1)) := by
  refine h.begin hk fun t₀ G ts hG hts hended => ?_
  refine Reaches.onTime (by rw [← hG, List.getElem?_concat_length]) hended fun now G' hG' => ?_
  have hlen : G'.length = k + 1 := by simp [hG', hG]
  refine Reaches.pass (max now (t₀ + x.duration k)) (le_max_left ..) hended
    (by simp [Point.due]) ?_
  refine Reaches.finish (le_max_right ..) (by omega) (Reaches.refl ⟨rfl, by simp [hts], ?_, ?_⟩)
  · split_ifs <;> simp [hlen]
  · intro t ht
    rcases List.mem_append.1 ht with ht | ht
    · exact hended t ht
    · obtain rfl := List.mem_singleton.1 ht
      rfl

theorem reaches_fresh (hk : k ≤ 4 * x.trials) : Reaches (step x) .start (Fresh k) := by
  induction k with
  | zero => exact Reaches.refl ⟨rfl, rfl, rfl, by simp [start]⟩
  | succ k ih => exact (ih (Nat.le_of_succ_le hk)).bind fun s hs => hs.next hk

end Iteration

/-! ## Iterations with a short benchmark -/

/-- A step that is not proper can be taken. -/
def Disturbed (x : Experiment) (s : State) : Prop :=
  ∃ e s', s.step x e = some s' ∧ ¬s.Proper e

section Short

variable {k : ℕ}

/-- The callback of a plain iteration finds the action of the next one. -/
theorem Fresh.disturbed_of_none (h : Fresh k s) (hk : k + 1 < 4 * x.trials)
    (ha : actionOf k = none) (hnext : actionOf (k + 1) = some .disconnect)
    (hshort : x.duration k ≤ disconnectTime + x.lateness) : Reaches (step x) s (Disturbed x) := by
  have hlate := x.lateness_nonneg
  refine h.begin (Nat.lt_of_succ_lt hk) fun t₀ G ts hG hts hended => ?_
  refine Reaches.pass (max (t₀ + disconnectTime) (t₀ + x.duration k)) ?_ hended
    (fun d hd => ?_) ?_
  · exact le_max_of_le_left (le_add_of_nonneg_right (by norm_num [disconnectTime]))
  · obtain rfl := Option.some.inj hd
    exact max_le (by linarith) (by linarith)
  refine Reaches.finish (le_max_right ..) (by simp [hG]) ?_
  refine Reaches.main (if_pos hk) ?_
  -- the callback fires now
  refine Reaches.goOn .testingDisconnect (by simp [timerNext]) ?_
  refine Reaches.goOn (.calling .disconnect) (by simp [timerNext, hnext]) (Reaches.refl ?_)
  refine ⟨.timerShutdown ts.length k .disconnect, _, step_timerShutdown, fun hproper => ?_⟩
  have hown := hproper.2
  simp [hts, ha] at hown

/-- The group of a disconnect is still up when the next one is created. -/
theorem Fresh.disturbed_of_disconnect (h : Fresh k s) (hk : k + 1 < 4 * x.trials)
    (ha : actionOf k = some .disconnect) (hshort : x.duration k ≤ disconnectTime + x.lateness) :
    Reaches (step x) s (Disturbed x) := by
  have hlate := x.lateness_nonneg
  refine h.begin (Nat.lt_of_succ_lt hk) fun t₀ G ts hG hts hended => ?_
  refine Reaches.pass (max t₀ (t₀ + x.duration k)) (le_max_left ..) hended (fun d hd => ?_) ?_
  · obtain rfl := Option.some.inj hd
    have hpos : 0 ≤ disconnectTime := by norm_num [disconnectTime]
    exact max_le (by linarith) (by linarith)
  refine Reaches.finish (le_max_right ..) (by simp [hG]) ?_
  refine Reaches.main (if_pos hk) (Reaches.refl ⟨.create (k + 1), _, if_pos rfl, fun hproper => ?_⟩)
  have hdown := hproper k rfl
  simp [ha, hG] at hdown

/-- The callback of a reconnect starts its group again, which the loop has shut down. -/
theorem Fresh.disturbed_of_reconnect (h : Fresh k s) (hk : k + 1 < 4 * x.trials)
    (ha : actionOf k = some .reconnect) (hshort : x.duration k ≤ reconnectTime + x.lateness) :
    Reaches (step x) s (Disturbed x) := by
  have hlate := x.lateness_nonneg
  refine h.begin (Nat.lt_of_succ_lt hk) fun t₀ G ts hG hts hended => ?_
  refine Reaches.disconnected ha (by rw [← hG, List.getElem?_concat_length]) hended ?_
  refine Reaches.pass (max (t₀ + reconnectTime) (t₀ + x.duration k)) ?_ hended (fun d hd => ?_) ?_
  · refine le_max_of_le_left ?_
    norm_num [disconnectTime, reconnectTime]
  · obtain rfl := Option.some.inj hd
    exact max_le (by linarith) (by linarith)
  refine Reaches.finish (le_max_right ..) (by simp [hG]) ?_
  refine Reaches.restart (le_max_left ..) (by simp [ha, hG]) ?_
  refine Reaches.main (if_pos hk) (Reaches.refl ⟨.create (k + 1), _, if_pos rfl, fun hproper => ?_⟩)
  have hdown := hproper k rfl
  simp [ha, hG] at hdown

/-- A benchmark that is not long lets its trial be disturbed. -/
theorem reaches_disturbed (hk : k + 1 < 4 * x.trials) (hmod : k % 4 ≠ 0)
    (hshort : x.duration k ≤ workTime k + x.lateness) : Reaches (step x) .start (Disturbed x) := by
  refine (reaches_fresh (Nat.le_of_succ_le hk.le)).bind fun s h => ?_
  obtain hk1 | hk2 | hk3 : k % 4 = 1 ∨ k % 4 = 2 ∨ k % 4 = 3 := by omega
  · have ha : actionOf k = none := by simp [actionOf, hk1]
    have hnext : actionOf (k + 1) = some .disconnect := if_pos (by omega)
    rw [workTime, ha] at hshort
    exact h.disturbed_of_none hk ha hnext hshort
  · have ha : actionOf k = some .disconnect := if_pos hk2
    rw [workTime, ha] at hshort
    exact h.disturbed_of_disconnect hk ha hshort
  · have ha : actionOf k = some .reconnect := by simp [actionOf, hk3]
    rw [workTime, ha] at hshort
    exact h.disturbed_of_reconnect hk ha hshort

end Short

end State

/-- Every callback acts on the group of its own iteration by the action of its own iteration,
and every group is created with the one before shut down, in every run, exactly if the
benchmarks are long. -/
theorem proper_iff (x : Experiment) :
    (∀ es e s s', run (State.step x) .start es = some s → s.step x e = some s' → s.Proper e) ↔
      x.Long := by
  constructor
  · intro h k hk hmod
    by_contra hshort
    obtain ⟨es, s, hrun, e, s', he, hproper⟩ := State.reaches_disturbed hk hmod (not_lt.1 hshort)
    exact hproper (h es e s s' hrun he)
  · intro hx es e s s' hrun he
    exact proper_of_run hx hrun he

/-- A trial whose benchmarks take 180 s, but for the one of the disconnect. -/
def quickDisconnect : Experiment where
  trials := 1
  duration k := if k = 2 then 20 else 180
  lateness := 0
  lateness_nonneg := le_rfl

/-- An iteration without an action. -/
def plainIteration (k : ℕ) : List Event :=
  [.mainStep, .create k, .tick 1, .mainStep, .mainStep, .mainStep, .tick 30, .timerStep k,
    .timerStep k, .timerStep k, .tick 150, .mainStep, .mainStep, .mainStep, .mainStep, .mainStep,
    .mainStep]

/-- The disconnect begins and is over, and the reconnect begins. -/
def quickRun : List Event :=
  plainIteration 0 ++ plainIteration 1 ++ [.mainStep, .create 2, .tick 1, .mainStep, .mainStep,
    .mainStep, .tick 20, .mainStep, .mainStep, .mainStep, .mainStep]

/-- The reconnect creates its group while the one of the disconnect is up, and the timer of
the disconnect has not fired. -/
theorem next_group_created_early :
    ∃ s, run (State.step quickDisconnect) .start quickRun = some s ∧
      (s.step quickDisconnect (.create 3)).isSome ∧ ¬s.Proper (.create 3) ∧
      s.timers.map (·.point) = [.ended, .ended, .waiting] := by
  have hrun : (run (State.step quickDisconnect) .start quickRun).map
      (fun s => (s.main, s.groups, s.timers.map (·.point))) =
        some (.creating 3, [false, false, true], [.ended, .ended, .waiting]) := by decide +kernel
  obtain ⟨s, hs, h⟩ := Option.map_eq_some_iff.1 hrun
  obtain ⟨hmain, hgroups, hpoints⟩ : s.main = .creating 3 ∧ s.groups = [false, false, true] ∧
      s.timers.map (·.point) = [.ended, .ended, .waiting] := by simpa using h
  refine ⟨s, hs, by simp [State.step, hmain], fun hproper => ?_, hpoints⟩
  have hdown := hproper 2 rfl
  simp [hgroups] at hdown

end Disconnect

end TracerBench
