import TracerBench.Clients

/-!
# What the Python, Go and C++ clients generate

`Ran w s t c c'` says of a piece of a client's code that it kept the stack discipline of
nested spans, with the open spans `s` before it and `t` after it, that each call of
`generate_spans` in it was entered with a positive count, and that each `do_work` did
`w` units. Such pieces compose (`Ran.trans`), so a call of `generate_spans` is followed
piece by piece, with the next level as one piece by induction.
-/

namespace TracerBench

namespace Client

@[simp] theorem enter_next (n : ℤ) (c : Client) : (c.enter n).next = c.next :=
  rfl

@[simp] theorem enter_active (n : ℤ) (c : Client) : (c.enter n).active = c.active :=
  rfl

@[simp] theorem doWork_next (units : ℤ) (c : Client) : (c.doWork units).next = c.next :=
  rfl

@[simp] theorem doWork_active (units : ℤ) (c : Client) : (c.doWork units).active = c.active :=
  rfl

@[simp] theorem startSpan_next (parent : Option ℕ) (c : Client) :
    (c.startSpan parent).next = c.next + 1 :=
  rfl

end Client

/-! ## Pieces of a client's code -/

structure Ran (w : ℤ) (s t : List ℕ) (c c' : Client) : Prop where
  events : ∃ es, c'.events = c.events ++ es ∧
    run SpanStack.step ⟨s, c.next⟩ es = some ⟨t, c'.next⟩
  calls : ∃ ks, c'.calls = c.calls ++ ks ∧ ∀ k ∈ ks, 1 ≤ k
  works : ∃ us, c'.works = c.works ++ us ∧ ∀ u ∈ us, u = w

namespace Ran

variable {w : ℤ} {s t r : List ℕ} {c c' c'' : Client}

theorem refl (w : ℤ) (s : List ℕ) (c : Client) : Ran w s s c c :=
  ⟨⟨[], by simp⟩, ⟨[], by simp⟩, ⟨[], by simp⟩⟩

theorem trans (h : Ran w s t c c') (h' : Ran w t r c' c'') : Ran w s r c c'' := by
  obtain ⟨⟨es, he, hr⟩, ⟨ks, hk, hks⟩, ⟨us, hu, hus⟩⟩ := h
  obtain ⟨⟨es', he', hr'⟩, ⟨ks', hk', hks'⟩, ⟨us', hu', hus'⟩⟩ := h'
  refine ⟨⟨es ++ es', by rw [he', he, List.append_assoc], run_append_eq_some.2 ⟨_, hr, hr'⟩⟩,
    ⟨ks ++ ks', by rw [hk', hk, List.append_assoc], ?_⟩,
    ⟨us ++ us', by rw [hu', hu, List.append_assoc], ?_⟩⟩
  · simpa [or_imp, forall_and] using ⟨hks, hks'⟩
  · simpa [or_imp, forall_and] using ⟨hus, hus'⟩

theorem enter {n : ℤ} (hn : 1 ≤ n) : Ran w s s c (c.enter n) :=
  ⟨⟨[], by simp [Client.enter]⟩, ⟨[n], rfl, by simpa using hn⟩, ⟨[], by simp [Client.enter]⟩⟩

theorem doWork : Ran w s s c (c.doWork w) :=
  ⟨⟨[], by simp [Client.doWork]⟩, ⟨[], by simp [Client.doWork]⟩, ⟨[w], rfl, by simp⟩⟩

theorem startSpan {parent : Option ℕ} (hp : ∀ p ∈ parent, p ∈ s) :
    Ran w s (c.next :: s) c (c.startSpan parent) := by
  refine ⟨⟨_, rfl, ?_⟩, ⟨[], by simp [Client.startSpan]⟩, ⟨[], by simp [Client.startSpan]⟩⟩
  simp only [run_cons_eq_some, SpanStack.step]
  rw [if_pos ⟨trivial, hp⟩]
  exact ⟨_, rfl, rfl⟩

theorem finish {span : ℕ} : Ran w (span :: s) s c (c.finish span) :=
  ⟨⟨_, rfl, by simp [SpanStack.step, Client.finish]⟩, ⟨[], by simp [Client.finish]⟩,
    ⟨[], by simp [Client.finish]⟩⟩

end Ran

/-- A piece that started `n` spans, finished them, and did their work. -/
structure Batch (w : ℤ) (s : List ℕ) (n : ℤ) (c c' : Client) : Prop where
  ran : Ran w s s c c'
  next : (c'.next : ℤ) = c.next + n
  works : (c'.works.length : ℤ) = c.works.length + n

namespace Batch

variable {w n m : ℤ} {s : List ℕ} {c c' c'' : Client}

theorem zero (w : ℤ) (s : List ℕ) (c : Client) (hn : n = 0) : Batch w s n c c := by
  subst hn
  exact ⟨Ran.refl w s c, by simp, by simp⟩

theorem trans (h : Batch w s n c c') (h' : Batch w s m c' c'') : Batch w s (n + m) c c'' :=
  ⟨h.ran.trans h'.ran, by rw [h'.next, h.next, add_assoc], by rw [h'.works, h.works, add_assoc]⟩

theorem enter {k : ℤ} (hk : 1 ≤ k) (h : Batch w s n (c.enter k) c') : Batch w s n c c' :=
  ⟨(Ran.enter hk).trans h.ran, h.next, h.works⟩

/-- A span with its work around what is left of the batch. -/
theorem span {parent : Option ℕ} (hp : ∀ p ∈ parent, p ∈ s)
    (h : Batch w (c.next :: s) (n - 1) ((c.startSpan parent).doWork w) c') :
    Batch w s n c (c'.finish c.next) := by
  refine ⟨((Ran.startSpan hp).trans Ran.doWork).trans (h.ran.trans Ran.finish), ?_, ?_⟩
  · have hnext : (c'.next : ℤ) = (c.next + 1 : ℕ) + (n - 1) := h.next
    change (c'.next : ℤ) = c.next + n
    omega
  · have hworks : (c'.works.length : ℤ) = (c.works ++ [w]).length + (n - 1) := h.works
    rw [List.length_append, List.length_singleton] at hworks
    change (c'.works.length : ℤ) = c.works.length + n
    omega

/-- The spans do not depend on which of them Python has active. -/
theorem ofActive {a b : List ℕ} (h : Batch w s n { c with active := a } c') :
    Batch w s n c { c' with active := b } :=
  ⟨⟨h.ran.events, h.ran.calls, h.ran.works⟩, h.next, h.works⟩

end Batch

/-! ## Go and C++ -/

section Finishing

variable {w n : ℤ} {s : List ℕ} {c : Client}

theorem finishing_batch (parent : Option ℕ) {rest : Option Client} (hp : ∀ p ∈ parent, p ∈ s)
    (h : ∃ c', rest = some c' ∧
      Batch w (c.next :: s) (n - 1) ((c.startSpan parent).doWork w) c' ∧ c'.active = c.active) :
    ∃ c', finishing c.next rest = some c' ∧ Batch w s n c c' ∧ c'.active = c.active := by
  obtain ⟨c', rfl, hb, ha⟩ := h
  exact ⟨_, rfl, hb.span hp, ha⟩

theorem generateSpansWith_batch {nextParent : ℕ → ℕ → ℕ}
    (hnext : ∀ serverSpan dbSpan, nextParent serverSpan dbSpan ∈ [dbSpan, serverSpan]) :
    ∀ (fuel : ℕ) {n : ℤ} (parent : Option ℕ) {s : List ℕ} (c : Client), 1 ≤ n →
      n ≤ 3 * fuel → (∀ p ∈ parent, p ∈ s) →
      ∃ c', generateSpansWith nextParent w fuel n parent c = some c' ∧ Batch w s n c c' ∧
        c'.active = c.active
  | 0, n, _, _, _, h1, hn, _ => by omega
  | fuel + 1, n, parent, s, c, h1, hn, hp => by
    rw [generateSpansWith]
    suffices h : ∃ c', _ = some c' ∧ Batch w s n (c.enter n) c' ∧ c'.active = c.active from
      h.imp fun _ h => ⟨h.1, h.2.1.enter h1, h.2.2⟩
    refine finishing_batch parent hp ?_
    by_cases hn1 : n - 1 = 0
    · rw [if_pos hn1]
      exact ⟨_, rfl, Batch.zero w _ _ hn1, rfl⟩
    rw [if_neg hn1]
    refine finishing_batch (some c.next) (by simp) ?_
    by_cases hn2 : n - 1 - 1 = 0
    · rw [if_pos hn2]
      exact ⟨_, rfl, Batch.zero w _ _ hn2, rfl⟩
    rw [if_neg hn2]
    refine finishing_batch (some (c.next + 1)) (by simp) ?_
    by_cases hn3 : n - 1 - 1 - 1 = 0
    · rw [if_pos hn3]
      exact ⟨_, rfl, Batch.zero w _ _ hn3, rfl⟩
    rw [if_neg hn3]
    refine generateSpansWith_batch hnext fuel _ _ (by omega) (by push_cast at hn; omega) ?_
    rintro p hp
    obtain rfl := Option.mem_some.1 hp
    exact List.mem_append_left _ (hnext _ _)

theorem finishing_eq_some {span : ℕ} {rest : Option Client} {c' : Client} :
    finishing span rest = some c' ↔ ∃ c, rest = some c ∧ c.finish span = c' :=
  Option.map_eq_some_iff

/-- More fuel does not change an answer. -/
theorem generateSpansWith_mono {nextParent : ℕ → ℕ → ℕ} :
    ∀ {fuel fuel' : ℕ} {n : ℤ} {parent : Option ℕ} {c c' : Client}, fuel ≤ fuel' →
      generateSpansWith nextParent w fuel n parent c = some c' →
      generateSpansWith nextParent w fuel' n parent c = some c'
  | 0, _, _, _, _, _, _, h => by simp [generateSpansWith] at h
  | fuel + 1, fuel', n, parent, c, c', hle, h => by
    obtain ⟨fuel', rfl⟩ : ∃ k, fuel' = k + 1 := ⟨fuel' - 1, by omega⟩
    rw [generateSpansWith] at h ⊢
    by_cases hn1 : n - 1 = 0
    · simpa only [if_pos hn1] using h
    by_cases hn2 : n - 1 - 1 = 0
    · simpa only [if_neg hn1, if_pos hn2] using h
    by_cases hn3 : n - 1 - 1 - 1 = 0
    · simpa only [if_neg hn1, if_neg hn2, if_pos hn3] using h
    simp only [if_neg hn1, if_neg hn2, if_neg hn3, finishing_eq_some] at h ⊢
    obtain ⟨c₁, ⟨c₂, ⟨c₃, h, h₃⟩, h₂⟩, h₁⟩ := h
    exact ⟨c₁, ⟨c₂, ⟨c₃, generateSpansWith_mono (by omega) h, h₃⟩, h₂⟩, h₁⟩

end Finishing

/-! ## Python -/

namespace PythonClient

variable {w n m : ℤ} {s : List ℕ} {c : Client}

@[simp] theorem makeScope_next (parent : Option ℕ) (c : Client) :
    (makeScope parent c).next = c.next + 1 := by
  cases parent <;> rfl

@[simp] theorem makeScope_active (parent : Option ℕ) (c : Client) :
    (makeScope parent c).active = c.next :: c.active := by
  cases parent <;> rfl

/-- A block that ends as `flow` says, having started `n` spans and with the scopes as
they were. -/
def BlockRuns (w : ℤ) (s : List ℕ) (n : ℤ) (c : Client) (flow : Flow)
    (r : Option (Flow × Client)) : Prop :=
  ∃ c', r = some (flow, c') ∧ Batch w s n c c' ∧ c'.active = c.active

theorem makeScope_eq (parent : Option ℕ) (c : Client) :
    makeScope parent c = c.startActiveSpan parent := by
  cases parent <;> rfl

theorem withScope_runs (parent : Option ℕ) {flow : Flow}
    {block : ℕ → Client → Option (Flow × Client)} (hp : ∀ p ∈ parent.or c.active.head?, p ∈ s)
    (h : BlockRuns w (c.next :: s) (n - 1) ((makeScope parent c).doWork w) flow
      (block c.next (makeScope parent c))) :
    BlockRuns w s n c flow (withScope parent c block) := by
  obtain ⟨c', hc', hb, ha⟩ := h
  rw [makeScope_eq] at hb ha
  have hb' : Batch w (c.next :: s) (n - 1)
      ((c.startSpan (parent.or c.active.head?)).doWork w) c' := hb.ofActive
  refine ⟨c'.exitScope c.next, ?_, (hb'.span hp).ofActive, ?_⟩
  · rw [withScope, hc']
    rfl
  · change c'.active.tail = c.active
    rw [ha]
    rfl

theorem andThen_ret {first : Option (Flow × Client)} {rest : Client → Option (Flow × Client)}
    (h : BlockRuns w s n c .ret first) : BlockRuns w s n c .ret (andThen first rest) := by
  obtain ⟨c', rfl, h⟩ := h
  exact ⟨c', rfl, h⟩

theorem andThen_fall {first : Option (Flow × Client)} {rest : Client → Option (Flow × Client)}
    {flow : Flow} (h : BlockRuns w s m c .fall first)
    (hrest : ∀ c', c'.active = c.active → BlockRuns w s (n - m) c' flow (rest c')) :
    BlockRuns w s n c flow (andThen first rest) := by
  obtain ⟨c', rfl, hb, ha⟩ := h
  obtain ⟨c'', hr, hb', ha'⟩ := hrest c' ha
  refine ⟨c'', hr, ?_, ha'.trans ha⟩
  rw [← add_sub_cancel m n]
  exact hb.trans hb'

theorem call_runs {r : Option (Option PyError × Client)}
    (h : ∃ c', r = some (none, c') ∧ Batch w s n c c' ∧ c'.active = c.active) :
    BlockRuns w s n c .fall (call r) := by
  obtain ⟨c', rfl, h⟩ := h
  exact ⟨c', rfl, h⟩

theorem function_runs {k : ℤ} (hk : 1 ≤ k) {r : Option (Flow × Client)}
    (h : ∃ flow, flow.error = none ∧ BlockRuns w s n (c.enter k) flow r) :
    ∃ c', r.map (fun (flow, c) => (Flow.error flow, c)) = some (none, c') ∧ Batch w s n c c' ∧
      c'.active = c.active := by
  obtain ⟨flow, hf, c', rfl, hb, ha⟩ := h
  exact ⟨c', by simp [hf], hb.enter hk, ha⟩

/-- A call that returns has each span finished and the scopes as they were. -/
theorem generateSpans_batch :
    ∀ (fuel : ℕ) {n : ℤ} (parent : Option ℕ) {s : List ℕ} (c : Client), 1 ≤ n →
      n ≤ 3 * fuel → (∀ p ∈ parent.or c.active.head?, p ∈ s) →
      ∃ c', generateSpans w fuel n parent c = some (none, c') ∧ Batch w s n c c' ∧
        c'.active = c.active
  | 0, n, _, _, _, h1, hn, _ => by omega
  | fuel + 1, n, parent, s, c, h1, hn, hp => by
    rw [generateSpans]
    dsimp only
    rw [if_pos h1]
    refine function_runs h1 ?_
    by_cases hn1 : n - 1 = 0
    · refine ⟨.ret, rfl, withScope_runs parent hp ?_⟩
      rw [if_pos hn1]
      exact ⟨_, rfl, Batch.zero w _ _ hn1, rfl⟩
    by_cases hn2 : n - 1 - 1 = 0
    · refine ⟨.ret, rfl, withScope_runs parent hp ?_⟩
      rw [if_neg hn1]
      refine withScope_runs none (by simp) ?_
      rw [if_pos hn2]
      exact ⟨_, rfl, Batch.zero w _ _ hn2, rfl⟩
    by_cases hn3 : n - 1 - 1 - 1 = 0
    · refine ⟨.ret, rfl, withScope_runs parent hp ?_⟩
      rw [if_neg hn1]
      refine withScope_runs none (by simp) ?_
      rw [if_neg hn2]
      refine andThen_ret (withScope_runs none (by simp) ?_)
      rw [if_pos hn3]
      exact ⟨_, rfl, Batch.zero w _ _ hn3, rfl⟩
    · refine ⟨.fall, rfl, withScope_runs parent hp ?_⟩
      rw [if_neg hn1]
      refine withScope_runs none (by simp) ?_
      rw [if_neg hn2]
      refine andThen_fall (m := 1) (withScope_runs none (by simp) ?_) ?_
      · rw [if_neg hn3]
        exact ⟨_, rfl, Batch.zero w _ _ rfl, rfl⟩
      · intro c' _
        exact call_runs (generateSpans_batch fuel _ c' (by omega) (by push_cast at hn; omega)
          (by simp))

/-- More fuel does not change an answer. -/
theorem generateSpans_mono :
    ∀ {fuel fuel' : ℕ} {n : ℤ} {parent : Option ℕ} {c : Client} {r : Option PyError × Client},
      fuel ≤ fuel' → generateSpans w fuel n parent c = some r →
      generateSpans w fuel' n parent c = some r
  | 0, _, _, _, _, _, _, h => by simp [generateSpans] at h
  | fuel + 1, fuel', n, parent, c, r, hle, h => by
    obtain ⟨fuel', rfl⟩ : ∃ k, fuel' = k + 1 := ⟨fuel' - 1, by omega⟩
    rw [generateSpans] at h ⊢
    by_cases h1 : 1 ≤ n
    swap
    · simpa only [if_neg h1] using h
    by_cases hn1 : n - 1 = 0
    · simpa only [if_pos h1, if_pos hn1] using h
    by_cases hn2 : n - 1 - 1 = 0
    · simpa only [if_pos h1, if_neg hn1, if_pos hn2] using h
    by_cases hn3 : n - 1 - 1 - 1 = 0
    · simpa only [if_pos h1, if_neg hn1, if_neg hn2, if_pos hn3, withScope, andThen,
        Option.map_some] using h
    simp only [if_pos h1, if_neg hn1, if_neg hn2, if_neg hn3, withScope, andThen, call,
      Option.map_some, Option.map_eq_some_iff] at h ⊢
    obtain ⟨r₁, ⟨r₂, ⟨r₃, ⟨r₄, h, h₄⟩, h₃⟩, h₂⟩, h₁⟩ := h
    exact ⟨r₁, ⟨r₂, ⟨r₃, ⟨r₄, generateSpans_mono (by omega) h, h₄⟩, h₃⟩, h₂⟩, h₁⟩

/-- `time.sleep` takes an interval of nanoseconds between none and the largest `int64`. -/
theorem timeSleep_interval {interval : ℚ} (h0 : 0 ≤ interval) (h : interval ≤ 2 ^ 63 - 1) :
    timeSleep (interval * 10⁻¹ ^ 9) = none := by
  have hns : interval * 10⁻¹ ^ 9 * 10 ^ 9 = interval := by
    rw [mul_assoc, ← mul_pow, inv_mul_cancel₀ (by norm_num), one_pow, mul_one]
  have hceil : ⌈interval⌉ ≤ 2 ^ 63 - 1 := Int.ceil_le.2 (h.trans_eq (by norm_num))
  have hpos : 0 ≤ ⌈interval⌉ := Int.ceil_nonneg h0
  rw [timeSleep, hns, roundUp, if_pos h0, if_neg (by omega), if_neg (by omega)]

end PythonClient

/-! ## The loop -/

section Loop

variable {generate : ℤ → Client → Option (Option PyError × Client)}
  {sleepFor : ℚ → Option PyError} {flushes : Bool} {args : Args}

/-- Between two passes : the spans sent so far, and no scope open. -/
structure Sent (args : Args) (p : Progress) : Prop where
  nonneg : 0 ≤ p.spansSent
  le : p.spansSent ≤ args.repeats
  batch : Batch args.work [] p.spansSent Client.fresh p.client
  active : p.client.active = []

/-- A `generate_spans` that generates a batch of up to six spans. -/
def Generates (generate : ℤ → Client → Option (Option PyError × Client)) (work : ℤ) : Prop :=
  ∀ n c, 1 ≤ n → n ≤ spansPerLoop → c.active = [] →
    ∃ c', generate n c = some (none, c') ∧ Batch work [] n c c' ∧ c'.active = c.active

/-- A pass before the end sends a batch, or ends in what `time.sleep` raises. -/
theorem batch_more (sleepFor : ℚ → Option PyError) (flushes : Bool)
    (hgen : Generates generate args.work) {p : Progress} (hp : Sent args p)
    (hlt : p.spansSent < args.repeats) :
    (∃ p', batch generate sleepFor flushes args p = some (.more p') ∧ Sent args p' ∧
      p.spansSent < p'.spansSent) ∨
    ∃ r, batch generate sleepFor flushes args p = some (.done r) ∧
      sleepFor args.sleepInterval ≠ none := by
  obtain ⟨n, hn⟩ : ∃ n, n = min (args.repeats - p.spansSent) spansPerLoop := ⟨_, rfl⟩
  have h1 : 1 ≤ n := by
    unfold spansPerLoop at hn
    omega
  obtain ⟨c', hc', hb, ha⟩ := hgen n p.client h1 (by omega) hp.active
  have hsent : ∀ debt sleeps, Sent args ⟨p.spansSent + n, debt, sleeps, c'⟩ := fun debt sleeps =>
    ⟨by have := hp.nonneg; simp only; omega, by simp only; omega, hp.batch.trans hb,
      ha.trans hp.active⟩
  rw [batch, if_pos hlt, ← hn]
  simp only [hc']
  split_ifs
  · cases hsleep : sleepFor args.sleepInterval with
    | none => exact Or.inl ⟨_, rfl, hsent _ _, by simp only; omega⟩
    | some e => exact Or.inr ⟨_, rfl, by simp⟩
  · exact Or.inl ⟨_, rfl, hsent _ _, by simp only; omega⟩

theorem loop_batch (sleepFor : ℚ → Option PyError) (flushes : Bool)
    (hgen : Generates generate args.work) (h0 : 0 ≤ args.repeats) :
    ∃ fuel r, loop (batch generate sleepFor flushes args) fuel Progress.start = some r ∧
      (sleepFor args.sleepInterval = none → r.error = none ∧
        Batch args.work [] args.repeats Client.fresh r.progress.client) := by
  refine ⟨_, loop_of_measure (I := Sent args) (fun p => (args.repeats - p.spansSent).toNat)
    (fun p hp => ?_) ⟨le_rfl, h0, Batch.zero _ _ _ rfl, rfl⟩ (Nat.lt_succ_self _)⟩
  by_cases hlt : p.spansSent < args.repeats
  · rcases batch_more sleepFor flushes hgen hp hlt with ⟨p', hp', hs, hlt'⟩ | ⟨r, hr, hsleep⟩
    · exact Or.inl ⟨p', hp', hs, by omega⟩
    · exact Or.inr ⟨r, hr, fun h => absurd h hsleep⟩
  · have heq : p.spansSent = args.repeats := le_antisymm hp.le (not_lt.1 hlt)
    refine Or.inr ⟨⟨none, flushes, p⟩, ?_, fun _ => ⟨rfl, heq ▸ hp.batch⟩⟩
    rw [batch, if_neg hlt]

theorem batch_mono {generate' : ℤ → Client → Option (Option PyError × Client)}
    (hmono : ∀ n c r, generate n c = some r → generate' n c = some r) {p : Progress}
    {q : Pass Progress Performed} (h : batch generate sleepFor flushes args p = some q) :
    batch generate' sleepFor flushes args p = some q := by
  unfold batch at h ⊢
  by_cases hlt : p.spansSent < args.repeats
  · rw [if_pos hlt] at h ⊢
    cases hg : generate (min (args.repeats - p.spansSent) spansPerLoop) p.client with
    | none => simp [hg] at h
    | some r =>
      simp only [hg] at h
      simp only [hmono _ _ _ hg]
      exact h
  · rwa [if_neg hlt] at h ⊢

/-- A client whose `generate_spans` generates its batches, given some fuel, comes to the
end of `perform_work`, with all its spans if it can sleep. -/
theorem performWork_returns (generate : ℕ → ℤ → Client → Option (Option PyError × Client))
    (sleepFor : ℚ → Option PyError) (flushes : Bool) (k : ℕ)
    (hmono : ∀ m n c r, k ≤ m → generate k n c = some r → generate m n c = some r)
    (hgen : Generates (generate k) args.work) (h0 : 0 ≤ args.repeats) :
    ∃ r, Returns
        (fun fuel => loop (batch (generate fuel) sleepFor flushes args) fuel Progress.start) r ∧
      (sleepFor args.sleepInterval = none → r.error = none ∧
        Batch args.work [] args.repeats Client.fresh r.progress.client) := by
  obtain ⟨fuel, r, hr, h⟩ := loop_batch sleepFor flushes hgen h0
  exact ⟨r, loop_returns (fun m _ _ hle => batch_mono (hmono m · · · hle)) hr, h⟩

end Loop

section Generates

variable {nextParent : ℕ → ℕ → ℕ} {w n : ℤ} {c : Client} {k m : ℕ}

theorem generateSpansWith_generates
    (hnext : ∀ serverSpan dbSpan, nextParent serverSpan dbSpan ∈ [dbSpan, serverSpan]) :
    Generates (fun n c => (generateSpansWith nextParent w 2 n none c).map (none, ·)) w := by
  intro n c h1 hn _
  obtain ⟨c', hc', hb⟩ := generateSpansWith_batch (w := w) hnext 2 none (s := []) c h1 hn (by simp)
  exact ⟨c', Option.map_eq_some_iff.2 ⟨c', hc', rfl⟩, hb⟩

theorem generateSpansWith_map_mono {r : Option PyError × Client} (hle : k ≤ m)
    (h : (generateSpansWith nextParent w k n none c).map (none, ·) = some r) :
    (generateSpansWith nextParent w m n none c).map (none, ·) = some r := by
  obtain ⟨c', hc', rfl⟩ := Option.map_eq_some_iff.1 h
  exact Option.map_eq_some_iff.2 ⟨c', generateSpansWith_mono hle hc', rfl⟩

theorem PythonClient.generateSpans_generates :
    Generates (fun n c => PythonClient.generateSpans w 2 n none c) w :=
  fun _ c h1 hn ha => generateSpans_batch 2 none (s := []) c h1 hn (by simp [ha])

end Generates

/-! ## Exactly the spans asked for -/

/-- From `c` to `c'` a client started `n` spans, finished each of them once and none
before its children, and entered `generate_spans` with positive counts only. -/
structure Generated (n : ℤ) (c c' : Client) : Prop where
  events : ∃ es, c'.events = c.events ++ es ∧ ((started es).length : ℤ) = n ∧ Nested es
  calls : ∃ ks, c'.calls = c.calls ++ ks ∧ ∀ k ∈ ks, 1 ≤ k

theorem Batch.generated {w n : ℤ} (parent : Option ℕ) {c c' : Client}
    (hp : ∀ p ∈ parent, p < c.next) (h : Batch w parent.toList n c c') : Generated n c c' := by
  obtain ⟨es, hes, hrun⟩ := h.ran.events
  refine ⟨⟨es, hes, ?_, nested_of_run ?_ ?_ hrun⟩, h.ran.calls⟩
  · have hle : c.next ≤ c'.next := (stacked_of_run hrun).le
    have hnext := h.next
    rw [started_of_run hrun, List.length_range']
    simp only
    omega
  · cases parent <;> simp
  · simpa using hp

section Generated

variable {n : ℤ} {parent : Option ℕ} {c : Client} {args : Args}

theorem generateSpansWith_generated {nextParent : ℕ → ℕ → ℕ}
    (hnext : ∀ serverSpan dbSpan, nextParent serverSpan dbSpan ∈ [dbSpan, serverSpan]) (w : ℤ)
    (h1 : 1 ≤ n) (hp : ∀ p ∈ parent, p < c.next) :
    ∃ c', Returns (fun fuel => generateSpansWith nextParent w fuel n parent c) c' ∧
      Generated n c c' := by
  obtain ⟨c', hc', hb, -⟩ := generateSpansWith_batch (w := w) hnext n.toNat parent
    (s := parent.toList) c h1 (by omega) (by simp)
  exact ⟨c', ⟨_, fun _ hle => generateSpansWith_mono hle hc'⟩, hb.generated parent hp⟩

theorem PythonClient.generateSpans_generated (w : ℤ) (h1 : 1 ≤ n)
    (hp : ∀ p ∈ parent, p < c.next) (ha : ∀ p ∈ c.active, p < c.next) :
    ∃ c', Returns (fun fuel => generateSpans w fuel n parent c) (none, c') ∧
      Generated n c c' := by
  obtain ⟨c', hc', hb, -⟩ := generateSpans_batch (w := w) n.toNat parent
    (s := (parent.or c.active.head?).toList) c h1 (by omega) (by simp)
  refine ⟨c', ⟨_, fun _ hle => generateSpans_mono hle hc'⟩, hb.generated _ ?_⟩
  intro p hmem
  rcases Option.or_eq_some_iff.1 hmem with h | ⟨-, h⟩
  · exact hp p h
  · exact ha p (List.mem_of_head? h)

/-- `perform_work` of Go and C++, whatever the sleep interval. -/
theorem performWork_generated {nextParent : ℕ → ℕ → ℕ}
    (hnext : ∀ serverSpan dbSpan, nextParent serverSpan dbSpan ∈ [dbSpan, serverSpan])
    (flushes : Bool) (h0 : 0 ≤ args.repeats) :
    ∃ r, Returns (fun fuel => loop
        (batch
          (fun n c => (generateSpansWith nextParent args.work fuel n none c).map (none, ·))
          (fun _ => none) flushes args) fuel Progress.start) r ∧ r.error = none ∧
      Generated args.repeats Client.fresh r.progress.client := by
  obtain ⟨r, hr, hend⟩ := performWork_returns
    (fun fuel n c => (generateSpansWith nextParent args.work fuel n none c).map (none, ·))
    (fun _ => none) flushes 2 (fun _ _ _ _ hle h => generateSpansWith_map_mono hle h)
    (generateSpansWith_generates hnext) h0
  obtain ⟨he, hb⟩ := hend rfl
  exact ⟨r, hr, he, hb.generated none (by simp)⟩

theorem PythonClient.performWork_generated (h0 : 0 ≤ args.repeats) (hi : 0 ≤ args.sleepInterval)
    (hi' : args.sleepInterval ≤ 2 ^ 63 - 1) :
    ∃ r, Returns (PythonClient.performWork args) r ∧ r.error = none ∧
      Generated args.repeats Client.fresh r.progress.client := by
  obtain ⟨r, hr, hend⟩ := performWork_returns
    (fun fuel n c => generateSpans args.work fuel n none c)
    (fun interval => timeSleep (interval * 10⁻¹ ^ 9)) (args.trace ≠ 0 ∧ args.noFlush = 0) 2
    (fun _ _ _ _ hle h => generateSpans_mono hle h) generateSpans_generates h0
  obtain ⟨he, hb⟩ := hend (timeSleep_interval hi hi')
  exact ⟨r, hr, he, hb.generated none (by simp)⟩

/-- `perform_work` comes to its end having started exactly `repeat` spans, for Python when
`time.sleep` takes its sleep interval. So does each call of `generate_spans` from a
positive count, under any span that exists, with the count it is given. -/
theorem clients_generate (args : Args) (hr : 0 ≤ args.repeats) :
    (0 ≤ args.sleepInterval → args.sleepInterval ≤ 2 ^ 63 - 1 →
      ∃ r, Returns (PythonClient.performWork args) r ∧ r.error = none ∧
        Generated args.repeats Client.fresh r.progress.client) ∧
    (∃ r, Returns (GoClient.performWork args) r ∧ r.error = none ∧
      Generated args.repeats Client.fresh r.progress.client) ∧
    (∃ r, Returns (CppClient.performWork args) r ∧ r.error = none ∧
      Generated args.repeats Client.fresh r.progress.client) ∧
    ∀ (n : ℤ) (parent : Option ℕ) (c : Client), 1 ≤ n → (∀ p ∈ parent, p < c.next) →
      (∀ p ∈ c.active, p < c.next) →
      (∃ c', Returns (fun fuel => PythonClient.generateSpans args.work fuel n parent c)
        (none, c') ∧ Generated n c c') ∧
      (∃ c', Returns (fun fuel => GoClient.generateSpans args.work fuel n parent c) c' ∧
        Generated n c c') ∧
      ∃ c', Returns (fun fuel => CppClient.generateSpans args.work fuel n parent c) c' ∧
        Generated n c c' := by
  have hgo : ∀ serverSpan dbSpan : ℕ, serverSpan ∈ [dbSpan, serverSpan] := by simp
  have hcpp : ∀ serverSpan dbSpan : ℕ, dbSpan ∈ [dbSpan, serverSpan] := by simp
  refine ⟨PythonClient.performWork_generated hr, performWork_generated hgo _ hr,
    performWork_generated hcpp _ hr, fun n parent c h1 hp ha => ⟨?_, ?_, ?_⟩⟩
  · exact PythonClient.generateSpans_generated args.work h1 hp ha
  · exact generateSpansWith_generated hgo args.work h1 hp
  · exact generateSpansWith_generated hcpp args.work h1 hp

end Generated

/-- Seven spans, with a sleep after the first six. -/
def sampleArgs (sleepInterval : ℚ) : Args := ⟨1, 30000000, sleepInterval, 5, 7, 0⟩

theorem clients_generate_sample :
    (∃ r, Returns (PythonClient.performWork (sampleArgs (10 ^ 8))) r ∧ r.error = none ∧
      Generated 7 Client.fresh r.progress.client) ∧
    ∃ c', Returns (fun fuel => PythonClient.generateSpans 5 fuel 4 (some 0)
      (Client.fresh.startActiveSpan none)) (none, c') ∧
      Generated 4 (Client.fresh.startActiveSpan none) c' := by
  obtain ⟨hpy, -, -, hcall⟩ := clients_generate (sampleArgs (10 ^ 8)) (by decide)
  refine ⟨hpy (by simp [sampleArgs]) (by norm_num [sampleArgs]), ?_⟩
  exact (hcall 4 (some 0) _ (by decide) (by simp [Client.startActiveSpan, Client.startSpan])
    (by simp [Client.startActiveSpan, Client.startSpan, Client.fresh])).1

/-- A negative interval ends the Python client at its first sleep, one span short. -/
theorem negative_interval_stops :
    (∃ r, Returns (PythonClient.performWork (sampleArgs (-1))) r ∧
      r.error = some .valueError ∧ (started r.progress.client.events).length = 6) ∧
    ¬∃ r, Returns (PythonClient.performWork (sampleArgs (-1))) r ∧
      Generated 7 Client.fresh r.progress.client := by
  have h : (PythonClient.performWork (sampleArgs (-1)) 2).map
      (fun r => (r.error, (started r.progress.client.events).length)) =
        some (some .valueError, 6) := by
    decide +kernel
  obtain ⟨r, hr, hres⟩ := Option.map_eq_some_iff.1 h
  obtain ⟨he, hn⟩ := Prod.mk.inj hres
  have hreturns : Returns (PythonClient.performWork (sampleArgs (-1))) r := loop_returns
    (fun _ _ _ hle => batch_mono fun _ _ _ h => PythonClient.generateSpans_mono hle h) hr
  refine ⟨⟨r, hreturns, he, hn⟩, ?_⟩
  rintro ⟨r', hr', ⟨es, hes, hlen, -⟩, -⟩
  obtain rfl := hreturns.unique hr'
  rw [hes, started_append, List.length_append] at hn
  omega

end TracerBench
