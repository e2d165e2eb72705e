import TracerBench.Benchmark
import Mathlib.Algebra.BigOperators.Group.Finset.Piecewise

/-!
# Whose spans a result counts

The counters carry no run identity : a report of one client that a handler thread adds
after the next benchmark's first reset is counted in that benchmark's result. This is what
`late_report_counted` shows. `benchmark_attribution` says what holds in spite of it : a
result never counts a span of a later client, or a span twice, and its own spans are at
most those sent; and if the satellites had added the reports of earlier clients before
they answered the first reset, it counts its own client's spans only.
-/

namespace TracerBench

variable {Span : Type*}

/-! ## Reports -/

/-- The spans of a request, if it is a report. -/
def reportSpans (parse : List UInt8 → Option (List Span)) (path : String)
    (binaryBody : List UInt8) : List Span :=
  if path = "/api/v2/reports" then (parse binaryBody).getD [] else []

namespace Satellite

/-- The spans of the requests so far. -/
def requestedSpans (parse : List UInt8 → Option (List Span)) (es : List (SatEvent Span)) :
    List Span :=
  (requests es).flatMap fun r => reportSpans parse r.1 r.2

/-- The spans of the add steps so far. -/
def addedSpans (es : List (SatEvent Span)) : List Span :=
  (adds es).flatMap Prod.snd

theorem addedSpans_append (es es' : List (SatEvent Span)) :
    addedSpans (es ++ es') = addedSpans es ++ addedSpans es' := by
  rw [addedSpans, adds_append, List.flatMap_append]
  rfl

/-- Each report is added at most once, so what was added was requested, as often. -/
theorem countP_addedSpans_le [DecidableEq Span] {parse : List UInt8 → Option (List Span)}
    {mode : Mode} {es : List (SatEvent Span)} {s : Satellite Span}
    (h : run (Satellite.step parse mode) .init es = some s) (q : Span → Bool) :
    (addedSpans es).countP q ≤ (requestedSpans parse es).countP q := by
  -- both sides as sums over the numbers of the requests
  let f : ℕ → ℕ := fun i =>
    (((requests es)[i]?.map fun r => reportSpans parse r.1 r.2).getD []).countP q
  have hadds : (addedSpans es).countP q = ((added es).map f).sum := by
    rw [addedSpans, List.countP_flatMap, added, List.map_map]
    refine congrArg List.sum (List.map_congr_left fun x hx => ?_)
    obtain ⟨r, hr, hpath, hparse, -⟩ := adds_valid h hx
    simp [f, hr, reportSpans, hpath, hparse]
  have hrequests : (requestedSpans parse es).countP q =
      ((List.range (requests es).length).map f).sum := by
    rw [requestedSpans, List.countP_flatMap]
    refine congrArg List.sum (List.ext_getElem (by simp) fun i hi hi' => ?_)
    have hi : i < (requests es).length := by simpa using hi
    simp [f, hi]
  have hsub : added es ⊆ List.range (requests es).length := by
    intro i hi
    obtain ⟨x, hx, rfl⟩ := List.mem_map.1 hi
    obtain ⟨r, hr, -⟩ := adds_valid h hx
    exact List.mem_range.2 (List.getElem?_eq_some_iff.1 hr).1
  obtain ⟨l, hperm, hl⟩ := (added_nodup h).subperm hsub
  rw [hadds, hrequests, ← (hperm.map f).sum_eq]
  exact (hl.map f).sum_le_sum fun _ _ => Nat.zero_le _

end Satellite

namespace GroupSys

/-! ## Where a counted span comes from -/

variable {es : List (GroupEvent Span)}

theorem mem_ledger {p : ℕ} {sp : Span} (h : sp ∈ ledger p es) :
    ∃ a i spans b, es = a ++ .sat p (.post i (.add spans)) :: b ∧ sp ∈ spans ∧
      ∀ n, GroupEvent.answer .reset p n ∉ b := by
  induction es using List.reverseRecOn with
  | nil => simp [ledger] at h
  | append_singleton es e ih =>
    -- a span counted before is still followed by no reset
    have hold : sp ∈ ledger p es → (∀ n, e ≠ .answer .reset p n) →
        ∃ a i spans b, es ++ [e] = a ++ .sat p (.post i (.add spans)) :: b ∧ sp ∈ spans ∧
          ∀ n, GroupEvent.answer .reset p n ∉ b := by
      intro hsp he
      obtain ⟨a, i, spans, b, rfl, hspans, hb⟩ := ih hsp
      refine ⟨a, i, spans, b ++ [e], by simp, hspans, fun n hn => ?_⟩
      rcases List.mem_append.1 hn with hn | hn
      · exact hb n hn
      · exact he n (List.mem_singleton.1 hn).symm
    rw [ledger_snoc] at h
    unfold ledgerStep at h
    split at h
    · next q i spans =>
      split_ifs at h with hq
      · rcases List.mem_append.1 h with h | h
        · exact hold h (by simp)
        · exact ⟨es, i, spans, [], by rw [hq], h, by simp⟩
      · exact hold h (by simp)
    · next q n =>
      split_ifs at h with hq
      · simp at h
      · exact hold h (by simp [hq])
    · next h₁ h₂ =>
      exact hold h fun n he => h₂ p n he

theorem mem_collected {sp : Span} (h : sp ∈ collected es) :
    ∃ a p n b, es = a ++ .answer .get p n :: b ∧ sp ∈ ledger p a ∧
      ∀ c, GroupEvent.call c ∉ b := by
  induction es using List.reverseRecOn with
  | nil => simp [collected] at h
  | append_singleton es e ih =>
    have hold : sp ∈ collected es → (∀ c, e ≠ .call c) →
        ∃ a p n b, es ++ [e] = a ++ .answer .get p n :: b ∧ sp ∈ ledger p a ∧
          ∀ c, GroupEvent.call c ∉ b := by
      intro hsp he
      obtain ⟨a, p, n, b, rfl, hled, hb⟩ := ih hsp
      refine ⟨a, p, n, b ++ [e], by simp, hled, fun c hc => ?_⟩
      rcases List.mem_append.1 hc with hc | hc
      · exact hb c hc
      · exact he c (List.mem_singleton.1 hc).symm
    rw [collected_snoc] at h
    unfold collectedStep at h
    split at h
    · simp at h
    · next p n =>
      rcases List.mem_append.1 h with h | h
      · exact hold h (by simp)
      · exact ⟨es, p, n, [], rfl, h, by simp⟩
    · next h₁ h₂ => exact hold h h₁

/-- The spans a step of satellite `p` adds. -/
def addedBy (p : ℕ) : GroupEvent Span → List Span
  | .sat q (.post _ (.add spans)) => if q = p then spans else []
  | _ => []

theorem addedSpans_snoc (p : ℕ) (es : List (GroupEvent Span)) (e : GroupEvent Span) :
    Satellite.addedSpans (satTrace p (es ++ [e])) =
      Satellite.addedSpans (satTrace p es) ++ addedBy p e := by
  rw [satTrace_append, Satellite.addedSpans_append]
  congr 1
  rcases e with ⟨q, _ | ⟨i, _ | _ | spans | _ | _⟩ | _ | _⟩ | _
  case sat.post.add | sat.accept | sat.acceptGet | sat.get | sat.post.parse | sat.post.wake |
      sat.post.respond | sat.post.hangUp =>
    by_cases hq : q = p <;> simp [satTrace, hq, Satellite.addedSpans, Satellite.adds, addedBy]
  all_goals rfl

theorem ledgerStep_eq {p : ℕ} {l : List Span} {e : GroupEvent Span} :
    ledgerStep p l e = [] ∨ ledgerStep p l e = l ++ addedBy p e := by
  rcases e with ⟨q, _ | ⟨i, _ | _ | spans | _ | _⟩ | _ | _⟩ | _ | _ | _ | ⟨_ | _, q, n⟩ | _
  case sat.post.add => by_cases hq : q = p <;> simp [ledgerStep, addedBy, hq]
  case answer.reset => by_cases hq : q = p <;> simp [ledgerStep, addedBy, hq]
  all_goals exact Or.inr (List.append_nil l).symm

/-- A ledger is the end of what its satellite has added. -/
theorem ledger_suffix (p : ℕ) (es : List (GroupEvent Span)) :
    ledger p es <:+ Satellite.addedSpans (satTrace p es) := by
  induction es using List.reverseRecOn with
  | nil => exact List.suffix_rfl
  | append_singleton es e ih =>
    rw [ledger_snoc, addedSpans_snoc]
    rcases ledgerStep_eq (p := p) (l := ledger p es) (e := e) with h | h
    · rw [h]
      exact List.nil_suffix
    · obtain ⟨u, hu⟩ := ih
      exact ⟨u, by rw [h, ← hu, List.append_assoc]⟩

/-- A get collects, from each satellite that answered, no more than the satellite added. -/
theorem countP_collected_le (q : Span → Bool) (es : List (GroupEvent Span)) :
    (collected es).countP q ≤
      ((answers es).map fun a => (Satellite.addedSpans (satTrace a.1 es)).countP q).sum := by
  induction es using List.reverseRecOn with
  | nil => exact le_rfl
  | append_singleton es e ih =>
    -- what was added before is still there
    have hmono : ∀ p, (Satellite.addedSpans (satTrace p es)).countP q ≤
        (Satellite.addedSpans (satTrace p (es ++ [e]))).countP q := by
      intro p
      rw [addedSpans_snoc, List.countP_append]
      exact Nat.le_add_right _ _
    have hold : (collected es).countP q ≤ ((answers es).map fun a =>
        (Satellite.addedSpans (satTrace a.1 (es ++ [e]))).countP q).sum :=
      ih.trans (List.sum_le_sum fun a _ => hmono a.1)
    rw [collected_snoc, answers_snoc]
    unfold collectedStep answersStep
    split
    · exact Nat.zero_le _
    · next p n =>
      have hledger := ((ledger_suffix p es).sublist.countP_le (p := q)).trans (hmono p)
      rw [List.countP_append, List.map_append, List.sum_append]
      simpa using Nat.add_le_add hold hledger
    · next h₁ h₂ =>
      split
      · exact absurd rfl (h₁ _)
      · rw [List.map_append, List.sum_append]
        exact hold.trans (Nat.le_add_right _ _)
      · exact hold

/-- The spans of all reports so far. -/
def reported (parse : List UInt8 → Option (List Span)) (es : List (GroupEvent Span)) : List Span :=
  es.flatMap fun
    | .sat _ (.accept path binaryBody) => reportSpans parse path binaryBody
    | _ => []

theorem reported_append (parse : List UInt8 → Option (List Span))
    (es es' : List (GroupEvent Span)) :
    reported parse (es ++ es') = reported parse es ++ reported parse es' :=
  List.flatMap_append

/-- Each report was sent to one satellite. -/
theorem sum_requestedSpans_le (parse : List UInt8 → Option (List Span)) (q : Span → Bool) (k : ℕ)
    (es : List (GroupEvent Span)) :
    ∑ p ∈ Finset.range k, (Satellite.requestedSpans parse (satTrace p es)).countP q ≤
      (reported parse es).countP q := by
  induction es with
  | nil => simp [satTrace, Satellite.requestedSpans, Satellite.requests]
  | cons e es ih =>
    have hsplit : ∀ p, (Satellite.requestedSpans parse (satTrace p (e :: es))).countP q =
        (Satellite.requestedSpans parse (satTrace p [e])).countP q +
          (Satellite.requestedSpans parse (satTrace p es)).countP q := by
      intro p
      rw [← List.singleton_append, satTrace_append, Satellite.requestedSpans,
        Satellite.requests_append, List.flatMap_append, List.countP_append]
      rfl
    have hreported : (reported parse (e :: es)).countP q =
        (reported parse [e]).countP q + (reported parse es).countP q := by
      rw [← List.singleton_append, reported_append, List.countP_append]
    simp only [hsplit, Finset.sum_add_distrib, hreported]
    refine Nat.add_le_add ?_ ih
    rcases e with ⟨r, ⟨path, body⟩ | _ | _ | _⟩ | _
    case sat.accept =>
      have hone : ∀ p, (Satellite.requestedSpans parse
          (satTrace p [.sat r (.accept path body)])).countP q =
            if r = p then (reportSpans parse path body).countP q else 0 := by
        intro p
        split_ifs with hr <;> simp [satTrace, hr, Satellite.requestedSpans, Satellite.requests]
      simp only [hone, Finset.sum_ite_eq]
      split_ifs
      · simp [reported]
      · exact Nat.zero_le _
    case sat.post | sat.acceptGet | sat.get =>
      refine (Finset.sum_eq_zero fun p _ => ?_).trans_le (Nat.zero_le _)
      by_cases hr : r = p <;> simp [satTrace, hr, Satellite.requestedSpans, Satellite.requests]
    all_goals
      refine (Finset.sum_eq_zero fun p _ => ?_).trans_le (Nat.zero_le _)
      rfl

end GroupSys

namespace Bench

variable [DecidableEq Span] {parse : List UInt8 → Option (List Span)} {runOf : Span → ℕ}
  {mode : Mode} {ports : List ℕ} {es : List (BenchEvent Span)} {s : Bench Span}

/-- Only clients launched so far have reported. -/
theorem runOf_reported_le (h : run (Bench.step parse runOf) (init mode ports) es = some s) :
    ∀ sp ∈ GroupSys.reported parse (groupTrace es), runOf sp ≤ s.launched := by
  refine run_induction (P := fun es (m : Bench Span) =>
    ∀ sp ∈ GroupSys.reported parse (groupTrace es), runOf sp ≤ m.launched)
    (by simp [groupTrace, GroupSys.reported]) ?_ h
  intro es m e m' _ ih he
  rcases step_cases he with ⟨n, rfl, -, rfl⟩ | ⟨n, rfl, -, rfl⟩ | ⟨n, rfl, -, -, rfl⟩ |
    ⟨x, g, rfl, hx, hg, rfl⟩
  · simpa [groupTrace] using ih
  · exact fun sp hsp => (ih sp (by simpa [groupTrace] using hsp)).trans (Nat.le_succ _)
  · simpa [groupTrace] using ih
  · rw [groupTrace_group, after_launched]
    intro sp hsp
    rw [GroupSys.reported_append] at hsp
    rcases List.mem_append.1 hsp with hsp | hsp
    · exact ih sp hsp
    · rcases x with ⟨q, ⟨path, body⟩ | _ | _ | _⟩ | _
      case sat.accept =>
        -- the report was let in because its client had been launched
        simp only [allows, List.all_eq_true, decide_eq_true_eq] at hx
        refine hx sp ?_
        simp only [GroupSys.reported, List.flatMap_cons, List.flatMap_nil, List.append_nil,
          reportSpans] at hsp
        split_ifs at hsp
        · exact hsp
        · simp at hsp
      all_goals simp [GroupSys.reported] at hsp

/-- Nobody starts or stops a satellite. -/
def Unmanaged (es : List (BenchEvent Span)) : Prop :=
  ∀ x, GroupSys.OfAdmin x → BenchEvent.group x ∉ es

/-- With distinct ports and nobody starting satellites, no process answers in place of
another, and the group stays as it was constructed. -/
theorem unmanaged (hports : ports.Nodup)
    (h : run (Bench.step parse runOf) (init mode ports) es = some s) (hes : Unmanaged es) :
    s.group.group = List.range ports.length ∧
      ∀ c p q n, BenchEvent.group (.answerFrom c p q n) ∉ es := by
  suffices hports : s.group.ports = ports ∧
      s.group.group = List.range ports.length ∧
      ∀ c p q n, BenchEvent.group (.answerFrom c p q n) ∉ es from hports.2
  refine run_induction (P := fun es (m : Bench Span) => Unmanaged es →
    m.group.ports = ports ∧ m.group.group = List.range ports.length ∧
      ∀ c p q n, BenchEvent.group (.answerFrom c p q n) ∉ es) ?_ ?_ h hes
  · intro _
    refine ⟨?_, rfl, by simp⟩
    simp [init, GroupSys.constructed, GroupSys.ports, Spawned.fresh, Function.comp_def]
  intro es m e m' _ ih he hes
  obtain ⟨hmap, hgroup, hown⟩ := ih fun x hof hx => hes x hof (by simp [hx])
  rcases step_cases he with ⟨n, rfl, -, rfl⟩ | ⟨n, rfl, -, rfl⟩ | ⟨n, rfl, -, -, rfl⟩ |
    ⟨x, g, rfl, hx, hg, rfl⟩
  · exact ⟨hmap, hgroup, by simpa using hown⟩
  · exact ⟨hmap, hgroup, by simpa using hown⟩
  · exact ⟨hmap, hgroup, by simpa using hown⟩
  · have hof : ¬GroupSys.OfAdmin x := fun hof => hes x hof (by simp)
    rw [after_group]
    have hspawn : ∀ port, x ≠ .spawn port := by
      rintro port rfl
      exact hof trivial
    refine ⟨(GroupSys.step_ports hg hspawn).trans hmap, ?_, fun c p q n hmem => ?_⟩
    · rw [GroupSys.group, ((GroupSys.step_admin hg).resolve_left hof).2, ← hgroup, GroupSys.group]
    · rcases List.mem_append.1 hmem with hmem | hmem
      · exact hown c p q n hmem
      · obtain rfl := BenchEvent.group.inj (List.mem_singleton.1 hmem).symm
        obtain ⟨-, -, o, w, -, ho, halive, hw, hwalive, hport, -⟩ := GroupSys.step_answerFrom hg
        -- two processes on one port are one process
        have hpq : p = q := by
          refine (List.getElem?_inj (l := ports) ?_ hports).1 ?_
          · rw [← hmap, GroupSys.ports, List.length_map]
            exact (List.getElem?_eq_some_iff.1 ho).1
          · rw [← hmap, GroupSys.ports, List.getElem?_map, List.getElem?_map, ho, hw,
              Option.map_some, Option.map_some, hport]
        subst hpq
        obtain rfl : o = w := Option.some.inj (ho.symm.trans hw)
        simp [halive] at hwalive

/-- Each report of an earlier client than `k` that a satellite added so far, it had added
when it last answered a reset. -/
def Settled (runOf : Span → ℕ) (k : ℕ) (es : List (GroupEvent Span)) : Prop :=
  ∀ a p i spans b, es = a ++ .sat p (.post i (.add spans)) :: b → (∃ sp ∈ spans, runOf sp < k) →
    ∃ n, GroupEvent.answer .reset p n ∈ b

/-- What a get collects from settled satellites is of the last client. -/
theorem collected_own {t g : GroupSys Span} {es : List (GroupEvent Span)} {k : ℕ}
    (h : run (GroupSys.step parse) t es = some g) (hset : Settled runOf k es) {sp : Span}
    (hsp : sp ∈ GroupSys.collected es) : k ≤ runOf sp := by
  by_contra hlt
  obtain ⟨a, p, n, b, rfl, hled, hcall⟩ := GroupSys.mem_collected hsp
  obtain ⟨c, i, spans, d, rfl, hspans, hreset⟩ := GroupSys.mem_ledger hled
  obtain ⟨n', hn'⟩ := hset c p i spans (d ++ .answer .get p n :: b) (by simp)
    ⟨sp, hspans, not_le.1 hlt⟩
  -- no reset between the add step and the get, and none in the rest of the get
  obtain ⟨m, m', -, hget, hb⟩ := run_split h
  obtain ⟨todo, r, o, hc, -, -, rfl⟩ := GroupSys.step_answer hget
  rcases List.mem_append.1 hn' with hn' | hn'
  · exact hreset n' hn'
  · rcases List.mem_cons.1 hn' with hn' | hn'
    · simp at hn'
    · exact GroupSys.reset_answer_notMem hb (by simp [Caller.call?]) (hcall .reset) p n' hn'

/-- What a get collects was reported, no span more often than it was. -/
theorem countP_collected_le_reported (hbooks : Books parse es s)
    (hans : (GroupSys.answers (groupTrace es)).map Prod.fst = List.range ports.length)
    (q : Span → Bool) :
    (GroupSys.collected (groupTrace es)).countP q ≤
      (GroupSys.reported parse (groupTrace es)).countP q := by
  refine (GroupSys.countP_collected_le q _).trans ?_
  have hsum : ((GroupSys.answers (groupTrace es)).map fun a =>
      (Satellite.addedSpans (GroupSys.satTrace a.1 (groupTrace es))).countP q).sum =
      ∑ p ∈ Finset.range ports.length,
        (Satellite.addedSpans (GroupSys.satTrace p (groupTrace es))).countP q := by
    refine congrArg List.sum ?_
    rw [← hans, List.map_map]
    rfl
  rw [hsum]
  refine (Finset.sum_le_sum fun p _ => ?_).trans
    (GroupSys.sum_requestedSpans_le parse q ports.length _)
  rcases ho : s.group.spawned[p]? with _ | o
  · have hnil := (hbooks.accounts.unborn p (List.getElem?_eq_none_iff.1 ho)).1
    rw [hnil]
    exact Nat.zero_le _
  · exact Satellite.countP_addedSpans_le (hbooks.accounts.account p o ho).sat_run q

end Bench

open Bench GroupSys in
/-- A result counts no span of a later client and no span twice, and of its own client at
most those sent. It counts its own client's spans only, if the reports of earlier clients
had been added when the satellites answered the benchmark's first reset. -/
theorem benchmark_attribution [DecidableEq Span] (parse : List UInt8 → Option (List Span))
    (runOf : Span → ℕ) (mode : Mode) {ports : List ℕ} (hports : ports.Nodup)
    {es : List (BenchEvent Span)} {s : Bench Span}
    (h : run (Bench.step parse runOf) (init mode ports) es = some s) (hes : Unmanaged es)
    (hone : (reported parse (groupTrace es)).Nodup)
    (hsent : ∀ x ∈ s.results,
      ((reported parse (groupTrace es)).toFinset.filter fun sp => runOf sp = x.1).card ≤
        x.2.spansSent) :
    ∀ x ∈ s.results, ∃ a m b, es = a ++ .group (.returned .get x.2.spansReceived) :: b ∧
      run (Bench.step parse runOf) (init mode ports) a = some m ∧
      m.pc = .reading x.2.spansSent ∧ m.launched = x.1 ∧
      (answers (groupTrace a)).map Prod.fst = List.range ports.length ∧
      x.2.spansReceived = (harvest a).length ∧
      (harvest a).Nodup ∧ (∀ sp ∈ harvest a, runOf sp ≤ x.1) ∧
      (harvest a).countP (fun sp => runOf sp = x.1) ≤ x.2.spansSent ∧
      (Settled runOf x.1 (groupTrace a) → (∀ sp ∈ harvest a, runOf sp = x.1) ∧
        x.2.spansReceived ≤ x.2.spansSent ∧ 0 ≤ x.2.droppedSpans) := by
  obtain ⟨-, hown⟩ := unmanaged hports h hes
  intro x hx
  obtain ⟨a, m, b, rfl, hm, hpc, hk, hans, hv, hharvest⟩ := ((results_read h).1 x hx).harvest hown
  obtain ⟨hgroup, hown'⟩ := unmanaged hports hm fun y hof hy => hes y hof (by simp [hy])
  have hbooks := books hm hown'
  rw [hgroup] at hans
  -- the reports so far are a part of all reports
  have hcount : ∀ q : Span → Bool, (harvest a).countP q ≤ (reported parse
      (groupTrace (a ++ .group (.returned .get x.2.spansReceived) :: b))).countP q := by
    intro q
    rw [hharvest]
    refine (countP_collected_le_reported hbooks hans q).trans ?_
    rw [groupTrace_append, reported_append, List.countP_append]
    exact Nat.le_add_right _ _
  have hle : ∀ sp ∈ harvest a, runOf sp ≤ x.1 := by
    intro sp hsp
    rw [← hk]
    refine runOf_reported_le hm sp ?_
    have hpos := countP_collected_le_reported hbooks hans (· == sp)
    rw [hharvest] at hsp
    exact List.count_pos_iff.1 ((List.count_pos_iff.2 hsp).trans_le hpos)
  have hmine : (harvest a).countP (fun sp => runOf sp = x.1) ≤ x.2.spansSent := by
    refine (hcount _).trans (le_trans (le_of_eq ?_) (hsent x hx))
    rw [List.countP_eq_length_filter, ← List.toFinset_card_of_nodup (hone.filter _),
      List.toFinset_filter]
    simp
  refine ⟨a, m, b, rfl, hm, hpc, hk, hans, hv, ?_, hle, hmine, fun hset => ?_⟩
  · exact List.nodup_iff_count.2 fun sp => (hcount (· == sp)).trans (List.nodup_iff_count.1 hone sp)
  · have hall : ∀ sp ∈ harvest a, runOf sp = x.1 := fun sp hsp =>
      le_antisymm (hle sp hsp) (collected_own (group_run hm) hset (hharvest ▸ hsp))
    have hlen : (harvest a).length ≤ x.2.spansSent := by
      rwa [List.countP_eq_length.2 (by simpa using hall)] at hmine
    refine ⟨hall, ?_, ?_⟩
    · rw [hv]
      exact_mod_cast hlen
    · rw [Result.droppedSpans, hv]
      omega

/-- The client a sample span belongs to is its first byte. -/
def sampleRunOf (span : List UInt8) : ℕ :=
  (span.headD 0).toNat

/-- The first client's report is still in its handler thread when the next benchmark has
reset the satellite. -/
def sampleLate : List (BenchEvent (List UInt8)) :=
  sampleBenchmark 0 0 0 0 [.sat 0 (.accept "/api/v2/reports" [26, 1, 1])] ++
  sampleBenchmark 0 0 2 2
    [.sat 0 (.post 0 .parse), .sat 0 (.post 0 .wake), .sat 0 (.post 0 (.add [[1]])),
      .sat 0 (.accept "/api/v2/reports" [26, 1, 2]), .sat 0 (.post 1 .parse),
      .sat 0 (.post 1 .wake), .sat 0 (.post 1 (.add [[2]])), .sat 0 (.post 0 (.respond 200)),
      .sat 0 (.post 1 (.respond 200))]

/-- The second result counts the first client's span as well, and more than was sent. -/
theorem late_report_counted :
    ∃ s, run (Bench.step parseSpans sampleRunOf) (Bench.init .typical [8360]) sampleLate = some s ∧
      s.results = [(1, ⟨1, 0⟩), (2, ⟨1, 2⟩)] ∧
      (⟨1, 2⟩ : Result).droppedSpans = -1 ∧
      GroupSys.reported parseSpans (Bench.groupTrace sampleLate) = [[1], [2]] :=
  ⟨_, rfl, rfl, rfl, rfl⟩

theorem benchmark_attribution_sample :
    ∃ a b, sampleLate = a ++ .group (.returned .get 2) :: b ∧
      (Bench.harvest a).Nodup ∧ (∀ sp ∈ Bench.harvest a, sampleRunOf sp ≤ 2) ∧
      (Bench.harvest a).countP (fun sp => sampleRunOf sp = 2) ≤ 1 := by
  have hunmanaged : Bench.Unmanaged sampleLate := by
    intro x hof hx
    cases x <;> simp_all [sampleLate, sampleBenchmark, GroupSys.OfAdmin]
  obtain ⟨s, hrun, hres⟩ : ∃ s, run (Bench.step parseSpans sampleRunOf)
      (Bench.init .typical [8360]) sampleLate = some s ∧
      s.results = [(1, ⟨1, 0⟩), (2, ⟨1, 2⟩)] := ⟨_, rfl, rfl⟩
  have hreported : GroupSys.reported parseSpans (Bench.groupTrace sampleLate) = [[1], [2]] := rfl
  have hone : (GroupSys.reported parseSpans (Bench.groupTrace sampleLate)).Nodup := by
    rw [hreported]
    decide
  have hsent : ∀ x ∈ s.results, ((GroupSys.reported parseSpans
      (Bench.groupTrace sampleLate)).toFinset.filter fun sp => sampleRunOf sp = x.1).card ≤
        x.2.spansSent := by
    rw [hreported, hres]
    decide
  have hx : ((2, ⟨1, 2⟩) : ℕ × Result) ∈ s.results := by
    rw [hres]
    simp
  obtain ⟨a, m, b, hes, -, -, -, -, -, hnodup, hle, hown, -⟩ := benchmark_attribution parseSpans
    sampleRunOf .typical (by simp) hrun hunmanaged hone hsent _ hx
  exact ⟨a, b, hes, hnodup, hle, hown⟩

end TracerBench
