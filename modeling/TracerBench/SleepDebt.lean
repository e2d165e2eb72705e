import Mathlib.Tactic.Linarith
import TracerBench.ClientSpans

/-!
# The sleep debt of the Python, Go and C++ clients

A batch of spans adds its sleep to the debt, and a debt of more than an interval is then
paid off by one interval. One is not always enough : a batch may add more than an
interval, and the excess of every such batch stays in the debt (`full_batches`).

`sleep_debt_iff` says when the debt stays within an interval all the same : when the
excesses of all full batches add up to at most an interval, and with the sleep of the
last, shorter batch to at most two.
-/

namespace TracerBench

/-- The debt after a batch that brought it to `debt`. -/
def settle (interval debt : ℚ) : ℚ :=
  if debt > interval then debt - interval else debt

theorem settle_nonneg {interval debt : ℚ} (hd : 0 ≤ debt) : 0 ≤ settle interval debt := by
  unfold settle
  split_ifs with h
  · linarith
  · exact hd

theorem settle_le_iff {interval debt : ℚ} (hi : 0 ≤ interval) :
    settle interval debt ≤ interval ↔ debt ≤ 2 * interval := by
  unfold settle
  split_ifs with h
  · constructor <;> intro <;> linarith
  · constructor <;> intro <;> linarith

/-- What a full batch adds to the debt beyond an interval. -/
def Args.excess (args : Args) : ℚ :=
  args.sleep * spansPerLoop - args.sleepInterval

/-- The full batches leave an interval of debt at most, and the last batch no more than two
to settle. -/
def Args.SleepsInTime (args : Args) : Prop :=
  ((args.repeats / spansPerLoop : ℤ) : ℚ) * args.excess ≤ args.sleepInterval ∧
    ((args.repeats / spansPerLoop : ℤ) : ℚ) * args.excess +
      args.sleep * (args.repeats % spansPerLoop : ℤ) ≤ 2 * args.sleepInterval

/-- The debt of a client stays within an interval, and its `perform_work` ends, having
asked to sleep for all its spans up to an interval. `pass` is the loop of `performWork`. -/
structure DebtPaid (args : Args) (pass : ℕ → Progress → Option (Pass Progress Performed))
    (performWork : ℕ → Option Performed) : Prop where
  debt : ∀ fuel p, Passes (pass fuel) Progress.start p →
    0 ≤ p.sleepDebt ∧ p.sleepDebt ≤ args.sleepInterval
  total : ∃ r, Returns performWork r ∧ (r.error = none →
    args.repeats * args.sleep - args.sleepInterval ≤ r.progress.sleeps * args.sleepInterval ∧
      r.progress.sleeps * args.sleepInterval ≤ args.repeats * args.sleep)

/-! ## One pass -/

section Pass

variable {generate : ℤ → Client → Option (Option PyError × Client)}
  {sleepFor : ℚ → Option PyError} {flushes : Bool} {args : Args}

/-- What a pass that goes round again does to the debt and the sleeps. -/
structure Repaid (args : Args) (p p' : Progress) : Prop where
  lt : p.spansSent < args.repeats
  spansSent : p'.spansSent = p.spansSent + min (args.repeats - p.spansSent) spansPerLoop
  debt : p'.sleepDebt = settle args.sleepInterval
    (p.sleepDebt + args.sleep * (min (args.repeats - p.spansSent) spansPerLoop : ℤ))
  paid : p'.sleeps * args.sleepInterval + p'.sleepDebt = p.sleeps * args.sleepInterval +
    (p.sleepDebt + args.sleep * (min (args.repeats - p.spansSent) spansPerLoop : ℤ))

/-- A pass leaves the loop once the spans are sent, or with an error, or goes round again. -/
theorem batch_cases {p : Progress} {q : Pass Progress Performed}
    (h : batch generate sleepFor flushes args p = some q) :
    (args.repeats ≤ p.spansSent ∧ q = .done ⟨none, flushes, p⟩) ∨
      (∃ r, q = .done r ∧ r.error ≠ none) ∨ ∃ p', q = .more p' ∧ Repaid args p p' := by
  unfold batch at h
  by_cases hlt : p.spansSent < args.repeats
  · rw [if_pos hlt] at h
    refine Or.inr ?_
    rcases hg : generate (min (args.repeats - p.spansSent) spansPerLoop) p.client with
      _ | ⟨_ | e, c⟩
    · simp [hg] at h
    · simp only [hg] at h
      split_ifs at h with hdebt
      · cases hsleep : sleepFor args.sleepInterval with
        | some e =>
          simp only [hsleep] at h
          exact Or.inl ⟨_, (Option.some.inj h).symm, by simp⟩
        | none =>
          simp only [hsleep] at h
          refine Or.inr ⟨_, (Option.some.inj h).symm, hlt, rfl, by rw [settle, if_pos hdebt], ?_⟩
          push_cast
          ring
      · exact Or.inr ⟨_, (Option.some.inj h).symm, hlt, rfl, by rw [settle, if_neg hdebt], rfl⟩
    · simp only [hg] at h
      exact Or.inl ⟨_, (Option.some.inj h).symm, by simp⟩
  · rw [if_neg hlt] at h
    exact Or.inl ⟨not_lt.1 hlt, (Option.some.inj h).symm⟩

theorem batch_settled {p p' : Progress}
    (h : batch generate sleepFor flushes args p = some (.more p')) : Repaid args p p' := by
  rcases batch_cases h with ⟨-, hq⟩ | ⟨r, hq, -⟩ | ⟨p'', hq, hp⟩
  · cases hq
  · cases hq
  · cases hq
    exact hp

theorem batch_done {p : Progress} {r : Performed}
    (h : batch generate sleepFor flushes args p = some (.done r)) (he : r.error = none) :
    args.repeats ≤ p.spansSent ∧ r.progress = p := by
  rcases batch_cases h with ⟨hle, hq⟩ | ⟨r', hq, hne⟩ | ⟨p', hq, -⟩
  · cases hq
    exact ⟨hle, rfl⟩
  · cases hq
    exact absurd he hne
  · cases hq

/-! ## The states between passes -/

/-- Only the last batch is short, and what is not paid is owed. -/
structure OnTrack (args : Args) (p : Progress) : Prop where
  nonneg : 0 ≤ p.spansSent
  le : p.spansSent ≤ args.repeats
  full : p.spansSent < args.repeats → p.spansSent % spansPerLoop = 0
  paid : p.sleeps * args.sleepInterval + p.sleepDebt = args.sleep * p.spansSent

theorem passes_onTrack (hr : 0 ≤ args.repeats) {p : Progress}
    (h : Passes (batch generate sleepFor flushes args) Progress.start p) : OnTrack args p := by
  induction h with
  | refl => exact ⟨le_rfl, hr, fun _ => rfl, by simp [Progress.start]⟩
  | tail _ hb ih =>
    have hset := batch_settled hb
    have hn := ih.nonneg
    have hle := ih.le
    refine ⟨?_, ?_, fun hlt => ?_, ?_⟩
    · rw [hset.spansSent]
      unfold spansPerLoop
      omega
    · rw [hset.spansSent]
      omega
    · have hfull := ih.full hset.lt
      have hsent := hset.spansSent
      unfold spansPerLoop at *
      omega
    · rw [hset.paid, hset.spansSent, ← add_assoc, ih.paid]
      push_cast
      ring

/-- A batch is full, or the last. -/
theorem OnTrack.batch {p p' : Progress} (h : OnTrack args p) (hset : Repaid args p p') :
    (p.spansSent + spansPerLoop ≤ args.repeats ∧ p'.spansSent = p.spansSent + spansPerLoop ∧
      p'.spansSent / spansPerLoop = p.spansSent / spansPerLoop + 1 ∧
      p'.sleepDebt = settle args.sleepInterval (p.sleepDebt + args.sleep * spansPerLoop)) ∨
    (p'.spansSent = args.repeats ∧ args.repeats % spansPerLoop < spansPerLoop ∧
      p.spansSent / spansPerLoop = args.repeats / spansPerLoop ∧
      p'.sleepDebt = settle args.sleepInterval
        (p.sleepDebt + args.sleep * (args.repeats % spansPerLoop : ℤ))) := by
  have hfull := h.full hset.lt
  have hlt := hset.lt
  have hsent := hset.spansSent
  have hdebt := hset.debt
  rcases le_or_gt (p.spansSent + spansPerLoop) args.repeats with hle | hgt
  · rw [min_eq_right (by omega)] at hsent hdebt
    refine Or.inl ⟨hle, hsent, ?_, hdebt⟩
    unfold spansPerLoop at *
    omega
  · have hlast : args.repeats - p.spansSent = args.repeats % spansPerLoop := by
      unfold spansPerLoop at *
      omega
    rw [min_eq_left (by omega), hlast] at hdebt
    refine Or.inr ⟨by rw [hsent]; omega, ?_, ?_, hdebt⟩
    · unfold spansPerLoop at *
      omega
    · unfold spansPerLoop at *
      omega

theorem Args.sleep_eq (args : Args) :
    args.sleep * spansPerLoop = args.excess + args.sleepInterval := by
  unfold Args.excess
  ring

/-- What is owed is never negative. -/
theorem passes_nonneg (hr : 0 ≤ args.repeats) (hs : 0 ≤ args.sleep) {p : Progress}
    (h : Passes (batch generate sleepFor flushes args) Progress.start p) : 0 ≤ p.sleepDebt := by
  induction h with
  | refl => exact le_rfl
  | @tail p p' hp hb ih =>
    rcases (passes_onTrack hr hp).batch (batch_settled hb) with ⟨-, -, -, hdebt⟩ | ⟨-, -, -, hdebt⟩
    · rw [hdebt]
      exact settle_nonneg (add_nonneg ih (mul_nonneg hs (by norm_num [spansPerLoop])))
    · rw [hdebt]
      refine settle_nonneg (add_nonneg ih (mul_nonneg hs ?_))
      exact_mod_cast Int.emod_nonneg _ (by decide)

/-- Where a batch is longer than an interval, what is owed after full batches is the excess of
each. -/
theorem passes_excess (hr : 0 ≤ args.repeats) (hpos : 0 < args.excess) {p : Progress}
    (h : Passes (batch generate sleepFor flushes args) Progress.start p) :
    p.spansSent < args.repeats →
      p.sleepDebt = (p.spansSent / spansPerLoop : ℤ) * args.excess := by
  induction h with
  | refl => exact fun _ => by simp [Progress.start]
  | @tail p p' hp hb ih =>
    intro hlt
    have hset := batch_settled hb
    have hexcess := ih hset.lt
    have htrack := passes_onTrack hr hp
    rcases htrack.batch hset with ⟨-, -, hdiv, hdebt⟩ | ⟨hsent, -⟩
    · -- the batch before it left its own excess, so an interval is repaid now
      have hk : (0 : ℚ) ≤ (p.spansSent / spansPerLoop : ℤ) := by
        exact_mod_cast Int.ediv_nonneg htrack.nonneg (by decide)
      have howed : 0 ≤ p.sleepDebt := by
        rw [hexcess]
        exact mul_nonneg hk hpos.le
      rw [args.sleep_eq] at hdebt
      rw [hdebt, settle, if_pos (by linarith), hexcess, hdiv]
      push_cast
      ring
    · exact absurd hsent hlt.ne

/-- With the condition, the debt is within an interval between all passes. -/
theorem passes_debt (hr : 0 ≤ args.repeats) (hs : 0 ≤ args.sleep) (hi : 0 < args.sleepInterval)
    (hcond : args.SleepsInTime) {p : Progress}
    (h : Passes (batch generate sleepFor flushes args) Progress.start p) :
    p.sleepDebt ≤ args.sleepInterval := by
  induction h with
  | refl => exact hi.le
  | @tail p p' hp hb hle =>
    have hset := batch_settled hb
    obtain ⟨hfull, hlast⟩ := hcond
    have howed := args.sleep_eq
    rcases (passes_onTrack hr hp).batch hset with
      ⟨hmore, -, hdiv, hdebt⟩ | ⟨-, hmod, hdiv, hdebt⟩ <;>
      rw [hdebt, settle_le_iff hi.le]
    · rcases le_or_gt args.excess 0 with hneg | hpos
      · linarith
      · -- the condition leaves room for the excess of this batch too
        have hk : p.spansSent / spansPerLoop + 1 ≤ args.repeats / spansPerLoop := by
          rw [← hdiv, hset.spansSent, min_eq_right (by omega)]
          exact Int.ediv_le_ediv (by decide) hmore
        have hroom : (((p.spansSent / spansPerLoop : ℤ) : ℚ) + 1) * args.excess ≤
            (args.repeats / spansPerLoop : ℤ) * args.excess :=
          mul_le_mul_of_nonneg_right (by exact_mod_cast hk) hpos.le
        rw [passes_excess hr hpos hp hset.lt]
        linarith
    · rcases le_or_gt args.excess 0 with hneg | hpos
      · have hshort : args.sleep * (args.repeats % spansPerLoop : ℤ) ≤
            args.sleep * spansPerLoop :=
          mul_le_mul_of_nonneg_left (by exact_mod_cast hmod.le) hs
        linarith
      · rw [passes_excess hr hpos hp hset.lt, hdiv]
        exact hlast

/-- As long as the batches are full, the excess of each stays in the debt. -/
theorem full_batches (flushes : Bool) (hgen : Generates generate args.work)
    (hsleep : sleepFor args.sleepInterval = none) (hr : 0 ≤ args.repeats)
    (hpos : 0 < args.excess) : ∀ k : ℕ, (k : ℤ) ≤ args.repeats / spansPerLoop →
      ∃ p, Passes (batch generate sleepFor flushes args) Progress.start p ∧ Sent args p ∧
        p.spansSent = k * spansPerLoop ∧ p.sleepDebt = k * args.excess
  | 0, _ => ⟨Progress.start, .refl, ⟨le_rfl, hr, Batch.zero _ _ _ rfl, rfl⟩, by
      simp [Progress.start], by simp [Progress.start]⟩
  | k + 1, hk => by
    obtain ⟨p, hp, hsent, hspans, hdebt⟩ :=
      full_batches flushes hgen hsleep hr hpos k (by push_cast at hk; omega)
    have hlt : p.spansSent + spansPerLoop ≤ args.repeats := by
      rw [hspans]
      unfold spansPerLoop at *
      push_cast at hk
      omega
    obtain ⟨p', hp', hsent', -⟩ := (batch_more sleepFor flushes hgen hsent (by
      unfold spansPerLoop at hlt
      omega)).resolve_right fun ⟨_, _, hne⟩ => hne hsleep
    have hset := batch_settled hp'
    have hmin : min (args.repeats - p.spansSent) spansPerLoop = spansPerLoop :=
      min_eq_right (by omega)
    have hover : p.sleepDebt + args.sleep * spansPerLoop =
        (k + 1) * args.excess + args.sleepInterval := by
      rw [hdebt, args.sleep_eq]
      ring
    refine ⟨p', hp.tail hp', hsent', ?_, ?_⟩
    · rw [hset.spansSent, hmin, hspans]
      push_cast
      ring
    · have hk' : 0 < ((k : ℚ) + 1) * args.excess := mul_pos (by positivity) hpos
      rw [hset.debt, hmin, hover, settle, if_pos (by linarith)]
      push_cast
      ring

/-- Without the condition some pass leaves more than an interval of debt. -/
theorem exists_debt (hgen : Generates generate args.work)
    (hsleep : sleepFor args.sleepInterval = none) (hr : 0 ≤ args.repeats) (hs : 0 ≤ args.sleep)
    (hi : 0 < args.sleepInterval) (hcond : ¬args.SleepsInTime) :
    ∃ p, Passes (batch generate sleepFor flushes args) Progress.start p ∧
      args.sleepInterval < p.sleepDebt := by
  obtain ⟨m, hm⟩ : ∃ m : ℕ, (m : ℤ) = args.repeats / spansPerLoop :=
    ⟨_, Int.toNat_of_nonneg (Int.ediv_nonneg hr (by decide))⟩
  have hmod : args.repeats % spansPerLoop < spansPerLoop := Int.emod_lt_of_pos _ (by decide)
  have hmod0 : 0 ≤ args.repeats % spansPerLoop := Int.emod_nonneg _ (by decide)
  have hshort : args.sleep * (args.repeats % spansPerLoop : ℤ) ≤ args.sleep * spansPerLoop :=
    mul_le_mul_of_nonneg_left (by exact_mod_cast hmod.le) hs
  have hdef := args.sleep_eq
  rw [Args.SleepsInTime, ← hm, Int.cast_natCast] at hcond
  have hpos : 0 < args.excess := by
    by_contra hneg
    have hall : (m : ℚ) * args.excess ≤ 0 :=
      mul_nonpos_of_nonneg_of_nonpos (by positivity) (not_lt.1 hneg)
    exact hcond ⟨by linarith, by linarith⟩
  obtain ⟨p, hp, hsent, hspans, hdebt⟩ :=
    full_batches flushes hgen hsleep hr hpos m hm.le
  rcases lt_or_ge args.sleepInterval p.sleepDebt with hlt | hle
  · exact ⟨p, hp, hlt⟩
  · -- the full batches are paid for, so it is the last batch
    rw [hdebt] at hle
    have hlast : 2 * args.sleepInterval <
        (m : ℚ) * args.excess + args.sleep * (args.repeats % spansPerLoop : ℤ) := by
      by_contra hge
      exact hcond ⟨hle, not_lt.1 hge⟩
    have hne : args.repeats % spansPerLoop ≠ 0 := by
      intro h0
      rw [h0, Int.cast_zero, mul_zero] at hlast
      linarith
    have hrest : args.repeats - p.spansSent = args.repeats % spansPerLoop := by
      rw [hspans, hm]
      unfold spansPerLoop
      omega
    obtain ⟨p', hp', -, -⟩ := (batch_more sleepFor flushes hgen hsent (by omega)).resolve_right
      fun ⟨_, _, hne⟩ => hne hsleep
    refine ⟨p', hp.tail hp', ?_⟩
    rw [(batch_settled hp').debt, hrest, min_eq_left hmod.le, hdebt]
    by_contra hge
    have htwo := (settle_le_iff hi.le).1 (not_lt.1 hge)
    linarith

end Pass

/-! ## The three clients -/

/-- The loop of `perform_work` of the Python client. -/
def PythonClient.pass (args : Args) (fuel : ℕ) :
    Progress → Option (Pass Progress Performed) :=
  batch (fun n c => PythonClient.generateSpans args.work fuel n none c)
    (fun interval => PythonClient.timeSleep (interval * 10⁻¹ ^ 9))
    (args.trace ≠ 0 ∧ args.noFlush = 0) args

/-- The loop of `performWork` of the Go client. -/
def GoClient.pass (args : Args) (fuel : ℕ) : Progress → Option (Pass Progress Performed) :=
  batch (fun n c => (GoClient.generateSpans args.work fuel n none c).map (none, ·))
    (fun _ => none) (args.trace ≠ 0 ∧ args.noFlush ≠ 1) args

/-- The loop of `perform_work` of the C++ client. -/
def CppClient.pass (args : Args) (fuel : ℕ) : Progress → Option (Pass Progress Performed) :=
  batch (fun n c => (CppClient.generateSpans args.work fuel n none c).map (none, ·))
    (fun _ => none) (args.noFlush ≠ 1) args

section DebtPaid

variable (generate : ℕ → ℤ → Client → Option (Option PyError × Client)) {args : Args}
  {sleepFor : ℚ → Option PyError} {flushes : Bool}

theorem debtPaid (hgen : Generates (generate 2) args.work)
    (hmono : ∀ m n c r, 2 ≤ m → generate 2 n c = some r → generate m n c = some r)
    (hr : 0 ≤ args.repeats) (hs : 0 ≤ args.sleep) (hi : 0 < args.sleepInterval)
    (hcond : args.SleepsInTime) :
    DebtPaid args (fun fuel => batch (generate fuel) sleepFor flushes args)
      (fun fuel => loop (batch (generate fuel) sleepFor flushes args) fuel Progress.start) := by
  refine ⟨fun fuel p hp => ⟨passes_nonneg hr hs hp, passes_debt hr hs hi hcond hp⟩, ?_⟩
  obtain ⟨r, ⟨n, hn⟩, -⟩ := performWork_returns generate sleepFor flushes 2 hmono hgen hr
  refine ⟨r, ⟨n, hn⟩, fun he => ?_⟩
  obtain ⟨p, hp, hdone⟩ := loop_passes (hn n (Nat.le_refl n))
  obtain ⟨hle, hprogress⟩ := batch_done hdone he
  have hnonneg := passes_nonneg hr hs hp
  have hdebt := passes_debt hr hs hi hcond hp
  have htrack := passes_onTrack hr hp
  have hpaid := htrack.paid
  rw [le_antisymm htrack.le hle] at hpaid
  rw [hprogress]
  constructor <;> linarith

theorem debtPaid_iff (hgen : Generates (generate 2) args.work)
    (hmono : ∀ m n c r, 2 ≤ m → generate 2 n c = some r → generate m n c = some r)
    (hsleep : sleepFor args.sleepInterval = none) (hr : 0 ≤ args.repeats) (hs : 0 ≤ args.sleep)
    (hi : 0 < args.sleepInterval) :
    DebtPaid args (fun fuel => batch (generate fuel) sleepFor flushes args)
        (fun fuel => loop (batch (generate fuel) sleepFor flushes args) fuel Progress.start) ↔
      args.SleepsInTime := by
  refine ⟨fun h => ?_, debtPaid generate hgen hmono hr hs hi⟩
  by_contra hcond
  obtain ⟨p, hp, hlt⟩ := exists_debt hgen hsleep hr hs hi hcond
  exact absurd hlt (not_lt.2 (h.debt 2 p hp).2)

end DebtPaid

section Clients

variable {args : Args} (hr : 0 ≤ args.repeats) (hs : 0 ≤ args.sleep)
  (hi : 0 < args.sleepInterval)
include hr hs hi

theorem PythonClient.debtPaid (hcond : args.SleepsInTime) :
    DebtPaid args (PythonClient.pass args) (PythonClient.performWork args) :=
  TracerBench.debtPaid (fun fuel n c => generateSpans args.work fuel n none c)
    generateSpans_generates (fun _ _ _ _ hle h => generateSpans_mono hle h) hr hs hi hcond

theorem PythonClient.debtPaid_iff (hi' : args.sleepInterval ≤ 2 ^ 63 - 1) :
    DebtPaid args (PythonClient.pass args) (PythonClient.performWork args) ↔
      args.SleepsInTime :=
  TracerBench.debtPaid_iff (fun fuel n c => generateSpans args.work fuel n none c)
    generateSpans_generates (fun _ _ _ _ hle h => generateSpans_mono hle h)
    (timeSleep_interval hi.le hi') hr hs hi

theorem GoClient.debtPaid_iff :
    DebtPaid args (GoClient.pass args) (GoClient.performWork args) ↔ args.SleepsInTime :=
  TracerBench.debtPaid_iff
    (fun fuel n c => (GoClient.generateSpans args.work fuel n none c).map (none, ·))
    (generateSpansWith_generates (by simp)) (fun _ _ _ _ hle h => generateSpansWith_map_mono hle h)
    rfl hr hs hi

theorem CppClient.debtPaid_iff :
    DebtPaid args (CppClient.pass args) (CppClient.performWork args) ↔ args.SleepsInTime :=
  TracerBench.debtPaid_iff
    (fun fuel n c => (CppClient.generateSpans args.work fuel n none c).map (none, ·))
    (generateSpansWith_generates (by simp)) (fun _ _ _ _ hle h => generateSpansWith_map_mono hle h)
    rfl hr hs hi

end Clients

/-- The three clients keep their debt within an interval, and sleep for all their spans up to
an interval, if and only if the excesses of the full batches leave room for it. The same goes
for each of them, and for Python where `time.sleep` takes the interval. -/
theorem sleep_debt_iff (args : Args) (hr : 0 ≤ args.repeats) (hs : 0 ≤ args.sleep)
    (hi : 0 < args.sleepInterval) :
    (DebtPaid args (PythonClient.pass args) (PythonClient.performWork args) ∧
        DebtPaid args (GoClient.pass args) (GoClient.performWork args) ∧
        DebtPaid args (CppClient.pass args) (CppClient.performWork args) ↔
      args.SleepsInTime) ∧
    (args.sleepInterval ≤ 2 ^ 63 - 1 →
      (DebtPaid args (PythonClient.pass args) (PythonClient.performWork args) ↔
        args.SleepsInTime)) ∧
    (DebtPaid args (GoClient.pass args) (GoClient.performWork args) ↔ args.SleepsInTime) ∧
    (DebtPaid args (CppClient.pass args) (CppClient.performWork args) ↔ args.SleepsInTime) := by
  have hgo := GoClient.debtPaid_iff hr hs hi
  have hcpp := CppClient.debtPaid_iff hr hs hi
  refine ⟨⟨fun h => hgo.1 h.2.1, fun h => ⟨PythonClient.debtPaid hr hs hi h, hgo.2 h, hcpp.2 h⟩⟩,
    PythonClient.debtPaid_iff hr hs hi, hgo, hcpp⟩

/-- Ten spans with the default interval. -/
def slowArgs (sleep : ℚ) : Args := ⟨0, sleep, 10 ^ 8, 200000, 10, 0⟩

theorem sleep_debt_sample :
    DebtPaid (slowArgs (10 ^ 7)) (PythonClient.pass (slowArgs (10 ^ 7)))
        (PythonClient.performWork (slowArgs (10 ^ 7))) ∧
      DebtPaid (slowArgs (10 ^ 7)) (GoClient.pass (slowArgs (10 ^ 7)))
        (GoClient.performWork (slowArgs (10 ^ 7))) ∧
      DebtPaid (slowArgs (10 ^ 7)) (CppClient.pass (slowArgs (10 ^ 7)))
        (CppClient.performWork (slowArgs (10 ^ 7))) :=
  (sleep_debt_iff (slowArgs (10 ^ 7)) (by decide) (by norm_num [slowArgs])
    (by norm_num [slowArgs])).1.2
    (by norm_num [Args.SleepsInTime, Args.excess, slowArgs, spansPerLoop])

/-- One span a second at 70% : each asks for 300 ms of sleep. Of the three seconds for ten
spans the client sleeps two tenths. -/
theorem slow_spans_stay_in_debt :
    ¬DebtPaid (slowArgs (3 * 10 ^ 8)) (GoClient.pass (slowArgs (3 * 10 ^ 8)))
        (GoClient.performWork (slowArgs (3 * 10 ^ 8))) ∧
      ∃ r, Returns (GoClient.performWork (slowArgs (3 * 10 ^ 8))) r ∧ r.error = none ∧
        r.progress.sleeps = 2 := by
  constructor
  · intro h
    have hcond := (GoClient.debtPaid_iff (by decide) (by norm_num [slowArgs])
      (by norm_num [slowArgs])).1 h
    norm_num [Args.SleepsInTime, Args.excess, slowArgs, spansPerLoop] at hcond
  · have h : (GoClient.performWork (slowArgs (3 * 10 ^ 8)) 3).map
        (fun r => (r.error, r.progress.sleeps)) = some (none, 2) := by
      decide +kernel
    obtain ⟨r, hr, hres⟩ := Option.map_eq_some_iff.1 h
    obtain ⟨he, hn⟩ := Prod.mk.inj hres
    exact ⟨r, loop_returns (fun _ _ _ hle => batch_mono fun _ _ _ h =>
      generateSpansWith_map_mono hle h) hr, he, hn⟩

end TracerBench
