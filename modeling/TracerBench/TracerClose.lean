import TracerBench.TracerBooks

/-!
# The end of the Go tracer

`Close` waits for the report loop to close its channel, flushes, and closes the connection.
The loop closes the channel when it sees that `Close` has been called. When it first sees that
the tracer is disabled it returns without closing it, and `Close` waits for ever : with a
background context nothing else ends its wait. `close_returns_iff` says that there is no other
way to lose it.
-/

namespace TracerBench

namespace GoTracer

variable {Span : Type*} {capacity : ℕ} {opts : TracerOptions} {t t' : GoTracer Span capacity}
  {e : TracerEvent Span}

/-- Where the report loop and `Close` can be at a time. -/
structure Control (t : GoTracer Span capacity) : Prop where
  loopFlush : ∀ pc, t.flush = some (.loop, pc) → t.loop = .flushing
  closeFlush : ∀ pc, t.flush = some (.close, pc) → t.closing = .flushing
  closed : t.closing = .flushing ∨ t.closing = .flushed ∨ t.closing = .closed → t.loop = .closed
  returned : t.loop = .returned → t.disabled = true
  connected : t.connected = true ∨ t.closing = .closed

theorem Control.createTracer (now : ℕ) :
    Control (GoTracer.createTracer now : GoTracer Span capacity) :=
  ⟨by simp [GoTracer.createTracer], by simp [GoTracer.createTracer],
    by simp [GoTracer.createTracer], by simp [GoTracer.createTracer], Or.inl rfl⟩

/-- A step of the client or of `Flush` leaves the loop and `Close` where they are. -/
theorem Control.inside (h : Control t) (hloop : t'.loop = t.loop) (hclose : t'.closing = t.closing)
    (hconn : t'.connected = t.connected) (hdis : t.disabled = true → t'.disabled = true)
    (hflush : ∀ who pc, t'.flush = some (who, pc) → ∃ pc', t.flush = some (who, pc')) :
    Control t' := by
  refine ⟨fun pc hpc => ?_, fun pc hpc => ?_, ?_, ?_, ?_⟩
  · obtain ⟨pc', hpc'⟩ := hflush _ _ hpc
    rw [hloop, h.loopFlush pc' hpc']
  · obtain ⟨pc', hpc'⟩ := hflush _ _ hpc
    rw [hclose, h.closeFlush pc' hpc']
  · rw [hloop, hclose]
    exact h.closed
  · rw [hloop]
    exact fun hret => hdis (h.returned hret)
  · rw [hconn, hclose]
    exact h.connected

/-- `Flush` returns to its caller. -/
theorem Control.leave (h : Control t) (who : Flusher) (hat : t.atFlush who = true)
    (hfree : t.flush = none) : Control (t.leaveFlush who) := by
  cases who with
  | loop =>
    have hloop : t.loop = .flushing := by simpa [atFlush] using hat
    refine ⟨by simp [hfree], by simp [hfree], fun hclose => ?_, by simp [leaveFlush],
      h.connected⟩
    exact absurd (h.closed hclose) (by simp [hloop])
  | close =>
    have hclose : t.closing = .flushing := by simpa [atFlush] using hat
    refine ⟨by simp [hfree], by simp [hfree], fun _ => h.closed (Or.inl hclose), h.returned, ?_⟩
    exact Or.inl (h.connected.resolve_right (by simp [hclose]))

theorem recordSpan_eq (t : GoTracer Span capacity) (raw : Span) (sampled : Bool) :
    ∃ b, t.recordSpan raw sampled = { t with buffer := b } := by
  unfold recordSpan
  split_ifs
  · exact ⟨t.buffer, rfl⟩
  · exact ⟨_, rfl⟩

theorem disable_eq (t : GoTracer Span capacity) : t.disable.disabled = true := by
  unfold disable
  split_ifs with h
  · exact h
  · rfl

theorem Control.step (h : Control t) (he : t.step opts e = some t') : Control t' := by
  cases stepped he with
  | record raw sampled =>
    obtain ⟨b, hb⟩ := recordSpan_eq t raw sampled
    rw [hb]
    exact h.inside rfl rfl rfl id fun _ pc hf => ⟨pc, hf⟩
  | tick now pc hloop hpc =>
    refine ⟨fun pc' hf => ?_, h.closeFlush, fun hclose => ?_, ?_, h.connected⟩
    · exact absurd (h.loopFlush pc' hf) (by simp [hloop])
    · exact absurd (h.closed hclose) (by simp [hloop])
    · rintro rfl
      simpa using hpc
  | loopClosed hloop hclose =>
    exact ⟨fun pc hf => absurd (h.loopFlush pc hf) (by simp [hloop]), h.closeFlush, fun _ => rfl,
      by simp, h.connected⟩
  | close hclose =>
    exact ⟨h.loopFlush, fun pc hf => absurd (h.closeFlush pc hf) (by simp [hclose]), by simp,
      h.returned, Or.inl (h.connected.resolve_right (by simp [hclose]))⟩
  | loopSeen hclose hloop =>
    exact ⟨h.loopFlush, fun _ _ => rfl, fun _ => hloop, h.returned,
      Or.inl (h.connected.resolve_right (by simp [hclose]))⟩
  | refused who now hat hfree => exact h.leave who hat hfree
  | swapped who now hat =>
    refine ⟨fun pc hf => ?_, fun pc hf => ?_, h.closed, h.returned, h.connected⟩
    · cases hf
      simpa [atFlush] using hat
    · cases hf
      simpa [atFlush] using hat
  | translate who n hflush | translateFailed who n hflush | report who req reply hflush =>
    refine h.inside rfl rfl rfl id fun who' pc hf => ?_
    cases hf
    exact ⟨_, hflush⟩
  | disable who err hflush =>
    have hsame : t.disable.loop = t.loop ∧ t.disable.closing = t.closing ∧
        t.disable.connected = t.connected := by
      unfold GoTracer.disable
      split_ifs <;> exact ⟨rfl, rfl, rfl⟩
    refine h.inside hsame.1 hsame.2.1 hsame.2.2 (fun _ => disable_eq t) fun who' pc hf => ?_
    cases hf
    exact ⟨_, hflush⟩
  | postFlush who err hflush =>
    have hinner : Control { (t.postFlush err).2 with
        flush := none
        status := (t.postFlush err).2.status ++ [(t.postFlush err).1] } := by
      refine h.inside ?_ ?_ ?_ ?_ (by simp) <;> rcases err with _ | err <;>
        simp [GoTracer.postFlush]
    refine hinner.leave who ?_ rfl
    cases who with
    | loop =>
      have hloop := h.loopFlush _ hflush
      rcases err with _ | err <;> exact decide_eq_true hloop
    | close =>
      have hclose := h.closeFlush _ hflush
      rcases err with _ | err <;> exact decide_eq_true hclose
  | disconnect hclose =>
    exact ⟨h.loopFlush, fun pc hf => absurd (h.closeFlush pc hf) (by simp [hclose]),
      fun _ => h.closed (Or.inr (Or.inl hclose)), h.returned, Or.inr rfl⟩

theorem control_run {now : ℕ} {es : List (TracerEvent Span)}
    (h : run (GoTracer.step opts) (GoTracer.createTracer now) es = some t) : Control t :=
  run_invariant (I := Control) (.createTracer now) (fun _ _ _ hm he => hm.step he) h

/-! ## A loop that has returned -/

/-- Once the loop has returned it has nothing left to do, and `Close` waits for it. -/
theorem returned_step (h : Control t) (hloop : t.loop = .returned) (he : t.step opts e = some t') :
    t'.loop = .returned := by
  have hidle : ∀ pc, t.flush ≠ some (.loop, pc) := fun pc hf => by
    simp [h.loopFlush pc hf] at hloop
  have hclose : t.closing ≠ .flushing := fun hc => by
    simp [h.closed (Or.inl hc)] at hloop
  cases stepped he with
  | record raw sampled =>
    obtain ⟨b, hb⟩ := recordSpan_eq t raw sampled
    rw [hb]
    exact hloop
  | tick _ _ hwait | loopClosed hwait => simp [hwait] at hloop
  | close | loopSeen | swapped | translate | translateFailed | report | disconnect => exact hloop
  | refused who now hat =>
    cases who with
    | loop => simp [of_decide_eq_true hat] at hloop
    | close => exact hloop
  | disable =>
    unfold disable
    split_ifs <;> exact hloop
  | postFlush who err hflush =>
    cases who with
    | loop => exact absurd hflush (hidle _)
    | close => exact absurd (h.closeFlush _ hflush) hclose

theorem returned_run {es : List (TracerEvent Span)} (h : Control t) (hloop : t.loop = .returned)
    (hrun : run (GoTracer.step opts) t es = some t') : t'.closing ≠ .closed := by
  obtain ⟨hc, hret⟩ := run_invariant (I := fun m : GoTracer Span capacity =>
    Control m ∧ m.loop = .returned) ⟨h, hloop⟩
    (fun m e m' hm he => ⟨hm.1.step he, returned_step hm.1 hm.2 he⟩) hrun
  intro hclosed
  simp [hc.closed (Or.inr (Or.inr hclosed))] at hret

/-! ## A loop that has not -/

/-- `Flush` has returned to its caller, with `Close` where it was before. -/
def FlushEnded (who : Flusher) (closing : ClosePc) (t : GoTracer Span capacity) : Prop :=
  t.flush = none ∧
    match who with
    | .loop => t.loop = .waiting ∧ t.closing = closing
    | .close => t.closing = .flushed

theorem reaches_of_finishing {who : Flusher} {err : Option FlushError}
    (hflush : t.flush = some (who, .finishing err)) :
    Reaches (GoTracer.step opts) t (FlushEnded who t.closing) := by
  refine Reaches.cons (e := .postFlush) (by rw [GoTracer.step, hflush])
    (Reaches.refl ⟨leaveFlush_flush who, ?_⟩)
  cases who with
  | loop => rcases err with _ | err <;> exact ⟨rfl, rfl⟩
  | close => rfl

/-- A `Flush` under way comes to its end. -/
theorem reaches_of_flush {who : Flusher} (pc : FlushPc Span) (hflush : t.flush = some (who, pc)) :
    Reaches (GoTracer.step opts) t (FlushEnded who t.closing) := by
  have hreport : ∀ (s : GoTracer Span capacity) req, s.flush = some (who, .reporting req) →
      Reaches (GoTracer.step opts) s (FlushEnded who s.closing) := by
    intro s req hs
    have hstep : s.step opts (.report (.response false false)) = some { s with
        sent := s.sent ++ [(req, .response false false)]
        flush := some (who, .finishing none) } := by
      rw [GoTracer.step, hs]
      rfl
    exact Reaches.cons hstep (reaches_of_finishing rfl)
  rcases pc with _ | req | err | err
  · have hstep : t.step opts (.translate 0) = some { t.encode 0 with
        flush := some (who, .reporting (t.encode 0).flushing.toReportRequest) } := by
      rw [GoTracer.step, hflush]
    exact Reaches.cons hstep (hreport _ _ rfl)
  · exact hreport t req hflush
  · have hsame : t.disable.closing = t.closing := by
      unfold disable
      split_ifs <;> rfl
    rw [← hsame]
    have hstep : t.step opts .disable =
        some { t.disable with flush := some (who, .finishing err) } := by
      rw [GoTracer.step, hflush]
    exact Reaches.cons hstep (reaches_of_finishing rfl)
  · exact reaches_of_finishing hflush

/-- A caller of `Flush` comes to its end, whether it finds something to send or not. -/
theorem reaches_flushed (who : Flusher) (hat : t.atFlush who = true) (hfree : t.flush = none) :
    Reaches (GoTracer.step opts) t (FlushEnded who t.closing) := by
  by_cases hoff : t.disabled = true ∨ t.connected = false
  · refine Reaches.cons (e := .flush who 0) (t := t.leaveFlush who) ?_ (Reaches.refl ?_)
    · simp only [GoTracer.step, hat, hfree, preFlush]
      rcases hoff with hoff | hoff
      · simp [hoff]
      · by_cases hdis : t.disabled = true <;> simp [hdis, hoff]
    · refine ⟨by rw [leaveFlush_flush, hfree], ?_⟩
      cases who with
      | loop => exact ⟨rfl, rfl⟩
      | close => rfl
  · obtain ⟨hon, hconn⟩ := not_or.1 hoff
    have hstep : t.step opts (.flush who 0) = some { t with
        buffer := t.flushing.setCurrent 0
        flushing := t.buffer.setFlushing 0
        reportInFlight := true
        lastReportAttempt := 0
        flush := some (who, .swapped) } := by
      simp only [GoTracer.step, hat, hfree, preFlush, if_neg hon, if_neg hconn, and_self, if_true]
    exact Reaches.cons hstep (reaches_of_flush .swapped rfl)

theorem reaches_of_flushed (hclose : t.closing = .flushed) :
    Reaches (GoTracer.step opts) t fun r => r.closing = .closed :=
  Reaches.cons (e := .disconnect) (by rw [GoTracer.step, if_pos hclose]) (Reaches.refl rfl)

/-- `Close` flushes and disconnects. -/
theorem reaches_closed (hclose : t.closing = .flushing) (hfree : t.flush = none) :
    Reaches (GoTracer.step opts) t fun r => r.closing = .closed :=
  (reaches_flushed .close (decide_eq_true hclose) hfree).bind fun _ hr => reaches_of_flushed hr.2

/-- A loop that has closed its channel is seen by `Close`. -/
theorem reaches_of_seen (hloop : t.loop = .closed) (hclose : t.closing = .waiting)
    (hfree : t.flush = none) : Reaches (GoTracer.step opts) t fun r => r.closing = .closed := by
  have hseen : t.step opts .loopSeen = some { t with closing := .flushing } := by
    rw [GoTracer.step, if_pos ⟨hclose, hloop⟩]
  exact Reaches.cons hseen (reaches_closed rfl hfree)

/-- A loop that waits sees that `Close` has been called. -/
theorem reaches_of_waiting (hloop : t.loop = .waiting) (hclose : t.closing = .waiting)
    (hfree : t.flush = none) : Reaches (GoTracer.step opts) t fun r => r.closing = .closed := by
  have hclosed : t.step opts .loopClosed = some { t with loop := .closed } := by
    rw [GoTracer.step, if_pos ⟨hloop, by simp [hclose]⟩]
  exact Reaches.cons hclosed (reaches_of_seen rfl hclose hfree)

/-! ## What `Close` leaves -/

/-- The client does not record a span after it has called `Close`. -/
def Quiet (es : List (TracerEvent Span)) : Prop :=
  es.Pairwise fun e e' => e = .close → ∀ raw, e' ≠ .record raw true

/-- No span is in the buffer, and none counted as lost. -/
def Empty (b : ReportBuffer Span capacity) : Prop :=
  b.rawSpans = [] ∧ b.dropped = .zero

/-- What is in the buffer while `Close` flushes, and after. -/
structure Drained (t : GoTracer Span capacity) : Prop where
  last : ∀ who err, t.flush = some (who, .finishing err) →
    ∃ r, t.sent.getLast? = some r ∧ r.2.flushError = err
  flushing : ∀ pc, t.flush = some (.close, pc) → Empty t.buffer
  flushed : t.closing = .flushed ∨ t.closing = .closed →
    ∃ r, t.sent.getLast? = some r ∧ (r.2.flushError = none → Empty t.buffer)

theorem Drained.quiet (h : Drained t) (hbuffer : t'.buffer = t.buffer)
    (hflush : t'.flush = t.flush) (hsent : t'.sent = t.sent)
    (hclose : t'.closing = .flushed ∨ t'.closing = .closed →
      t.closing = .flushed ∨ t.closing = .closed) : Drained t' := by
  refine ⟨?_, ?_, fun hc => ?_⟩
  · rw [hflush, hsent]
    exact h.last
  · rw [hflush, hbuffer]
    exact h.flushing
  · rw [hsent, hbuffer]
    exact h.flushed (hclose hc)

/-- `Flush` goes on, with the reports sent that were sent. -/
theorem Drained.within (h : Drained t) (hc : Control t) {who : Flusher} {pc pc' : FlushPc Span}
    (hflush : t.flush = some (who, pc)) (hbuffer : t'.buffer = t.buffer)
    (hflush' : t'.flush = some (who, pc')) (hclose : t'.closing = t.closing)
    (hlast : ∀ err, pc' = .finishing err →
      ∃ r, t'.sent.getLast? = some r ∧ r.2.flushError = err) : Drained t' := by
  refine ⟨fun who' err hf => ?_, fun pc'' hf => ?_, fun hfl => ?_⟩
  · rw [hflush'] at hf
    cases hf
    exact hlast err rfl
  · rw [hflush'] at hf
    cases hf
    rw [hbuffer]
    exact h.flushing pc hflush
  · rw [hclose] at hfl
    have hclosed := hc.closed (Or.inr hfl)
    cases who with
    | loop => simp [hc.loopFlush pc hflush] at hclosed
    | close => simp [hc.closeFlush pc hflush] at hfl

/-- In a clean run `Close` finds the tracer connected and enabled. -/
theorem Drained.step (h : Drained t) {es : List (TracerEvent Span)} (hphase : Phased es t)
    (hc : Control t) (hon : t.disabled = false) (hclean : Clean [e])
    (hquiet : ∀ raw, e = .record raw true → t.closing = .uncalled) (he : t.step opts e = some t') :
    Drained t' := by
  cases stepped he with
  | record raw sampled =>
    cases sampled with
    | false =>
      have hskip : t.recordSpan raw false = t := if_pos (Or.inr rfl)
      rwa [hskip]
    | true =>
      obtain ⟨b, hb⟩ := recordSpan_eq t raw true
      have huncalled := hquiet raw rfl
      rw [hb]
      refine ⟨h.last, fun pc hf => ?_, by simp [huncalled]⟩
      simp [hc.closeFlush pc hf] at huncalled
  | tick | loopClosed => exact h.quiet rfl rfl rfl id
  | close | loopSeen => exact h.quiet rfl rfl rfl (by simp)
  | refused who now hat hfree hoff =>
    cases who with
    | loop => exact h.quiet rfl rfl rfl id
    | close =>
      have hclose : t.closing = .flushing := of_decide_eq_true hat
      have hconn := hc.connected.resolve_right (by simp [hclose])
      simp [hon, hconn] at hoff
  | swapped who now hat hfree =>
    refine ⟨by simp, fun _ _ => hphase.empty hfree, fun hfl => ?_⟩
    have hclosed := hc.closed (Or.inr hfl)
    cases who with
    | loop => simp [of_decide_eq_true hat] at hclosed
    | close => simp [show t.closing = .flushing from of_decide_eq_true hat] at hfl
  | translate who n hflush => exact h.within hc hflush rfl rfl rfl (by simp)
  | translateFailed who n => exact absurd (List.mem_singleton.2 rfl) (hclean.2 n)
  | report who req reply hflush =>
    refine h.within hc hflush rfl rfl rfl fun err herr => ⟨(req, reply), by simp, ?_⟩
    split_ifs at herr
    exact FlushPc.finishing.inj herr
  | disable => exact absurd (List.mem_singleton.2 rfl) hclean.1
  | postFlush who err hflush =>
    obtain ⟨r, hr, herr⟩ := h.last who err hflush
    have hsent : (t.postFlush err).2.sent = t.sent := by rcases err with _ | err <;> rfl
    refine ⟨by simp, by simp, fun hfl => ⟨r, ?_, fun hack => ?_⟩⟩
    · rw [leaveFlush_sent, hsent, hr]
    · obtain rfl : err = none := by rw [← herr, hack]
      rw [leaveFlush_buffer]
      cases who with
      | close => exact h.flushing _ hflush
      | loop =>
        have hclosed := hc.closed (Or.inr hfl)
        simp [hc.loopFlush _ hflush] at hclosed
  | disconnect hclose => exact h.quiet rfl rfl rfl fun _ => Or.inl hclose

/-- A `Close` that has returned leaves nothing in `flushing`. -/
theorem Control.settled (hc : Control t) {es : List (TracerEvent Span)} (hphase : Phased es t)
    (hclosed : t.closing = .closed) :
    t.flush = none ∧ t.pending = 0 ∧ t.pendingDropped = 0 := by
  have hfree : t.flush = none := by
    rcases hflush : t.flush with _ | ⟨_ | _, pc⟩
    · rfl
    · have hloop := hc.closed (Or.inr (Or.inr hclosed))
      simp [hc.loopFlush pc hflush] at hloop
    · simp [hc.closeFlush pc hflush] at hclosed
  obtain ⟨hspans, hdropped⟩ := hphase.empty hfree
  refine ⟨hfree, ?_, ?_⟩
  · simp [pending, hspans]
  · simp [pendingDropped, hdropped]

theorem close_mem {now : ℕ} {es : List (TracerEvent Span)}
    (h : run (GoTracer.step opts) (GoTracer.createTracer now) es = some t)
    (hcalled : t.closing ≠ .uncalled) : .close ∈ es := by
  refine run_induction (P := fun es (t : GoTracer Span capacity) =>
    t.closing ≠ .uncalled → .close ∈ es) (fun h => absurd rfl h) ?_ h hcalled
  intro es m e m' hm ih he hcalled
  have hc := control_run hm
  by_cases hold : m.closing = .uncalled
  case neg => exact List.mem_append_left _ (ih hold)
  cases stepped he with
  | close => simp
  | record raw sampled =>
    obtain ⟨b, hb⟩ := recordSpan_eq m raw sampled
    rw [hb] at hcalled
    exact absurd hold hcalled
  | tick | loopClosed | swapped | translate | translateFailed | report => exact absurd hold hcalled
  | loopSeen hclose | disconnect hclose => simp [hclose] at hold
  | refused who now hat =>
    cases who with
    | loop => exact absurd hold hcalled
    | close => simp [show m.closing = .flushing from of_decide_eq_true hat] at hold
  | disable =>
    refine absurd ?_ hcalled
    unfold GoTracer.disable
    split_ifs <;> exact hold
  | postFlush who err hflush =>
    cases who with
    | loop => exact absurd (by rcases err with _ | err <;> exact hold) hcalled
    | close => simp [hc.closeFlush _ hflush] at hold

theorem drained_run {now : ℕ} {es : List (TracerEvent Span)}
    (h : run (GoTracer.step opts) (GoTracer.createTracer now) es = some t) (hclean : Clean es)
    (hquiet : Quiet es) : Drained t := by
  refine run_induction (P := fun es (t : GoTracer Span capacity) =>
    Clean es → Quiet es → Drained t)
    (fun _ _ => ⟨by simp [createTracer], by simp [createTracer], by simp [createTracer]⟩) ?_ h
    hclean hquiet
  intro es m e m' hm ih he hclean hquiet
  obtain ⟨hphase, lost, discarded, hb⟩ := books hm
  refine (ih hclean.of_append (List.pairwise_append.1 hquiet).1).step hphase (control_run hm)
    (hb.clean hclean.of_append).1 ⟨fun hmem => ?_, fun n hmem => ?_⟩ (fun raw hraw => ?_) he
  · exact hclean.1 (List.mem_append_right _ hmem)
  · exact hclean.2 n (List.mem_append_right _ hmem)
  · by_contra hcalled
    have hlater := (List.pairwise_append.1 hquiet).2.2 .close (close_mem hm hcalled) e (by simp)
    exact hlater rfl raw hraw

end GoTracer

open GoTracer in
/-- Once `Close` has been called it can still return unless the report loop has found the
tracer disabled. Then it never does. -/
theorem close_returns_iff {Span : Type*} {capacity : ℕ} (opts : TracerOptions) (now : ℕ)
    {es : List (TracerEvent Span)} {t : GoTracer Span capacity}
    (h : run (GoTracer.step opts) (createTracer now) es = some t)
    (hcalled : t.closing ≠ .uncalled) :
    (∃ es' t', run (GoTracer.step opts) t es' = some t' ∧ t'.closing = .closed) ↔
      t.loop ≠ .returned := by
  have hc := control_run h
  constructor
  · rintro ⟨es', t', hrun, hclosed⟩ hret
    exact returned_run hc hret hrun hclosed
  intro hloop
  change Reaches (GoTracer.step opts) t fun r => r.closing = .closed
  rcases hclose : t.closing
  case uncalled => exact absurd hclose hcalled
  case waiting =>
    rcases hflush : t.flush with _ | ⟨_ | _, pc⟩
    · rcases hpc : t.loop
      · exact reaches_of_waiting hpc hclose hflush
      · refine (reaches_flushed .loop (decide_eq_true hpc) hflush).bind fun r hr => ?_
        exact reaches_of_waiting hr.2.1 (hr.2.2.trans hclose) hr.1
      · exact absurd hpc hloop
      · exact reaches_of_seen hpc hclose hflush
    · refine (reaches_of_flush pc hflush).bind fun r hr => ?_
      exact reaches_of_waiting hr.2.1 (hr.2.2.trans hclose) hr.1
    · simp [hc.closeFlush pc hflush] at hclose
  case flushing =>
    rcases hflush : t.flush with _ | ⟨_ | _, pc⟩
    · exact reaches_closed hclose hflush
    · have hclosed := hc.closed (Or.inl hclose)
      simp [hc.loopFlush pc hflush] at hclosed
    · exact (reaches_of_flush pc hflush).bind fun _ hr => reaches_of_flushed hr.2
  case flushed => exact reaches_of_flushed hclose
  case closed => exact Reaches.refl hclose

open GoTracer in
/-- A `Close` that returns has sent a last report. If that is acknowledged, each recorded span
has been acknowledged, or lost and told to the satellite. -/
theorem close_drains {Span : Type*} {capacity : ℕ} (opts : TracerOptions) (now : ℕ)
    {es : List (TracerEvent Span)} {t : GoTracer Span capacity}
    (h : run (GoTracer.step opts) (createTracer now) es = some t) (hclean : Clean es)
    (hquiet : Quiet es) (hclosed : t.closing = .closed) :
    ∃ req reply, t.sent.getLast? = some (req, reply) ∧
      (reply.flushError = none → ∃ lost : Multiset Span,
        recorded es = t.ackedSpans + lost ∧ (lost.card : ℤ) = t.toldDropped) := by
  obtain ⟨hphase, lost, discarded, hb⟩ := books h
  obtain ⟨r, hr, hempty⟩ := (drained_run h hclean hquiet).flushed (Or.inr hclosed)
  refine ⟨r.1, r.2, hr, fun hack => ⟨lost, ?_⟩⟩
  obtain ⟨hspans, hdropped⟩ := hempty hack
  obtain ⟨hnone, hpending, hpendingDropped⟩ := (control_run h).settled hphase hclosed
  obtain ⟨-, hkept, hcount, -⟩ := hb.clean hclean
  refine ⟨?_, ?_⟩
  · rw [hb.spans, hspans, hpending, hkept]
    simp
  · rw [hcount, hdropped, hpendingDropped]
    simp

/-- A satellite disables the tracer, the loop sees it, and then the client calls `Close`. -/
def sampleDisabled : List (TracerEvent ℕ) :=
  [.record 0 true, .tick 9000000000, .flush .loop 9000000000, .translate 0,
    .report (.response false true), .disable, .postFlush, .tick 9100000000, .close]

theorem close_returns_iff_sample : ∃ t : GoTracer ℕ 1,
    run (GoTracer.step goOptions) (.createTracer 1) sampleDisabled = some t ∧
    ¬∃ es' t', run (GoTracer.step goOptions) t es' = some t' ∧ t'.closing = .closed := by
  have hrun : run (GoTracer.step goOptions) (.createTracer 1 : GoTracer ℕ 1) sampleDisabled =
    some _ := rfl
  exact ⟨_, hrun, fun h => (close_returns_iff goOptions 1 hrun (by decide)).1 h rfl⟩

theorem close_drains_sample : ∃ t : GoTracer ℕ 1,
    run (GoTracer.step goOptions) (.createTracer 1) sampleTracing = some t ∧
    ∃ lost : Multiset ℕ, GoTracer.recorded sampleTracing = t.ackedSpans + lost ∧
      (lost.card : ℤ) = t.toldDropped := by
  have hrun : run (GoTracer.step goOptions) (.createTracer 1 : GoTracer ℕ 1) sampleTracing =
    some _ := rfl
  have hquiet : GoTracer.Quiet sampleTracing := by
    simp [GoTracer.Quiet, sampleTracing]
  obtain ⟨req, reply, hlast, hack⟩ :=
    close_drains goOptions 1 hrun clean_sampleTracing hquiet rfl
  obtain ⟨-, rfl⟩ := Prod.mk.inj (Option.some.inj hlast)
  exact ⟨_, hrun, hack rfl⟩

end TracerBench
