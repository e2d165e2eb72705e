import Mathlib.Data.List.Perm.Basic
import Mathlib.Data.List.Nodup
import TracerBench.Run

/-!
# Nested spans

A trace is the spans one thread starts and finishes, numbered in the order they are
started, each with the span it is a child of, if any. The trace is `Nested` when each
of its spans is finished once, after it started, and only after all its children.

A thread that keeps its open spans on a stack starts a span only under an open one and
finishes only the innermost one. `SpanStack.step` is that discipline, and
`nested_of_run` says that a trace which keeps it, and leaves the stack as it found it,
is nested.
-/

namespace TracerBench

/-- What is asked of a tracing library. -/
inductive SpanEvent where
  | start (span : ℕ) (parent : Option ℕ)
  | finish (span : ℕ)
  deriving DecidableEq

/-- The spans a trace starts, in order. -/
def started (es : List SpanEvent) : List ℕ :=
  es.filterMap fun
    | .start span _ => some span
    | .finish _ => none

/-- The spans a trace finishes, in order. -/
def finished (es : List SpanEvent) : List ℕ :=
  es.filterMap fun
    | .start _ _ => none
    | .finish span => some span

@[simp] theorem started_nil : started [] = [] :=
  rfl

@[simp] theorem finished_nil : finished [] = [] :=
  rfl

@[simp] theorem started_append (a b : List SpanEvent) :
    started (a ++ b) = started a ++ started b :=
  List.filterMap_append

@[simp] theorem finished_append (a b : List SpanEvent) :
    finished (a ++ b) = finished a ++ finished b :=
  List.filterMap_append

@[simp] theorem started_start (span : ℕ) (parent : Option ℕ) (es : List SpanEvent) :
    started (.start span parent :: es) = span :: started es :=
  rfl

@[simp] theorem started_finish (span : ℕ) (es : List SpanEvent) :
    started (.finish span :: es) = started es :=
  rfl

@[simp] theorem finished_start (span : ℕ) (parent : Option ℕ) (es : List SpanEvent) :
    finished (.start span parent :: es) = finished es :=
  rfl

@[simp] theorem finished_finish (span : ℕ) (es : List SpanEvent) :
    finished (.finish span :: es) = span :: finished es :=
  rfl

/-- Each span is started once and finished once, after it started and after all the
spans it is the parent of. -/
structure Nested (es : List SpanEvent) : Prop where
  nodup : (started es).Nodup
  once : (finished es).Perm (started es)
  closed : ∀ a span b, es = a ++ .finish span :: b →
    span ∈ started a ∧ ∀ child, .start child (some span) ∈ es → .finish child ∈ a

/-! ## The stack discipline -/

/-- The open spans, innermost first, and the number of the next span. -/
structure SpanStack where
  spans : List ℕ
  next : ℕ

/-- A span starts under an open span or none, and the innermost one is the one to
finish. -/
def SpanStack.step (k : SpanStack) : SpanEvent → Option SpanStack
  | .start span parent =>
    if span = k.next ∧ ∀ p ∈ parent, p ∈ k.spans then some ⟨span :: k.spans, span + 1⟩ else none
  | .finish span =>
    if k.spans.head? = some span then some ⟨k.spans.tail, k.next⟩ else none

theorem SpanStack.step_start {k k' : SpanStack} {span : ℕ} {parent : Option ℕ}
    (h : k.step (.start span parent) = some k') :
    span = k.next ∧ (∀ p ∈ parent, p ∈ k.spans) ∧ k' = ⟨span :: k.spans, span + 1⟩ := by
  rw [SpanStack.step, Option.ite_none_right_eq_some] at h
  obtain ⟨⟨hs, hp⟩, hk⟩ := h
  exact ⟨hs, hp, (Option.some.inj hk).symm⟩

theorem SpanStack.step_finish {k k' : SpanStack} {span : ℕ}
    (h : k.step (.finish span) = some k') :
    k.spans = span :: k'.spans ∧ k'.next = k.next := by
  rw [SpanStack.step, Option.ite_none_right_eq_some] at h
  obtain ⟨hs, hk⟩ := h
  obtain rfl := Option.some.inj hk
  exact ⟨(List.cons_head?_tail hs).symm, rfl⟩

/-- What the events `es` have done to a stack that held `base` and had `first` as its
next number. -/
structure Stacked (base : List ℕ) (first : ℕ) (es : List SpanEvent) (k : SpanStack) :
    Prop where
  le : first ≤ k.next
  started : started es = List.range' first (k.next - first)
  -- the spans open at the start or started since are those finished since or open now
  balance : (finished es ++ k.spans).Perm (TracerBench.started es ++ base)
  parent : ∀ child p, .start child (some p) ∈ es → p ∈ base ∨ p ∈ TracerBench.started es
  -- an unfinished child is open above its parent
  above : ∀ child p, .start child (some p) ∈ es →
    .finish child ∈ es ∨ [child, p].Sublist k.spans

section Stacked

variable {base : List ℕ} {first : ℕ} {es : List SpanEvent} {k k' : SpanStack}

theorem Stacked.nil : Stacked base first [] ⟨base, first⟩ where
  le := Nat.le_refl _
  started := by simp
  balance := by simp
  parent := by simp
  above := by simp

theorem Stacked.nodup (h : Stacked base first es k) (hbase : base.Nodup)
    (hlt : ∀ p ∈ base, p < first) : (finished es ++ k.spans).Nodup := by
  refine h.balance.nodup_iff.2 (List.nodup_append'.2 ⟨?_, hbase, ?_⟩)
  · rw [h.started]
    exact List.nodup_range'
  · intro p hp hb
    rw [h.started, List.mem_range'_1] at hp
    have := hlt p hb
    omega

theorem Stacked.step (h : Stacked base first es k) {e : SpanEvent}
    (he : k.step e = some k') : Stacked base first (es ++ [e]) k' := by
  rcases e with ⟨span, parent⟩ | span
  · obtain ⟨rfl, hp, rfl⟩ := SpanStack.step_start he
    have hle := h.le
    have hn : k.next + 1 - first = k.next - first + 1 := by omega
    refine ⟨by simp only; omega, ?_, ?_, ?_, ?_⟩
    · simp only [started_append, h.started, started_start, started_nil, hn]
      rw [List.range'_concat, Nat.one_mul, Nat.add_sub_cancel' hle]
    · simp only [finished_append, finished_start, finished_nil, List.append_nil,
        started_append, started_start, started_nil]
      refine List.perm_middle.trans ?_
      rw [List.append_assoc]
      exact (h.balance.cons k.next).trans List.perm_middle.symm
    · intro child p hc
      rcases List.mem_append.1 hc with hc | hc
      · exact (h.parent child p hc).imp_right fun hm => by simp [hm]
      · obtain ⟨rfl, rfl⟩ : child = k.next ∧ some p = parent := by simpa using hc
        have hmem := h.balance.subset (List.mem_append_right _ (hp p rfl))
        rcases List.mem_append.1 hmem with hm | hm
        · exact Or.inr (by simp [hm])
        · exact Or.inl hm
    · intro child p hc
      rcases List.mem_append.1 hc with hc | hc
      · rcases h.above child p hc with hf | hs
        · exact Or.inl (by simp [hf])
        · exact Or.inr (hs.cons _)
      · obtain ⟨rfl, rfl⟩ : child = k.next ∧ some p = parent := by simpa using hc
        exact Or.inr ((List.singleton_sublist.2 (hp p rfl)).cons_cons _)
  · obtain ⟨hk, hn⟩ := SpanStack.step_finish he
    refine ⟨hn ▸ h.le, by simp [h.started, hn], ?_, ?_, ?_⟩
    · simpa [hk] using h.balance
    · intro child p hc
      simpa using h.parent child p (by simpa using hc)
    · intro child p hc
      rcases h.above child p (by simpa using hc) with hf | hs
      · exact Or.inl (by simp [hf])
      · rw [hk] at hs
        -- the innermost span is the child itself, or is neither of the two
        rcases List.sublist_cons_iff.1 hs with hs | ⟨r, hr, hs⟩
        · exact Or.inr hs
        · obtain ⟨rfl, rfl⟩ := List.cons.inj hr
          exact Or.inl (by simp)

theorem stacked_of_run (h : run SpanStack.step ⟨base, first⟩ es = some k) :
    Stacked base first es k :=
  run_induction Stacked.nil (fun _ _ _ _ _ ih he => ih.step he) h

end Stacked

/-- A finished span gets no more children. -/
theorem not_start_of_finished {base : List ℕ} {first child span : ℕ} {a b : List SpanEvent}
    {k : SpanStack} (hbase : base.Nodup) (hlt : ∀ p ∈ base, p < first)
    (h : run SpanStack.step ⟨base, first⟩ (a ++ b) = some k) (hf : span ∈ finished a) :
    .start child (some span) ∉ b := by
  intro hc
  obtain ⟨b₁, b₂, rfl⟩ := List.append_of_mem hc
  rw [← List.append_assoc] at h
  obtain ⟨m, m', hm, hs, -⟩ := run_split h
  obtain ⟨-, hopen, -⟩ := SpanStack.step_start hs
  have hnodup := (stacked_of_run hm).nodup hbase hlt
  exact List.disjoint_of_nodup_append hnodup (by simp [hf]) (hopen span rfl)

/-- A trace that keeps the discipline and leaves the stack as it found it is nested. -/
theorem nested_of_run {base : List ℕ} {first next : ℕ} {es : List SpanEvent}
    (hbase : base.Nodup) (hlt : ∀ p ∈ base, p < first)
    (h : run SpanStack.step ⟨base, first⟩ es = some ⟨base, next⟩) : Nested es := by
  have hes := stacked_of_run h
  have hnodup := hes.nodup hbase hlt
  refine ⟨hes.started ▸ List.nodup_range', ?_, ?_⟩
  · exact (List.perm_append_right_iff base).1 hes.balance
  · rintro a span b rfl
    obtain ⟨m, m', ha, hf, -⟩ := run_split h
    have hm := stacked_of_run ha
    obtain ⟨hspans, -⟩ := SpanStack.step_finish hf
    -- a span open at the start is open at the end, so it is not finished meanwhile
    have hnot : span ∉ base := fun hb =>
      List.disjoint_of_nodup_append hnodup (by simp : span ∈ finished _) hb
    have hopen : span ∈ m.spans := by simp [hspans]
    have hspan : span ∈ started a := by
      have hmem := hm.balance.subset (List.mem_append_right _ hopen)
      exact (List.mem_append.1 hmem).resolve_right hnot
    refine ⟨hspan, fun child hc => ?_⟩
    rw [List.append_cons, List.mem_append] at hc
    rcases hc with hc | hc
    · have hc : .start child (some span) ∈ a := by simpa using hc
      refine (hm.above child span hc).resolve_right fun hs => ?_
      -- nothing is above the span that is finished
      have hd : m.spans.Nodup := (List.nodup_append'.1 (hm.nodup hbase hlt)).2.1
      rw [hspans] at hs hd
      refine (List.nodup_cons.1 hd).1 ?_
      rcases List.sublist_cons_iff.1 hs with hs | ⟨r, hr, hs⟩
      · exact hs.subset (by simp)
      · obtain ⟨-, rfl⟩ := List.cons.inj hr
        exact hs.subset (by simp)
    · rw [List.append_cons] at h
      exact absurd hc (not_start_of_finished hbase hlt h (by simp))

/-- Such a trace starts the spans from the first number to the last. -/
theorem started_of_run {base : List ℕ} {first : ℕ} {es : List SpanEvent} {k : SpanStack}
    (h : run SpanStack.step ⟨base, first⟩ es = some k) :
    started es = List.range' first (k.next - first) :=
  (stacked_of_run h).started

end TracerBench
