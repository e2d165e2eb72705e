import Mathlib.Algebra.Ring.Nat
import Mathlib.Data.List.Forall2
import Mathlib.Data.List.Induction

/-!
# Runs of a labelled system

A system is a guarded, executable step function: `step s e` is the state after
label `e`, or `none` when `e` is not enabled in `s`. A run is a list of labels,
oldest first, so a run is one interleaving of whatever threads the system has.

`run_induction` is the invariant rule. Its invariant reads the labels taken so far
as well as the state, so it can say what the history has to do with the state.
A system whose measure falls has no run longer than that (`run_length_le`), and
`exists_run_stuck` runs it to where it stops. `Reaches` puts runs together from their ends, and
`run_project` carries a run of one system to a run of another one that follows some of its
labels. A system that holds its threads in a list replaces one of them at a step (`sum_map_set`,
`forall₂_set`).
-/

namespace TracerBench

variable {σ τ ε δ : Type*}

/-- The state after the labels `es`, if each was enabled when its turn came. -/
def run (step : σ → ε → Option σ) (s : σ) (es : List ε) : Option σ :=
  es.foldlM step s

section Run

variable {step : σ → ε → Option σ} {s t : σ}

@[simp] theorem run_nil : run step s [] = some s :=
  rfl

theorem run_cons {e : ε} {es : List ε} :
    run step s (e :: es) = (step s e).bind fun s' => run step s' es :=
  rfl

@[simp] theorem run_cons_eq_some {e : ε} {es : List ε} :
    run step s (e :: es) = some t ↔ ∃ m, step s e = some m ∧ run step m es = some t := by
  rw [run_cons, Option.bind_eq_some_iff]

theorem run_append {a b : List ε} :
    run step s (a ++ b) = (run step s a).bind fun m => run step m b :=
  List.foldlM_append

/-- A run passes through a state between its two parts. -/
theorem run_append_eq_some {a b : List ε} :
    run step s (a ++ b) = some t ↔ ∃ m, run step s a = some m ∧ run step m b = some t := by
  rw [run_append, Option.bind_eq_some_iff]

theorem run_snoc_eq_some {es : List ε} {e : ε} :
    run step s (es ++ [e]) = some t ↔ ∃ m, run step s es = some m ∧ step m e = some t := by
  rw [run_append_eq_some]
  simp

/-- The states before and after a label of a run. -/
theorem run_split {a b : List ε} {e : ε} (h : run step s (a ++ e :: b) = some t) :
    ∃ m m', run step s a = some m ∧ step m e = some m' ∧ run step m' b = some t := by
  obtain ⟨m, ha, hb⟩ := run_append_eq_some.1 h
  obtain ⟨m', he, hb⟩ := run_cons_eq_some.1 hb
  exact ⟨m, m', ha, he, hb⟩

/-- An invariant of the labels so far and the state, kept by each enabled step of a run,
holds at its end. -/
theorem run_induction {P : List ε → σ → Prop} (h0 : P [] s)
    (hstep : ∀ es m e m', run step s es = some m → P es m → step m e = some m' →
      P (es ++ [e]) m') :
    ∀ {es t}, run step s es = some t → P es t := by
  intro es
  induction es using List.reverseRecOn with
  | nil =>
    intro t h
    obtain rfl : s = t := Option.some.inj h
    exact h0
  | append_singleton es e ih =>
    intro t h
    obtain ⟨m, hm, he⟩ := run_snoc_eq_some.1 h
    exact hstep es m e t hm (ih hm) he

/-- What each step keeps, each run keeps. -/
theorem run_invariant {I : σ → Prop} (hs : I s)
    (hstep : ∀ m e m', I m → step m e = some m' → I m') {es : List ε}
    (h : run step s es = some t) : I t :=
  run_induction (P := fun _ m => I m) hs (fun _ m e m' _ => hstep m e m') h

/-- A system whose measure falls at each step takes no more steps than it measures. -/
theorem run_length_le (μ : σ → ℕ) (hstep : ∀ s e s', step s e = some s' → μ s' < μ s)
    {es : List ε} (h : run step s es = some t) : es.length + μ t ≤ μ s := by
  refine run_induction (P := fun es m => es.length + μ m ≤ μ s) (by simp) ?_ h
  intro es m e m' _ ih he
  have hlt := hstep m e m' he
  rw [List.length_append, List.length_singleton]
  omega

/-- A system whose measure falls at each step comes to a state where no label is enabled. -/
theorem exists_run_stuck (μ : σ → ℕ) (hstep : ∀ s e s', step s e = some s' → μ s' < μ s)
    (s : σ) : ∃ es t, run step s es = some t ∧ ∀ e, step t e = none := by
  induction hn : μ s using Nat.strongRecOn generalizing s with
  | _ n ih =>
    by_cases hs : ∀ e, step s e = none
    · exact ⟨[], s, rfl, hs⟩
    · push Not at hs
      obtain ⟨e, he⟩ := hs
      obtain ⟨s', hs'⟩ := Option.ne_none_iff_exists'.1 he
      obtain ⟨es, t, ht, hstuck⟩ := ih _ (hn ▸ hstep s e s' hs') s' rfl
      exact ⟨e :: es, t, run_cons_eq_some.2 ⟨s', hs', ht⟩, hstuck⟩

/-- A run from `s` can come to a state in which `P` holds. -/
def Reaches (step : σ → ε → Option σ) (s : σ) (P : σ → Prop) : Prop :=
  ∃ es t, run step s es = some t ∧ P t

variable {P Q : σ → Prop}

theorem Reaches.refl (h : P s) : Reaches step s P :=
  ⟨[], s, rfl, h⟩

theorem Reaches.cons {e : ε} (he : step s e = some t) (h : Reaches step t P) :
    Reaches step s P := by
  obtain ⟨es, r, hrun, hr⟩ := h
  exact ⟨e :: es, r, run_cons_eq_some.2 ⟨t, he, hrun⟩, hr⟩

theorem Reaches.bind (h : Reaches step s Q) (hQ : ∀ r, Q r → Reaches step r P) :
    Reaches step s P := by
  obtain ⟨es, r, hrun, hr⟩ := h
  obtain ⟨es', r', hrun', hr'⟩ := hQ r hr
  exact ⟨es ++ es', r', run_append_eq_some.2 ⟨r, hrun, hrun'⟩, hr'⟩

end Run

/-- If `f` maps each step to the step its label stands for, or to no change when the
label stands for none, it maps runs to runs. -/
theorem run_project {stepA : σ → ε → Option σ} {stepB : τ → δ → Option τ} (f : σ → τ)
    (lab : ε → Option δ)
    (hstep : ∀ s e s', stepA s e = some s' →
      match lab e with
      | none => f s' = f s
      | some d => stepB (f s) d = some (f s'))
    {s t : σ} {es : List ε} (h : run stepA s es = some t) :
    run stepB (f s) (es.filterMap lab) = some (f t) := by
  refine run_induction (P := fun es m => run stepB (f s) (es.filterMap lab) = some (f m))
    rfl ?_ h
  intro es m e m' _ ih he
  have hm := hstep m e m' he
  cases hl : lab e with
  | none =>
    rw [hl] at hm
    simpa [List.filterMap_append, hl, hm] using ih
  | some d =>
    rw [hl] at hm
    simp only [List.filterMap_append, List.filterMap_cons, hl, List.filterMap_nil]
    exact run_snoc_eq_some.2 ⟨f m, ih, hm⟩

/-- What a sum over threads is when one of them moves. -/
theorem sum_map_set {α : Type*} (f : α → ℕ) {a b : α} :
    ∀ {l : List α} {i : ℕ}, l[i]? = some a →
      ((l.set i b).map f).sum + f a = (l.map f).sum + f b
  | x :: l, 0, h => by
    obtain rfl : x = a := Option.some.inj h
    simp only [List.set_cons_zero, List.map_cons, List.sum_cons]
    omega
  | x :: l, i + 1, h => by
    have ih := sum_map_set f (b := b) (l := l) (i := i) (List.getElem?_cons_succ.symm.trans h)
    simp only [List.set_cons_succ, List.map_cons, List.sum_cons]
    omega

/-- Two lists that are related stay so when an entry of each is replaced. -/
theorem forall₂_set {α β : Type*} {R : α → β → Prop} {a : α} {b : β} {l : List α} {l' : List β}
    (h : List.Forall₂ R l l') (hab : R a b) : ∀ i, List.Forall₂ R (l.set i a) (l'.set i b) := by
  induction h with
  | nil => exact fun _ => .nil
  | cons hd _ ih =>
    rintro (_ | i)
    · exact .cons hab ‹_›
    · exact .cons hd (ih i)

end TracerBench
