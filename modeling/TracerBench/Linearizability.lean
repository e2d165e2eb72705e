import Mathlib.Data.List.Nodup
import TracerBench.Run

/-!
# Linearizability

An observer of a concurrent object sees operations being called and returning. A history
is `Linearizable` if some order of its operations, run one at a time by the sequential
object `apply`, gives each the result it returned with, and keeps an operation that had
returned before another was called in front of it. Operations that have not returned may
be in the order or not.

`linearizable_of_run` is the rule for a system whose operations take effect at one of
their own steps. The system says for each step whether it calls, performs or returns from
an operation (`Act`), and after each run where an operation is (`Phase`); `Tracks` is what
has to be checked of one step.
-/

namespace TracerBench

variable {ι ω ρ α σ ε : Type*}

/-- What an observer sees of operation `i`. -/
inductive Observation (ι ω ρ : Type*) where
  | call (i : ι) (o : ω)
  | ret (i : ι) (r : ρ)

/-- An operation that has taken effect, with its result. -/
structure Effect (ι ω ρ : Type*) where
  id : ι
  op : ω
  res : ρ

/-- The sequential object performs the operations one after the other, each with its
result, and comes from `a` to `b`. -/
def Legal (apply : ω → α → ρ × α) : α → List (Effect ι ω ρ) → α → Prop
  | a, [], b => a = b
  | a, x :: order, b => ∃ a', apply x.op a = (x.res, a') ∧ Legal apply a' order b

/-- The operations of a history, in an order in which they could have been performed one
after the other. -/
structure Linearization (apply : ω → α → ρ × α) (a b : α) (history : List (Observation ι ω ρ))
    (order : List (Effect ι ω ρ)) : Prop where
  nodup : (order.map (·.id)).Nodup
  legal : Legal apply a order b
  called : ∀ x ∈ order, .call x.id x.op ∈ history
  returned : ∀ i r, .ret i r ∈ history → ∃ o, ⟨i, o, r⟩ ∈ order
  /-- An operation called after another had returned comes after it. -/
  realTime : ∀ h h' i r, history = h ++ .ret i r :: h' → ∀ l l' x, order = l ++ x :: l' →
    (∃ o, .call x.id o ∈ h') → i ∈ l.map (·.id)

/-- The sequential object can have shown the history, coming from `a` to `b`. -/
def Linearizable (apply : ω → α → ρ × α) (a b : α) (history : List (Observation ι ω ρ)) : Prop :=
  ∃ order, Linearization apply a b history order

/-- What a step of a system does for an operation. -/
inductive Act (ι ω ρ : Type*) where
  | call (i : ι) (o : ω)
  | perform (x : Effect ι ω ρ)
  | ret (i : ι) (r : ρ)

def Act.observation : Act ι ω ρ → Option (Observation ι ω ρ)
  | .call i o => some (.call i o)
  | .perform _ => none
  | .ret i r => some (.ret i r)

def Act.effect : Act ι ω ρ → Option (Effect ι ω ρ)
  | .perform x => some x
  | .call _ _ | .ret _ _ => none

/-- The acts of a run. -/
def acts (step : σ → ε → Option σ) (act : σ → ε → Option (Act ι ω ρ)) :
    σ → List ε → List (Act ι ω ρ)
  | _, [] => []
  | s, e :: es => (act s e).toList ++ (step s e).elim [] fun s' => acts step act s' es

/-- What an observer of the run has seen. -/
def history (step : σ → ε → Option σ) (act : σ → ε → Option (Act ι ω ρ)) (s : σ)
    (es : List ε) : List (Observation ι ω ρ) :=
  (acts step act s es).filterMap Act.observation

theorem acts_snoc {step : σ → ε → Option σ} {act : σ → ε → Option (Act ι ω ρ)} {s m : σ}
    {es : List ε} {e : ε} (h : run step s es = some m) :
    acts step act s (es ++ [e]) = acts step act s es ++ (act m e).toList := by
  induction es generalizing s with
  | nil =>
    obtain rfl : s = m := Option.some.inj h
    cases hs : step s e <;> simp [acts, hs]
  | cons x es ih =>
    obtain ⟨s', hx, hs'⟩ := run_cons_eq_some.1 h
    simp [acts, hx, ih hs']

/-! ## Where an operation is -/

inductive Phase (ω ρ : Type*) where
  | idle
  | called (o : ω)
  | performed (o : ω) (r : ρ)
  | returned (o : ω) (r : ρ)

namespace Phase

/-- The operation, once it is called. -/
def op? : Phase ω ρ → Option ω
  | .idle => none
  | .called o | .performed o _ | .returned o _ => some o

/-- The operation and its result, once it has taken effect. -/
def effect? : Phase ω ρ → Option (ω × ρ)
  | .idle | .called _ => none
  | .performed o r | .returned o r => some (o, r)

/-- The result, once it is returned. -/
def result? : Phase ω ρ → Option ρ
  | .returned _ r => some r
  | _ => none

end Phase

variable {apply : ω → α → ρ × α} {a b b' : α} {p : ι → Phase ω ρ}
  {hist : List (Observation ι ω ρ)} {order : List (Effect ι ω ρ)}

/-- What a step does to the object and to the phases of the operations. -/
def Tracks [DecidableEq ι] (apply : ω → α → ρ × α) (b b' : α) (p p' : ι → Phase ω ρ) :
    Option (Act ι ω ρ) → Prop
  | none => b' = b ∧ p' = p
  | some (.call i o) => b' = b ∧ p i = .idle ∧ p' = Function.update p i (.called o)
  | some (.perform x) => apply x.op b = (x.res, b') ∧ p x.id = .called x.op ∧
      p' = Function.update p x.id (.performed x.op x.res)
  | some (.ret i r) => b' = b ∧ ∃ o, p i = .performed o r ∧
      p' = Function.update p i (.returned o r)

/-! ## The rule -/

/-- A list that ends in `y`, cut at one of its entries. -/
theorem snoc_eq_append_cons {β : Type*} {l h h' : List β} {x y : β}
    (heq : l ++ [y] = h ++ x :: h') :
    (h = l ∧ x = y) ∨ ∃ t, h' = t ++ [y] ∧ l = h ++ x :: t := by
  induction h' using List.reverseRecOn with
  | nil =>
    obtain ⟨hl, hy⟩ := List.append_inj' heq rfl
    exact Or.inl ⟨hl.symm, (List.singleton_inj.1 hy).symm⟩
  | append_singleton t z =>
    rw [← List.cons_append, ← List.append_assoc] at heq
    obtain ⟨hl, hy⟩ := List.append_inj' heq rfl
    exact Or.inr ⟨t, by rw [List.singleton_inj.1 hy], hl⟩

theorem Legal.snoc {x : Effect ι ω ρ} (hx : apply x.op b = (x.res, b')) :
    ∀ {order : List (Effect ι ω ρ)} {a : α}, Legal apply a order b →
      Legal apply a (order ++ [x]) b'
  | [], a, h => ⟨b', by rw [show a = b from h, hx], rfl⟩
  | _ :: _, _, ⟨a', hy, h⟩ => ⟨a', hy, h.snoc hx⟩

/-- The history and the order agree with the phases of the operations. -/
structure Tracked (apply : ω → α → ρ × α) (a b : α) (p : ι → Phase ω ρ)
    (hist : List (Observation ι ω ρ)) (order : List (Effect ι ω ρ)) : Prop where
  calls : ∀ i o, .call i o ∈ hist ↔ (p i).op? = some o
  effects : ∀ x, x ∈ order ↔ (p x.id).effect? = some (x.op, x.res)
  rets : ∀ i r, .ret i r ∈ hist ↔ (p i).result? = some r
  lin : Linearization apply a b hist order

theorem tracked_nil (hp : ∀ i, p i = .idle) : Tracked apply a a p [] [] where
  calls i o := by simp [hp, Phase.op?]
  effects x := by simp [hp, Phase.effect?]
  rets i r := by simp [hp, Phase.result?]
  lin := ⟨List.nodup_nil, rfl, by simp, by simp, by simp⟩

namespace Tracked

theorem not_mem_order (h : Tracked apply a b p hist order) {i : ι}
    (hi : (p i).effect? = none) : i ∉ order.map (·.id) := by
  intro hmem
  obtain ⟨x, hx, rfl⟩ := List.mem_map.1 hmem
  rw [(h.effects x).1 hx] at hi
  simp at hi

variable [DecidableEq ι]

theorem call (h : Tracked apply a b p hist order) {i : ι} {o : ω} (hi : p i = .idle) :
    Tracked apply a b (Function.update p i (.called o)) (hist ++ [.call i o]) order := by
  have hnone : ∀ x ∈ order, x.id ≠ i := fun x hx hxi =>
    h.not_mem_order (i := i) (by rw [hi]; rfl) (hxi ▸ List.mem_map_of_mem hx)
  refine ⟨fun j q => ?_, fun x => ?_, fun j r => ?_, h.lin.nodup, h.lin.legal,
    fun x hx => List.mem_append_left _ (h.lin.called x hx), fun j r hr => ?_, ?_⟩
  · rw [List.mem_append, h.calls, List.mem_singleton, Observation.call.injEq]
    rcases eq_or_ne j i with rfl | hj
    · simp [hi, Phase.op?, eq_comm]
    · simp [hj]
  · rw [h.effects]
    rcases eq_or_ne x.id i with hx | hx
    · simp [hx, hi, Phase.effect?]
    · rw [Function.update_of_ne hx]
  · rw [List.mem_append, h.rets, List.mem_singleton]
    rcases eq_or_ne j i with rfl | hj
    · simp [hi, Phase.result?]
    · simp [hj]
  · exact h.lin.returned j r (by simpa using hr)
  · rintro g g' j r heq l l' x horder ⟨q, hq⟩
    rcases snoc_eq_append_cons heq with ⟨-, hr⟩ | ⟨t, rfl, hhist⟩
    · cases hr
    · rcases List.mem_append.1 hq with hq | hq
      · exact h.lin.realTime g t j r hhist l l' x horder ⟨q, hq⟩
      · -- the operation now called is not in the order
        obtain ⟨hxi, -⟩ := Observation.call.inj (List.mem_singleton.1 hq)
        exact absurd hxi (hnone x (by simp [horder]))

theorem perform (h : Tracked apply a b p hist order) {x : Effect ι ω ρ}
    (hx : apply x.op b = (x.res, b')) (hi : p x.id = .called x.op) :
    Tracked apply a b' (Function.update p x.id (.performed x.op x.res)) hist (order ++ [x]) := by
  have hnew := h.not_mem_order (i := x.id) (by rw [hi]; rfl)
  refine ⟨fun j q => ?_, fun y => ?_, fun j r => ?_, ?_, h.lin.legal.snoc hx, fun y hy => ?_,
    fun j r hr => ?_, ?_⟩
  · rw [h.calls]
    rcases eq_or_ne j x.id with rfl | hj
    · simp [hi, Phase.op?]
    · rw [Function.update_of_ne hj]
  · rw [List.mem_append, h.effects, List.mem_singleton]
    rcases eq_or_ne y.id x.id with hy | hy
    · obtain ⟨i, o, r⟩ := y
      obtain rfl : i = x.id := hy
      simp only [hi, Phase.effect?, reduceCtorEq, false_or, Function.update_self,
        Option.some.injEq, Prod.mk.injEq]
      exact ⟨fun hyx => by rw [← hyx]; exact ⟨rfl, rfl⟩, fun ⟨ho, hr⟩ => by rw [← ho, ← hr]⟩
    · have hne : y ≠ x := fun hyx => hy (by rw [hyx])
      simp [Function.update_of_ne hy, hne]
  · rw [h.rets]
    rcases eq_or_ne j x.id with rfl | hj
    · simp [hi, Phase.result?]
    · rw [Function.update_of_ne hj]
  · rw [List.map_append, List.map_singleton, List.nodup_append]
    exact ⟨h.lin.nodup, List.nodup_singleton _, fun j hj k hk heq =>
      hnew (by rwa [← List.mem_singleton.1 hk, ← heq])⟩
  · rcases List.mem_append.1 hy with hy | hy
    · exact h.lin.called y hy
    · rw [List.mem_singleton.1 hy]
      exact (h.calls _ _).2 (by rw [hi]; rfl)
  · obtain ⟨o, ho⟩ := h.lin.returned j r hr
    exact ⟨o, List.mem_append_left _ ho⟩
  · rintro g g' j r hhist l l' y horder hq
    rcases snoc_eq_append_cons horder with ⟨rfl, -⟩ | ⟨t, rfl, hl⟩
    · -- what has returned has been performed
      obtain ⟨o, ho⟩ := h.lin.returned j r (by simp [hhist])
      exact List.mem_map_of_mem ho
    · exact h.lin.realTime g g' j r hhist l t y hl hq

theorem ret (h : Tracked apply a b p hist order) {i : ι} {o : ω} {r : ρ}
    (hi : p i = .performed o r) :
    Tracked apply a b (Function.update p i (.returned o r)) (hist ++ [.ret i r]) order := by
  refine ⟨fun j q => ?_, fun y => ?_, fun j q => ?_, h.lin.nodup, h.lin.legal,
    fun x hx => List.mem_append_left _ (h.lin.called x hx), fun j q hq => ?_, ?_⟩
  · rw [List.mem_append, h.calls, List.mem_singleton]
    rcases eq_or_ne j i with rfl | hj
    · simp [hi, Phase.op?]
    · simp [hj]
  · rw [h.effects]
    rcases eq_or_ne y.id i with hy | hy
    · simp [hy, hi, Phase.effect?]
    · rw [Function.update_of_ne hy]
  · rw [List.mem_append, h.rets, List.mem_singleton, Observation.ret.injEq]
    rcases eq_or_ne j i with rfl | hj
    · simp [hi, Phase.result?, eq_comm]
    · simp [hj]
  · rcases List.mem_append.1 hq with hq | hq
    · exact h.lin.returned j q hq
    · obtain ⟨rfl, rfl⟩ := Observation.ret.inj (List.mem_singleton.1 hq)
      exact ⟨o, (h.effects _).2 (by rw [hi]; rfl)⟩
  · rintro g g' j q heq l l' x horder ⟨c, hc⟩
    rcases snoc_eq_append_cons heq with ⟨rfl, -⟩ | ⟨t, rfl, hhist⟩
    · rw [List.append_cancel_left_eq] at heq
      obtain rfl : g' = [] := by simpa using (List.cons.inj heq).2.symm
      simp at hc
    · refine h.lin.realTime g t j q hhist l l' x horder ⟨c, ?_⟩
      simpa using hc

end Tracked

section System

variable [DecidableEq ι] {step : σ → ε → Option σ} {act : σ → ε → Option (Act ι ω ρ)}
  (abs : σ → α) (phase : List ε → σ → ι → Phase ω ρ) {s₀ s : σ} {es : List ε}

theorem tracked_of_run (hstart : ∀ i, phase [] s₀ i = .idle)
    (htracks : ∀ es m e m', run step s₀ es = some m → step m e = some m' →
      Tracks apply (abs m) (abs m') (phase es m) (phase (es ++ [e]) m') (act m e))
    (h : run step s₀ es = some s) :
    Tracked apply (abs s₀) (abs s) (phase es s) (history step act s₀ es)
      ((acts step act s₀ es).filterMap Act.effect) := by
  refine run_induction (P := fun es m => Tracked apply (abs s₀) (abs m) (phase es m)
    (history step act s₀ es) ((acts step act s₀ es).filterMap Act.effect))
    (tracked_nil hstart) ?_ h
  intro es m e m' hm ih he
  have htr := htracks es m e m' hm he
  simp only [history, acts_snoc hm, List.filterMap_append] at ih ⊢
  rcases hact : act m e with _ | ⟨i, o⟩ | x | ⟨i, r⟩ <;> rw [hact] at htr
  · obtain ⟨hb, hp⟩ := htr
    simpa [hb, hp] using ih
  · obtain ⟨hb, hi, hp⟩ := htr
    rw [hb, hp]
    simpa [List.filterMap_cons, Act.observation, Act.effect] using ih.call hi
  · obtain ⟨hx, hi, hp⟩ := htr
    rw [hp]
    simpa [List.filterMap_cons, Act.observation, Act.effect] using ih.perform hx hi
  · obtain ⟨hb, o, hi, hp⟩ := htr
    rw [hb, hp]
    simpa [List.filterMap_cons, Act.observation, Act.effect] using ih.ret hi

/-- A system whose operations take effect at their own steps is linearizable, to the
sequential object it keeps. -/
theorem linearizable_of_run (hstart : ∀ i, phase [] s₀ i = .idle)
    (htracks : ∀ es m e m', run step s₀ es = some m → step m e = some m' →
      Tracks apply (abs m) (abs m') (phase es m) (phase (es ++ [e]) m') (act m e))
    (h : run step s₀ es = some s) :
    Linearizable apply (abs s₀) (abs s) (history step act s₀ es) :=
  ⟨_, (tracked_of_run abs phase hstart htracks h).lin⟩

/-- An operation is called once. -/
theorem call_unique_of_run (hstart : ∀ i, phase [] s₀ i = .idle)
    (htracks : ∀ es m e m', run step s₀ es = some m → step m e = some m' →
      Tracks apply (abs m) (abs m') (phase es m) (phase (es ++ [e]) m') (act m e))
    (h : run step s₀ es = some s) {i : ι} {o o' : ω} (ho : .call i o ∈ history step act s₀ es)
    (ho' : .call i o' ∈ history step act s₀ es) : o = o' := by
  have htracked := tracked_of_run abs phase hstart htracks h
  exact Option.some.inj (((htracked.calls i o).1 ho).symm.trans ((htracked.calls i o').1 ho'))

end System

/-! ## Reading an order -/

theorem legal_append {l l' : List (Effect ι ω ρ)} :
    Legal apply a (l ++ l') b ↔ ∃ m, Legal apply a l m ∧ Legal apply m l' b := by
  induction l generalizing a with
  | nil => simp [Legal]
  | cons x l ih =>
    simp only [List.cons_append, Legal, ih]
    constructor
    · rintro ⟨a', hx, m, hl, hl'⟩
      exact ⟨m, ⟨a', hx, hl⟩, hl'⟩
    · rintro ⟨m, ⟨a', hx, hl⟩, hl'⟩
      exact ⟨a', hx, m, hl, hl'⟩

theorem Legal.mem {x : Effect ι ω ρ} (h : Legal apply a order b) (hx : x ∈ order) :
    ∃ m m', apply x.op m = (x.res, m') := by
  obtain ⟨l, l', rfl⟩ := List.append_of_mem hx
  obtain ⟨m, -, m', hm, -⟩ := legal_append.1 h
  exact ⟨m, m', hm⟩

namespace Linearization

/-- An operation of the order is at one place of it. -/
theorem eq_of_id (h : Linearization apply a b hist order) {x y : Effect ι ω ρ} (hx : x ∈ order)
    (hy : y ∈ order) (hid : x.id = y.id) : x = y :=
  List.inj_on_of_nodup_map h.nodup hx hy hid

theorem id_ne_of_append (h : Linearization apply a b hist order) {l l' : List (Effect ι ω ρ)}
    (horder : order = l ++ l') {x y : Effect ι ω ρ} (hx : x ∈ l) (hy : y ∈ l') : x.id ≠ y.id := by
  have hnodup := h.nodup
  rw [horder, List.map_append, List.nodup_append] at hnodup
  exact hnodup.2.2 _ (List.mem_map_of_mem hx) _ (List.mem_map_of_mem hy)

theorem append_cons_unique (h : Linearization apply a b hist order) {x : Effect ι ω ρ}
    {l l' m m' : List (Effect ι ω ρ)} (hl : order = l ++ x :: l') (hm : order = m ++ x :: m') :
    l' = m' := by
  have hout : ∀ k t t', order = (k ++ x :: t) ++ x :: t' → False := fun k t t' hk =>
    h.id_ne_of_append hk (x := x) (y := x) (by simp) (by simp) rfl
  rcases List.append_eq_append_iff.1 (hl.symm.trans hm) with ⟨c, hc, hx⟩ | ⟨c, hc, hx⟩
  · rcases c with _ | ⟨z, c⟩
    · exact (List.cons.inj hx).2
    · obtain ⟨rfl, -⟩ := List.cons.inj hx
      exact (hout l c m' (by rw [hm, hc])).elim
  · rcases c with _ | ⟨z, c⟩
    · exact (List.cons.inj hx).2.symm
    · obtain ⟨rfl, -⟩ := List.cons.inj hx
      exact (hout m c l' (by rw [hl, hc])).elim

/-- What was called after an operation had returned stands behind it. -/
theorem mem_behind (h : Linearization apply a b hist order) {g g' : List (Observation ι ω ρ)}
    {x y : Effect ι ω ρ} {o : ω} {r : ρ} (hhist : hist = g ++ .ret x.id r :: g')
    (hcall : .call y.id o ∈ g') {l l' : List (Effect ι ω ρ)} (horder : order = l ++ x :: l')
    (hy : y ∈ order) : y ∈ l' := by
  obtain ⟨k, k', hk⟩ := List.append_of_mem hy
  obtain ⟨z, hz, hzid⟩ := List.mem_map.1 (h.realTime g g' x.id r hhist k k' y hk ⟨o, hcall⟩)
  obtain rfl := h.eq_of_id (by simp [hk, hz]) (by simp [horder]) hzid
  obtain ⟨m, m', rfl⟩ := List.append_of_mem hz
  have hl' : l' = m' ++ y :: k' := h.append_cons_unique horder (by simpa using hk)
  simp [hl']

/-- What had returned before an operation was called does not stand behind it. -/
theorem notMem_behind (h : Linearization apply a b hist order)
    {g g' : List (Observation ι ω ρ)} {x y : Effect ι ω ρ} {o : ω} {r : ρ}
    (hhist : hist = g ++ .ret y.id r :: g') (hcall : .call x.id o ∈ g')
    {l l' : List (Effect ι ω ρ)} (horder : order = l ++ x :: l') : y ∉ l' := by
  intro hy
  obtain ⟨m, m', rfl⟩ := List.append_of_mem hy
  have horder' : order = (l ++ x :: m) ++ y :: m' := by simp [horder]
  have hx := h.mem_behind hhist hcall horder' (by simp [horder])
  exact h.id_ne_of_append horder' (x := x) (y := x) (by simp) (by simp [hx]) rfl

end Linearization

end TracerBench
