import TracerBench.ClientSpans

/-!
# The shape of a trace

The shape of a batch is the parent of each of its spans, with the spans numbered from 1
in the order they are started. `levels` is what three spans a level come to : a level
nests its client, server and database span, and hands one of the last two to the next
level as parent.

Go hands on the server span, and so does Python, whose other parents are the active
spans. C++ hands on the database span, so its trace is one chain (`levels_db`), where the
others branch under each server span (`levels_server`). `same_trace_iff` says for which
batches that makes no difference.
-/

namespace TracerBench

/-- The parent of each span a trace starts, in order. -/
def parents (es : List SpanEvent) : List (Option ℕ) :=
  es.filterMap fun
    | .start _ parent => some parent
    | .finish _ => none

@[simp] theorem parents_nil : parents [] = [] :=
  rfl

@[simp] theorem parents_append (a b : List SpanEvent) :
    parents (a ++ b) = parents a ++ parents b :=
  List.filterMap_append

@[simp] theorem parents_start (span : ℕ) (parent : Option ℕ) (es : List SpanEvent) :
    parents (.start span parent :: es) = parent :: parents es :=
  rfl

@[simp] theorem parents_finish (span : ℕ) (es : List SpanEvent) :
    parents (.finish span :: es) = parents es :=
  rfl

/-- Spans by their number in a trace whose first span is `first`. -/
def numbered (first : ℕ) (ps : List (Option ℕ)) : List (Option ℤ) :=
  ps.map (Option.map fun p : ℕ => (p : ℤ) + 1 - first)

/-- What a client starts from `c` to `c'` has the shape `shape`. -/
def HasShape (shape : List (Option ℤ)) (c c' : Client) : Prop :=
  ∃ es, c'.events = c.events ++ es ∧ numbered c.next (parents es) = shape

/-! ## Levels -/

/-- The parents of `n` spans, three a level, the first of which is `first`. -/
def levels (nextParent : ℕ → ℕ → ℕ) : ℕ → Option ℕ → ℕ → List (Option ℕ)
  | 0, _, _ => []
  | 1, parent, _ => [parent]
  | 2, parent, first => [parent, some first]
  | n + 3, parent, first =>
    parent :: some first :: some (first + 1) ::
      levels nextParent n (some (nextParent (first + 1) (first + 2))) (first + 3)

section Levels

variable {nextParent : ℕ → ℕ → ℕ}

/-- A batch ends in its first level, or goes on to another one. -/
theorem levels_cases {n : ℕ} (h : 1 ≤ n) :
    n = 1 ∨ n = 2 ∨ n = 3 ∨ ∃ m, n = m + 3 ∧ 1 ≤ m := by
  rcases Nat.lt_or_ge n 4 with hlt | hle
  · omega
  · exact Or.inr (Or.inr (Or.inr ⟨n - 3, by omega, by omega⟩))

theorem length_levels : ∀ (n : ℕ) (parent : Option ℕ) (first : ℕ),
    (levels nextParent n parent first).length = n
  | 0, _, _ | 1, _, _ | 2, _, _ => rfl
  | n + 3, _, _ => by simp [levels, length_levels n]

/-- The shape does not depend on the numbers. -/
theorem levels_add (hnext : ∀ a b d, nextParent (a + d) (b + d) = nextParent a b + d) (d : ℕ) :
    ∀ (n : ℕ) (parent : Option ℕ) (first : ℕ),
      levels nextParent n (parent.map (· + d)) (first + d) =
        (levels nextParent n parent first).map (Option.map (· + d))
  | 0, _, _ | 1, _, _ | 2, _, _ => rfl
  | n + 3, parent, first => by
    have h := levels_add hnext d n (some (nextParent (first + 1) (first + 2))) (first + 3)
    rw [Option.map_some, ← hnext] at h
    simp only [levels, List.map_cons, Option.map_some, ← h]
    simp only [Nat.add_right_comm _ d]

theorem numbered_levels (hnext : ∀ a b d, nextParent (a + d) (b + d) = nextParent a b + d)
    (n first : ℕ) :
    numbered first (levels nextParent n none first) =
      (levels nextParent n none 1).map (Option.map Nat.cast) := by
  have h0 := levels_add hnext first n none 0
  have h1 := levels_add hnext 1 n none 0
  rw [Option.map_none, Nat.zero_add] at h0 h1
  rw [h0, h1, numbered, List.map_map, List.map_map]
  refine List.map_congr_left fun p _ => ?_
  cases p with
  | none => rfl
  | some p =>
    simp only [Function.comp_apply, Option.map_some]
    push_cast
    ring_nf

/-- C++ : each span is the child of the one before. -/
theorem levels_db : ∀ (n : ℕ) (parent : Option ℕ) (first k : ℕ), k < n →
    (levels (fun _ dbSpan => dbSpan) n parent first)[k]? =
      some (if k = 0 then parent else some (first + k - 1))
  | 1, _, _, 0, _ => rfl
  | 2, _, _, 0, _ | 2, _, _, 1, _ => rfl
  | n + 3, _, _, 0, _ | n + 3, _, _, 1, _ | n + 3, _, _, 2, _ => rfl
  | n + 3, _, first, k + 3, hk => by
    have h := levels_db n (some (first + 2)) (first + 3) k (by omega)
    simp only [levels, List.getElem?_cons_succ, h, if_neg (Nat.succ_ne_zero (k + 2))]
    split_ifs with h0
    · simp [h0]
    · congr 2
      omega

/-- Go and Python : the first span of a level is the child of the server span of the level
before, two spans back. -/
theorem levels_server : ∀ (n : ℕ) (parent : Option ℕ) (first k : ℕ), k < n →
    (levels (fun serverSpan _ => serverSpan) n parent first)[k]? =
      some (if k = 0 then parent else some (first + k - if k % 3 = 0 then 2 else 1))
  | 1, _, _, 0, _ => rfl
  | 2, _, _, 0, _ | 2, _, _, 1, _ => rfl
  | n + 3, _, _, 0, _ | n + 3, _, _, 1, _ | n + 3, _, _, 2, _ => rfl
  | n + 3, _, first, k + 3, hk => by
    have h := levels_server n (some (first + 1)) (first + 3) k (by omega)
    simp only [levels, List.getElem?_cons_succ, h, Nat.add_mod_right,
      if_neg (Nat.succ_ne_zero (k + 2))]
    split_ifs with h0 h3
    · simp [h0]
    all_goals
      congr 2
      omega

end Levels

/-! ## Pieces of a client's code -/

/-- A piece of code that started spans with the parents `ps`. -/
structure Starts (ps : List (Option ℕ)) (c c' : Client) : Prop where
  events : ∃ es, c'.events = c.events ++ es ∧ parents es = ps
  next : c'.next = c.next + ps.length

namespace Starts

variable {w : ℤ} {ps qs : List (Option ℕ)} {parent : Option ℕ} {c c' c'' : Client}

theorem refl (c : Client) : Starts [] c c :=
  ⟨⟨[], by simp⟩, rfl⟩

theorem trans (h : Starts ps c c') (h' : Starts qs c' c'') : Starts (ps ++ qs) c c'' := by
  obtain ⟨⟨es, he, rfl⟩, hn⟩ := h
  obtain ⟨⟨es', he', rfl⟩, hn'⟩ := h'
  refine ⟨⟨es ++ es', by rw [he', he, List.append_assoc], parents_append es es'⟩, ?_⟩
  rw [hn', hn, List.length_append, Nat.add_assoc]

theorem enter {k : ℤ} (h : Starts ps (c.enter k) c') : Starts ps c c' :=
  ⟨h.events, h.next⟩

/-- A span with its work around what comes next. -/
theorem span (h : Starts ps ((c.startSpan parent).doWork w) c') :
    Starts (parent :: ps) c (c'.finish c.next) := by
  obtain ⟨⟨es, he, rfl⟩, hn⟩ := h
  refine ⟨⟨.start c.next parent :: es ++ [.finish c.next], ?_, by simp⟩, ?_⟩
  · change c'.events ++ _ = _
    rw [he]
    simp [Client.startSpan, Client.doWork]
  · change c'.next = _
    rw [hn, Client.doWork_next, Client.startSpan_next, List.length_cons]
    omega

/-- The parents do not depend on which spans are active once they are started. -/
theorem ofActive {a b : List ℕ} (h : Starts ps { c with active := a } c') :
    Starts ps c { c' with active := b } :=
  ⟨h.events, h.next⟩

theorem hasShape (h : Starts ps c c') : HasShape (numbered c.next ps) c c' := by
  obtain ⟨⟨es, he, rfl⟩, -⟩ := h
  exact ⟨es, he, rfl⟩

end Starts

theorem HasShape.unique {shape shape' : List (Option ℤ)} {c c' : Client}
    (h : HasShape shape c c') (h' : HasShape shape' c c') : shape = shape' := by
  obtain ⟨es, he, rfl⟩ := h
  obtain ⟨es', he', rfl⟩ := h'
  rw [List.append_cancel_left (he.symm.trans he')]

/-! ## Go and C++ -/

theorem finishing_starts (w : ℤ) {ps : List (Option ℕ)} {parent : Option ℕ} {c : Client}
    {rest : Option Client}
    (h : ∃ c', rest = some c' ∧ Starts ps ((c.startSpan parent).doWork w) c') :
    ∃ c', finishing c.next rest = some c' ∧ Starts (parent :: ps) c c' := by
  obtain ⟨c', rfl, h⟩ := h
  exact ⟨_, rfl, h.span⟩

theorem generateSpansWith_starts (nextParent : ℕ → ℕ → ℕ) (w : ℤ) :
    ∀ (fuel n : ℕ) (parent : Option ℕ) (c : Client), 1 ≤ n → n ≤ 3 * fuel →
      ∃ c', generateSpansWith nextParent w fuel n parent c = some c' ∧
        Starts (levels nextParent n parent c.next) c c'
  | 0, n, _, _, h1, hn => by omega
  | fuel + 1, n, parent, c, h1, hn => by
    rw [generateSpansWith]
    suffices h : ∃ c', _ = some c' ∧ Starts (levels nextParent n parent c.next) (c.enter n) c' from
      h.imp fun _ h => ⟨h.1, h.2.enter⟩
    obtain rfl | rfl | rfl | ⟨m, rfl, hm⟩ := levels_cases h1
    · refine finishing_starts w ?_
      rw [if_pos (by rfl)]
      exact ⟨_, rfl, Starts.refl _⟩
    · refine finishing_starts w ?_
      rw [if_neg (by decide)]
      refine finishing_starts w ?_
      rw [if_pos (by rfl)]
      exact ⟨_, rfl, Starts.refl _⟩
    · refine finishing_starts w ?_
      rw [if_neg (by decide)]
      refine finishing_starts w ?_
      rw [if_neg (by decide)]
      refine finishing_starts w ?_
      rw [if_pos (by rfl)]
      exact ⟨_, rfl, Starts.refl _⟩
    · have hsub : ((m + 3 : ℕ) : ℤ) - 1 - 1 - 1 = m := by omega
      refine finishing_starts w ?_
      rw [if_neg (by omega)]
      refine finishing_starts w ?_
      rw [if_neg (by omega)]
      refine finishing_starts w ?_
      rw [if_neg (by omega), hsub]
      exact generateSpansWith_starts nextParent w fuel m _ _ hm (by omega)

/-! ## Python -/

namespace PythonClient

variable {ps qs : List (Option ℕ)} {c : Client} {flow : Flow}

/-- A block that ends as `flow` says, having started spans with the parents `ps` and with
the scopes as they were. -/
def BlockStarts (ps : List (Option ℕ)) (c : Client) (flow : Flow) (r : Option (Flow × Client)) :
    Prop :=
  ∃ c', r = some (flow, c') ∧ Starts ps c c' ∧ c'.active = c.active

theorem withScope_starts (w : ℤ) (parent : Option ℕ)
    {block : ℕ → Client → Option (Flow × Client)}
    (h : BlockStarts ps ((makeScope parent c).doWork w) flow
      (block c.next (makeScope parent c))) :
    BlockStarts (parent.or c.active.head? :: ps) c flow (withScope parent c block) := by
  obtain ⟨c', hc', hs, ha⟩ := h
  rw [makeScope_eq] at hs ha
  have hs' : Starts ps ((c.startSpan (parent.or c.active.head?)).doWork w) c' := hs.ofActive
  refine ⟨c'.exitScope c.next, ?_, hs'.span.ofActive, ?_⟩
  · rw [withScope, hc']
    rfl
  · change c'.active.tail = c.active
    rw [ha]
    rfl

/-- Without `child_of` the parent is the active span. -/
theorem withScope_none_starts (w : ℤ) {span : ℕ} {block : ℕ → Client → Option (Flow × Client)}
    (hspan : c.active.head? = some span)
    (h : BlockStarts ps ((makeScope none c).doWork w) flow (block c.next (makeScope none c))) :
    BlockStarts (some span :: ps) c flow (withScope none c block) := by
  have hs := withScope_starts w none h
  rwa [hspan] at hs

theorem andThen_ret_starts {first : Option (Flow × Client)}
    {rest : Client → Option (Flow × Client)} (h : BlockStarts ps c .ret first) :
    BlockStarts ps c .ret (andThen first rest) := by
  obtain ⟨c', rfl, h⟩ := h
  exact ⟨c', rfl, h⟩

theorem andThen_fall_starts {first : Option (Flow × Client)}
    {rest : Client → Option (Flow × Client)} (h : BlockStarts ps c .fall first)
    (hrest : ∀ c', c'.next = c.next + ps.length → BlockStarts qs c' flow (rest c')) :
    BlockStarts (ps ++ qs) c flow (andThen first rest) := by
  obtain ⟨c', rfl, hs, ha⟩ := h
  obtain ⟨c'', hr, hs', ha'⟩ := hrest c' hs.next
  exact ⟨c'', hr, hs.trans hs', ha'.trans ha⟩

theorem call_starts {r : Option (Option PyError × Client)}
    (h : ∃ c', r = some (none, c') ∧ Starts ps c c' ∧ c'.active = c.active) :
    BlockStarts ps c .fall (call r) := by
  obtain ⟨c', rfl, h⟩ := h
  exact ⟨c', rfl, h⟩

theorem function_starts (k : ℤ) {r : Option (Flow × Client)}
    (h : ∃ flow, Flow.error flow = none ∧ BlockStarts ps (c.enter k) flow r) :
    ∃ c', r.map (fun (flow, c) => (Flow.error flow, c)) = some (none, c') ∧ Starts ps c c' ∧
      c'.active = c.active := by
  obtain ⟨flow, hflow, c', rfl, hs, ha⟩ := h
  exact ⟨c', by simp [hflow], hs.enter, ha⟩

/-- A call that returns has started one level after the other, and its scopes are closed. -/
theorem generateSpans_starts (w : ℤ) :
    ∀ (fuel n : ℕ) (parent : Option ℕ) (c : Client), 1 ≤ n → n ≤ 3 * fuel →
      ∃ c', generateSpans w fuel n parent c = some (none, c') ∧
        Starts (levels (fun serverSpan _ => serverSpan) n (parent.or c.active.head?) c.next) c c' ∧
        c'.active = c.active
  | 0, n, _, _, h1, hn => by omega
  | fuel + 1, n, parent, c, h1, hn => by
    rw [generateSpans]
    dsimp only
    rw [if_pos (by omega)]
    refine function_starts n ?_
    obtain rfl | rfl | rfl | ⟨m, rfl, hm⟩ := levels_cases h1
    · refine ⟨.ret, rfl, withScope_starts w parent ?_⟩
      rw [if_pos (by rfl)]
      exact ⟨_, rfl, Starts.refl _, rfl⟩
    · refine ⟨.ret, rfl, withScope_starts w parent ?_⟩
      rw [if_neg (by decide)]
      refine withScope_none_starts w (by simp) ?_
      rw [if_pos (by rfl)]
      exact ⟨_, rfl, Starts.refl _, rfl⟩
    · refine ⟨.ret, rfl, withScope_starts w parent ?_⟩
      rw [if_neg (by decide)]
      refine withScope_none_starts w (by simp) ?_
      rw [if_neg (by decide)]
      refine andThen_ret_starts (withScope_none_starts w (by simp) ?_)
      rw [if_pos (by rfl)]
      exact ⟨_, rfl, Starts.refl _, rfl⟩
    · have hsub : ((m + 3 : ℕ) : ℤ) - 1 - 1 - 1 = m := by omega
      refine ⟨.fall, rfl, withScope_starts w parent ?_⟩
      rw [if_neg (by omega)]
      refine withScope_none_starts w (by simp) ?_
      rw [if_neg (by omega)]
      -- the database span is closed before the next level
      refine @andThen_fall_starts [some (c.next + 1)] _ _ _ _ _
        (withScope_none_starts w (by simp) ?_) fun c' hnext => ?_
      · rw [if_neg (by omega)]
        exact ⟨_, rfl, Starts.refl _, rfl⟩
      · rw [hsub]
        have ih := generateSpans_starts w fuel m (some (c.next + 1)) c' hm (by omega)
        simp only [Client.doWork_next, makeScope_next, Client.enter_next, List.length_singleton]
          at hnext ⊢
        rw [hnext] at ih
        exact call_starts ih

end PythonClient

/-! ## The three clients -/

/-- What Python's calls start, and with it Go's. -/
theorem python_go_shape (w : ℤ) {n : ℕ} (hn : 1 ≤ n) (p g : Client) (hp : p.active = []) :
    ∃ shape p' g',
      Returns (fun fuel => PythonClient.generateSpans w fuel n none p) (none, p') ∧
      HasShape shape p p' ∧
      Returns (fun fuel => GoClient.generateSpans w fuel n none g) g' ∧ HasShape shape g g' ∧
      shape = (levels (fun serverSpan _ => serverSpan) n none 1).map (Option.map Nat.cast) := by
  obtain ⟨p', hp', hps, -⟩ := PythonClient.generateSpans_starts w n n none p hn (by omega)
  obtain ⟨g', hg', hgs⟩ :=
    generateSpansWith_starts (fun serverSpan _ => serverSpan) w n n none g hn (by omega)
  have hpshape := hps.hasShape
  have hgshape := hgs.hasShape
  rw [hp, List.head?_nil, Option.or_none, numbered_levels fun _ _ _ => rfl] at hpshape
  rw [numbered_levels fun _ _ _ => rfl] at hgshape
  exact ⟨_, p', g', ⟨n, fun _ hle => PythonClient.generateSpans_mono hle hp'⟩, hpshape,
    ⟨n, fun _ hle => generateSpansWith_mono hle hg'⟩, hgshape, rfl⟩

theorem cpp_shape (w : ℤ) {n : ℕ} (hn : 1 ≤ n) (c : Client) :
    ∃ c', Returns (fun fuel => CppClient.generateSpans w fuel n none c) c' ∧
      HasShape ((levels (fun _ dbSpan => dbSpan) n none 1).map (Option.map Nat.cast)) c c' := by
  obtain ⟨c', hc', hs⟩ :=
    generateSpansWith_starts (fun _ dbSpan => dbSpan) w n n none c hn (by omega)
  have hshape := hs.hasShape
  rw [numbered_levels fun _ _ _ => rfl] at hshape
  exact ⟨c', ⟨n, fun _ hle => generateSpansWith_mono hle hc'⟩, hshape⟩

/-- The two ways of nesting differ from the first span of the second level on. -/
theorem levels_eq_iff (n : ℕ) :
    levels (fun serverSpan _ => serverSpan) n none 1 = levels (fun _ dbSpan => dbSpan) n none 1 ↔
      n ≤ 3 := by
  constructor
  · intro h
    by_contra hlt
    have h3 := congrArg (·[3]?) h
    simp only [levels_server n none 1 3 (by omega), levels_db n none 1 3 (by omega)] at h3
    exact absurd h3 (by decide)
  · intro h
    obtain rfl | rfl | rfl | rfl : n = 0 ∨ n = 1 ∨ n = 2 ∨ n = 3 := by omega
    all_goals rfl

/-- The three clients generate the same trace for `n` spans exactly when they fit in one
level. -/
theorem same_trace_iff (w : ℤ) {n : ℕ} (hn : 1 ≤ n) (p g c : Client) (hp : p.active = []) :
    (∃ shape p' g' c',
      (Returns (fun fuel => PythonClient.generateSpans w fuel n none p) (none, p') ∧
        HasShape shape p p') ∧
      (Returns (fun fuel => GoClient.generateSpans w fuel n none g) g' ∧ HasShape shape g g') ∧
      Returns (fun fuel => CppClient.generateSpans w fuel n none c) c' ∧ HasShape shape c c') ↔
      n ≤ 3 := by
  obtain ⟨shape, p', g', hp', hps, hg', hgs, rfl⟩ := python_go_shape w hn p g hp
  obtain ⟨c', hc', hcs⟩ := cpp_shape w hn c
  constructor
  · rintro ⟨shape, -, g'', c'', -, ⟨hg'', hgs'⟩, hc'', hcs'⟩
    obtain rfl := hg'.unique hg''
    obtain rfl := hc'.unique hc''
    have heq := (hgs.unique hgs').trans (hcs'.unique hcs)
    have hinj : Function.Injective (Option.map (Nat.cast : ℕ → ℤ)) :=
      Option.map_injective Nat.cast_injective
    exact (levels_eq_iff n).1 (List.map_injective_iff.2 hinj heq)
  · intro h
    rw [← (levels_eq_iff n).2 h] at hcs
    exact ⟨_, p', g', c', ⟨hp', hps⟩, ⟨hg', hgs⟩, hc', hcs⟩

theorem same_trace_iff_sample :
    ¬∃ shape p' g' c',
      (Returns (fun fuel => PythonClient.generateSpans 5 fuel (6 : ℕ) none Client.fresh)
          (none, p') ∧
        HasShape shape Client.fresh p') ∧
      (Returns (fun fuel => GoClient.generateSpans 5 fuel (6 : ℕ) none Client.fresh) g' ∧
        HasShape shape Client.fresh g') ∧
      Returns (fun fuel => CppClient.generateSpans 5 fuel (6 : ℕ) none Client.fresh) c' ∧
        HasShape shape Client.fresh c' := by
  rw [same_trace_iff 5 (by decide) Client.fresh Client.fresh Client.fresh rfl]
  decide

/-- The fourth span is a child of the server span in Go, and of the database span in C++. -/
theorem fourth_span_differs :
    ∃ g' c',
      Returns (fun fuel => GoClient.generateSpans 5 fuel (4 : ℕ) none Client.fresh) g' ∧
      HasShape [none, some 1, some 2, some 2] Client.fresh g' ∧
      Returns (fun fuel => CppClient.generateSpans 5 fuel (4 : ℕ) none Client.fresh) c' ∧
      HasShape [none, some 1, some 2, some 3] Client.fresh c' ∧
      ¬∃ shape, HasShape shape Client.fresh g' ∧ HasShape shape Client.fresh c' := by
  obtain ⟨-, -, g', -, -, hg', hgs, rfl⟩ := python_go_shape 5 (n := 4) (by decide) Client.fresh
    Client.fresh rfl
  obtain ⟨c', hc', hcs⟩ := cpp_shape 5 (n := 4) (by decide) Client.fresh
  refine ⟨g', c', hg', hgs, hc', hcs, ?_⟩
  rintro ⟨shape, hg, hc⟩
  exact absurd ((hgs.unique hg).trans (hc.unique hcs)) (by decide)

end TracerBench
