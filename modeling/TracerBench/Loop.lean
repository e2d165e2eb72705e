import Mathlib.Data.Nat.Basic
import Mathlib.Logic.Relation

/-!
# While loops

A pass of a loop body goes round again (`Pass.more`) or leaves the loop with a value
(`Pass.done`). A pass can itself fail to end, when the body has a loop inside it, so
the body returns an `Option`. `loop body fuel` makes at most `fuel` passes, and `none`
means that the loop is still going round. More fuel never changes an answer
(`loop_mono`). A computation that takes fuel for its loops and its recursions `Returns`
a value when from some fuel on it gives that value, and it returns at most one.

A loop whose measure falls at each pass ends (`loop_of_measure`), and one that meets
only states from which it goes round again never does (`loop_eq_none`). `Passes` are the
states a loop comes to between its passes, the last of which it leaves from.
-/

namespace TracerBench

variable {σ β : Type*}

/-- What one pass of a loop body comes to. -/
inductive Pass (σ β : Type*) where
  | more (s : σ)
  | done (b : β)

/-- At most `fuel` passes of `body` from `s`. -/
def loop (body : σ → Option (Pass σ β)) : ℕ → σ → Option β
  | 0, _ => none
  | fuel + 1, s =>
    match body s with
    | none => none
    | some (.more s') => loop body fuel s'
    | some (.done b) => some b

/-- `s'` is a state that `body` comes to from `s` in passes that all go round again. -/
abbrev Passes (body : σ → Option (Pass σ β)) : σ → σ → Prop :=
  Relation.ReflTransGen fun s s' => body s = some (.more s')

/-- From some fuel on, the computation gives `b`. -/
def Returns (f : ℕ → Option β) (b : β) : Prop :=
  ∃ n, ∀ fuel, n ≤ fuel → f fuel = some b

theorem Returns.unique {f : ℕ → Option β} {b b' : β} (h : Returns f b) (h' : Returns f b') :
    b = b' := by
  obtain ⟨n, hn⟩ := h
  obtain ⟨m, hm⟩ := h'
  have h1 := hn _ (le_max_left n m)
  have h2 := hm _ (le_max_right n m)
  exact Option.some.inj (h1.symm.trans h2)

section Loop

variable {body : σ → Option (Pass σ β)} {s s' : σ} {b b' : β} {fuel fuel' : ℕ}

theorem loop_done (h : body s = some (.done b)) : loop body (fuel + 1) s = some b := by
  rw [loop, h]

theorem loop_more (h : body s = some (.more s')) :
    loop body (fuel + 1) s = loop body fuel s' := by
  rw [loop, h]

/-- More fuel does not change an answer. -/
theorem loop_mono (h : loop body fuel s = some b) (hle : fuel ≤ fuel') :
    loop body fuel' s = some b := by
  induction fuel generalizing s fuel' with
  | zero => simp [loop] at h
  | succ fuel ih =>
    obtain ⟨fuel', rfl⟩ : ∃ k, fuel' = k + 1 := ⟨fuel' - 1, by omega⟩
    rw [loop] at h ⊢
    cases hb : body s with
    | none => simp [hb] at h
    | some p =>
      cases p with
      | more s' => exact ih (by simpa [hb] using h) (by omega)
      | done b' => simpa [hb] using h

/-- A body that ends wherever `body` does, with the same pass, keeps its answers. -/
theorem loop_mono_body {body' : σ → Option (Pass σ β)}
    (hbody : ∀ s p, body s = some p → body' s = some p) (h : loop body fuel s = some b) :
    loop body' fuel s = some b := by
  induction fuel generalizing s with
  | zero => simp [loop] at h
  | succ fuel ih =>
    rw [loop] at h ⊢
    cases hb : body s with
    | none => simp [hb] at h
    | some p =>
      rw [hbody s p hb]
      cases p with
      | more s' => exact ih (by simpa [hb] using h)
      | done b' => simpa [hb] using h

/-- A loop whose passes take fuel too, once it has left. -/
theorem loop_returns {body : ℕ → σ → Option (Pass σ β)} {n : ℕ}
    (hmono : ∀ m s p, n ≤ m → body n s = some p → body m s = some p)
    (h : loop (body n) fuel s = some b) : Returns (fun m => loop (body m) m s) b :=
  ⟨max n fuel, fun _ hle => loop_mono
    (loop_mono_body (fun s p => hmono _ s p (Nat.le_trans (le_max_left n fuel) hle)) h)
    (Nat.le_trans (le_max_right n fuel) hle)⟩

/-- Total correctness: an invariant and a measure that falls at each pass end the loop
after at most `μ s + 1` passes. -/
theorem loop_of_measure {I : σ → Prop} {Q : β → Prop} (μ : σ → ℕ)
    (hpass : ∀ s, I s → (∃ s', body s = some (.more s') ∧ I s' ∧ μ s' < μ s) ∨
      ∃ b, body s = some (.done b) ∧ Q b) (hs : I s) (hfuel : μ s < fuel) :
    ∃ b, loop body fuel s = some b ∧ Q b := by
  induction fuel generalizing s with
  | zero => omega
  | succ fuel ih =>
    rcases hpass s hs with ⟨s', hb, hs', hlt⟩ | ⟨b, hb, hq⟩
    · rw [loop_more hb]
      exact ih hs' (by omega)
    · exact ⟨b, loop_done hb, hq⟩

/-- A loop leaves from a state its passes come to. -/
theorem loop_passes (h : loop body fuel s = some b) :
    ∃ s', Passes body s s' ∧ body s' = some (.done b) := by
  induction fuel generalizing s with
  | zero => simp [loop] at h
  | succ fuel ih =>
    rw [loop] at h
    cases hb : body s with
    | none => simp [hb] at h
    | some p =>
      rw [hb] at h
      cases p with
      | more s' =>
        obtain ⟨t, ht, hdone⟩ := ih h
        exact ⟨t, .head hb ht, hdone⟩
      | done b' =>
        obtain rfl := Option.some.inj h
        exact ⟨s, .refl, hb⟩

/-- A loop whose passes all go round again, or do not end, never leaves. -/
theorem loop_eq_none {I : σ → Prop}
    (hmore : ∀ s, I s → body s = none ∨ ∃ s', body s = some (.more s') ∧ I s') (hs : I s) :
    loop body fuel s = none := by
  induction fuel generalizing s with
  | zero => rfl
  | succ fuel ih =>
    rcases hmore s hs with hb | ⟨s', hb, hs'⟩
    · rw [loop, hb]
    · rw [loop_more hb]
      exact ih hs'

end Loop

end TracerBench
