import Mathlib.Data.List.Rotate
import TracerBench.Loop

/-!
# Circular buffers

A buffer that is full takes a new entry at the place of its oldest one, and that place goes
round. Read from there the buffer holds the entries in the order they came (`rotate_push`).

`rotatePass` is a pass of the loop that puts such a buffer in order in place, by swaps : what
lies from `middle` on goes to the front, entry by entry, and what it displaces gathers before
`next` (`Rotating`). The loop ends and rotates the buffer (`rotateBuffer_returns`).
-/

namespace TracerBench

variable {α : Type*}

/-! ## A full buffer -/

/-- To replace the oldest entry is to replace the first one of the rotated buffer. -/
theorem rotate_set (l : List α) (k : ℕ) (x : α) :
    (l.set (k % l.length) x).rotate k = (l.rotate k).set 0 x := by
  rcases l with _ | ⟨y, l⟩
  · simp
  obtain ⟨i, hi⟩ : ∃ i, i = k % (y :: l).length := ⟨_, rfl⟩
  have hlt : i < (y :: l).length := hi ▸ Nat.mod_lt _ (by simp)
  rw [List.rotate_eq_drop_append_take_mod, List.rotate_eq_drop_append_take_mod, List.length_set,
    ← hi, List.drop_set, List.take_set_of_le le_rfl, if_neg (lt_irrefl i), Nat.sub_self,
    List.set_append_left _ _ (by simp only [List.length_drop]; omega)]

/-- A full buffer drops its oldest entry for a new one. -/
theorem rotate_push {l : List α} (hl : l ≠ []) (k : ℕ) (x : α) :
    (l.set (k % l.length) x).rotate (k + 1) = (l.rotate k).tail ++ [x] := by
  rw [← List.rotate_rotate, rotate_set]
  rcases hr : l.rotate k with _ | ⟨y, r⟩
  · exact absurd (List.rotate_eq_nil_iff.1 hr) hl
  · simp

/-! ## Rotation in place -/

/-- The buffer and the three indices. -/
structure RotateState (α : Type*) where
  buf : List α
  first : ℕ
  middle : ℕ
  next : ℕ

/-- One pass, which fails on an index out of range. -/
def rotatePass (s : RotateState α) : Option (Pass (RotateState α) (List α)) :=
  if s.first = s.middle then some (.done s.buf)
  else
    match s.buf[s.first]?, s.buf[s.next]? with
    | some a, some b =>
      let buf := (s.buf.set s.first b).set s.next a
      let first := s.first + 1
      let next := s.next + 1
      if next = buf.length then some (.more ⟨buf, first, s.middle, s.middle⟩)
      else if first = s.middle then some (.more ⟨buf, first, next, next⟩)
      else some (.more ⟨buf, first, s.middle, next⟩)
    | _, _ => none

/-- Rotation of `buf` so that `pos` comes first. -/
def rotateBuffer (buf : List α) (pos : ℕ) (fuel : ℕ) : Option (List α) :=
  loop rotatePass fuel ⟨buf, 0, pos, pos⟩

/-- The front is in place. The entries `b` have been displaced by it, and come after the rest
`c` of those that go before them and before the rest `a` of those they were taken from. -/
structure Rotating (target front a b c : List α) (s : RotateState α) : Prop where
  buf : s.buf = front ++ a ++ b ++ c
  first : s.first = front.length
  middle : s.middle = s.first + a.length
  next : s.next = s.middle + b.length
  target : front ++ c ++ b ++ a = target
  idle : a = [] → b = []
  busy : a ≠ [] → c ≠ []

/-- Two entries change places. -/
theorem set_set_swap (p q r : List α) (x y : α) :
    ((p ++ x :: q ++ y :: r).set p.length y).set (p.length + 1 + q.length) x =
      p ++ y :: q ++ x :: r := by
  simp [Nat.add_comm, Nat.add_left_comm]

/-- The two entries that a pass swaps. -/
theorem Rotating.entries {target front a b c : List α} {x y : α} {s : RotateState α}
    (h : Rotating target front (x :: a) b (y :: c) s) :
    s.buf[s.first]? = some x ∧ s.buf[s.next]? = some y ∧
      (s.buf.set s.first y).set s.next x = front ++ [y] ++ a ++ b ++ [x] ++ c := by
  have hnext : s.next = front.length + 1 + (a ++ b).length := by
    rw [h.next, h.middle, h.first]
    simp
    omega
  have hbuf : s.buf = front ++ x :: (a ++ b) ++ y :: c := by
    rw [h.buf]
    simp
  rw [hbuf, h.first, hnext, set_set_swap]
  refine ⟨by simp, ?_, by simp⟩
  rw [List.getElem?_append_right (by simp; omega)]
  have hzero : front.length + 1 + (a ++ b).length - (front ++ x :: (a ++ b)).length = 0 := by
    simp
    omega
  rw [hzero]
  rfl

/-- A pass puts one entry in place. -/
theorem Rotating.pass {target front a b c : List α} {s : RotateState α}
    (h : Rotating target front a b c s) :
    rotatePass s = some (.done target) ∨
    ∃ s' front' a' b' c', rotatePass s = some (.more s') ∧ Rotating target front' a' b' c' s' ∧
      front'.length = front.length + 1 := by
  rcases a with _ | ⟨x, a⟩
  · left
    have hleave : s.first = s.middle := by simp [h.middle]
    rw [rotatePass, if_pos hleave, h.buf, ← h.target, h.idle rfl]
    simp
  right
  obtain ⟨y, c, rfl⟩ := List.exists_cons_of_ne_nil (h.busy (by simp))
  obtain ⟨hx, hy, hbuf⟩ := h.entries
  have hstay : s.first ≠ s.middle := by simp [h.middle]
  have hpass : rotatePass s =
      if s.next + 1 = ((s.buf.set s.first y).set s.next x).length then
        some (.more ⟨(s.buf.set s.first y).set s.next x, s.first + 1, s.middle, s.middle⟩)
      else if s.first + 1 = s.middle then
        some (.more
          ⟨(s.buf.set s.first y).set s.next x, s.first + 1, s.next + 1, s.next + 1⟩)
      else some (.more
        ⟨(s.buf.set s.first y).set s.next x, s.first + 1, s.middle, s.next + 1⟩) := by
    rw [rotatePass, if_neg hstay, hx, hy]
  rw [hpass, hbuf]
  have hfirst := h.first
  have hmiddle := h.middle
  have hnext := h.next
  have htarget := h.target
  simp only [List.length_cons] at hmiddle
  split_ifs with hend hgone
  · -- all that is to go before `b` and `a` is in place
    have hc : c = [] := by
      rw [← List.length_eq_zero_iff]
      simp only [List.length_append, List.length_singleton] at hend
      omega
    subst hc
    refine ⟨_, front ++ [y], a, [], b ++ [x], rfl, ⟨by simp, ?_, ?_, ?_, ?_, by simp, by simp⟩,
      by simp⟩
    · simp [hfirst]
    · simp only
      omega
    · simp
    · rw [← htarget]
      simp
  · -- what was displaced is the next to be
    have ha : a = [] := by
      rw [← List.length_eq_zero_iff]
      omega
    subst ha
    have hc : c ≠ [] := by
      rintro rfl
      simp at hend
      omega
    refine ⟨_, front ++ [y], b ++ [x], [], c, rfl, ⟨by simp, ?_, ?_, by simp, ?_, by simp,
      fun _ => hc⟩, by simp⟩
    · simp [hfirst]
    · simp only [List.length_append, List.length_singleton]
      simp only [List.length_nil] at hmiddle
      omega
    · rw [← htarget]
      simp
  · have ha : a ≠ [] := by
      rintro rfl
      simp only [List.length_nil] at hmiddle
      omega
    have hc : c ≠ [] := by
      rintro rfl
      simp at hend
      omega
    refine ⟨_, front ++ [y], a, b ++ [x], c, rfl, ⟨by simp, ?_, ?_, ?_, ?_, fun h => absurd h ha,
      fun _ => hc⟩, by simp⟩
    · simp [hfirst]
    · simp only
      omega
    · simp only [List.length_append, List.length_singleton]
      omega
    · rw [← htarget]
      simp

/-- The loop ends, and has rotated the buffer. -/
theorem rotateBuffer_returns {buf : List α} {pos : ℕ} (hpos : pos < buf.length) :
    Returns (rotateBuffer buf pos) (buf.rotate pos) := by
  refine ⟨buf.length + 1, fun fuel hfuel => ?_⟩
  have hpass : ∀ s, (∃ front a b c, Rotating (buf.rotate pos) front a b c s) →
      (∃ s', rotatePass s = some (.more s') ∧
        (∃ front a b c, Rotating (buf.rotate pos) front a b c s') ∧
          buf.length - s'.first < buf.length - s.first) ∨
      ∃ b, rotatePass s = some (.done b) ∧ b = buf.rotate pos := by
    rintro s ⟨front, a, b, c, h⟩
    rcases h.pass with hdone | ⟨s', front', a', b', c', hmore, h', hlen⟩
    · exact Or.inr ⟨_, hdone, rfl⟩
    · refine Or.inl ⟨s', hmore, ⟨_, _, _, _, h'⟩, ?_⟩
      have hfront := congrArg List.length h'.target
      simp only [List.length_append, List.length_rotate] at hfront
      rw [h.first, h'.first]
      omega
  have hstart : Rotating (buf.rotate pos) [] (buf.take pos) [] (buf.drop pos)
      ⟨buf, 0, pos, pos⟩ := by
    refine ⟨by simp, rfl, by simp; omega, by simp, ?_, by simp, fun _ hnil => ?_⟩
    · simp [List.rotate_eq_drop_append_take hpos.le]
    · rw [List.drop_eq_nil_iff] at hnil
      omega
  obtain ⟨b, hb, rfl⟩ := loop_of_measure (fun s : RotateState α => buf.length - s.first) hpass
    ⟨_, _, _, _, hstart⟩ (Nat.lt_of_succ_le hfuel)
  exact hb

end TracerBench
