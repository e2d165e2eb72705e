import Mathlib.Logic.Relation
import Mathlib.Order.WellFounded

/-!
# The trees of a forest

The nodes of a forest are its roots and the children of other nodes, and no node is an
ancestor of its own. Two nodes are in the same tree when a chain of children and parents
leads from one to the other (`SameTree`). Where the nodes fall into blocks that a child
shares with its parent, and no block has two roots, the trees are the blocks
(`sameTree_iff`).
-/

namespace TracerBench

variable {α β : Type*}

/-- The nodes of a forest, with `child p k` for a child `k` of `p`. -/
structure IsForest (nodes : Set α) (root : α → Prop) (child : α → α → Prop) : Prop where
  wf : WellFounded child
  origin : ∀ k ∈ nodes, root k ∨ ∃ p ∈ nodes, child p k

/-- The nodes that a chain of children and parents leads between. -/
abbrev SameTree (child : α → α → Prop) : α → α → Prop :=
  Relation.EqvGen child

section Forest

variable {nodes : Set α} {root : α → Prop} {child : α → α → Prop}

/-- Every node descends from a root. -/
theorem IsForest.exists_root (h : IsForest nodes root child) (k : α) (hk : k ∈ nodes) :
    ∃ r ∈ nodes, root r ∧ Relation.ReflTransGen child r k := by
  induction k using h.wf.induction with
  | _ k ih =>
    rcases h.origin k hk with hroot | ⟨p, hp, hchild⟩
    · exact ⟨k, hk, hroot, .refl⟩
    · obtain ⟨r, hr, hroot, hdesc⟩ := ih p hchild hp
      exact ⟨r, hr, hroot, hdesc.tail hchild⟩

/-- A tree lies in one block. -/
theorem block_eq_of_sameTree {block : α → β} (hblock : ∀ p k, child p k → block p = block k)
    {j k : α} (h : SameTree child j k) : block j = block k := by
  induction h with
  | rel p k hchild => exact hblock p k hchild
  | refl => rfl
  | symm _ _ _ ih => exact ih.symm
  | trans _ _ _ _ _ ih ih' => exact ih.trans ih'

theorem IsForest.sameTree_iff (h : IsForest nodes root child) (block : α → β)
    (hblock : ∀ p k, child p k → block p = block k)
    (hroots : ∀ r r', root r → root r' → block r = block r' → r = r') {j k : α} (hj : j ∈ nodes)
    (hk : k ∈ nodes) : SameTree child j k ↔ block j = block k := by
  refine ⟨block_eq_of_sameTree hblock, fun heq => ?_⟩
  obtain ⟨r, -, hr, hrj⟩ := h.exists_root j hj
  obtain ⟨r', -, hr', hrk⟩ := h.exists_root k hk
  have htree : SameTree child r j := Relation.EqvGen.reflTransGen_le_eqvGen child _ _ hrj
  have htree' : SameTree child r' k := Relation.EqvGen.reflTransGen_le_eqvGen child _ _ hrk
  obtain rfl : r = r' := hroots r r' hr hr' <| by
    rw [block_eq_of_sameTree hblock htree, heq, block_eq_of_sameTree hblock htree']
  exact (htree.symm _ _).trans _ _ _ htree'

end Forest

end TracerBench
