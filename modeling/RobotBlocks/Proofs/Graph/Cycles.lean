import Mathlib.Data.Fintype.Pigeonhole
import RobotBlocks.Proofs.Graph.Forest

/-!
# Circles of owners

Claims are honoured without asking whether the owner hangs below the owned block, so owner links can
run in a circle, of any length. A block of the graph is reachable or *circular*: its owner links lead
into such a circle (`not_reachable_iff_circular`).

Going up from a block that has no depth never comes to an end (`exists_climb`), but there are only
finitely many names to come by, so one of them comes by twice.
-/

namespace RobotBlocks

namespace Graph

variable {g : Graph}

/-- Owner links lead from the block of this name to one from which they lead back to itself. -/
def Circular (g : Graph) (id : Text) : Prop :=
  ∃ n m other, g.climb n id = some other ∧ g.climb (m + 1) other = some other

/-- Links can be followed in two stretches. -/
theorem climb_add (n m : ℕ) (id : Text) :
    g.climb (n + m) id = (g.climb n id).bind (g.climb m) := by
  induction n generalizing id with
  | zero => simp [climb]
  | succ n ih =>
    rw [Nat.succ_add, climb, climb, Option.bind_assoc]
    congr 1
    funext other
    exact ih other

/-- The depth of a name that is climbed to. -/
theorem AtDepth.climb {n m : ℕ} {id other : Text} (h : g.AtDepth n id)
    (hm : g.climb m id = some other) : ∃ k, g.AtDepth k other := by
  induction m generalizing n id with
  | zero =>
    obtain rfl : id = other := by simpa [Graph.climb] using hm
    exact ⟨n, h⟩
  | succ m ih =>
    rw [Graph.climb, Option.bind_eq_some_iff] at hm
    obtain ⟨parent, hparent, hm⟩ := hm
    cases h with
    | root hnone => simp [hparent] at hnone
    | owned h hn =>
      obtain rfl : _ = _ := Option.some.inj (h.symm.trans hparent)
      exact ih hn hm

/-- A circular block has no depth. -/
theorem Circular.not_atDepth {id : Text} (h : g.Circular id) (n : ℕ) : ¬ g.AtDepth n id := by
  obtain ⟨_, m, other, hclimb, hcircle⟩ := h
  intro hn
  obtain ⟨k, hk⟩ := hn.climb hclimb
  -- All the way round the circle would lie the same name at another depth.
  have := hk.unique (hk.of_climb hcircle)
  omega

/-- Going up from a name that has no depth never comes to an end. -/
theorem exists_climb {id : Text} (h : ∀ n, ¬ g.AtDepth n id) (n : ℕ) :
    ∃ other, g.climb n id = some other := by
  induction n with
  | zero => exact ⟨id, rfl⟩
  | succ n ih =>
    obtain ⟨other, hother⟩ := ih
    rcases howner : g.owner? other with _ | parent
    · exact absurd (atDepth_iff.2 ⟨other, hother, howner⟩) (h n)
    · exact ⟨parent, climb_succ hother howner⟩

/-- Going up from a block of the graph comes by blocks of the graph only. -/
theorem mem_ids_of_climb (hg : g.Settled) {n : ℕ} {id other : Text}
    (hid : id ∈ g.blocks.map Block.id) (h : g.climb n id = some other) :
    other ∈ g.blocks.map Block.id := by
  induction n generalizing id with
  | zero =>
    obtain rfl : id = other := by simpa [climb] using h
    exact hid
  | succ n ih =>
    rw [climb, Option.bind_eq_some_iff] at h
    obtain ⟨parent, hparent, h⟩ := h
    obtain ⟨p, hp, rfl⟩ := hg.owner_mem hparent
    exact ih (List.mem_map_of_mem hp) h

/-- **A block that has no depth is circular**: some name must come by twice on the way up. -/
theorem circular_of_not_atDepth (hg : g.Settled) {id : Text} (hid : id ∈ g.blocks.map Block.id)
    (h : ∀ n, ¬ g.AtDepth n id) : g.Circular id := by
  choose name hname using exists_climb h
  obtain ⟨i, j, hij, hsame⟩ : ∃ i j, i < j ∧ name i = name j := by
    have hmem : ∀ n, name n ∈ g.blocks.map Block.id := fun n => mem_ids_of_climb hg hid (hname n)
    obtain ⟨i, j, hne, hsame⟩ := Finite.exists_ne_map_eq_of_infinite
      fun n => (⟨name n, hmem n⟩ : {id // id ∈ g.blocks.map Block.id})
    have hsame := Subtype.mk.inj hsame
    rcases Nat.lt_or_gt_of_ne hne with hlt | hlt
    · exact ⟨i, j, hlt, hsame⟩
    · exact ⟨j, i, hlt, hsame.symm⟩
  refine ⟨i, j - i - 1, name i, hname i, ?_⟩
  have hround := hname j
  rw [show j = i + (j - i - 1 + 1) by omega, climb_add, hname i, Option.bind_some] at hround
  rw [hround, hsame]
  congr 2
  omega

/-- **A block of the graph cannot be reached if and only if it is circular.** -/
theorem not_reachable_iff_circular (hg : g.Settled) {b : Block} (hb : b ∈ g.blocks) :
    ¬ g.Reachable b ↔ g.Circular b.id := by
  rw [reachable_iff hg]
  constructor
  · intro h
    exact circular_of_not_atDepth hg (List.mem_map_of_mem hb) fun n hn => h ⟨hb, n, hn⟩
  · rintro h ⟨-, n, hn⟩
    exact h.not_atDepth n hn

end Graph

end RobotBlocks
