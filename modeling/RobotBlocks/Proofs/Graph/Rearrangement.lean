import RobotBlocks.Proofs.Block.ReadingOrder
import RobotBlocks.Proofs.Graph.Forest

/-!
# Rearranged programs

A program is rearranged by listing its blocks in another order and by letting each block name its
children in another order (`Block.Rearranged`). Where names tell blocks apart and coordinates are
numbers, its graph is the same but for the arrangement:

* the claims of one block can be settled in any order: each of them is refused or granted for the
  same reason whichever other claims of the block came before (`alike_claim_claim`, `alike_foldl`);
* blocks are read in one order, so their claims are settled one block after the other as before
  (`alike_build`), and with the same remarks;
* hence roots, children and unrolled programs are those of the original (`Alike.topLevel`,
  `Alike.inSlot`, `Alike.unroll`).
-/

namespace RobotBlocks

namespace Block

/-- The block, naming its children in the given order. -/
def reordered (order : Block → List Text) (b : Block) : Block := { b with children := order b }

/-- A list of blocks holds those of another one in whatever order, each of them with its children in
whatever order. Names tell the blocks apart, and their coordinates are numbers. -/
structure Rearranged (order : Block → List Text) (blocks blocks' : List Block) : Prop where
  nodup_ids : (blocks.map Block.id).Nodup
  placed : ∀ b ∈ blocks, b.IsPlaced
  children : ∀ b ∈ blocks, (order b).Perm b.children
  blocks : blocks'.Perm (blocks.map (reordered order))

variable {order : Block → List Text} {blocks blocks' : List Block}

theorem keepsPlaces_reordered (order : Block → List Text) : KeepsPlaces (reordered order) :=
  ⟨fun _ => rfl, fun _ => rfl, fun _ => rfl⟩

namespace Rearranged

theorem nodup_ids' (h : Rearranged order blocks blocks') : (blocks'.map Block.id).Nodup := by
  rw [(h.blocks.map Block.id).nodup_iff, List.map_map]
  exact h.nodup_ids

theorem find? (h : Rearranged order blocks blocks') (id : Text) :
    Block.find? blocks' id = (Block.find? blocks id).map (reordered order) := by
  rcases hfind : Block.find? blocks id with _ | b
  · rw [Option.map_none, Block.find?, List.find?_eq_none]
    intro b' hb'
    obtain ⟨b, hb, rfl⟩ := List.mem_map.1 (h.blocks.mem_iff.1 hb')
    exact List.find?_eq_none.1 hfind b hb
  · have hid : b.id = id := by simpa using List.find?_some hfind
    have hb' : b.reordered order ∈ blocks' :=
      h.blocks.mem_iff.2 (List.mem_map_of_mem (List.mem_of_find?_eq_some hfind))
    rw [Option.map_some, ← hid]
    exact find?_eq_some_of_nodup Block.id h.nodup_ids' hb'

/-- Some of the blocks are read in the same order in both lists. -/
theorem inReadingOrder (h : Rearranged order blocks blocks') {xs ys : List Block}
    (hxs : xs ⊆ blocks) (hperm : ys.Perm (xs.map (reordered order))) :
    inReadingOrder ys = (inReadingOrder xs).map (reordered order) :=
  inReadingOrder_eq_map h.nodup_ids h.placed (keepsPlaces_reordered order) hxs hperm

end Rearranged

end Block

namespace Graph

open Block (Rearranged reordered)

variable {order : Block → List Text} {blocks blocks' : List Block} {parent : Block}

/-! ## The claims of one block -/

namespace Claims

/-- Grants the claim of a block on a child. -/
def grant (c : Claims) (parent : Text) (child : Block) : Claims :=
  { c with owner := c.owner ++ [(child.id, parent)], owned := c.owned ++ [child] }

/-- Two states of the claims hold the same owner links, the same blocks and the same diagnostics, in
whatever order. -/
structure Alike (order : Block → List Text) (c c' : Claims) : Prop where
  owner : ∀ id, ownerIn? c'.owner id = ownerIn? c.owner id
  owned : c'.owned.Perm (c.owned.map (reordered order))
  diagnostics : ∀ d, d ∈ c'.diagnostics.entries ↔ d ∈ c.diagnostics.entries

variable {c c' : Claims}

theorem ownerIn?_grant (c : Claims) (parent : Text) (child : Block) (id : Text) :
    ownerIn? (c.grant parent child).owner id =
      (ownerIn? c.owner id).or (if child.id = id then some parent else none) := by
  rw [ownerIn?, ownerIn?, grant, List.find?_append, Option.map_or]
  by_cases h : child.id = id <;> simp [h]

namespace Alike

theorem reject (h : Alike order c c') (id message : Text) :
    Alike order (c.reject id message) (c'.reject id message) where
  owner := h.owner
  owned := h.owned
  diagnostics d := by rw [Claims.reject, Claims.reject, Diagnostics.mem_warn, Diagnostics.mem_warn,
    h.diagnostics]

theorem grant (h : Alike order c c') (parent : Text) (child : Block) :
    Alike order (c.grant parent child) (c'.grant parent (child.reordered order)) where
  owner id := by
    rw [ownerIn?_grant, ownerIn?_grant, h.owner]
    rfl
  owned := by
    rw [Claims.grant, Claims.grant, List.map_append]
    exact h.owned.append (.refl _)
  diagnostics := h.diagnostics

/-- Two refusals in the one order and in the other. -/
theorem reject_reject (h : Alike order c c') (id message id' message' : Text) :
    Alike order ((c.reject id message).reject id' message')
      ((c'.reject id' message').reject id message) where
  owner := h.owner
  owned := h.owned
  diagnostics d := by
    simp only [Claims.reject, Diagnostics.mem_warn, h.diagnostics]
    exact or_right_comm

/-- Two children granted in the one order and in the other. -/
theorem grant_grant (h : Alike order c c') (parent : Text) (child other : Block) :
    Alike order ((c.grant parent child).grant parent other)
      ((c'.grant parent (other.reordered order)).grant parent (child.reordered order)) where
  owner id := by
    have hcomm : ∀ o : Option Text, ∀ p q : Prop, ∀ [Decidable p] [Decidable q],
        (o.or (if p then some parent else none)).or (if q then some parent else none) =
          (o.or (if q then some parent else none)).or (if p then some parent else none) := by
      intro o p q _ _
      by_cases hp : p <;> by_cases hq : q <;> simp [hp, hq]
    simp only [ownerIn?_grant, h.owner]
    exact hcomm _ _ _
  owned := by
    simp only [Claims.grant, List.append_assoc, List.cons_append, List.nil_append, List.map_append,
      List.map_cons, List.map_nil]
    exact h.owned.append (.swap _ _ _)
  diagnostics := h.diagnostics

/-- Of two states to which a third one is alike, whatever is alike to one is alike to the other. -/
theorem zigzag {c₁ c₂ c₁' c₂' : Claims} (h₁ : Alike order c₁ c₁') (h : Alike order c₂ c₁')
    (h₂ : Alike order c₂ c₂') : Alike order c₁ c₂' where
  owner id := by rw [h₂.owner, ← h.owner, h₁.owner]
  owned := (h₂.owned.trans h.owned.symm).trans h₁.owned
  diagnostics d := by rw [h₂.diagnostics, ← h.diagnostics, h₁.diagnostics]

end Alike

end Claims

open Claims (Alike)

/-- **A claim is refused or granted**, and who owns the claimed block so far decides it: in a
rearranged program no otherwise than in the original. -/
theorem claim_cases (h : Rearranged order blocks blocks') (parent : Block) (id : Text)
    (owner : Option Text) :
    (∃ block message, ∀ c : Claims, ownerIn? c.owner id = owner →
      claim blocks parent c id = c.reject block message ∧
      claim blocks' (parent.reordered order) c id = c.reject block message) ∨
    ∃ child, child.id = id ∧ ∀ c : Claims, ownerIn? c.owner id = owner →
      claim blocks parent c id = c.grant parent.id child ∧
      claim blocks' (parent.reordered order) c id =
        c.grant parent.id (child.reordered order) := by
  have hparent : (parent.reordered order).id = parent.id := rfl
  by_cases hself : id = parent.id
  · refine .inl ⟨id, "Block lists itself as a child", fun c _ => ⟨claim_of_self hself, ?_⟩⟩
    exact claim_of_self (hself.trans hparent.symm)
  have hself' : id ≠ (parent.reordered order).id := hself
  have hfind' : Block.find? blocks' id = (Block.find? blocks id).map (reordered order) := h.find? id
  rcases hfind : Block.find? blocks id with _ | child
  · rw [hfind, Option.map_none] at hfind'
    exact .inl ⟨parent.id, "Unknown child block: " ++ id, fun c _ =>
      ⟨claim_of_unknown hself hfind, claim_of_unknown hself' hfind'⟩⟩
  rw [hfind, Option.map_some] at hfind'
  rcases owner with _ | other
  · obtain rfl : child.id = id := by simpa using List.find?_some hfind
    exact .inr ⟨child, rfl, fun c hc =>
      ⟨claim_of_free hself hfind hc, claim_of_free hself' hfind' hc⟩⟩
  · exact .inl ⟨id, "Already nested in block " ++ other ++ "; ignoring claim by " ++ parent.id,
      fun c hc => ⟨claim_of_owned hself hfind hc, claim_of_owned hself' hfind' hc⟩⟩

theorem alike_claim (h : Rearranged order blocks blocks') {c c' : Claims} (hc : Alike order c c')
    (id : Text) :
    Alike order (claim blocks parent c id) (claim blocks' (parent.reordered order) c' id) := by
  rcases claim_cases h parent id (ownerIn? c.owner id) with ⟨block, message, hid⟩ | ⟨child, -, hid⟩
  · rw [(hid c rfl).1, (hid c' (hc.owner id)).2]
    exact hc.reject block message
  · rw [(hid c rfl).1, (hid c' (hc.owner id)).2]
    exact hc.grant parent.id child

/-- **Claims on two names can be settled in either order.** -/
theorem alike_claim_claim (h : Rearranged order blocks blocks') {c c' : Claims}
    (hc : Alike order c c') {x y : Text} (hne : x ≠ y) :
    Alike order (claim blocks parent (claim blocks parent c x) y)
      (claim blocks' (parent.reordered order) (claim blocks' (parent.reordered order) c' y) x) := by
  have hother : ∀ (c : Claims) (child : Block) (id : Text), child.id ≠ id →
      ownerIn? (c.grant parent.id child).owner id = ownerIn? c.owner id := by
    intro c child id hid
    rw [Claims.ownerIn?_grant, if_neg hid, Option.or_none]
  rcases claim_cases h parent x (ownerIn? c.owner x) with
    ⟨blockX, messageX, hx⟩ | ⟨childX, rfl, hx⟩ <;>
  rcases claim_cases h parent y (ownerIn? c.owner y) with
    ⟨blockY, messageY, hy⟩ | ⟨childY, rfl, hy⟩
  · rw [(hx c rfl).1, (hy (c.reject _ _) rfl).1, (hy c' (hc.owner y)).2,
      (hx (c'.reject _ _) (hc.owner x)).2]
    exact hc.reject_reject blockX messageX blockY messageY
  · rw [(hx c rfl).1, (hy (c.reject _ _) rfl).1, (hy c' (hc.owner _)).2,
      (hx (c'.grant _ (childY.reordered order))
        ((hother c' (childY.reordered order) x hne.symm).trans (hc.owner x))).2]
    exact (hc.reject blockX messageX).grant parent.id childY
  · rw [(hx c rfl).1, (hy _ (hother c _ y hne)).1, (hy c' (hc.owner y)).2,
      (hx (c'.reject _ _) (hc.owner _)).2]
    exact (hc.grant parent.id childX).reject blockY messageY
  · rw [(hx c rfl).1, (hy _ (hother c _ _ hne)).1, (hy c' (hc.owner _)).2,
      (hx (c'.grant _ (childY.reordered order))
        ((hother c' (childY.reordered order) _ hne.symm).trans (hc.owner _))).2]
    exact hc.grant_grant parent.id childX childY

/-- **All claims of a block can be settled in any order.** -/
theorem alike_foldl (h : Rearranged order blocks blocks') (parent : Block) {ids ids' : List Text}
    (hids : ids.Perm ids') {c c' : Claims} (hc : Alike order c c') :
    Alike order (ids.foldl (claim blocks parent) c)
      (ids'.foldl (claim blocks' (parent.reordered order)) c') := by
  have hsame : ∀ (ids : List Text) {c c' : Claims}, Alike order c c' →
      Alike order (ids.foldl (claim blocks parent) c)
        (ids.foldl (claim blocks' (parent.reordered order)) c') := fun ids {c c'} hc =>
    List.foldl_rel hc fun id _ _ _ hc => alike_claim h hc id
  induction hids generalizing c c' with
  | nil => exact hc
  | cons id _ ih => exact ih (alike_claim h hc id)
  | swap x y ids =>
    by_cases hne : y = x
    · rw [hne]
      exact hsame _ hc
    · exact hsame ids (alike_claim_claim h hc hne)
  | @trans _ ids _ _ _ ih₁ ih₂ => exact (ih₁ hc).zigzag (hsame ids hc) (ih₂ hc)

/-! ## The claims of all blocks -/

/-- A graph is that of a rearranged program: its blocks are rearranged, their owners are the same,
and so are their children and the order in which these are read. -/
structure Alike (order : Block → List Text) (g g' : Graph) : Prop where
  blocks : Rearranged order g.blocks g'.blocks
  owner? : ∀ id, g'.owner? id = g.owner? id
  children : g'.children = g.children.map fun c => (c.1, c.2.map (reordered order))

/-- Settling the claims of one block keeps graphs and diagnostics alike. -/
theorem alike_adopt {state state' : Graph × Diagnostics} (h : Rearranged order blocks blocks')
    (hparent : parent ∈ blocks) (hgraph : Graph.Alike order state.1 state'.1)
    (hds : ∀ d, d ∈ state'.2.entries ↔ d ∈ state.2.entries) :
    Graph.Alike order (adopt blocks state parent).1
        (adopt blocks' state' (parent.reordered order)).1 ∧
      ∀ d, d ∈ (adopt blocks' state' (parent.reordered order)).2.entries ↔
        d ∈ (adopt blocks state parent).2.entries := by
  have hstart : Claims.Alike order ⟨state.1.owner, [], state.2⟩ ⟨state'.1.owner, [], state'.2⟩ :=
    ⟨hgraph.owner?, .nil, hds⟩
  have hclaims := alike_foldl h parent (h.children parent hparent).symm hstart
  obtain ⟨share, howned, -, hshare, -⟩ :=
    exists_share blocks parent parent.children ⟨state.1.owner, [], state.2⟩
  refine ⟨⟨hgraph.blocks, hclaims.owner, ?_⟩, hclaims.diagnostics⟩
  have hread := h.inReadingOrder (fun b hb => ?_) hclaims.owned
  · simp only [adopt, hgraph.children, List.map_append, List.map_cons, List.map_nil]
    exact congrArg (fun read => _ ++ [(parent.id, read)]) hread
  · rw [howned, List.nil_append] at hb
    exact (hshare b hb).1

theorem distinct_eq_self {blocks : List Block} (h : (blocks.map Block.id).Nodup)
    (ds : Diagnostics) : distinct blocks ds = (blocks, ds) := by
  suffices ∀ kept : List Block, ((kept ++ blocks).map Block.id).Nodup →
      blocks.foldl keep (kept, ds) = (kept ++ blocks, ds) from this [] h
  induction blocks with
  | nil => simp
  | cons b blocks ih =>
    intro kept hkept
    have hnew : (kept.any fun k => k.id == b.id) = false := by
      rw [List.any_eq_false]
      intro k hk hid
      rw [List.map_append, List.nodup_append] at hkept
      exact hkept.2.2 k.id (List.mem_map_of_mem hk) b.id (by simp) (by simpa using hid)
    rw [List.foldl_cons, keep, hnew, if_neg Bool.false_ne_true]
    have := ih (List.nodup_cons.1 h).2 (kept ++ [b]) (by simpa using hkept)
    simpa using this

/-- **The graph of a rearranged program** is that of the original, and the same is recorded. -/
theorem alike_build (h : Rearranged order blocks blocks') (ds : Diagnostics) :
    Graph.Alike order (build blocks ds).1 (build blocks' ds).1 ∧
      ∀ d, d ∈ (build blocks' ds).2.entries ↔ d ∈ (build blocks ds).2.entries := by
  have hparents := h.inReadingOrder (List.Subset.refl blocks) h.blocks
  have hstart : Graph.Alike order ⟨blocks, [], []⟩ ⟨blocks', [], []⟩ := ⟨h, fun _ => rfl, rfl⟩
  rw [build, build, distinct_eq_self h.nodup_ids, distinct_eq_self h.nodup_ids']
  dsimp only
  rw [hparents, List.foldl_map]
  refine List.foldl_rel (r := fun state state' : Graph × Diagnostics =>
    Graph.Alike order state.1 state'.1 ∧ ∀ d, d ∈ state'.2.entries ↔ d ∈ state.2.entries)
    ⟨hstart, fun _ => Iff.rfl⟩ fun parent hparent state state' hstate => ?_
  rw [Block.inReadingOrder, Sorting.mem_sort] at hparent
  exact alike_adopt h hparent hstate.1 hstate.2

/-! ## What the graphs lead to -/

namespace Alike

variable {g g' : Graph} (h : Alike order g g')
include h

theorem childrenOf (b : Block) :
    g'.childrenOf (b.reordered order) = (g.childrenOf b).map (reordered order) := by
  rw [Graph.childrenOf, Graph.childrenOf, h.children, List.find?_map]
  change (Option.map _ (Option.map _ (g.children.find? fun c => c.1 == b.id))).getD [] = _
  cases g.children.find? fun c => c.1 == b.id <;> rfl

theorem inSlot (b : Block) (slot : Slot) :
    g'.inSlot (b.reordered order) slot = (g.inSlot b slot).map (reordered order) := by
  rw [Graph.inSlot, h.childrenOf, List.filter_map]
  rfl

theorem topLevel : g'.topLevel = g.topLevel.map (reordered order) := by
  have hroots : (g'.blocks.filter fun b => (g'.owner? b.id).isNone).Perm
      ((g.blocks.filter fun b => (g.owner? b.id).isNone).map (reordered order)) := by
    simp only [h.owner?]
    refine (h.blocks.blocks.filter _).trans (.of_eq ?_)
    rw [List.filter_map]
    rfl
  simp only [Graph.topLevel]
  rw [h.blocks.inReadingOrder List.filter_sublist.subset hroots, List.filter_map, List.filter_map,
    List.map_append]
  rfl

/-- **A rearranged program unrolls to the same visits.** -/
theorem unroll {times : Block → ℕ} (htimes : ∀ b, times (b.reordered order) = times b) (b : Block) :
    g'.unroll times (b.reordered order) = (g.unroll times b).map (reordered order) := by
  have hlevels : ∀ levels b, g'.unrollWithin times levels (b.reordered order) =
      (g.unrollWithin times levels b).map (reordered order) := by
    intro levels
    induction levels with
    | zero => exact fun b => rfl
    | succ levels ih =>
      intro b
      have hslot : ∀ slot, (g'.inSlot (b.reordered order) slot).flatMap
          (g'.unrollWithin times levels) =
            ((g.inSlot b slot).flatMap (g.unrollWithin times levels)).map (reordered order) := by
        intro slot
        rw [h.inSlot, List.flatMap_map, List.map_flatMap]
        exact List.flatMap_congr fun c _ => ih c
      rw [unrollWithin, hslot, hslot, htimes, unrollWithin, List.map_append, List.map_cons,
        List.map_flatten, List.map_replicate]
  have hlength : g'.blocks.length = g.blocks.length := by
    rw [h.blocks.blocks.length_eq, List.length_map]
  rw [Graph.unroll, Graph.unroll, hlength]
  exact hlevels _ b

end Alike

end Graph

end RobotBlocks
