import RobotBlocks.Block.Graph
import RobotBlocks.Proofs.Sorting.Naturality

/-!
# Programs with one graph

The graph of a program depends on the names, places, kinds, children and slots of its blocks, and on
nothing else that they state (`Block.SameShape`). Programs whose blocks are pairwise of one shape
have graphs that are the same but for the blocks themselves (`Graph.Counterpart`), and the same is
recorded about them (`Graph.counterpart_build`).

* Every step that settles an owner finds the same reasons in both programs (`counterpart_claim`,
  `counterpart_adopt`); the runs over all claims follow, since lists are gone through in one order.
* Roots and the children in each slot are counterparts in the same order (`Counterpart.topLevel`,
  `Counterpart.inSlot`).
-/

namespace RobotBlocks

/-- Two blocks agree in all that the graph of a program depends on. -/
structure Block.SameShape (a b : Block) : Prop where
  id : a.id = b.id
  kind : a.kind = b.kind
  x : a.x = b.x
  y : a.y = b.y
  children : a.children = b.children
  slots : a.slots = b.slots

namespace Block.SameShape

variable {a a' b b' : Block}

theorem refl (b : Block) : b.SameShape b := ⟨rfl, rfl, rfl, rfl, rfl, rfl⟩

theorem isContainer (h : a.SameShape b) : a.isContainer = b.isContainer := by
  rw [Block.isContainer, Block.isContainer, h.kind]

theorem precedes (h : a.SameShape b) (h' : a'.SameShape b') :
    a.precedes a' = b.precedes b' := by
  simp only [Block.precedes, h.id, h.x, h.y, h'.id, h'.x, h'.y]

theorem slotFor (h : a.SameShape b) (h' : a'.SameShape b') : a.slotFor a' = b.slotFor b' := by
  simp only [Block.slotFor, h.isContainer, h.slots, h.x, h'.id, h'.x]

end Block.SameShape

namespace Graph

variable {R : Block → Block → Prop} {blocks blocks' : List Block} {a b : Block}

/-- Two graphs with the same owners, whose blocks are pairwise related. -/
structure Counterpart (R : Block → Block → Prop) (g g' : Graph) : Prop where
  blocks : List.Forall₂ R g.blocks g'.blocks
  owner : g.owner = g'.owner
  children : List.Forall₂ (fun c c' => c.1 = c'.1 ∧ List.Forall₂ R c.2 c'.2) g.children g'.children

/-- Two states of the claims of one block with the same owners and diagnostics, whose owned blocks
are pairwise related. -/
structure Claims.Counterpart (R : Block → Block → Prop) (c c' : Claims) : Prop where
  owner : c.owner = c'.owner
  owned : List.Forall₂ R c.owned c'.owned
  diagnostics : c.diagnostics = c'.diagnostics

theorem Claims.Counterpart.reject {c c' : Claims} (h : c.Counterpart R c') (id message : Text) :
    (c.reject id message).Counterpart R (c'.reject id message) :=
  ⟨h.owner, h.owned, by rw [Claims.reject, Claims.reject, h.diagnostics]⟩

/-- Related lists have related first elements that pass related tests. -/
theorem rel_find? {α β : Type} {R : α → β → Prop} {p : α → Bool} {q : β → Bool}
    (hpq : ∀ ⦃x y⦄, R x y → p x = q y) {xs : List α} {ys : List β} (h : List.Forall₂ R xs ys) :
    Option.Rel R (xs.find? p) (ys.find? q) := by
  induction h with
  | nil => exact .none
  | @cons x y _ _ hxy _ ih =>
    rw [List.find?_cons, List.find?_cons, ← hpq hxy]
    cases p x with
    | true => exact .some hxy
    | false => exact ih

variable (hR : ∀ ⦃a b⦄, R a b → a.SameShape b)
include hR

theorem counterpart_inReadingOrder (h : List.Forall₂ R blocks blocks') :
    List.Forall₂ R (Block.inReadingOrder blocks) (Block.inReadingOrder blocks') :=
  Sorting.forall₂_sort (R := R) (fun ha hb => (hR ha).precedes (hR hb)) h

/-! ## Settling the owners -/

theorem counterpart_keep {state state' : List Block × Diagnostics}
    (h : List.Forall₂ R state.1 state'.1 ∧ state.2 = state'.2) (hab : R a b) :
    List.Forall₂ R (keep state a).1 (keep state' b).1 ∧ (keep state a).2 = (keep state' b).2 := by
  have hany : (state.1.any fun k => k.id == a.id) = state'.1.any fun k => k.id == b.id := by
    have hfind := rel_find? (p := fun k => k.id == a.id) (q := fun k => k.id == b.id)
      (fun _ _ hxy => by rw [(hR hxy).id, (hR hab).id]) h.1
    rw [← List.isSome_find?, ← List.isSome_find?]
    generalize state.1.find? _ = found, state'.1.find? _ = found' at hfind ⊢
    cases hfind <;> rfl
  rw [keep, keep, ← hany, ← (hR hab).id, ← h.2]
  split
  · exact ⟨h.1, rfl⟩
  · exact ⟨List.rel_append h.1 (.cons hab .nil), rfl⟩

theorem counterpart_distinct (h : List.Forall₂ R blocks blocks') (ds : Diagnostics) :
    List.Forall₂ R (distinct blocks ds).1 (distinct blocks' ds).1 ∧
      (distinct blocks ds).2 = (distinct blocks' ds).2 :=
  List.rel_foldl (R := R) (P := fun (s s' : List Block × Diagnostics) =>
      List.Forall₂ R s.1 s'.1 ∧ s.2 = s'.2)
    (fun _ _ hs _ _ hab => counterpart_keep hR hs hab) ⟨.nil, rfl⟩ h

/-- **A claim is honoured or refused for the same reason** in both programs. -/
theorem counterpart_claim (hblocks : List.Forall₂ R blocks blocks') (hab : R a b) {c c' : Claims}
    (h : c.Counterpart R c') (id : Text) :
    (claim blocks a c id).Counterpart R (claim blocks' b c' id) := by
  have hfind : Option.Rel R (Block.find? blocks id) (Block.find? blocks' id) :=
    rel_find? (fun _ _ hxy => by rw [(hR hxy).id]) hblocks
  rw [claim, claim, ← (hR hab).id, ← h.owner]
  split
  · exact h.reject _ _
  · generalize Block.find? blocks id = child, Block.find? blocks' id = child' at hfind ⊢
    cases hfind with
    | none => exact h.reject _ _
    | some hchild =>
      dsimp only
      split
      · exact h.reject _ _
      · exact ⟨by rw [h.owner], List.rel_append h.owned (.cons hchild .nil), h.diagnostics⟩

theorem counterpart_adopt (hblocks : List.Forall₂ R blocks blocks') (hab : R a b)
    {state state' : Graph × Diagnostics}
    (h : state.1.Counterpart R state'.1 ∧ state.2 = state'.2) :
    (adopt blocks state a).1.Counterpart R (adopt blocks' state' b).1 ∧
      (adopt blocks state a).2 = (adopt blocks' state' b).2 := by
  have hclaims : (a.children.foldl (claim blocks a) ⟨state.1.owner, [], state.2⟩).Counterpart R
      (b.children.foldl (claim blocks' b) ⟨state'.1.owner, [], state'.2⟩) := by
    rw [← (hR hab).children]
    exact List.foldl_rel ⟨h.1.owner, .nil, h.2⟩ fun id _ _ _ hc =>
      counterpart_claim hR hblocks hab hc id
  refine ⟨⟨h.1.blocks, hclaims.owner, ?_⟩, hclaims.diagnostics⟩
  exact List.rel_append h.1.children
    (.cons ⟨(hR hab).id, counterpart_inReadingOrder hR hclaims.owned⟩ .nil)

/-- **Programs whose blocks are pairwise of one shape** have graphs with the same owners, and the
same is recorded about them. -/
theorem counterpart_build (h : List.Forall₂ R blocks blocks') (ds : Diagnostics) :
    (build blocks ds).1.Counterpart R (build blocks' ds).1 ∧
      (build blocks ds).2 = (build blocks' ds).2 := by
  obtain ⟨hknown, hds⟩ := counterpart_distinct hR h ds
  refine List.rel_foldl (R := R) (P := fun (s s' : Graph × Diagnostics) =>
    s.1.Counterpart R s'.1 ∧ s.2 = s'.2) (fun _ _ hs _ _ hab => counterpart_adopt hR hknown hab hs)
    ?_ (counterpart_inReadingOrder hR hknown)
  exact ⟨⟨hknown, rfl, .nil⟩, hds⟩

/-! ## Roots and children -/

namespace Counterpart

variable {g g' : Graph} (h : g.Counterpart R g')
include h

theorem childrenOf (hab : R a b) : List.Forall₂ R (g.childrenOf a) (g'.childrenOf b) := by
  have hfind := rel_find? (p := fun c => c.1 == a.id) (q := fun c => c.1 == b.id)
    (fun _ _ hc => by rw [hc.1, (hR hab).id]) h.children
  rw [Graph.childrenOf, Graph.childrenOf]
  generalize g.children.find? _ = found, g'.children.find? _ = found' at hfind ⊢
  cases hfind with
  | none => exact .nil
  | some hc => exact hc.2

theorem inSlot (hab : R a b) (slot : Slot) :
    List.Forall₂ R (g.inSlot a slot) (g'.inSlot b slot) :=
  List.rel_filter (fun _ _ hc => by simp only [(hR hab).slotFor (hR hc)])
    (childrenOf hR h hab)

theorem topLevel : List.Forall₂ R g.topLevel g'.topLevel := by
  have hroots : List.Forall₂ R (g.blocks.filter fun b => (g.owner? b.id).isNone)
      (g'.blocks.filter fun b => (g'.owner? b.id).isNone) :=
    List.rel_filter (fun _ _ hb => by simp only [owner?, h.owner, (hR hb).id]) h.blocks
  have hread := counterpart_inReadingOrder hR hroots
  exact List.rel_append (List.rel_filter (fun _ _ hb => by simp only [(hR hb).kind]) hread)
    (List.rel_filter (fun _ _ hb => by simp only [(hR hb).kind]) hread)

end Counterpart

end Graph

end RobotBlocks
