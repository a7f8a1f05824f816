import Mathlib.Data.List.Nodup
import RobotBlocks.Block.Graph
import RobotBlocks.Proofs.Sorting.Permutation

/-!
# How claims are settled

`Graph.build` settles the claims of all blocks in one pass. What it leaves behind is described in
two ways:

* `exists_shares`: every block of the graph has got a share of the blocks, in reading order of the
  blocks; the owner links are those of the shares, and no block is in two shares or in its own.
* `settled_build`: the graph is `Settled`, which is all that its walks rely on. Names tell the
  blocks apart, an owner is a block of the graph, and the children of a block are the blocks with
  an owner link to it, each of them once.

`noted_build` lists what the pass records.
-/

namespace RobotBlocks

/-- In a list whose elements are told apart by a key, looking for the key of an element finds it. -/
theorem find?_eq_some_of_nodup {α κ : Type} [BEq κ] [LawfulBEq κ] (key : α → κ) {xs : List α}
    (h : (xs.map key).Nodup) {x : α} (hx : x ∈ xs) : xs.find? (fun y => key y == key x) = some x := by
  induction xs with
  | nil => simp at hx
  | cons y xs ih =>
    rw [List.map_cons, List.nodup_cons] at h
    rcases List.mem_cons.1 hx with rfl | hx
    · simp
    · have hne : key y ≠ key x := fun e => h.1 (e ▸ List.mem_map_of_mem hx)
      rw [List.find?_cons_of_neg (by simpa using hne)]
      exact ih h.2 hx

namespace Graph

/-! ## Names -/

theorem nodup_keep {state : List Block × Diagnostics} (h : (state.1.map Block.id).Nodup)
    (b : Block) : ((keep state b).1.map Block.id).Nodup := by
  unfold keep
  split
  · exact h
  · rename_i new
    rw [List.map_append, List.nodup_append]
    refine ⟨h, by simp, fun id hid other hother => ?_⟩
    obtain ⟨k, hk, rfl⟩ := List.mem_map.1 hid
    obtain rfl : other = b.id := by simpa using hother
    exact fun e => new (List.any_eq_true.2 ⟨k, hk, by simpa using e⟩)

theorem nodup_distinct (blocks : List Block) (ds : Diagnostics) :
    ((distinct blocks ds).1.map Block.id).Nodup := by
  suffices ∀ state : List Block × Diagnostics, (state.1.map Block.id).Nodup →
      ((blocks.foldl keep state).1.map Block.id).Nodup from this ([], ds) List.nodup_nil
  induction blocks with
  | nil => exact fun state h => h
  | cons b blocks ih => exact fun state h => ih (keep state b) (nodup_keep h b)

/-- Looking for the owner of a block reads the owner links, as long as no block has two. -/
theorem ownerIn?_eq_some_iff {owner : List (Text × Text)} (h : (owner.map Prod.fst).Nodup)
    {id other : Text} : ownerIn? owner id = some other ↔ (id, other) ∈ owner := by
  unfold ownerIn?
  constructor
  · intro found
    obtain ⟨⟨id', other'⟩, hfind, rfl⟩ := Option.map_eq_some_iff.1 found
    have hkey := List.find?_some hfind
    obtain rfl : id' = id := by simpa using hkey
    exact List.mem_of_find?_eq_some hfind
  · intro hm
    have := find?_eq_some_of_nodup Prod.fst h hm
    simp only at this
    rw [this]
    rfl

theorem ownerIn?_eq_none_iff {owner : List (Text × Text)} {id : Text} :
    ownerIn? owner id = none ↔ id ∉ owner.map Prod.fst := by
  rw [ownerIn?, Option.map_eq_none_iff, List.find?_eq_none, List.mem_map]
  constructor
  · rintro h ⟨link, hlink, rfl⟩
    exact h link hlink (beq_self_eq_true link.1)
  · exact fun h link hlink e => h ⟨link, hlink, by simpa using e⟩

/-! ## The claim of a block on a name -/

section Claim

variable {blocks : List Block} {parent : Block} {c : Claims} {id : Text}

theorem claim_of_self (h : id = parent.id) :
    claim blocks parent c id = c.reject id "Block lists itself as a child" := by
  rw [claim, if_pos (by simpa using h)]

theorem claim_of_unknown (hne : id ≠ parent.id) (h : Block.find? blocks id = none) :
    claim blocks parent c id = c.reject parent.id ("Unknown child block: " ++ id) := by
  rw [claim, if_neg (by simpa using hne), h]

theorem claim_of_owned (hne : id ≠ parent.id) {child : Block}
    (h : Block.find? blocks id = some child) {other : Text}
    (howner : ownerIn? c.owner id = some other) :
    claim blocks parent c id =
      c.reject id ("Already nested in block " ++ other ++ "; ignoring claim by " ++ parent.id) := by
  rw [claim, if_neg (by simpa using hne), h]
  simp only [howner]

theorem claim_of_free (hne : id ≠ parent.id) {child : Block}
    (h : Block.find? blocks id = some child) (hfree : ownerIn? c.owner id = none) :
    claim blocks parent c id =
      { c with owner := c.owner ++ [(id, parent.id)], owned := c.owned ++ [child] } := by
  rw [claim, if_neg (by simpa using hne), h]
  simp only [hfree]

end Claim

/-! ## Shares -/

/-- The owner links that a block has from the blocks in its share. -/
def links (parent : Block) (share : List Block) : List (Text × Text) :=
  share.map fun b => (b.id, parent.id)

/-- Settling the claims of one block gives it a share of other blocks that had no owner. -/
theorem exists_share (blocks : List Block) (parent : Block) (ids : List Text) (c : Claims) :
    ∃ share : List Block,
      (ids.foldl (claim blocks parent) c).owned = c.owned ++ share ∧
      (ids.foldl (claim blocks parent) c).owner = c.owner ++ links parent share ∧
      (∀ b ∈ share, b ∈ blocks ∧ b.id ≠ parent.id) ∧
      ((c.owner.map Prod.fst).Nodup →
        ((ids.foldl (claim blocks parent) c).owner.map Prod.fst).Nodup) := by
  induction ids generalizing c with
  | nil => exact ⟨[], by simp, by simp [links], by simp, id⟩
  | cons id ids ih =>
    rw [List.foldl_cons]
    obtain ⟨share, howned, howner, hshare, hnodup⟩ := ih (claim blocks parent c id)
    -- A claim that is refused changes neither the owned blocks nor the links.
    by_cases hself : id = parent.id
    · rw [claim_of_self hself] at howned howner hnodup ⊢
      exact ⟨share, howned, howner, hshare, hnodup⟩
    rcases hfind : Block.find? blocks id with _ | child
    · rw [claim_of_unknown hself hfind] at howned howner hnodup ⊢
      exact ⟨share, howned, howner, hshare, hnodup⟩
    rcases hfree : ownerIn? c.owner id with _ | other
    · have hid : child.id = id := by simpa using List.find?_some hfind
      have hnew : (c.owner.map Prod.fst).Nodup →
          ((c.owner ++ [(id, parent.id)]).map Prod.fst).Nodup := fun h => by
        rw [List.map_append, List.nodup_append]
        refine ⟨h, by simp, fun a ha b hb => ?_⟩
        obtain rfl : b = id := by simpa using hb
        exact fun e => ownerIn?_eq_none_iff.1 hfree (e ▸ ha)
      rw [claim_of_free hself hfind hfree] at howned howner hnodup ⊢
      refine ⟨child :: share, by simpa using howned, by simpa [links, hid] using howner, ?_,
        fun h => hnodup (hnew h)⟩
      intro b hb
      rcases List.mem_cons.1 hb with rfl | hb
      · exact ⟨List.mem_of_find?_eq_some hfind, by simpa [hid] using hself⟩
      · exact hshare b hb
    · rw [claim_of_owned hself hfind hfree] at howned howner hnodup ⊢
      exact ⟨share, howned, howner, hshare, hnodup⟩

/-- Settling the claims of several blocks gives each of them a share. -/
theorem exists_shares (blocks parents : List Block) (state : Graph × Diagnostics) :
    ∃ shares : List (Block × List Block),
      shares.map Prod.fst = parents ∧
      (parents.foldl (adopt blocks) state).1.blocks = state.1.blocks ∧
      (parents.foldl (adopt blocks) state).1.owner =
        state.1.owner ++ shares.flatMap (fun s => links s.1 s.2) ∧
      (parents.foldl (adopt blocks) state).1.children =
        state.1.children ++ shares.map (fun s => (s.1.id, Block.inReadingOrder s.2)) ∧
      (∀ s ∈ shares, ∀ b ∈ s.2, b ∈ blocks ∧ b.id ≠ s.1.id) ∧
      ((state.1.owner.map Prod.fst).Nodup →
        ((parents.foldl (adopt blocks) state).1.owner.map Prod.fst).Nodup) := by
  induction parents generalizing state with
  | nil => exact ⟨[], rfl, rfl, by simp, by simp, by simp, id⟩
  | cons parent parents ih =>
    rw [List.foldl_cons]
    obtain ⟨share, howned, howner, hshare, hnodup⟩ :=
      exists_share blocks parent parent.children ⟨state.1.owner, [], state.2⟩
    obtain ⟨shares, hfst, hblocks, howners, hchildren, hshares, hnodups⟩ :=
      ih (adopt blocks state parent)
    refine ⟨(parent, share) :: shares, by rw [List.map_cons, hfst], hblocks, ?_, ?_, ?_,
      fun h => hnodups (hnodup h)⟩
    · rw [howners, List.flatMap_cons, ← List.append_assoc]
      exact congrArg (· ++ _) howner
    · rw [hchildren, List.map_cons, ← List.singleton_append, ← List.append_assoc]
      simp only [adopt, howned, List.nil_append]
    · intro s hs
      rcases List.mem_cons.1 hs with rfl | hs
      · exact hshare
      · exact hshares s hs

/-! ## Settled graphs -/

/-- Names tell the blocks of the graph apart, owners are blocks of the graph, and the children of a
block are the blocks that have it as their owner, each of them once. -/
structure Settled (g : Graph) : Prop where
  nodup_ids : (g.blocks.map Block.id).Nodup
  owner_mem : ∀ {id other : Text}, g.owner? id = some other → ∃ p ∈ g.blocks, p.id = other
  mem_childrenOf : ∀ {p : Block}, p ∈ g.blocks → ∀ {b : Block},
    b ∈ g.childrenOf p ↔ b ∈ g.blocks ∧ g.owner? b.id = some p.id
  nodup_childrenOf : ∀ {p : Block}, p ∈ g.blocks → (g.childrenOf p).Nodup

/-- **The graph of every list of blocks is settled**, whatever the blocks claim. -/
theorem settled_build (blocks : List Block) (ds : Diagnostics) : (build blocks ds).1.Settled := by
  have hids := nodup_distinct blocks ds
  unfold build
  set known := (distinct blocks ds).1
  obtain ⟨shares, hfst, hblocks, howner, hchildren, hshares, hnodup⟩ :=
    exists_shares known (Block.inReadingOrder known) (⟨known, [], []⟩, (distinct blocks ds).2)
  dsimp only at hnodup hblocks howner hchildren ⊢
  set g := ((Block.inReadingOrder known).foldl (adopt known)
    (⟨known, [], []⟩, (distinct blocks ds).2)).1
  rw [List.nil_append] at howner hchildren
  have hkeys : (g.owner.map Prod.fst).Nodup := hnodup List.nodup_nil
  have hperm : (shares.map Prod.fst).Perm known := hfst ▸ Sorting.sort_perm _ known
  have hlink : ∀ {id other : Text}, g.owner? id = some other ↔
      ∃ s ∈ shares, ∃ b ∈ s.2, b.id = id ∧ s.1.id = other := fun {id other} => by
    rw [owner?, ownerIn?_eq_some_iff hkeys, howner, List.mem_flatMap]
    simp [links]
  have hparents : ((shares.map fun s => s.1.id).Nodup) := by
    have := (hperm.map Block.id).nodup_iff.2 hids
    rwa [List.map_map] at this
  -- The entry of a block among the children is its share in reading order.
  have hentry : ∀ s ∈ shares, g.childrenOf s.1 = Block.inReadingOrder s.2 := fun s hs => by
    have hmem : (s.1.id, Block.inReadingOrder s.2) ∈ g.children :=
      hchildren ▸ List.mem_map_of_mem hs
    have hnd : (g.children.map Prod.fst).Nodup := by
      rw [hchildren, List.map_map]
      exact hparents
    rw [childrenOf, find?_eq_some_of_nodup Prod.fst hnd hmem]
    rfl
  have hshare : ∀ p ∈ known, ∃ s ∈ shares, s.1 = p := fun p hp =>
    List.mem_map.1 (hperm.mem_iff.2 hp)
  have hknown : ∀ s ∈ shares, s.1 ∈ known := fun s hs =>
    hperm.mem_iff.1 (List.mem_map_of_mem hs)
  refine ⟨hblocks ▸ hids, ?_, ?_, ?_⟩
  · intro id other h
    obtain ⟨s, hs, -, -, -, rfl⟩ := hlink.1 h
    exact ⟨s.1, hblocks ▸ hknown s hs, rfl⟩
  · intro p hp b
    obtain ⟨s, hs, rfl⟩ := hshare p (hblocks ▸ hp)
    rw [hentry s hs, Block.inReadingOrder, Sorting.mem_sort, hlink, hblocks]
    constructor
    · exact fun hb => ⟨(hshares s hs b hb).1, s, hs, b, hb, rfl, rfl⟩
    · rintro ⟨hb, t, ht, b', hb', hid, hparent⟩
      obtain rfl : t = s := List.inj_on_of_nodup_map hparents ht hs hparent
      obtain rfl : b' = b := List.inj_on_of_nodup_map hids (hshares t ht b' hb').1 hb hid
      exact hb'
  · intro p hp
    obtain ⟨s, hs, rfl⟩ := hshare p (hblocks ▸ hp)
    rw [hentry s hs, Block.inReadingOrder, (Sorting.sort_perm _ _).nodup_iff]
    -- A block twice in one share would have two links.
    have hsub : ((links s.1 s.2).map Prod.fst).Sublist (g.owner.map Prod.fst) := by
      have hmem := List.mem_map_of_mem (f := fun s => links s.1 s.2) hs
      rw [howner, List.flatMap_def]
      exact (List.sublist_flatten_of_mem hmem).map Prod.fst
    have hnd := hkeys.sublist hsub
    rw [links, List.map_map] at hnd
    exact hnd.of_map _

/-! ## What is recorded -/

/-- What can be recorded when claims are settled. -/
inductive Noted : Diagnostic → Prop
  | duplicate (id : Option Text) :
    Noted ⟨id, "Duplicate block id; keeping the first occurrence", .structural, .warning⟩
  | self (id : Option Text) :
    Noted ⟨id, "Block lists itself as a child", .structural, .warning⟩
  | unknown (id : Option Text) (child : Text) :
    Noted ⟨id, "Unknown child block: " ++ child, .structural, .warning⟩
  | owned (id : Option Text) (other parent : Text) :
    Noted ⟨id, "Already nested in block " ++ other ++ "; ignoring claim by " ++ parent,
      .structural, .warning⟩

/-- Folding steps that record only such diagnostics records only such diagnostics. -/
theorem noted_foldl {σ β : Type} (recorded : σ → Diagnostics) {f : σ → β → σ}
    (hf : ∀ s b, ∀ d ∈ (recorded (f s b)).entries, d ∈ (recorded s).entries ∨ Noted d)
    (bs : List β) (s : σ) :
    ∀ d ∈ (recorded (bs.foldl f s)).entries, d ∈ (recorded s).entries ∨ Noted d := by
  induction bs generalizing s with
  | nil => exact fun d hd => .inl hd
  | cons b bs ih => exact fun d hd => (ih (f s b) d hd).elim (hf s b d) .inr

theorem noted_keep (state : List Block × Diagnostics) (b : Block) :
    ∀ d ∈ (keep state b).2.entries, d ∈ state.2.entries ∨ Noted d := by
  intro d hd
  unfold keep at hd
  split at hd
  · exact (Diagnostics.mem_warn.1 hd).imp_right fun h : d = _ => h ▸ .duplicate _
  · exact .inl hd

theorem noted_claim (blocks : List Block) (parent : Block) (c : Claims) (id : Text) :
    ∀ d ∈ (claim blocks parent c id).diagnostics.entries, d ∈ c.diagnostics.entries ∨ Noted d := by
  intro d hd
  unfold claim at hd
  split at hd
  · exact (Diagnostics.mem_warn.1 hd).imp_right fun h : d = _ => h ▸ .self _
  · split at hd
    · exact (Diagnostics.mem_warn.1 hd).imp_right fun h : d = _ => h ▸ .unknown _ _
    · split at hd
      · exact (Diagnostics.mem_warn.1 hd).imp_right fun h : d = _ => h ▸ .owned _ _ _
      · exact .inl hd

/-- Settling the claims of a list of blocks records nothing else. -/
theorem noted_build (blocks : List Block) (ds : Diagnostics) :
    ∀ d ∈ (build blocks ds).2.entries, d ∈ ds.entries ∨ Noted d := by
  intro d hd
  have hadopt : ∀ known state parent, ∀ d ∈ (adopt known state parent).2.entries,
      d ∈ state.2.entries ∨ Noted d := fun known state parent =>
    noted_foldl Claims.diagnostics (noted_claim known parent) parent.children
      ⟨state.1.owner, [], state.2⟩
  rcases noted_foldl Prod.snd (hadopt _) _ _ d hd with hd | hd
  · exact noted_foldl Prod.snd noted_keep blocks ([], ds) d hd
  · exact .inr hd

end Graph

end RobotBlocks
