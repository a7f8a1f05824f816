import RobotBlocks.Proofs.Graph.Ownership

/-!
# The forest below the roots

Following owner links upward from a block either ends at a root or goes on for ever; the blocks of
which the former is true make a forest, and they are the blocks that a walk from the roots can reach
(`reachable_iff`, `not_reachable_iff`). The depth of a block is the number of links up to its root
(`AtDepth`). It is smaller than the number of blocks, so whatever descends from owners to owned
blocks comes to an end, and properties of reachable blocks can be proved from the leaves upward
(`Reachable.fromBelow`).

`unroll` is the recursive meaning of a program: the visits that a block leads to if each block runs
its body a given number of times (`unroll_eq`). With one round for each block it lists the reachable
blocks, every one of them once (`mem_preorder`, `nodup_preorder`).
-/

namespace RobotBlocks

namespace Graph

variable {g : Graph}

/-! ## Depth -/

/-- Follows so many owner links upward. -/
def climb (g : Graph) : ℕ → Text → Option Text
  | 0, id => some id
  | n + 1, id => (g.owner? id).bind (g.climb n)

/-- A root is at depth zero, and an owned block is one deeper than its owner. -/
inductive AtDepth (g : Graph) : ℕ → Text → Prop
  | root {id : Text} (h : g.owner? id = none) : AtDepth g 0 id
  | owned {id other : Text} {n : ℕ} (h : g.owner? id = some other) (hn : AtDepth g n other) :
    AtDepth g (n + 1) id

theorem AtDepth.unique {n m : ℕ} {id : Text} (hn : g.AtDepth n id) (hm : g.AtDepth m id) :
    n = m := by
  induction hn generalizing m with
  | root h =>
    cases hm with
    | root => rfl
    | owned h' => simp [h] at h'
  | owned h _ ih =>
    cases hm with
    | root h' => simp [h] at h'
    | owned h' hm =>
      obtain rfl : _ = _ := Option.some.inj (h.symm.trans h')
      rw [ih hm]

theorem atDepth_iff {n : ℕ} {id : Text} :
    g.AtDepth n id ↔ ∃ root, g.climb n id = some root ∧ g.owner? root = none := by
  induction n generalizing id with
  | zero =>
    constructor
    · rintro ⟨h⟩
      exact ⟨id, rfl, h⟩
    · rintro ⟨root, hroot, h⟩
      obtain rfl : id = root := by simpa [climb] using hroot
      exact .root h
  | succ n ih =>
    constructor
    · intro h
      cases h with
      | owned h hn =>
        obtain ⟨root, hroot, hnone⟩ := ih.1 hn
        exact ⟨root, by simp [climb, h, hroot], hnone⟩
    · rintro ⟨root, hroot, h⟩
      rw [climb, Option.bind_eq_some_iff] at hroot
      obtain ⟨other, hother, hroot⟩ := hroot
      exact .owned hother (ih.2 ⟨root, hroot, h⟩)

/-- A block from which `m` links lead to one at depth `n` is at depth `n + m`. -/
theorem AtDepth.of_climb {n m : ℕ} {id other : Text} (h : g.AtDepth n other)
    (hm : g.climb m id = some other) : g.AtDepth (n + m) id := by
  induction m generalizing id with
  | zero =>
    obtain rfl : id = other := by simpa [climb] using hm
    exact h
  | succ m ih =>
    rw [climb, Option.bind_eq_some_iff] at hm
    obtain ⟨parent, hparent, hm⟩ := hm
    exact .owned hparent (ih hm)

/-- One more link, from the name that was climbed to. -/
theorem climb_succ {m : ℕ} {id other parent : Text} (hm : g.climb m id = some other)
    (h : g.owner? other = some parent) : g.climb (m + 1) id = some parent := by
  induction m generalizing id with
  | zero =>
    obtain rfl : id = other := by simpa [climb] using hm
    simp [climb, h]
  | succ m ih =>
    rw [climb, Option.bind_eq_some_iff] at hm
    obtain ⟨next, hnext, hm⟩ := hm
    rw [climb, Option.bind_eq_some_iff]
    exact ⟨next, hnext, ih hm⟩

/-- The names on the way up from a block at depth `n` are `n + 1` different names of blocks. -/
theorem AtDepth.exists_path (hg : g.Settled) {n : ℕ} {id : Text} (h : g.AtDepth n id)
    (hid : id ∈ g.blocks.map Block.id) :
    ∃ path : List Text, path.Nodup ∧ path.length = n + 1 ∧ path ⊆ g.blocks.map Block.id ∧
      ∀ id' ∈ path, ∃ m ≤ n, g.AtDepth m id' := by
  induction h with
  | @root id h =>
    refine ⟨[id], by simp, rfl, by simpa using hid, fun id' hid' => ?_⟩
    obtain rfl : id' = id := by simpa using hid'
    exact ⟨0, le_rfl, .root h⟩
  | @owned id other n h hn ih =>
    obtain ⟨p, hp, rfl⟩ := hg.owner_mem h
    obtain ⟨path, hnodup, hlength, hsub, hdepth⟩ := ih (List.mem_map_of_mem hp)
    refine ⟨id :: path, ?_, by simp [hlength], by simp [hid, hsub], fun id' hid' => ?_⟩
    · refine List.nodup_cons.2 ⟨fun hmem => ?_, hnodup⟩
      obtain ⟨m, hm, hat⟩ := hdepth id hmem
      have := hat.unique (.owned h hn)
      omega
    · rcases List.mem_cons.1 hid' with rfl | hid'
      · exact ⟨n + 1, le_rfl, .owned h hn⟩
      · obtain ⟨m, hm, hat⟩ := hdepth id' hid'
        exact ⟨m, by omega, hat⟩

/-- **The depth of a block is smaller than the number of blocks.** -/
theorem AtDepth.lt_length (hg : g.Settled) {n : ℕ} {b : Block} (h : g.AtDepth n b.id)
    (hb : b ∈ g.blocks) : n < g.blocks.length := by
  obtain ⟨path, hnodup, hlength, hsub, -⟩ := h.exists_path hg (List.mem_map_of_mem hb)
  have := (hnodup.subperm hsub).length_le
  rw [List.length_map] at this
  omega

/-! ## Reachable blocks -/

theorem mem_topLevel {b : Block} :
    b ∈ g.topLevel ↔ b ∈ g.blocks ∧ g.owner? b.id = none := by
  simp only [topLevel, List.mem_append, List.mem_filter, Block.inReadingOrder, Sorting.mem_sort,
    Option.isNone_iff_eq_none]
  by_cases h : b.kind = .startEvent <;> simp [h]

theorem nodup_topLevel (hg : g.Settled) : g.topLevel.Nodup := by
  have hroots : (Block.inReadingOrder (g.blocks.filter fun b => (g.owner? b.id).isNone)).Nodup := by
    rw [Block.inReadingOrder, (Sorting.sort_perm _ _).nodup_iff]
    exact (hg.nodup_ids.of_map _).filter _
  refine List.nodup_append.2 ⟨hroots.filter _, hroots.filter _, fun a ha b hb e => ?_⟩
  have ha := (List.mem_filter.1 ha).2
  have hb := (List.mem_filter.1 hb).2
  subst e
  simp_all

theorem mem_inSlot {p b : Block} {slot : Slot} :
    b ∈ g.inSlot p slot ↔ b ∈ g.childrenOf p ∧ p.slotFor b = slot := by
  simp [inSlot]

/-- A block without a body has no children in its body. -/
theorem inSlot_body_eq_nil {b : Block} (h : b.isContainer = false) : g.inSlot b .body = [] := by
  rw [List.eq_nil_iff_forall_not_mem]
  intro c hc
  have hslot := (mem_inSlot.1 hc).2
  simp [Block.slotFor, h] at hslot

/-- The blocks to which a walk from the roots can come. -/
inductive Reachable (g : Graph) : Block → Prop
  | root {b : Block} (h : b ∈ g.topLevel) : Reachable g b
  | child {p b : Block} {slot : Slot} (hp : Reachable g p) (h : b ∈ g.inSlot p slot) :
    Reachable g b

theorem reachable_of_atDepth (hg : g.Settled) {n : ℕ} {id : Text} (h : g.AtDepth n id) :
    ∀ b ∈ g.blocks, b.id = id → g.Reachable b := by
  induction h with
  | root h =>
    rintro b hb rfl
    exact .root (mem_topLevel.2 ⟨hb, h⟩)
  | owned h _ ih =>
    rintro b hb rfl
    obtain ⟨p, hp, hid⟩ := hg.owner_mem h
    have hchild : b ∈ g.childrenOf p := (hg.mem_childrenOf hp).2 ⟨hb, hid ▸ h⟩
    exact .child (ih p hp hid) (mem_inSlot.2 ⟨hchild, rfl⟩)

/-- The reachable blocks are those that have a depth. -/
theorem reachable_iff (hg : g.Settled) {b : Block} :
    g.Reachable b ↔ b ∈ g.blocks ∧ ∃ n, g.AtDepth n b.id := by
  constructor
  · intro h
    induction h with
    | root h =>
      obtain ⟨hb, hnone⟩ := mem_topLevel.1 h
      exact ⟨hb, 0, .root hnone⟩
    | child _ h ih =>
      obtain ⟨hp, n, hn⟩ := ih
      obtain ⟨hb, howner⟩ := (hg.mem_childrenOf hp).1 (mem_inSlot.1 h).1
      exact ⟨hb, n + 1, .owned howner hn⟩
  · rintro ⟨hb, n, hn⟩
    exact reachable_of_atDepth hg hn b hb rfl

/-- A child of a block at depth `n` is a block at depth `n + 1`. -/
theorem AtDepth.child (hg : g.Settled) {n : ℕ} {p b : Block} {slot : Slot}
    (hn : g.AtDepth n p.id) (hp : p ∈ g.blocks) (h : b ∈ g.inSlot p slot) :
    b ∈ g.blocks ∧ g.AtDepth (n + 1) b.id := by
  obtain ⟨hb, howner⟩ := (hg.mem_childrenOf hp).1 (mem_inSlot.1 h).1
  exact ⟨hb, .owned howner hn⟩

/-- **Induction from below**: a property that a reachable block has if all its children have it is
a property of all reachable blocks. -/
theorem Reachable.fromBelow (hg : g.Settled) {motive : Block → Prop}
    (step : ∀ b, g.Reachable b → (∀ slot, ∀ c ∈ g.inSlot b slot, motive c) → motive b) {b : Block}
    (h : g.Reachable b) : motive b := by
  obtain ⟨hb, n, hn⟩ := (reachable_iff hg).1 h
  -- The induction is on how much deeper a block could lie.
  induction hk : g.blocks.length - n using Nat.strongRecOn generalizing b n with
  | ind k ih =>
    refine step b h fun slot c hc => ?_
    obtain ⟨hmem, hdepth⟩ := hn.child hg hb hc
    have := hdepth.lt_length hg hmem
    exact ih _ (by omega) (.child h hc) hmem (n + 1) hdepth rfl

/-! ## Unrolling -/

/-- The visits that a block leads to within so many levels, if each block runs its body the given
number of times: the block itself, its body in each round, its continuation. -/
def unrollWithin (g : Graph) (times : Block → ℕ) : (levels : ℕ) → Block → List Block
  | 0, _ => []
  | levels + 1, b =>
    b :: (List.replicate (times b) ((g.inSlot b .body).flatMap (g.unrollWithin times levels))).flatten
      ++ (g.inSlot b .next).flatMap (g.unrollWithin times levels)

/-- The visits that a block leads to if each block runs its body the given number of times. There
are no more levels than blocks. -/
def unroll (g : Graph) (times : Block → ℕ) (b : Block) : List Block :=
  g.unrollWithin times g.blocks.length b

variable (times : Block → ℕ)

/-- From the depth of a block on, as many levels are enough as are left. -/
theorem unrollWithin_eq (hg : g.Settled) {levels n : ℕ} {b : Block} (hn : g.AtDepth n b.id)
    (hb : b ∈ g.blocks) (h : g.blocks.length ≤ n + levels) :
    g.unrollWithin times (levels + 1) b = g.unrollWithin times levels b := by
  induction levels generalizing n b with
  | zero =>
    have := hn.lt_length hg hb
    omega
  | succ levels ih =>
    have hslot : ∀ slot, (g.inSlot b slot).flatMap (g.unrollWithin times (levels + 1)) =
        (g.inSlot b slot).flatMap (g.unrollWithin times levels) := fun slot =>
      List.flatMap_congr fun c hc => by
        obtain ⟨hmem, hdepth⟩ := hn.child hg hb hc
        exact ih hdepth hmem (by omega)
    rw [unrollWithin, hslot, hslot, unrollWithin]

/-- **The visits from a reachable block** are the block, so many rounds of the visits from the
children in its body, and the visits from the children behind it. -/
theorem unroll_eq (hg : g.Settled) {b : Block} (h : g.Reachable b) :
    g.unroll times b =
      b :: (List.replicate (times b) ((g.inSlot b .body).flatMap (g.unroll times))).flatten ++
        (g.inSlot b .next).flatMap (g.unroll times) := by
  obtain ⟨hb, n, hn⟩ := (reachable_iff hg).1 h
  obtain ⟨levels, hlevels⟩ : ∃ levels, g.blocks.length = levels + 1 :=
    Nat.exists_eq_succ_of_ne_zero (by have := hn.lt_length hg hb; omega)
  have hunroll : ∀ c, g.unroll times c = g.unrollWithin times (levels + 1) c := fun c => by
    rw [unroll, hlevels]
  have hslot : ∀ slot, (g.inSlot b slot).flatMap (g.unroll times) =
      (g.inSlot b slot).flatMap (g.unrollWithin times levels) := fun slot =>
    List.flatMap_congr fun c hc => by
      obtain ⟨hmem, hdepth⟩ := hn.child hg hb hc
      rw [hunroll, unrollWithin_eq times hg hdepth hmem (by omega)]
  rw [hslot, hslot, hunroll, unrollWithin]

/-- Every visit is to a block from which owner links lead up to the one that led to it. -/
theorem mem_unrollWithin (hg : g.Settled) {levels : ℕ} {b x : Block} (hb : b ∈ g.blocks)
    (hx : x ∈ g.unrollWithin times levels b) :
    x ∈ g.blocks ∧ ∃ m, g.climb m x.id = some b.id := by
  induction levels generalizing b with
  | zero => simp [unrollWithin] at hx
  | succ levels ih =>
    have hstep : ∀ {slot c}, c ∈ g.inSlot b slot → x ∈ g.unrollWithin times levels c →
        x ∈ g.blocks ∧ ∃ m, g.climb m x.id = some b.id := fun {slot c} hc hx => by
      obtain ⟨hmem, howner⟩ := (hg.mem_childrenOf hb).1 (mem_inSlot.1 hc).1
      obtain ⟨hxmem, m, hm⟩ := ih hmem hx
      exact ⟨hxmem, m + 1, climb_succ hm howner⟩
    rw [unrollWithin, List.cons_append, List.mem_cons, List.mem_append] at hx
    rcases hx with rfl | hx | hx
    · exact ⟨hb, 0, rfl⟩
    · obtain ⟨round, hround, hx⟩ := List.mem_flatten.1 hx
      obtain rfl := List.eq_of_mem_replicate hround
      obtain ⟨c, hc, hx⟩ := List.mem_flatMap.1 hx
      exact hstep hc hx
    · obtain ⟨c, hc, hx⟩ := List.mem_flatMap.1 hx
      exact hstep hc hx

/-! ## Every reachable block once -/

/-- All reachable blocks: those that the roots lead to if every block runs its body once. -/
def preorder (g : Graph) : List Block := g.topLevel.flatMap (g.unroll fun _ => 1)

theorem mem_unroll (hg : g.Settled) {b x : Block} (hb : b ∈ g.blocks)
    (hx : x ∈ g.unroll times b) : x ∈ g.blocks ∧ ∃ m, g.climb m x.id = some b.id :=
  mem_unrollWithin times hg hb hx

theorem self_mem_unroll (hg : g.Settled) {b : Block} (h : g.Reachable b) :
    b ∈ g.unroll times b := by
  rw [unroll_eq times hg h]
  simp

/-- With one round for each block, the visits from a block are the block and the visits from its
children. -/
theorem unroll_one_eq (hg : g.Settled) {b : Block} (h : g.Reachable b) :
    g.unroll (fun _ => 1) b =
      b :: (g.inSlot b .body ++ g.inSlot b .next).flatMap (g.unroll fun _ => 1) := by
  rw [unroll_eq _ hg h, List.flatMap_append]
  simp

/-- What is reached from a block visited from a reachable block is visited from it, too. -/
theorem mem_unroll_of_child (hg : g.Settled) {b : Block} (h : g.Reachable b) :
    ∀ p ∈ g.unroll (fun _ => 1) b, ∀ slot, ∀ c ∈ g.inSlot p slot,
      c ∈ g.unroll (fun _ => 1) b := by
  refine Reachable.fromBelow (motive := fun b => ∀ p ∈ g.unroll (fun _ => 1) b, ∀ slot,
    ∀ c ∈ g.inSlot p slot, c ∈ g.unroll (fun _ => 1) b) hg ?_ h
  intro b hb ih p hp slot c hc
  rw [unroll_one_eq hg hb, List.mem_cons, List.mem_flatMap] at hp ⊢
  rcases hp with rfl | ⟨child, hchild, hp⟩
  · have hself := self_mem_unroll (fun _ => 1) hg (.child hb hc)
    refine .inr ⟨c, ?_, hself⟩
    cases slot
    · exact List.mem_append_left _ hc
    · exact List.mem_append_right _ hc
  · refine .inr ⟨child, hchild, ?_⟩
    rcases List.mem_append.1 hchild with hbody | hnext
    · exact ih .body child hbody p hp slot c hc
    · exact ih .next child hnext p hp slot c hc

/-- A program visits reachable blocks only, however often it runs its bodies. -/
theorem reachable_of_mem_unroll_roots (hg : g.Settled) {b : Block}
    (h : b ∈ g.topLevel.flatMap (g.unroll times)) : g.Reachable b := by
  obtain ⟨root, hroot, hb⟩ := List.mem_flatMap.1 h
  obtain ⟨hmem, hnone⟩ := mem_topLevel.1 hroot
  obtain ⟨hb, m, hm⟩ := mem_unroll _ hg hmem hb
  exact (reachable_iff hg).2 ⟨hb, _, (AtDepth.root hnone).of_climb hm⟩

theorem mem_preorder (hg : g.Settled) {b : Block} : b ∈ g.preorder ↔ g.Reachable b := by
  refine ⟨reachable_of_mem_unroll_roots _ hg, fun h => ?_⟩
  rw [preorder, List.mem_flatMap]
  induction h with
  | root h => exact ⟨_, h, self_mem_unroll _ hg (.root h)⟩
  | child _ h ih =>
    obtain ⟨root, hroot, hp⟩ := ih
    exact ⟨root, hroot, mem_unroll_of_child hg (.root hroot) _ hp _ _ h⟩

/-- Different blocks at one depth lead to different blocks. -/
theorem nodup_flatMap_unroll (hg : g.Settled) {n : ℕ} {bs : List Block} (hbs : bs.Nodup)
    (hmem : ∀ b ∈ bs, b ∈ g.blocks ∧ g.AtDepth n b.id)
    (h : ∀ b ∈ bs, (g.unroll times b).Nodup) : (bs.flatMap (g.unroll times)).Nodup := by
  refine List.nodup_flatMap.2 ⟨h, hbs.pairwise_of_forall_ne fun a ha b hb hne => ?_⟩
  intro x hxa hxb
  obtain ⟨hamem, han⟩ := hmem a ha
  obtain ⟨hbmem, hbn⟩ := hmem b hb
  obtain ⟨-, i, hi⟩ := mem_unroll times hg hamem hxa
  obtain ⟨-, j, hj⟩ := mem_unroll times hg hbmem hxb
  -- The common block lies equally far below both, so the same links lead up to both.
  obtain rfl : i = j := by
    have := (han.of_climb hi).unique (hbn.of_climb hj)
    omega
  exact hne (List.inj_on_of_nodup_map hg.nodup_ids hamem hbmem
    (Option.some.inj (hi.symm.trans hj)))

theorem nodup_unroll_one (hg : g.Settled) {b : Block} (h : g.Reachable b) :
    (g.unroll (fun _ => 1) b).Nodup := by
  refine Reachable.fromBelow (motive := fun b => (g.unroll (fun _ => 1) b).Nodup) hg ?_ h
  intro b hb ih
  obtain ⟨hmem, n, hn⟩ := (reachable_iff hg).1 hb
  have hchildren : ∀ c ∈ g.inSlot b .body ++ g.inSlot b .next,
      (c ∈ g.blocks ∧ g.AtDepth (n + 1) c.id) ∧ (g.unroll (fun _ => 1) c).Nodup := fun c hc => by
    rcases List.mem_append.1 hc with hc | hc
    · exact ⟨hn.child hg hmem hc, ih _ c hc⟩
    · exact ⟨hn.child hg hmem hc, ih _ c hc⟩
  have hnodup : (g.inSlot b .body ++ g.inSlot b .next).Nodup := by
    have hall := hg.nodup_childrenOf hmem
    refine List.nodup_append.2 ⟨hall.filter _, hall.filter _, fun a ha c hc e => ?_⟩
    have hbody := (mem_inSlot.1 ha).2
    have hnext := (mem_inSlot.1 hc).2
    simp [e, hnext] at hbody
  rw [unroll_one_eq hg hb, List.nodup_cons]
  refine ⟨fun hself => ?_, nodup_flatMap_unroll _ hg hnodup (fun c hc => (hchildren c hc).1)
    fun c hc => (hchildren c hc).2⟩
  obtain ⟨c, hc, hself⟩ := List.mem_flatMap.1 hself
  obtain ⟨⟨hcmem, hcn⟩, -⟩ := hchildren c hc
  obtain ⟨-, m, hm⟩ := mem_unroll _ hg hcmem hself
  have := (hcn.of_climb hm).unique hn
  omega

/-- **No block is listed twice among the reachable blocks.** -/
theorem nodup_preorder (hg : g.Settled) : g.preorder.Nodup :=
  nodup_flatMap_unroll _ hg (nodup_topLevel hg)
    (fun _ hb => ⟨(mem_topLevel.1 hb).1, .root (mem_topLevel.1 hb).2⟩)
    fun _ hb => nodup_unroll_one hg (.root hb)

theorem length_preorder_le (hg : g.Settled) : g.preorder.length ≤ g.blocks.length :=
  ((nodup_preorder hg).subperm fun _ hb =>
    ((reachable_iff hg).1 ((mem_preorder hg).1 hb)).1).length_le

end Graph

end RobotBlocks
