import Mathlib.Algebra.BigOperators.Ring.List
import Mathlib.Algebra.Order.BigOperators.Group.List
import Mathlib.Tactic.Ring
import RobotBlocks.Proofs.Program.Agreement

/-!
# How often blocks are visited

A visit to a block leads to each child in its body once for every round, and to each child behind it
once. So the visits to a block multiply along the owner links that lead up to its root, and a block
from which they lead to no root is never visited (`Graph.count_visits`).

* `Graph.visitsFrom_owned` is the step: from wherever a walk comes from above, it comes to an owned
  block as many times as to its owner, times the rounds of the link between them. The induction is
  from the leaves upward over the block that the walk comes from.
* `commands_by_block` says what this means for the commands of a compilation that leaves nothing out.
-/

namespace RobotBlocks

namespace Graph

variable {g : Graph} {times : Block → ℕ}

/-! ## Products along the owner links -/

/-- How often one visit to an owner leads to a child: once for each round of the body if it hangs
there, and once if it hangs behind. -/
def linkRounds (times : Block → ℕ) (p b : Block) : ℕ :=
  match p.slotFor b with
  | .body => times p
  | .next => 1

/-- The owner links on the way up from a block to its root, each with the owner first; none if no
root comes within so many. -/
def linksWithin? (g : Graph) : (most : ℕ) → Block → Option (List (Block × Block))
  | 0, b => if (g.ownerOf? b).isSome then none else some []
  | most + 1, b =>
    match g.ownerOf? b with
    | none => some []
    | some p => (g.linksWithin? most p).map ((p, b) :: ·)

/-- The owner links on the way up from a block to its root; none if they lead to no root. There are
fewer of them than blocks. -/
def linksUp? (g : Graph) (b : Block) : Option (List (Block × Block)) :=
  g.linksWithin? g.blocks.length b

/-- The product of the rounds of the owner links from a block up to its root, and zero if they lead
to no root. -/
def multiplicity (g : Graph) (times : Block → ℕ) (b : Block) : ℕ :=
  match g.linksUp? b with
  | none => 0
  | some links => (links.map fun link => linkRounds times link.1 link.2).prod

theorem ownerOf?_eq_none_iff (hg : g.Settled) {b : Block} :
    g.ownerOf? b = none ↔ g.owner? b.id = none := by
  constructor
  · intro h
    by_contra howner
    obtain ⟨other, howner⟩ := Option.ne_none_iff_exists'.1 howner
    obtain ⟨p, hp, rfl⟩ := hg.owner_mem howner
    simp [ownerOf?_eq_some hg hp howner] at h
  · intro h
    rw [ownerOf?, h, Option.bind_none]

/-- From the depth of a block on, more links make no difference. -/
theorem linksWithin?_succ (hg : g.Settled) {most n : ℕ} {b : Block} (hn : g.AtDepth n b.id)
    (h : n ≤ most) : g.linksWithin? (most + 1) b = g.linksWithin? most b := by
  induction most generalizing n b with
  | zero =>
    obtain rfl : n = 0 := Nat.le_zero.1 h
    cases hn with
    | root hnone => simp [linksWithin?, (ownerOf?_eq_none_iff hg).2 hnone]
  | succ most ih =>
    cases hn with
    | root hnone => simp [linksWithin?, (ownerOf?_eq_none_iff hg).2 hnone]
    | @owned _ other n howner hn =>
      obtain ⟨p, hp, rfl⟩ := hg.owner_mem howner
      have hparent := ih hn (Nat.le_of_succ_le_succ h)
      rw [linksWithin?, linksWithin?, ownerOf?_eq_some hg hp howner]
      simp only [hparent]

theorem linksUp?_of_root (hg : g.Settled) {b : Block} (h : g.owner? b.id = none) :
    g.linksUp? b = some [] := by
  rw [linksUp?]
  cases g.blocks.length <;> simp [linksWithin?, (ownerOf?_eq_none_iff hg).2 h]

theorem linksUp?_of_owner (hg : g.Settled) {n : ℕ} {p b : Block} (hn : g.AtDepth n p.id)
    (hp : p ∈ g.blocks) (h : g.owner? b.id = some p.id) :
    g.linksUp? b = (g.linksUp? p).map ((p, b) :: ·) := by
  have hdepth := hn.lt_length hg hp
  obtain ⟨most, hmost⟩ : ∃ most, g.blocks.length = most + 1 :=
    Nat.exists_eq_succ_of_ne_zero (by omega)
  rw [linksUp?, linksUp?, hmost, linksWithin?_succ hg hn (by omega), linksWithin?,
    ownerOf?_eq_some hg hp h]

/-- Links lead up to a root only from a block that has a depth. -/
theorem exists_atDepth_of_linksWithin? (hg : g.Settled) {most : ℕ} {b : Block}
    {links : List (Block × Block)} (h : g.linksWithin? most b = some links) :
    ∃ n, g.AtDepth n b.id := by
  induction most generalizing b links with
  | zero =>
    rw [linksWithin?] at h
    split at h
    · cases h
    next hroot => exact ⟨0, .root ((ownerOf?_eq_none_iff hg).1 (by simpa using hroot))⟩
  | succ most ih =>
    rw [linksWithin?] at h
    split at h
    next hroot => exact ⟨0, .root ((ownerOf?_eq_none_iff hg).1 hroot)⟩
    next p howner =>
      obtain ⟨rest, hrest, -⟩ := Option.map_eq_some_iff.1 h
      obtain ⟨n, hn⟩ := ih hrest
      obtain ⟨other, hother, hfind⟩ := Option.bind_eq_some_iff.1 howner
      obtain rfl : p.id = other := by simpa using List.find?_some hfind
      exact ⟨n + 1, .owned hother hn⟩

theorem multiplicity_of_root (hg : g.Settled) {b : Block} (h : g.owner? b.id = none) :
    g.multiplicity times b = 1 := by
  simp [multiplicity, linksUp?_of_root hg h]

theorem multiplicity_of_owner (hg : g.Settled) {n : ℕ} {p b : Block} (hn : g.AtDepth n p.id)
    (hp : p ∈ g.blocks) (h : g.owner? b.id = some p.id) :
    g.multiplicity times b = linkRounds times p b * g.multiplicity times p := by
  rw [multiplicity, multiplicity, linksUp?_of_owner hg hn hp h]
  cases g.linksUp? p <;> simp

theorem multiplicity_of_not_reachable (hg : g.Settled) {b : Block} (hb : b ∈ g.blocks)
    (h : ¬ g.Reachable b) : g.multiplicity times b = 0 := by
  rcases hlinks : g.linksUp? b with _ | links
  · simp [multiplicity, hlinks]
  · exact absurd ((reachable_iff hg).2 ⟨hb, exists_atDepth_of_linksWithin? hg hlinks⟩) h

/-! ## Visits from a block -/

/-- How often a visit to a block leads to the block of a name. -/
def visitsFrom (g : Graph) (times : Block → ℕ) (id : Text) (b : Block) : ℕ :=
  ((g.unroll times b).map Block.id).count id

/-- How often the blocks of a name stand in a list. -/
theorem sum_map_ite_id (bs : List Block) (id : Text) :
    (bs.map fun b => if b.id = id then 1 else 0).sum = (bs.map Block.id).count id := by
  induction bs with
  | nil => rfl
  | cons b bs ih => simp [ih, List.count_cons, Nat.add_comm]

theorem count_flatMap_unroll (bs : List Block) (id : Text) :
    ((bs.flatMap (g.unroll times)).map Block.id).count id =
      (bs.map (g.visitsFrom times id)).sum := by
  rw [List.map_flatMap, List.count_flatMap]
  rfl

/-- The visits from a block are the block, its body in so many rounds and its continuation. -/
theorem visitsFrom_eq (hg : g.Settled) {b : Block} (h : g.Reachable b) (id : Text) :
    g.visitsFrom times id b = (if b.id = id then 1 else 0) +
      times b * ((g.inSlot b .body).map (g.visitsFrom times id)).sum +
      ((g.inSlot b .next).map (g.visitsFrom times id)).sum := by
  rw [← count_flatMap_unroll, ← count_flatMap_unroll, visitsFrom, unroll_eq times hg h,
    List.map_append, List.map_cons, List.count_append, List.count_cons, List.map_flatten,
    List.map_replicate, List.count_flatten, List.map_replicate, List.sum_replicate, nsmul_eq_mul,
    Nat.cast_id]
  simp only [beq_iff_eq]
  ring

/-- No visit leads to a block from which no links lead up to where it comes from. -/
theorem visitsFrom_eq_zero (hg : g.Settled) {id : Text} {b : Block} (hb : b ∈ g.blocks)
    (h : ∀ m, g.climb m id ≠ some b.id) : g.visitsFrom times id b = 0 := by
  rw [visitsFrom, List.count_eq_zero, List.mem_map]
  rintro ⟨x, hx, rfl⟩
  obtain ⟨-, m, hm⟩ := mem_unroll times hg hb hx
  exact h m hm

/-- A visit leads to its own block once. -/
theorem visitsFrom_self (hg : g.Settled) {b : Block} (h : g.Reachable b) :
    g.visitsFrom times b.id b = 1 := by
  obtain ⟨hb, n, hn⟩ := (reachable_iff hg).1 h
  have hslot : ∀ slot, ((g.inSlot b slot).map (g.visitsFrom times b.id)).sum = 0 := by
    intro slot
    rw [List.sum_eq_zero_iff]
    intro visits hvisits
    obtain ⟨c, hc, rfl⟩ := List.mem_map.1 hvisits
    obtain ⟨hcmem, hcn⟩ := hn.child hg hb hc
    refine visitsFrom_eq_zero hg hcmem fun m hm => ?_
    have := (hcn.of_climb hm).unique hn
    omega
  rw [visitsFrom_eq hg h, hslot, hslot]
  simp

/-- Visits to blocks at one depth lead to each of these blocks as often as it is among them. -/
theorem sum_visitsFrom_of_atDepth (hg : g.Settled) {n : ℕ} {bs : List Block}
    (hbs : ∀ b ∈ bs, b ∈ g.blocks ∧ g.AtDepth n b.id) {x : Block} (hx : x ∈ g.blocks)
    (hn : g.AtDepth n x.id) :
    (bs.map (g.visitsFrom times x.id)).sum = (bs.map Block.id).count x.id := by
  rw [← sum_map_ite_id]
  refine congrArg List.sum (List.map_congr_left fun b hb => ?_)
  obtain ⟨hbmem, hbn⟩ := hbs b hb
  split
  next hid =>
    obtain rfl : b = x := List.inj_on_of_nodup_map hg.nodup_ids hbmem hx hid
    exact visitsFrom_self hg ((reachable_iff hg).2 ⟨hbmem, n, hbn⟩)
  next hid =>
    refine visitsFrom_eq_zero hg hbmem fun m hm => ?_
    obtain rfl : m = 0 := by
      have := (hbn.of_climb hm).unique hn
      omega
    exact hid (by simpa [climb] using hm.symm)

/-- **A visit leads to an owned block as many times as to its owner, times the rounds of the link**,
unless it is the visit to the owned block itself. -/
theorem visitsFrom_owned (hg : g.Settled) {p x : Block} (hp : p ∈ g.blocks) (hx : x ∈ g.blocks)
    (howner : g.owner? x.id = some p.id) {b : Block} (h : g.Reachable b) (hne : x.id ≠ b.id) :
    g.visitsFrom times x.id b = linkRounds times p x * g.visitsFrom times p.id b := by
  refine Reachable.fromBelow (motive := fun b => x.id ≠ b.id →
    g.visitsFrom times x.id b = linkRounds times p x * g.visitsFrom times p.id b) hg ?_ h hne
  intro b hb ih hne
  obtain ⟨hbmem, n, hn⟩ := (reachable_iff hg).1 hb
  by_cases hid : p.id = b.id
  · obtain rfl : p = b := List.inj_on_of_nodup_map hg.nodup_ids hp hbmem hid
    -- The visit to the owner leads to the block directly, from the one slot in which it hangs.
    have hslot : ∀ slot, ((g.inSlot p slot).map (g.visitsFrom times x.id)).sum =
        if p.slotFor x = slot then 1 else 0 := by
      intro slot
      rw [sum_visitsFrom_of_atDepth hg (fun c hc => hn.child hg hbmem hc) hx (.owned howner hn)]
      have hnodup := nodup_ids hg ((hg.nodup_childrenOf hp).filter fun c => p.slotFor c == slot)
        fun c hc => ((hg.mem_childrenOf hp).1 (List.mem_filter.1 hc).1).1
      split
      next hslot =>
        refine List.count_eq_one_of_mem hnodup (List.mem_map_of_mem (mem_inSlot.2 ⟨?_, hslot⟩))
        exact (hg.mem_childrenOf hp).2 ⟨hx, howner⟩
      next hslot =>
        rw [List.count_eq_zero, List.mem_map]
        rintro ⟨c, hc, hcid⟩
        obtain ⟨hchild, hcslot⟩ := mem_inSlot.1 hc
        obtain rfl : c = x := List.inj_on_of_nodup_map hg.nodup_ids
          ((hg.mem_childrenOf hp).1 hchild).1 hx hcid
        exact hslot hcslot
    rw [visitsFrom_self hg hb, visitsFrom_eq hg hb, hslot, hslot, if_neg (Ne.symm hne), linkRounds]
    cases p.slotFor x <;> simp
  · have hslot : ∀ slot, ((g.inSlot b slot).map (g.visitsFrom times x.id)).sum =
        linkRounds times p x * ((g.inSlot b slot).map (g.visitsFrom times p.id)).sum := by
      intro slot
      rw [← List.sum_map_mul_left]
      refine congrArg List.sum (List.map_congr_left fun c hc => ih slot c hc fun hcid => ?_)
      have hcowner := ((hg.mem_childrenOf hbmem).1 (mem_inSlot.1 hc).1).2
      rw [← hcid, howner] at hcowner
      exact hid (Option.some.inj hcowner)
    rw [visitsFrom_eq hg hb, visitsFrom_eq hg hb, hslot, hslot, if_neg (Ne.symm hne),
      if_neg (Ne.symm hid)]
    ring

/-- **How often a program visits a block**: as often as the rounds of the owner links up to its root
multiply to, and never if they lead to no root. -/
theorem count_visits (hg : g.Settled) {b : Block} (hb : b ∈ g.blocks) :
    ((g.topLevel.flatMap (g.unroll times)).map Block.id).count b.id = g.multiplicity times b := by
  by_cases hreach : g.Reachable b
  · obtain ⟨-, n, hn⟩ := (reachable_iff hg).1 hreach
    rw [count_flatMap_unroll]
    have hroots : ∀ r ∈ g.topLevel, r ∈ g.blocks ∧ g.AtDepth 0 r.id := fun r hr => by
      obtain ⟨hmem, hnone⟩ := mem_topLevel.1 hr
      exact ⟨hmem, .root hnone⟩
    clear hreach
    induction n generalizing b with
    | zero =>
      cases hn with
      | root hnone =>
        rw [sum_visitsFrom_of_atDepth hg hroots hb (.root hnone), multiplicity_of_root hg hnone]
        refine List.count_eq_one_of_mem
          (nodup_ids hg (nodup_topLevel hg) fun r hr => (hroots r hr).1) ?_
        exact List.mem_map_of_mem (mem_topLevel.2 ⟨hb, hnone⟩)
    | succ n ih =>
      cases hn with
      | @owned _ other n howner hn =>
        obtain ⟨p, hp, rfl⟩ := hg.owner_mem howner
        rw [multiplicity_of_owner hg hn hp howner, ← ih hp hn, ← List.sum_map_mul_left]
        refine congrArg List.sum (List.map_congr_left fun r hr => ?_)
        refine visitsFrom_owned hg hp hb howner (.root hr) fun hid => ?_
        rw [hid, (mem_topLevel.1 hr).2] at howner
        cases howner
  · rw [multiplicity_of_not_reachable hg hb hreach, List.count_eq_zero, List.mem_map]
    rintro ⟨x, hx, hid⟩
    have hxreach := reachable_of_mem_unroll_roots times hg hx
    obtain rfl : x = b :=
      List.inj_on_of_nodup_map hg.nodup_ids ((reachable_iff hg).1 hxreach).1 hb hid
    exact hreach hxreach

/-- The length of a list of blocks of the graph is the sum of how often each block stands in it. -/
theorem sum_count_ids (hg : g.Settled) (p : Block → Bool) {xs : List Block}
    (hxs : ∀ x ∈ xs, x ∈ g.blocks) :
    ((g.blocks.filter p).map fun b => (xs.map Block.id).count b.id).sum = xs.countP p := by
  induction xs with
  | nil => simp
  | cons x xs ih =>
    obtain ⟨hx, hxs⟩ := List.forall_mem_cons.1 hxs
    have hself : ((g.blocks.filter p).map fun b => if b.id = x.id then 1 else 0).sum =
        if p x then 1 else 0 := by
      rw [sum_map_ite_id]
      have hnodup := nodup_ids hg ((hg.nodup_ids.of_map _).filter p)
        fun b hb => (List.mem_filter.1 hb).1
      split
      next hpx =>
        exact List.count_eq_one_of_mem hnodup (List.mem_map_of_mem (List.mem_filter.2 ⟨hx, hpx⟩))
      next hpx =>
        rw [List.count_eq_zero, List.mem_map]
        rintro ⟨b, hb, hid⟩
        obtain ⟨hb, hpb⟩ := List.mem_filter.1 hb
        obtain rfl : b = x := List.inj_on_of_nodup_map hg.nodup_ids hb hx hid
        exact hpx hpb
    rw [List.countP_cons, ← ih hxs, ← hself, ← List.sum_map_add]
    refine congrArg List.sum (List.map_congr_left fun b _ => ?_)
    rw [List.map_cons, List.count_cons]
    simp only [beq_iff_eq, @eq_comm _ x.id]

end Graph

/-! ## Commands by block -/

namespace Compilation

open Recording

variable {R : Type} [Scalar R] {c : Config R}

/-- Whether the kind of a block has a command. -/
def emits (b : Block) : Bool := (movement? b.kind).isSome

/-- The command of a block tells the block that it came from. -/
theorem source_of_commandOf {b : Block} {x : Command R} (h : commandOf c b = some x) :
    x.source = some b.id := by
  rw [commandOf] at h
  split at h
  next command houtcome =>
    subst h
    obtain ⟨ds, hrun⟩ := outcome_eq_ok.1 houtcome
    rcases hkind : movement? b.kind with _ | ⟨m, q⟩
    · simp only [commandFor, hkind] at hrun
      cases hrun
    · simp only [commandFor, hkind] at hrun
      obtain ⟨value, ds', -, hrun⟩ := bind_eq_ok.1 hrun
      cases hrun
      rfl
  · cases h

/-- In a walk that succeeds, the blocks whose kinds have commands give them. -/
theorem isSome_commandOf_of_walkAlong {g : Graph} {budget : ℕ} {bs : List Block}
    {commands : List (Command R)} {ds ds' : Diagnostics}
    (h : walkAlong c g budget bs ds = .ok commands ds') :
    ∀ b ∈ bs.take budget, (commandOf c b).isSome = emits b := by
  induction bs generalizing budget commands ds ds' with
  | nil => simp
  | cons b bs ih =>
    cases budget with
    | zero => simp
    | succ budget =>
      rw [walkAlong] at h
      obtain ⟨⟨command, frame⟩, ds₁, hvisit, h⟩ := bind_eq_ok.1 h
      obtain ⟨rest, ds₂, hrest, -⟩ := bind_eq_ok.1 h
      have hmovement := congrArg Option.isSome (movement_of_visit hvisit)
      obtain ⟨rfl, -⟩ := visit_eq_ok c g hvisit
      rw [List.take_succ_cons, List.forall_mem_cons]
      exact ⟨by simpa [emits] using hmovement, ih hrest⟩

/-- Those of the commands of visits that came from one block are those of the visits to it. -/
theorem filter_source_filterMap (xs : List Block) (id : Text) :
    (xs.filterMap (commandOf c)).filter (fun x => x.source == some id) =
      (xs.filter fun b => b.id == id).filterMap (commandOf c) := by
  induction xs with
  | nil => rfl
  | cons b xs ih =>
    rcases hcommand : commandOf c b with _ | x
    · rw [List.filterMap_cons_none hcommand, ih, List.filter_cons]
      split
      · rw [List.filterMap_cons_none hcommand]
      · rfl
    · have hsource : (x.source == some id) = (b.id == id) := by
        rw [source_of_commandOf hcommand, Option.some_beq_some]
      rw [List.filterMap_cons_some hcommand, List.filter_cons, List.filter_cons, hsource, ih]
      split
      · rw [List.filterMap_cons_some hcommand]
      · rfl

/-- **Loop counts multiply.** In a compilation that leaves nothing out, the commands that came from a
block are one command so many times: the product of the rounds of the owner links from the block up
to its root (the rounds that the owner runs its body if the block hangs in it, and one if it hangs
behind), and never if the block cannot be reached. There are no other commands. -/
theorem commands_by_block {blocks : List Block} {commands : List (Command R)} {ds₀ ds : Diagnostics}
    (h : (ofBlocks c blocks).run ds₀ = .ok commands ds)
    (hbudget : ∀ d ∈ ds.entries, d.message ≠ overrunMessage c) :
    let g := (Graph.build blocks .empty).1
    (∀ b ∈ g.blocks, emits b = true →
      (∀ x ∈ commands, ∀ y ∈ commands, x.source = some b.id → y.source = some b.id → x = y) ∧
      (commands.filter fun x => x.source == some b.id).length = g.multiplicity (roundsIn c) b ∧
      (¬ g.Reachable b → g.multiplicity (roundsIn c) b = 0)) ∧
    ((g.blocks.filter emits).map (g.multiplicity (roundsIn c))).sum = commands.length := by
  intro g
  have hg : g.Settled := Graph.settled_build blocks .empty
  obtain ⟨visits, hvisits⟩ : ∃ visits, visits = g.topLevel.flatMap (g.unroll (roundsIn c)) :=
    ⟨_, rfl⟩
  have hwalk : walkAlong c g c.maxVisits.toNat visits (Graph.build blocks .empty).2 =
      .ok commands ds := hvisits ▸ (ofBlocks_eq_walkAlong c blocks ds₀).symm.trans h
  have hall : visits.take c.maxVisits.toNat = visits :=
    List.take_of_length_le (hvisits ▸ length_le_budget h hbudget)
  have hemits : ∀ b ∈ visits, (commandOf c b).isSome = emits b := by
    have := isSome_commandOf_of_walkAlong hwalk
    rwa [hall] at this
  have hcommands : commands = visits.filterMap (commandOf c) := by
    rw [(walkAlong_eq_ok hwalk fun d hd => (IsOrdinary.of_build d hd).ne_overrunMessage).1, hall]
  have hmem : ∀ b ∈ visits, b ∈ g.blocks := fun b hb =>
    ((Graph.reachable_iff hg).1 (Graph.reachable_of_mem_unroll_roots _ hg (hvisits ▸ hb))).1
  refine ⟨fun b hb hemit => ⟨fun x hx y hy hxid hyid => ?_, ?_,
    Graph.multiplicity_of_not_reachable hg hb⟩, ?_⟩
  · -- Both are the command of the one block of this name.
    have hcommand : ∀ x ∈ commands, x.source = some b.id → commandOf c b = some x := by
      intro x hx hid
      rw [hcommands, List.mem_filterMap] at hx
      obtain ⟨b', hb', hcommand⟩ := hx
      rw [source_of_commandOf hcommand] at hid
      obtain rfl : b' = b :=
        List.inj_on_of_nodup_map hg.nodup_ids (hmem b' hb') hb (Option.some.inj hid)
      exact hcommand
    exact Option.some.inj ((hcommand x hx hxid).symm.trans (hcommand y hy hyid))
  · have hsome : ∀ x ∈ visits.filter fun x => x.id == b.id, (commandOf c x).isSome = true := by
      intro x hx
      obtain ⟨hvisit, hid⟩ := List.mem_filter.1 hx
      obtain rfl : x = b :=
        List.inj_on_of_nodup_map hg.nodup_ids (hmem x hvisit) hb (by simpa using hid)
      rw [hemits x hvisit, hemit]
    rw [hcommands, filter_source_filterMap, List.length_filterMap_eq_countP,
      List.countP_eq_length.2 hsome, ← List.countP_eq_length_filter, ← Graph.count_visits hg hb,
      List.count, List.countP_map, ← hvisits]
    exact List.countP_congr fun _ _ => Iff.rfl
  · rw [hcommands, List.length_filterMap_eq_countP, List.countP_congr fun b hb => by rw [hemits b hb],
      ← Graph.sum_count_ids hg emits hmem]
    refine congrArg List.sum (List.map_congr_left fun b hb => ?_)
    rw [hvisits, Graph.count_visits hg (List.mem_filter.1 hb).1]

/-- A loop with a conditional in its body, in which another loop stands, and with a block behind it;
two turns that list each other, which are reached from no root. -/
def windings : Data :=
  .list
    [Sample.block "outer" "repeat" "control" 40 60 [("times", .integer 2)] ["if", "step"],
     Sample.block "if" "if" "control" 80 100 [("condition", .text "1 < 2")] ["inner"],
     Sample.block "inner" "repeat" "control" 120 140 [("times", .integer 3)] ["turn"],
     Sample.block "turn" "turnRight" "motion" 160 180 [("degrees", .integer 90)] [],
     Sample.block "step" "moveForward" "motion" 40 220 [("steps", .integer 20)] [],
     Sample.block "this" "turnLeft" "motion" 40 300 [("degrees", .integer 90)] ["that"],
     Sample.block "that" "turnLeft" "motion" 40 340 [("degrees", .integer 90)] ["this"]]

theorem commands_by_block_windings :
    ∃ blocks commands ds, Block.load windings = .ok blocks ∧
      (ofBlocks (Config.robot : Config Float) blocks).run .empty = .ok commands ds ∧
      (∀ d ∈ ds.entries, d.message ≠ overrunMessage (Config.robot : Config Float)) ∧
      let g := (Graph.build blocks .empty).1
      (g.blocks.filter emits).map (fun b =>
        (b.id, g.multiplicity (roundsIn (Config.robot : Config Float)) b)) =
          ([("turn", 6), ("step", 1), ("this", 0), ("that", 0)] : List (Text × ℕ)) ∧
      (∀ b ∈ g.blocks, emits b = true →
        (commands.filter fun x => x.source == some b.id).length =
          g.multiplicity (roundsIn (Config.robot : Config Float)) b) ∧
      commands.length = 7 := by
  have hok : ((Block.load windings).toOption.any fun blocks =>
      let g := (Graph.build blocks .empty).1
      Outcome.returned ((ofBlocks (Config.robot : Config Float) blocks).run .empty) fun _ ds =>
        ds.entries.all (fun d => d.message != overrunMessage (Config.robot : Config Float)) &&
        ((g.blocks.filter emits).map fun b =>
          (b.id, g.multiplicity (roundsIn (Config.robot : Config Float)) b)) ==
            ([("turn", 6), ("step", 1), ("this", 0), ("that", 0)] : List (Text × ℕ)) &&
        ((g.blocks.filter emits).map
          (g.multiplicity (roundsIn (Config.robot : Config Float)))).sum == 7) = true := by
    decide +kernel
  obtain ⟨blocks, hload, hreturned⟩ := Outcome.any_toOption.1 hok
  obtain ⟨commands, ds, hrun, hcounted⟩ := Outcome.returned_eq_true.1 hreturned
  simp only [Bool.and_eq_true, beq_iff_eq, List.all_eq_true, bne_iff_ne] at hcounted
  obtain ⟨⟨hbudget, hcounts⟩, hsum⟩ := hcounted
  obtain ⟨hblocks, htotal⟩ := commands_by_block hrun hbudget
  exact ⟨blocks, commands, ds, hload, hrun, hbudget, hcounts,
    fun b hb hemits => (hblocks b hb hemits).2.1, htotal.symm.trans hsum⟩

end Compilation

end RobotBlocks
