import RobotBlocks.Proofs.Graph.Forest

/-!
# First visits

An unrolled program visits the blocks of a body in every round. `Graph.firstVisits` keeps the first
visit to each block. If every container runs its body at least once, what it keeps of the unrolled
program are the reachable blocks in preorder, however often the bodies are run
(`firstVisits_unroll_roots`).

The proof goes from the leaves upward: the visits from two children have no block in common, since
those of a program that runs every body once have none, so first visits can be taken child by child
(`firstVisits_flatMap`), and further rounds of a body bring no new block (`firstVisits_rounds`).
-/

namespace RobotBlocks

namespace Graph

/-- The visits that are the first ones of their blocks. -/
def firstVisits : List Block → List Block
  | [] => []
  | b :: bs => b :: (firstVisits bs).filter fun x => x.id != b.id

/-! ## First visits of lists -/

/-- Every visited block has a first visit. -/
theorem mem_ids_firstVisits {xs : List Block} {id : Text} :
    id ∈ (firstVisits xs).map Block.id ↔ id ∈ xs.map Block.id := by
  induction xs with
  | nil => exact Iff.rfl
  | cons b xs ih =>
    by_cases h : id = b.id
    · simp [firstVisits, h]
    · rw [List.map_cons, List.mem_cons, ← ih, firstVisits, List.map_cons, List.mem_cons]
      refine or_congr_right ⟨fun hid => ?_, fun hid => ?_⟩
      · obtain ⟨x, hx, rfl⟩ := List.mem_map.1 hid
        exact List.mem_map_of_mem (List.mem_filter.1 hx).1
      · obtain ⟨x, hx, rfl⟩ := List.mem_map.1 hid
        exact List.mem_map_of_mem (List.mem_filter.2 ⟨hx, by simpa using h⟩)

/-- First visits are visits. -/
theorem mem_of_mem_firstVisits {xs : List Block} {b : Block} (h : b ∈ firstVisits xs) : b ∈ xs := by
  induction xs with
  | nil => exact h
  | cons x xs ih =>
    rw [firstVisits, List.mem_cons] at h
    exact List.mem_cons.2 (h.imp_right fun h => ih (List.mem_filter.1 h).1)

theorem firstVisits_append (xs ys : List Block) :
    firstVisits (xs ++ ys) =
      firstVisits xs ++ (firstVisits ys).filter fun y => decide (y.id ∉ xs.map Block.id) := by
  induction xs with
  | nil => simp [firstVisits]
  | cons b xs ih =>
    rw [List.cons_append, firstVisits, ih, List.filter_append, List.filter_filter, firstVisits,
      List.cons_append]
    congr 2
    refine List.filter_congr fun y _ => ?_
    by_cases h : y.id = b.id <;> simp [h]

theorem firstVisits_append_of_disjoint {xs ys : List Block}
    (h : ∀ y ∈ ys, y.id ∉ xs.map Block.id) :
    firstVisits (xs ++ ys) = firstVisits xs ++ firstVisits ys := by
  rw [firstVisits_append, List.filter_eq_self.2]
  intro y hy
  obtain ⟨y', hy', hid⟩ := List.mem_map.1 (mem_ids_firstVisits.1 (List.mem_map_of_mem hy))
  simpa [hid] using h y' hy'

/-- Visits to blocks that were visited before are no first ones. -/
theorem firstVisits_append_of_subset {xs ys : List Block} (h : ∀ y ∈ ys, y.id ∈ xs.map Block.id) :
    firstVisits (xs ++ ys) = firstVisits xs := by
  have hnone : ((firstVisits ys).filter fun y => decide (y.id ∉ xs.map Block.id)) = [] := by
    rw [List.filter_eq_nil_iff]
    intro y hy
    obtain ⟨y', hy', hid⟩ := List.mem_map.1 (mem_ids_firstVisits.1 (List.mem_map_of_mem hy))
    simpa [hid] using h y' hy'
  rw [firstVisits_append, hnone, List.append_nil]

/-- **Further rounds bring no first visits.** -/
theorem firstVisits_rounds {rounds : ℕ} {xs : List Block} (h : 1 ≤ rounds ∨ xs = []) :
    firstVisits (List.replicate rounds xs).flatten = firstVisits xs := by
  rcases h with h | rfl
  · obtain ⟨more, rfl⟩ := Nat.exists_eq_succ_of_ne_zero (Nat.one_le_iff_ne_zero.1 h)
    rw [List.replicate_succ, List.flatten_cons]
    refine firstVisits_append_of_subset fun y hy => ?_
    obtain ⟨round, hround, hmem⟩ := List.mem_flatten.1 hy
    obtain rfl := List.eq_of_mem_replicate hround
    exact List.mem_map_of_mem hmem
  · simp

/-- First visits can be taken piece by piece if the pieces have no blocks in common. -/
theorem firstVisits_flatMap {f h : Block → List Block} {cs : List Block}
    (hf : ∀ c ∈ cs, firstVisits (f c) = h c) (hnodup : ((cs.flatMap h).map Block.id).Nodup) :
    firstVisits (cs.flatMap f) = cs.flatMap h := by
  induction cs with
  | nil => rfl
  | cons c cs ih =>
    rw [List.flatMap_cons, List.map_append, List.nodup_append] at hnodup
    obtain ⟨-, hrest, hdisjoint⟩ := hnodup
    have hfirst : firstVisits (f c) = h c := hf c List.mem_cons_self
    have ih := ih (fun x hx => hf x (List.mem_cons_of_mem c hx)) hrest
    rw [List.flatMap_cons, List.flatMap_cons, firstVisits_append_of_disjoint, hfirst, ih]
    intro y hy hmem
    rw [← mem_ids_firstVisits, hfirst] at hmem
    have hy' : y.id ∈ (cs.flatMap h).map Block.id :=
      ih ▸ mem_ids_firstVisits.2 (List.mem_map_of_mem hy)
    exact hdisjoint _ hmem _ hy' rfl

/-! ## First visits of programs -/

variable {g : Graph} {times : Block → ℕ}

/-- Names tell the blocks apart also in a list of blocks of the graph. -/
theorem nodup_ids (hg : g.Settled) {bs : List Block} (hbs : bs.Nodup) (hmem : ∀ b ∈ bs, b ∈ g.blocks) :
    (bs.map Block.id).Nodup :=
  hbs.map_on fun _ ha _ hb => List.inj_on_of_nodup_map hg.nodup_ids (hmem _ ha) (hmem _ hb)

/-- **The first visits from a reachable block** are the blocks reached from it, each of them once,
if every container runs its body. -/
theorem firstVisits_unroll (hg : g.Settled)
    (htimes : ∀ b, g.Reachable b → b.isContainer = true → 1 ≤ times b) {b : Block}
    (h : g.Reachable b) : firstVisits (g.unroll times b) = g.unroll (fun _ => 1) b := by
  refine Reachable.fromBelow hg (motive := fun b =>
    firstVisits (g.unroll times b) = g.unroll (fun _ => 1) b) (fun b hb ih => ?_) h
  have hmem : ∀ x ∈ g.unroll (fun _ => 1) b, x ∈ g.blocks := fun x hx =>
    (mem_unroll _ hg ((reachable_iff hg).1 hb).1 hx).1
  have hnodup := nodup_ids hg (nodup_unroll_one hg hb) hmem
  rw [unroll_one_eq hg hb, List.flatMap_append] at hnodup ⊢
  rw [List.map_cons, List.map_append, List.nodup_cons, List.nodup_append] at hnodup
  obtain ⟨hself, hnodupBody, hnodupNext, hdisjoint⟩ := hnodup
  have hrounds : 1 ≤ times b ∨ (g.inSlot b .body).flatMap (g.unroll times) = [] := by
    cases hcontainer : b.isContainer with
    | true => exact .inl (htimes b hb hcontainer)
    | false => exact .inr (by rw [inSlot_body_eq_nil hcontainer, List.flatMap_nil])
  have hbody := firstVisits_flatMap (ih .body) hnodupBody
  have hnext := firstVisits_flatMap (ih .next) hnodupNext
  rw [← firstVisits_rounds hrounds] at hbody
  rw [unroll_eq times hg hb]
  generalize (List.replicate (times b) ((g.inSlot b .body).flatMap (g.unroll times))).flatten = body
    at hbody ⊢
  generalize (g.inSlot b .next).flatMap (g.unroll times) = next at hnext ⊢
  have happend : firstVisits (body ++ next) = firstVisits body ++ firstVisits next := by
    refine firstVisits_append_of_disjoint fun y hy hmem => ?_
    rw [← mem_ids_firstVisits, hbody] at hmem
    have hy' := mem_ids_firstVisits.2 (List.mem_map_of_mem hy)
    rw [hnext] at hy'
    exact hdisjoint _ hmem _ hy' rfl
  rw [List.cons_append, firstVisits, happend, hbody, hnext, List.filter_eq_self.2]
  intro x hx
  have hne : x.id ≠ b.id := fun hid => hself (by
    rw [← List.map_append, ← hid]
    exact List.mem_map_of_mem hx)
  simpa using hne

/-- **The first visits of a program** are its reachable blocks in preorder, if every container that
can be reached runs its body. -/
theorem firstVisits_unroll_roots (hg : g.Settled)
    (htimes : ∀ b, g.Reachable b → b.isContainer = true → 1 ≤ times b) :
    firstVisits (g.topLevel.flatMap (g.unroll times)) = g.preorder := by
  refine firstVisits_flatMap (fun root hroot => firstVisits_unroll hg htimes (.root hroot)) ?_
  exact nodup_ids hg (nodup_preorder hg) fun b hb =>
    ((reachable_iff hg).1 ((mem_preorder hg).1 hb)).1

/-- If every container runs its body once, the visits of a program are its reachable blocks. -/
theorem unroll_roots_eq_preorder (hg : g.Settled)
    (htimes : ∀ b, g.Reachable b → b.isContainer = true → times b = 1) :
    g.topLevel.flatMap (g.unroll times) = g.preorder := by
  refine List.flatMap_congr fun root hroot => ?_
  refine Reachable.fromBelow hg (motive := fun b =>
    g.unroll times b = g.unroll (fun _ => 1) b) (fun b hb ih => ?_) (.root hroot)
  have hslot : ∀ slot, (g.inSlot b slot).flatMap (g.unroll times) =
      (g.inSlot b slot).flatMap (g.unroll fun _ => 1) := fun slot =>
    List.flatMap_congr (ih slot)
  rw [unroll_eq times hg hb, unroll_eq _ hg hb, hslot, hslot]
  cases hcontainer : b.isContainer with
  | true => rw [htimes b hb hcontainer]
  | false => simp [inSlot_body_eq_nil hcontainer]

end Graph

end RobotBlocks
