import RobotBlocks.Proofs.Graph.Claims
import RobotBlocks.Proofs.Graph.Cycles
import RobotBlocks.Proofs.Program.Agreement

/-!
# Which blocks are left out

A compilation whose budget is enough and in which every body is run leaves out a block of the program
for one of two reasons (`visits_of_blocks`):

* an earlier block has its name, and this is recorded (`namesake_mem_distinct`);
* its owner links lead into a circle. All the claims that make the circle are honoured, and the walk
  never comes there, so nothing is recorded about it: no diagnostic ever tells of a cycle.

Whatever is recorded when names and claims are settled is there in the end (`mem_of_ofBlocks`).
-/

namespace RobotBlocks

namespace Compilation

open RobotBlocks.Graph

variable {R : Type} [Scalar R] {c : Config R}

/-- A compilation takes back nothing of what was recorded when names and claims were settled. -/
theorem mem_of_ofBlocks {blocks : List Block} {commands : List (Command R)} {ds₀ ds : Diagnostics}
    (h : (ofBlocks c blocks).run ds₀ = .ok commands ds) {d : Diagnostic}
    (hd : d ∈ (Graph.build blocks .empty).2.entries) : d ∈ ds.entries := by
  rw [EStateM.run, ofBlocks_eq_walkAlong] at h
  exact (walkAlong_logs _ _).mem_of_run h hd

variable {blocks : List Block} {commands : List (Command R)} {ds₀ ds : Diagnostics}

/-- A compilation that leaves nothing out for want of budget or rounds visits the blocks that can be
reached. -/
theorem mem_visited_iff (h : (ofBlocks c blocks).run ds₀ = .ok commands ds)
    (hbudget : ∀ d ∈ ds.entries, d.message ≠ overrunMessage c)
    (hrounds : ∀ b, (Graph.build blocks .empty).1.Reachable b → b.isContainer = true →
      1 ≤ roundsIn c b) {b : Block} :
    let g := (Graph.build blocks .empty).1
    b ∈ visited c g c.maxVisits.toNat [.ofRoots g.topLevel] (Graph.build blocks .empty).2 ↔
      g.Reachable b := by
  intro g
  have hg : g.Settled := settled_build blocks .empty
  rw [visited_eq_unrolled h hbudget]
  refine ⟨reachable_of_mem_unroll_roots _ hg, fun hb => mem_of_mem_firstVisits ?_⟩
  rw [firstVisits_unroll_roots hg hrounds]
  exact (mem_preorder hg).2 hb

/-- **Which blocks are left out**, if the budget is enough and every container that can be reached
runs its body. A block of the list has the name of an earlier one, and this is recorded, or it is left
out if and only if it is circular. So where no problem of the structure is recorded, the blocks that
are left out are the circular ones; and no diagnostic tells of any cycle. -/
theorem visits_of_blocks (h : (ofBlocks c blocks).run ds₀ = .ok commands ds)
    (hbudget : ∀ d ∈ ds.entries, d.message ≠ overrunMessage c)
    (hrounds : ∀ b, (Graph.build blocks .empty).1.Reachable b → b.isContainer = true →
      1 ≤ roundsIn c b) :
    let g := (Graph.build blocks .empty).1
    let visits := visited c g c.maxVisits.toNat [.ofRoots g.topLevel] (Graph.build blocks .empty).2
    (∀ before b after, blocks = before ++ b :: after →
      ((∃ k ∈ before, k.id = b.id) ∧ namesake b ∈ ds.entries) ∨
        ((∀ k ∈ before, k.id ≠ b.id) ∧ (b ∉ visits ↔ g.Circular b.id))) ∧
    ((∀ d ∈ ds.entries, d.category ≠ .structural) →
      ∀ b ∈ blocks, b ∉ visits ↔ g.Circular b.id) ∧
    ∀ d ∈ ds.entries, d.message ≠ cycleMessage := by
  intro g visits
  have hg : g.Settled := settled_build blocks .empty
  have hsplit : ∀ before b after, blocks = before ++ b :: after →
      ((∃ k ∈ before, k.id = b.id) ∧ namesake b ∈ ds.entries) ∨
        ((∀ k ∈ before, k.id ≠ b.id) ∧ (b ∉ visits ↔ g.Circular b.id)) := by
    intro before b after hblocks
    obtain ⟨hkept, hrecorded⟩ := build_of_distinct blocks .empty
    by_cases hearlier : ∃ k ∈ before, k.id = b.id
    · obtain ⟨k, hk, hid⟩ := hearlier
      refine .inl ⟨⟨k, hk, hid⟩, mem_of_ofBlocks h (hrecorded ?_)⟩
      rw [hblocks]
      exact namesake_mem_distinct .empty hk hid
    · push Not at hearlier
      have hb : b ∈ g.blocks := by
        rw [hkept, hblocks]
        exact mem_distinct .empty hearlier
      refine .inr ⟨hearlier, ?_⟩
      exact (not_congr (mem_visited_iff h hbudget hrounds)).trans
        (not_reachable_iff_circular hg hb)
  refine ⟨hsplit, fun hnone b hb => ?_, fun d hd => ?_⟩
  · obtain ⟨before, after, hblocks⟩ := List.append_of_mem hb
    rcases hsplit before b after hblocks with ⟨-, hrecorded⟩ | ⟨-, hiff⟩
    · exact absurd rfl (hnone _ hrecorded)
    · exact hiff
  · have hrecorded : (ofBlocks c blocks).recorded ds₀ = ds := by
      rw [Recording.recorded, show ofBlocks c blocks ds₀ = .ok commands ds from h]
    rw [← hrecorded] at hd
    exact ne_cycleMessage_of_recorded hd

/-- Two blocks that own each other, a block of its own, and another one of that name. -/
def carousel : Data :=
  .list
    [Sample.block "a" "moveForward" "motion" 0 0 [] ["b"],
     Sample.block "b" "turnLeft" "motion" 0 20 [] ["a"],
     Sample.block "r" "wait" "control" 0 40 [] [],
     Sample.block "r" "moveForward" "motion" 0 60 [] []]

theorem visits_of_blocks_carousel :
    ∃ blocks commands ds, Block.load carousel = .ok blocks ∧
      (ofBlocks (Config.robot : Config Float) blocks).run .empty = .ok commands ds ∧
      commands.map (·.movement) = [.wait] ∧
      (∀ d ∈ ds.entries, d.message ≠ overrunMessage (Config.robot : Config Float)) ∧
      let g := (Graph.build blocks .empty).1
      let visits := visited (Config.robot : Config Float) g (Config.robot : Config Float).maxVisits.toNat
        [.ofRoots g.topLevel] (Graph.build blocks .empty).2
      (∀ b, g.Reachable b → b.isContainer = true → 1 ≤ roundsIn (Config.robot : Config Float) b) ∧
      ∀ before b after, blocks = before ++ b :: after →
        ((∃ k ∈ before, k.id = b.id) ∧ namesake b ∈ ds.entries) ∨
          ((∀ k ∈ before, k.id ≠ b.id) ∧ (b ∉ visits ↔ g.Circular b.id)) := by
  have hok : ((Block.load carousel).toOption.any fun blocks =>
      Outcome.returned ((ofBlocks (Config.robot : Config Float) blocks).run .empty)
        fun commands ds => decide (commands.map (·.movement) = [.wait]) &&
          ds.entries.all (·.message != overrunMessage (Config.robot : Config Float)) &&
          (Graph.build blocks .empty).1.blocks.all (!·.isContainer)) = true := by decide +kernel
  obtain ⟨blocks, hload, hreturned⟩ := Outcome.any_toOption.1 hok
  obtain ⟨commands, ds, hrun, hwaits⟩ := Outcome.returned_eq_true.1 hreturned
  simp only [Bool.and_eq_true, decide_eq_true_eq, List.all_eq_true, bne_iff_ne,
    Bool.not_eq_true'] at hwaits
  obtain ⟨⟨hwait, hbudget⟩, hplain⟩ := hwaits
  have hrounds : ∀ b, (Graph.build blocks .empty).1.Reachable b → b.isContainer = true →
      1 ≤ roundsIn (Config.robot : Config Float) b := fun b hb hcontainer => by
    have hmem := ((reachable_iff (settled_build blocks .empty)).1 hb).1
    simp [hplain b hmem] at hcontainer
  exact ⟨blocks, commands, ds, hload, hrun, hwait, hbudget, hrounds,
    (visits_of_blocks hrun hbudget hrounds).1⟩

/-- Two blocks that own each other. -/
def couple : Data :=
  .list
    [Sample.block "a" "moveForward" "motion" 0 0 [] ["b"],
     Sample.block "b" "turnLeft" "motion" 0 20 [] ["a"]]

/-- Not every omission is recorded. -/
theorem not_recorded_of_omitted :
    ¬ ∀ (blocks : List Block) (commands : List (Command Float)) (ds : Diagnostics),
      (ofBlocks (Config.robot : Config Float) blocks).run .empty = .ok commands ds →
      (∀ d ∈ ds.entries, d.message ≠ overrunMessage (Config.robot : Config Float)) →
      (∀ b ∈ blocks, b.isContainer = true → 1 ≤ roundsIn (Config.robot : Config Float) b) →
      let g := (Graph.build blocks .empty).1
      let visits := visited (Config.robot : Config Float) g (Config.robot : Config Float).maxVisits.toNat
        [.ofRoots g.topLevel] (Graph.build blocks .empty).2
      (∃ b ∈ blocks, b ∉ visits) → ∃ d ∈ ds.entries, d.category = .structural := by
  intro h
  have hok : ((Block.load couple).toOption.any fun blocks =>
      let g := (Graph.build blocks .empty).1
      Outcome.returned ((ofBlocks (Config.robot : Config Float) blocks).run .empty) fun _ ds =>
        ds.entries.isEmpty && blocks.all (!·.isContainer) && !blocks.isEmpty &&
          (visited (Config.robot : Config Float) g (Config.robot : Config Float).maxVisits.toNat
            [.ofRoots g.topLevel] (Graph.build blocks .empty).2).isEmpty) = true := by
    decide +kernel
  obtain ⟨blocks, -, hreturned⟩ := Outcome.any_toOption.1 hok
  obtain ⟨commands, ds, hrun, hsilent⟩ := Outcome.returned_eq_true.1 hreturned
  simp only [Bool.and_eq_true, List.isEmpty_iff, List.all_eq_true, Bool.not_eq_true',
    List.isEmpty_eq_false_iff] at hsilent
  obtain ⟨⟨⟨hnone, hplain⟩, hsome⟩, hleft⟩ := hsilent
  obtain ⟨b, hb⟩ := List.exists_mem_of_ne_nil _ hsome
  obtain ⟨d, hd, -⟩ := h blocks commands ds hrun (by simp [hnone])
    (fun b hb hcontainer => by simp [hplain b hb] at hcontainer) ⟨b, hb, by simp [hleft]⟩
  simp [hnone] at hd

end Compilation

end RobotBlocks
