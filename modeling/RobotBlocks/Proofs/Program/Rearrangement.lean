import RobotBlocks.Program.Code
import RobotBlocks.Proofs.Graph.Rearrangement
import RobotBlocks.Proofs.Program.Walk

/-!
# Arrangement does not matter

What a program is compiled to depends on its graph and not on the order in which its blocks and
their children are listed. The graphs of a program and of a rearranged one are alike
(`Graph.alike_build`), so both stages behind them go side by side:

* the visits of the unrolled programs are those of the same blocks, and a visit does not look at the
  children that its block names (`Compilation.walkAlong_map`);
* emitting code does the same tasks with the same lines (`Code.Emission.run_reordered`).

`Compilation.agrees_of_rearranged` puts the two together.
-/

namespace RobotBlocks

open Block (reordered)

variable {order : Block → List Text} {g g' : Graph}

/-! ## Commands -/

/-- Whatever has been recorded before, the two computations end in the same way, and what is
recorded then is the same, in whatever order. -/
def Recording.Agrees {α : Type} (m m' : Recording α) : Prop :=
  ∀ ds, match m ds, m' ds with
    | .ok a ds₁, .ok a' ds₂ => a' = a ∧ ∀ d, d ∈ ds₂.entries ↔ d ∈ ds₁.entries
    | .error fault ds₁, .error fault' ds₂ => fault' = fault ∧ ∀ d, d ∈ ds₂.entries ↔ d ∈ ds₁.entries
    | _, _ => False

/-- Computations that record the same from the same diagnostics on agree. -/
theorem Recording.agrees_of {α : Type} {m m' : Recording α} {outcome : Except Fault α}
    {found : List Diagnostic} {ds ds' : Diagnostics} (hds : ∀ d, d ∈ ds'.entries ↔ d ∈ ds.entries)
    (hm : ∀ ds₀, m ds₀ = of outcome found ds) (hm' : ∀ ds₀, m' ds₀ = of outcome found ds') :
    Agrees m m' := by
  intro ds₀
  have hfound : ∀ d, d ∈ (ds'.addAll found).entries ↔ d ∈ (ds.addAll found).entries := fun d => by
    rw [Diagnostics.mem_addAll, Diagnostics.mem_addAll, hds]
  rw [hm, hm']
  cases outcome with
  | ok a => exact ⟨rfl, hfound⟩
  | error fault => exact ⟨rfl, hfound⟩

namespace Compilation

variable {R : Type} [Scalar R] {c : Config R}

/-- **A walk does not look at the children that blocks name**, only at the visits listed for it. -/
theorem walkAlong_map (order : Block → List Text) (g g' : Graph) (budget : ℕ) (bs : List Block) :
    walkAlong c g' budget (bs.map (reordered order)) = walkAlong c g budget bs := by
  induction bs generalizing budget with
  | nil => rw [List.map_nil, walkAlong, walkAlong]
  | cons b bs ih =>
    rw [List.map_cons]
    cases budget with
    | zero => rfl
    | succ budget =>
      rw [walkAlong, walkAlong]
      simp only [visit, bind_assoc, pure_bind, ih]
      rfl

omit [Scalar R] in
/-- The visits of a rearranged program are those of the original. -/
theorem visits_reordered (h : Graph.Alike order g g') :
    g'.topLevel.flatMap (g'.unroll (roundsIn c)) =
      (g.topLevel.flatMap (g.unroll (roundsIn c))).map (reordered order) := by
  rw [h.topLevel, List.flatMap_map, List.map_flatMap]
  exact List.flatMap_congr fun root _ => h.unroll (fun _ => rfl) root

/-- Compiling a rearranged program gives the same commands, or fails for the same reason, and
records the same. -/
theorem agrees_ofBlocks (c : Config R) {blocks blocks' : List Block}
    (h : Block.Rearranged order blocks blocks') :
    Recording.Agrees (ofBlocks c blocks) (ofBlocks c blocks') := by
  obtain ⟨hgraph, hds⟩ := Graph.alike_build h .empty
  obtain ⟨outcome, found, -, hwalk⟩ := walkAlong_logs (c := c) (g := (Graph.build blocks .empty).1)
    c.maxVisits.toNat ((Graph.build blocks .empty).1.topLevel.flatMap
      ((Graph.build blocks .empty).1.unroll (roundsIn c)))
  have hblocks : ∀ ds₀, ofBlocks c blocks ds₀ =
      Recording.of outcome found (Graph.build blocks .empty).2 := fun ds₀ => by
    rw [← hwalk]
    exact ofBlocks_eq_walkAlong c blocks ds₀
  have hblocks' : ∀ ds₀, ofBlocks c blocks' ds₀ =
      Recording.of outcome found (Graph.build blocks' .empty).2 := fun ds₀ => by
    rw [← hwalk, ← walkAlong_map order _ (Graph.build blocks' .empty).1, ← visits_reordered hgraph]
    exact ofBlocks_eq_walkAlong c blocks' ds₀
  exact Recording.agrees_of hds hblocks hblocks'

end Compilation

/-! ## Code -/

namespace Code

/-- The task, with the children of its block named in the given order. -/
def Task.reordered (order : Block → List Text) : Task → Task
  | .block b level => .block (b.reordered order) level
  | .bodyEnd level start => .bodyEnd level start
  | .leave id => .leave id

theorem tasksAfter_reordered (h : Graph.Alike order g g') (b : Block) (level count : ℕ) :
    tasksAfter g' (b.reordered order) level count =
      (tasksAfter g b level count).map (Task.reordered order) := by
  have hblocks : ∀ (bs : List Block) (level : ℕ),
      (bs.map (Block.reordered order)).map (fun child => Task.block child level) =
        (bs.map fun child => Task.block child level).map (Task.reordered order) := by
    intro bs level
    rw [List.map_map, List.map_map]
    rfl
  have hcontainer : (b.reordered order).isContainer = b.isContainer := rfl
  unfold tasksAfter
  rw [h.inSlot, h.inSlot, hblocks, hblocks, hcontainer]
  split
  · rw [List.map_append, List.map_cons, List.map_append]
    rfl
  · rw [List.map_append]
    rfl

namespace Emission

variable {e : Emission}

/-- The emission, with the children of all blocks named in the given order. -/
def reordered (order : Block → List Text) (e : Emission) : Emission :=
  { e with tasks := e.tasks.map (Task.reordered order) }

/-- A step does the same in both graphs. -/
theorem step_reordered (h : Graph.Alike order g g') (e : Emission) :
    (e.reordered order).step g' = (e.step g).map (reordered order) := by
  obtain ⟨tasks, path, lines⟩ := e
  rcases tasks with _ | ⟨⟨b, level⟩ | ⟨level, start⟩ | ⟨id⟩, tasks⟩
  · rfl
  · have htext : textFor (b.reordered order) = textFor b := rfl
    have hid : (b.reordered order).id = b.id := rfl
    simp only [reordered, List.map_cons, Task.reordered, step, hid, htext]
    by_cases hpath : path.contains b.id = true
    · rw [if_pos hpath, if_pos hpath]
      rfl
    · rw [if_neg hpath, if_neg hpath]
      rcases textFor b with fault | text
      · rfl
      · simp only [bind, Except.bind, pure, Except.pure, Except.map, tasksAfter_reordered h,
          List.map_append, reordered]
  · rfl
  · rfl

/-- **A run emits the same lines from both graphs.** -/
theorem run_reordered (h : Graph.Alike order g g') (count : ℕ) (e : Emission) :
    (e.reordered order).run g' count = (e.run g count).map (reordered order) := by
  induction count generalizing e with
  | zero => rfl
  | succ count ih =>
    have hempty : (e.reordered order).tasks.isEmpty = e.tasks.isEmpty := List.isEmpty_map
    rw [run, run, hempty, step_reordered h]
    split
    · rfl
    · rcases e.step g with fault | e'
      · rfl
      · exact ih e'

end Emission

theorem lines_eq (h : Graph.Alike order g g') : lines g' = lines g := by
  have hstart : Emission.ofRoots g'.topLevel =
      (Emission.ofRoots g.topLevel).reordered order := by
    rw [h.topLevel, Emission.ofRoots, Emission.ofRoots, Emission.reordered, List.map_map,
      List.map_map]
    rfl
  have hlength : g'.blocks.length = g.blocks.length := by
    rw [h.blocks.blocks.length_eq, List.length_map]
  rw [lines, lines, hstart, hlength, Emission.run_reordered h]
  cases (Emission.ofRoots g.topLevel).run g (3 * g.blocks.length) <;> rfl

/-- The code of a rearranged program is that of the original. -/
theorem ofBlocks_eq {blocks blocks' : List Block} (h : Block.Rearranged order blocks blocks') :
    ofBlocks blocks' = ofBlocks blocks := by
  rw [ofBlocks, ofBlocks, lines_eq (Graph.alike_build h .empty).1]

end Code

namespace Compilation

/-- **The order in which blocks and children are listed does not matter.** If names tell the blocks
apart and no coordinate is undefined, a program with its blocks and the children of each block
listed in other orders is compiled to the same commands, or fails for the same reason, with the same
diagnostics, and has the same code. -/
theorem agrees_of_rearranged {R : Type} [Scalar R] (c : Config R) {blocks blocks' : List Block}
    {order : Block → List Text} (hids : (blocks.map Block.id).Nodup)
    (hplaced : ∀ b ∈ blocks, b.IsPlaced) (hchildren : ∀ b ∈ blocks, (order b).Perm b.children)
    (hblocks : blocks'.Perm (blocks.map (reordered order))) :
    Recording.Agrees (ofBlocks c blocks) (ofBlocks c blocks') ∧
      Code.ofBlocks blocks' = Code.ofBlocks blocks := by
  have h : Block.Rearranged order blocks blocks' := ⟨hids, hplaced, hchildren, hblocks⟩
  exact ⟨agrees_ofBlocks c h, Code.ofBlocks_eq h⟩

/-- The sample program backwards, with the children of its loop in the other order. -/
theorem agrees_of_rearranged_sample :
    ∃ blocks, Block.load Sample.project = .ok blocks ∧
      let blocks' := (blocks.map (reordered fun b => b.children.reverse)).reverse
      blocks'.map Block.id ≠ blocks.map Block.id ∧
      blocks'.map Block.children ≠ (blocks.map Block.children).reverse ∧
      Recording.Agrees (ofBlocks (Config.robot : Config Float) blocks)
        (ofBlocks (Config.robot : Config Float) blocks') ∧
      Code.ofBlocks blocks' = Code.ofBlocks blocks := by
  have hok : ((Block.load Sample.project).toOption.any fun blocks =>
      let blocks' := (blocks.map (reordered fun b => b.children.reverse)).reverse
      decide (blocks'.map Block.id ≠ blocks.map Block.id ∧
        blocks'.map Block.children ≠ (blocks.map Block.children).reverse ∧
        (blocks.map Block.id).Nodup ∧ ∀ b ∈ blocks, b.IsPlaced)) = true := by decide +kernel
  obtain ⟨blocks, hload, hblocks⟩ := Outcome.any_toOption.1 hok
  obtain ⟨hne, hne', hids, hplaced⟩ := of_decide_eq_true hblocks
  exact ⟨blocks, hload, hne, hne', agrees_of_rearranged _ hids hplaced
    (fun b _ => List.reverse_perm b.children) (List.reverse_perm _)⟩

end Compilation

end RobotBlocks
