import RobotBlocks.Proofs.Config.Presets
import RobotBlocks.Proofs.Program.Recording

/-!
# Programs of agents that differ in timing only

What a program is compiled to depends on an agent by the defaults and limits that it sets, and by its
timing. Agents that set the same defaults and limits (`Config.Alike`) get the same commands but for
the time that each takes, and the same remarks (`ofBlocks_alike`).

The proof goes through the parts of a compilation in the order in which they are defined: quantities
and counts are the same, commands and visits the same but for the timing.
-/

namespace RobotBlocks

namespace Compilation

variable {R : Type} [Scalar R] {c c' : Config R}

/-- The command with the time that it takes an agent. -/
def retimed (c : Config R) (command : Command R) : Command R :=
  { command with duration := duration c command.movement command.value }

/-- Only the timing of an agent matters for the time that a command takes. -/
theorem retimed_congr (h : c.Synchronous c') (command : Command R) :
    retimed c' command = retimed c command := by
  simp only [retimed, duration, h.moveDuration, h.turnDuration, h.waitPerSecond]

section Alike

variable (h : c.Alike c')
include h

omit [Scalar R] in
theorem resolve_alike (b : Block) (q : Quantity) : resolve c' b q = resolve c b q := by
  simp only [resolve, Config.default?, h.defaultInputs]

omit [Scalar R] in
theorem loopCount_alike (b : Block) : loopCount c' b = loopCount c b := by
  simp only [loopCount, resolve_alike h, h.maxRepeat]

omit [Scalar R] in
theorem timesFor_alike (b : Block) : timesFor c' b = timesFor c b := by
  simp only [timesFor, loopCount_alike h]

theorem commandFor_alike (b : Block) :
    commandFor c' b = Option.map (retimed c') <$> commandFor c b := by
  simp only [commandFor, resolve_alike h]
  split
  · rw [map_pure, Option.map_none]
  · simp only [map_bind, map_pure, Option.map_some]
    rfl

theorem visit_alike (g : Graph) (b : Block) :
    visit c' g b = (fun v => (v.1.map (retimed c'), v.2)) <$> visit c g b := by
  simp only [visit, commandFor_alike h, timesFor_alike h, map_bind, map_pure, bind_map_left]

theorem walk_alike (g : Graph) (budget : Nat) (stack : List Frame) :
    walk c' g budget stack = List.map (retimed c') <$> walk c g budget stack := by
  induction budget generalizing stack with
  | zero =>
    simp only [walk, overrunMessage, h.maxVisits, map_bind]
    congr 1
    funext next
    split <;> simp
  | succ budget ih =>
    simp only [walk, visit_alike h, ih, map_bind]
    congr 1
    funext next
    split
    · simp
    · simp only [bind_map_left, map_bind, map_pure, List.map_append]
      congr 1
      funext v
      rcases v.1 with _ | command <;> rfl

/-- **Agents that set the same defaults and limits** get the same commands but for the time that each
takes, and the same diagnostics. -/
theorem ofBlocks_alike (blocks : List Block) :
    ofBlocks c' blocks = List.map (retimed c') <$> ofBlocks c blocks := by
  simp only [ofBlocks, walk_alike h, h.maxVisits, map_bind]

/-- **The commands of one agent are those of the other, retimed**, if there are any. -/
theorem outcome_alike (blocks : List Block) :
    (ofBlocks c' blocks).outcome = (ofBlocks c blocks).outcome.map (List.map (retimed c')) := by
  rw [ofBlocks_alike h, Recording.outcome_map]

end Alike

variable {blocks : List Block} {commands : List (Command R)}

/-- Diagnostics of earlier compilations are dropped, so a compilation succeeds behind all of them or
none. -/
theorem outcome_ofBlocks_eq_ok (ds : Diagnostics) :
    (ofBlocks c blocks).outcome = .ok commands ↔
      ∃ ds', (ofBlocks c blocks).run ds = .ok commands ds' :=
  Recording.outcome_eq_ok

/-- An agent's own commands take the time that they take it. -/
theorem map_retimed_self (h : (ofBlocks c blocks).outcome = .ok commands) :
    commands.map (retimed c) = commands := by
  have hsame : c.Alike c := ⟨rfl, rfl, rfl⟩
  have halike := outcome_alike hsame blocks
  rw [h] at halike
  exact (Except.ok.inj halike).symm

end Compilation

end RobotBlocks
