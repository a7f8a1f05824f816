import RobotBlocks.Program.Code
import RobotBlocks.Program.Compilation

/-!
# Builds

What becomes of a program: its commands, its code, what was found wrong with it, and figures about
its run. A build is renewed step by step, so one that fails half way keeps the commands, the code
and the success of the program before.
-/

namespace RobotBlocks

/-- Figures about the commands of a program at speed one. -/
structure Figures (R : Type) where
  blocks : Nat
  commands : Nat
  /-- How many commands there are of each movement. -/
  counts : List (Movement × Nat)
  /-- Units of the world travelled. -/
  distance : R
  /-- Degrees turned to the right, less those turned to the left. -/
  rotation : R
  /-- Milliseconds. -/
  duration : R
  diagnostics : Nat

/-- The outcome of the last program. -/
structure Build (R : Type) where
  config : Config R
  diagnostics : Diagnostics
  commands : List (Command R)
  code : Text
  blockCount : Nat
  successful : Bool

namespace Build

variable {R : Type} [Scalar R]

/-- The build before any program. -/
def fresh (config : Config R) : Build R := ⟨config, .empty, [], "", 0, false⟩

/-- Builds a list of blocks; true if no error was recorded. -/
def ofBlocks (blocks : List Block) : EStateM Fault (Build R) Bool := do
  modify fun b => { b with blockCount := blocks.length }
  let b ← get
  match (Compilation.ofBlocks b.config blocks).run b.diagnostics with
  | .error fault ds =>
    set { b with diagnostics := ds }
    throw fault
  | .ok commands ds =>
    set { b with diagnostics := ds, commands }
    match Code.ofBlocks blocks with
    | .error fault => throw fault
    | .ok code =>
      modify fun b => { b with code, successful := !ds.hasErrors }
      return !ds.hasErrors

/-- Builds a raw program; true if no error was recorded. -/
def ofData (program : Data) : EStateM Fault (Build R) Bool :=
  match Block.load program with
  | .error fault => throw fault
  | .ok blocks => ofBlocks blocks

/-- The build without a program; the configuration stays. -/
def reset (b : Build R) : Build R := fresh b.config

/-- The commands that came from one block. -/
def commandsFor (b : Build R) (block : Option Text) : List (Command R) :=
  b.commands.filter fun c => c.source == block

/-- The sum of what each command adds, in their order. -/
def total (commands : List (Command R)) (change : R → Command R → R) : R :=
  commands.foldl change (Scalar.ofNat 0)

/-- Figures about the build. -/
def figures (b : Build R) : Figures R where
  blocks := b.blockCount
  commands := b.commands.length
  counts := Movement.all.map fun m => (m, b.commands.countP fun c => c.movement == m)
  distance := total b.commands fun sum c =>
    if c.movement.isMove then sum + c.value * b.config.unitsPerStep else sum
  rotation := total b.commands fun sum c =>
    match c.movement with
    | .turnRight => sum + c.value
    | .turnLeft => sum - c.value
    | _ => sum
  duration := total b.commands fun sum c => sum + c.duration
  diagnostics := b.diagnostics.entries.length

end Build

end RobotBlocks
