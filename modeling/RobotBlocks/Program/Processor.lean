import RobotBlocks.Program.Build

/-!
# Compilers, printers and processors

A host keeps a compiler, a printer and a processor and uses them for one program after the other. A
compiler holds its diagnostics, the path of its walk and the graph of its program, a printer its
lines and its graph, a processor a compiler and the parts of its build. Whatever a use fails with,
what it has changed until then stays: a compiler may be left in the middle of a path, a printer with
half of the lines.

`Compiler.compile`, `Printer.print` and `Processor.process` work on what is held, as opposed to
`Compilation.ofData`, `Code.ofData` and `Build.ofData`, which only know of the program.
-/

namespace RobotBlocks

variable {R : Type} [Scalar R]

/-! ## Compilers -/

/-- A compiler with what it holds. -/
structure Compiler (R : Type) where
  config : Config R
  diagnostics : Diagnostics
  /-- The names of the blocks on the path of the walk. -/
  path : List Text
  /-- The graph of the last program; before any, that of no blocks. -/
  graph : Graph

namespace Compiler

/-- A compiler that has not been used. -/
def fresh (config : Config R) : Compiler R := ⟨config, .empty, [], ⟨[], [], []⟩⟩

/-- A computation of a compiler, which keeps what it has changed when it fails. -/
abbrev Job (R α : Type) := EStateM Fault (Compiler R) α

/-- Does what records diagnostics and touches nothing else. -/
def record {α : Type} (m : Recording α) : Job R α := fun k =>
  match m k.diagnostics with
  | .ok a ds => .ok a { k with diagnostics := ds }
  | .error fault ds => .error fault { k with diagnostics := ds }

/-- Puts a block on the path. -/
def enter (b : Block) : Job R Unit := modify fun k => { k with path := b.id :: k.path }

/-- Takes the block that owns a frame from the path. -/
def leave (f : Compilation.Frame) : Job R Unit :=
  match f.owner with
  | none => return ()
  | some id => modify fun k => { k with path := k.path.filter (· != id) }

/-- The next block to visit: that of the innermost frame that has one. The owners of frames without
any are taken from the path, and a block that is on the path is recorded and passed over. -/
def nextVisit : List Compilation.Frame → Job R (Option (Block × List Compilation.Frame))
  | [] => return none
  | f :: outer =>
    match _h : f.next? with
    | none => do
      leave f
      nextVisit outer
    | some (b, f') => do
      if (← get).path.contains b.id then
        record (Recording.warn b Compilation.cycleMessage .structural)
        nextVisit (f' :: outer)
      else return some (b, f' :: outer)
termination_by stack => stack.foldr (fun f count => f.left + 1 + count) 0
decreasing_by
  · simp only [List.foldr_cons]
    omega
  · have := Compilation.Frame.left_of_next? _h
    simp only [List.foldr_cons]
    omega

/-- Visits a block: its command, if it has one, and the frame of the blocks to visit from it. The
block is on the path before it is known how often its body runs. -/
def visit (b : Block) : Job R (Option (Command R) × Compilation.Frame) := do
  let c := (← get).config
  record (Compilation.noteUnknown b)
  let command ← record (Compilation.commandFor c b)
  enter b
  let g := (← get).graph
  let times ← record (Compilation.timesFor c b)
  return (command, ⟨some b.id, [], g.inSlot b .body, times, g.inSlot b .next⟩)

/-- The commands of the walk from a stack on, with so many visits left. -/
def walk : (budget : Nat) → List Compilation.Frame → Job R (List (Command R))
  | 0, stack => do
    match ← nextVisit stack with
    | none => return []
    | some (b, _) =>
      record (Recording.warn b (Compilation.overrunMessage (← get).config) .input)
      return []
  | budget + 1, stack => do
    match ← nextVisit stack with
    | none => return []
    | some (b, stack) =>
      let (command, frame) ← visit b
      let rest ← walk budget (frame :: stack)
      return command.toList ++ rest

/-- The commands of blocks that may not have been read. The path is cleared before and after the
walk; a walk that fails leaves it as it is. -/
def compileRead (read : Except Fault (List Block)) : Job R (List (Command R)) := do
  modify fun k => { k with diagnostics := .empty, path := [] }
  match read with
  | .error fault => throw fault
  | .ok blocks =>
    let (graph, diagnostics) := Graph.build blocks (← get).diagnostics
    modify fun k => { k with graph, diagnostics }
    let commands ← walk (← get).config.maxVisits.toNat [.ofRoots graph.topLevel]
    modify fun k => { k with path := [] }
    return commands

/-- The commands of a raw program. -/
def compile (program : Data) : Job R (List (Command R)) := compileRead (Block.load program)

end Compiler

/-! ## Printers -/

/-- A printer with what it holds. -/
structure Printer where
  lines : List Code.Line
  /-- The graph of the last program; before any, that of no blocks. -/
  graph : Graph

namespace Printer

/-- A printer that has not been used. -/
def fresh : Printer := ⟨[], ⟨[], [], []⟩⟩

/-- Does so many tasks, or fewer if no more are left, with the blocks of a path not left yet. -/
def emit : (count : Nat) → List Code.Task → (path : List Text) → EStateM Fault Printer Unit
  | 0, _, _ => return ()
  | count + 1, tasks, path => do
    if tasks.isEmpty then return ()
    else
      let p ← get
      match Code.Emission.step p.graph ⟨tasks, path, p.lines⟩ with
      | .error fault => throw fault
      | .ok e =>
        set { p with lines := e.lines }
        emit count e.tasks e.path

/-- The code of blocks that may not have been read. -/
def printRead (read : Except Fault (List Block)) : EStateM Fault Printer Text := do
  modify fun p => { p with lines := [] }
  match read with
  | .error fault => throw fault
  | .ok blocks =>
    let graph := (Graph.build blocks .empty).1
    modify fun p => { p with graph }
    emit (3 * graph.blocks.length) (graph.topLevel.map fun b => .block b 1) []
    modify fun p => if p.lines.isEmpty then { p with lines := [⟨1, "pass"⟩] } else p
    return ("\n" : Text).intercalate
      (Code.opening ++ (← get).lines.map Code.Line.render ++ Code.ending)

/-- The code of a raw program. -/
def print (program : Data) : EStateM Fault Printer Text := printRead (Block.load program)

end Printer

/-! ## Processors -/

/-- A processor with the compiler that it uses and what it holds of the last program. -/
structure Processor (R : Type) where
  compiler : Compiler R
  commands : List (Command R)
  code : Text
  blockCount : Nat
  successful : Bool

namespace Processor

/-- A processor that has not been used. -/
def fresh (config : Config R) : Processor R := ⟨.fresh config, [], "", 0, false⟩

/-- Builds a raw program; true if no error was recorded. The code is made by a printer of its
own. -/
def process (program : Data) : EStateM Fault (Processor R) Bool := do
  match Block.load program with
  | .error fault => throw fault
  | .ok blocks =>
    modify fun p => { p with blockCount := blocks.length }
    match (Compiler.compileRead (.ok blocks)).run (← get).compiler with
    | .error fault compiler =>
      modify fun p => { p with compiler }
      throw fault
    | .ok commands compiler =>
      modify fun p => { p with compiler, commands }
      match (Printer.printRead (.ok blocks)).run .fresh with
      | .error fault _ => throw fault
      | .ok code _ =>
        let successful := !compiler.diagnostics.hasErrors
        modify fun p => { p with code, successful }
        return successful

/-- The processor without a program; what its compiler holds beside the diagnostics stays. -/
def reset (p : Processor R) : Processor R :=
  ⟨{ p.compiler with diagnostics := .empty }, [], "", 0, false⟩

/-- The build that a processor holds; all that can be asked of a processor is asked of it. -/
def build (p : Processor R) : Build R :=
  ⟨p.compiler.config, p.compiler.diagnostics, p.commands, p.code, p.blockCount, p.successful⟩

end Processor

end RobotBlocks
