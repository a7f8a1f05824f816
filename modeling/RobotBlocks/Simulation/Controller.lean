import RobotBlocks.Program.Compilation
import RobotBlocks.Project.Folder
import RobotBlocks.Simulation.Script

/-!
# The controller

The controller ties a program to an executor: it loads projects, compiles the program when it is
run, counts the commands that are complete and switches between agents. It observes its executor and
passes on what it is told to listeners, who may call it in turn.

Its own state, the `Desk`, is the memory of an observed executor, and holds the memory of the
listeners; an operation of the controller is an operation on that host.
-/

namespace RobotBlocks

/-- The state of the controller beside its executor. -/
structure Desk (R μ : Type) where
  config : Config R
  /-- What was found wrong with the program when it was last compiled. -/
  diagnostics : Diagnostics
  blocks : List Block
  obstacles : List (Obstacle R)
  /-- The commands that were compiled last. -/
  commands : List (Command R)
  /-- How many commands of the run are complete. -/
  executedSteps : Nat
  /-- The memory of the listeners. -/
  memory : μ

/-- Those who listen to a controller. -/
abbrev Listeners (R μ : Type) := Observers R (Desk R μ)

namespace Controller

variable {R μ : Type} [Scalar R]

/-- A controller with nothing loaded. -/
def start (c : Config R) (memory : μ) : Except Fault (Host R (Desk R μ)) :=
  (Executor.start c []).map fun executor =>
    ⟨executor, ⟨c, .empty, [], [], [], 0, memory⟩⟩

/-- The controller as it is beside its executor. -/
def desk : Operation R (Desk R μ) (Desk R μ) := do return (← get).memory

/-- Changes the controller beside its executor. -/
def change (f : Desk R μ → Desk R μ) : Operation R (Desk R μ) Unit :=
  modify fun h => { h with memory := f h.memory }

/-- What the controller does as an observer: it counts the complete commands, and tells the
listeners. -/
def observing (l : Listeners R μ) : Observers R (Desk R μ) :=
  { l with
    completed := fun c => do
      change fun d => { d with executedSteps := d.executedSteps + 1 }
      l.completed c }

/-! ## Projects -/

/-- The values that a raw value can be gone through for: the items of a list; texts and records give
none that could be an obstacle. A value that does not count as given has none. -/
def itemsOf (value : Data) : Except Fault (List Data) :=
  match value with
  | .list items => .ok items
  | .text _ | .record _ => .ok []
  | value => if value.isGiven then .error (.notIterable value.kindName) else .ok []

/-- The obstacles that the records among raw values describe. -/
def obstaclesOf : List Data → Except Fault (List (Obstacle R))
  | [] => .ok []
  | .record fields :: rest => do
    let o ← Obstacle.ofData (.record fields)
    let others ← obstaclesOf rest
    return o.map Scalar.ofFloat :: others
  | _ :: rest => obstaclesOf rest

/-- Replaces the obstacles. -/
def setObstacles (obstacles : List (Obstacle R)) : Operation R (Desk R μ) Unit := do
  change fun d => { d with obstacles }
  Executor.setObstacles obstacles

/-- Switches to the agent that a raw value names: its size, its timing and its resting place. The
speed stays, as far as the new agent's bounds let it. -/
def setAgent (l : Listeners R μ) (name : Data) : Operation R (Desk R μ) Unit := do
  let preset ← Executor.orFail (Config.ofData name)
  let speed := (← Executor.look).speed
  change fun d => { d with config := preset }
  Executor.change fun e => { e with config := preset }
  Executor.setAgentSize (AgentSize.ofList preset.agentSize)
  Executor.setInitial (observing l) (some preset.groundHeight) (some preset.initialHeading)
  let _ ← Executor.setSpeed (observing l) speed
  Executor.note l .info ("Switched agent to " ++ preset.name)

/-- Loads what a raw value holds: a list of blocks, or a project with blocks, obstacles and an
agent. -/
def loadProject (l : Listeners R μ) (project : Data) : Operation R (Desk R μ) Unit := do
  let blocks ← Executor.orFail (Block.load project)
  change fun d => { d with blocks }
  let obstacles ← match project with
    | .record fields => do
      let items ← Executor.orFail (itemsOf (Data.field fields "obstacles"))
      let obstacles ← Executor.orFail (obstaclesOf items)
      let agent := Data.field fields "agent"
      if agent.isGiven then setAgent l agent
      pure obstacles
    | _ => pure []
  setObstacles obstacles
  let count := (← desk).blocks.length
  Executor.note l .info ("Loaded project with " ++ natText count ++ " blocks and " ++
    natText obstacles.length ++ " obstacles")

/-! ## Runs -/

/-- Compiles the program of the controller; what is found wrong is logged. -/
def compile (l : Listeners R μ) : Operation R (Desk R μ) (List (Command R)) := do
  let d ← desk
  match (Compilation.ofBlocks d.config d.blocks).run d.diagnostics with
  | .error fault diagnostics =>
    change fun d => { d with diagnostics }
    throw fault
  | .ok commands diagnostics =>
    change fun d => { d with diagnostics }
    diagnostics.sorted.forM fun d => Executor.note l .warning d.text
    return commands

/-- Compiles the program, or a new one that replaces it, and runs it. -/
def run (l : Listeners R μ) (program : Option Data) :
    Operation R (Desk R μ) (List (Command R)) := do
  match program with
  | none => pure ()
  | some program =>
    let blocks ← Executor.orFail (Block.load program)
    change fun d => { d with blocks }
  let commands ← compile l
  change fun d => { d with commands, executedSteps := 0 }
  Executor.execute (observing l) (commands.map .command)
  return (← desk).commands

/-- Brings the command in flight to the given time, or to that of the clock. -/
def tick (l : Listeners R μ) (time? : Option R) : Operation R (Desk R μ) Unit :=
  Executor.tick (observing l) time?

/-- Halts the run. -/
def pause (l : Listeners R μ) : Operation R (Desk R μ) Unit := Executor.pause (observing l)

/-- Goes on with a halted run. -/
def resume (l : Listeners R μ) : Operation R (Desk R μ) Unit := Executor.resume (observing l)

/-- Goes on with a run that is halted, and halts one that is not. -/
def togglePause (l : Listeners R μ) : Operation R (Desk R μ) Unit := do
  if (← Executor.look).phase == .paused then resume l else pause l

/-- Abandons the run. -/
def stop (l : Listeners R μ) : Operation R (Desk R μ) Unit := Executor.stop (observing l)

/-- Abandons the run and goes back to the initial state. -/
def reset (l : Listeners R μ) : Operation R (Desk R μ) Unit := do
  change fun d => { d with executedSteps := 0 }
  Executor.reset (observing l)

/-- Sets the speed to a raw value. -/
def setSpeed (l : Listeners R μ) (value : Data) : Operation R (Desk R μ) R :=
  Executor.setSpeedData (observing l) value

/-- What was found wrong with the program when it was last compiled. -/
def diagnostics : Operation R (Desk R μ) (List Diagnostic) := do
  return (← desk).diagnostics.sorted

end Controller

/-- A call of a controller by its host. -/
inductive ControllerCall (R : Type)
  | load (project : Data)
  /-- Reads the file at a path, and loads what it holds if asked to. -/
  | loadFile (folder : Folder) (path : String) (load : Bool)
  | setObstacles (obstacles : List (Obstacle R))
  | setAgent (name : Data)
  | run (program : Option Data)
  | tick (pass : Option R) (time : Option R)
  | play (pass : R) (most : Nat)
  | pause
  | resume
  | togglePause
  | stop
  | reset
  | setSpeed (value : Data)
  | diagnostics
  /-- Fails. -/
  | fail (fault : Fault)

/-- What a call of a controller returns. -/
inductive ControllerReply (R : Type)
  | nothing
  | file (content : Except FileProblem Data)
  | commands (commands : List (Command R))
  | ticks (count : Nat)
  | speed (value : R)
  | diagnostics (ds : List Diagnostic)

namespace ControllerCall

variable {R : Type} [Scalar R]

/-- The journal on a desk whose listeners remember nothing else. -/
def journal : JournalIn R (Desk R (Journal R)) :=
  ⟨(·.memory), fun f d => { d with memory := f d.memory }⟩

/-- Lets time pass. -/
def letPass (dt : Option R) : Operation R (Desk R (Journal R)) Unit :=
  match dt with
  | some dt => Controller.change fun d => { d with memory := d.memory.pass dt }
  | none => pure ()

/-- Makes a call. -/
def make (l : Listeners R (Journal R)) :
    ControllerCall R → Operation R (Desk R (Journal R)) (ControllerReply R)
  | .load project => do Controller.loadProject l project; return .nothing
  | .loadFile folder path wanted => do
    let content ← Executor.orFail (folder.readJson path)
    match content, wanted with
    | .ok project, true => Controller.loadProject l project
    | _, _ => pure ()
    return .file content
  | .setObstacles obstacles => do Controller.setObstacles obstacles; return .nothing
  | .setAgent name => do Controller.setAgent l name; return .nothing
  | .run program => return .commands (← Controller.run l program)
  | .tick dt time => do letPass dt; Controller.tick l time; return .nothing
  | .play dt most =>
    let pass (d : Desk R (Journal R)) := { d with memory := d.memory.pass dt }
    return .ticks (← Executor.play (Controller.observing l) pass most)
  | .pause => do Controller.pause l; return .nothing
  | .resume => do Controller.resume l; return .nothing
  | .togglePause => do Controller.togglePause l; return .nothing
  | .stop => do Controller.stop l; return .nothing
  | .reset => do Controller.reset l; return .nothing
  | .setSpeed value => return .speed (← Controller.setSpeed l value)
  | .diagnostics => return .diagnostics (← Controller.diagnostics)
  | .fail fault => throw fault

/-- Makes a call for its effects. -/
def makeQuietly (l : Listeners R (Journal R)) (c : ControllerCall R) :
    Operation R (Desk R (Journal R)) Unit := do
  let _ ← make l c

/-- The listeners of a script. -/
def listeners (reactions : List (Reaction (ControllerCall R))) : Listeners R (Journal R) :=
  Journal.scripted journal (fun d => d.memory.clock) makeQuietly reactions reactions.length

end ControllerCall

end RobotBlocks
