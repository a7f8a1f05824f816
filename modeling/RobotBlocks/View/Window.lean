import RobotBlocks.Program.Build
import RobotBlocks.Project.Sample
import RobotBlocks.Simulation.Controller
import RobotBlocks.View.Viewport

/-!
# The window

The window shows a project: its code, what is wrong with it, figures about its run, and the robot in
a viewport. It listens to a controller, and what its viewer does becomes calls of the controller.

The state of the window is the memory of the controller's listeners; whatever the viewer does is an
`Action`, an operation on the whole of window, controller and executor. A failing action leaves all
three as they were at the moment of the failure. `Window.start` is the open window, and a
`WindowCall` names what can happen to it.
-/

namespace RobotBlocks

/-- The state of the window. -/
structure Window (R : Type) where
  viewport : Viewport R
  /-- The program as it is shown. -/
  build : Build R
  /-- The project that was loaded last; absent if there is none. -/
  project : Data
  status : String
  /-- What is written on the button that halts a run. -/
  pauseButton : String
  speedLabel : String
  pose : String
  statistics : String
  code : Text
  warnings : Text
  /-- The texts that were written to the console. -/
  console : List String
  /-- The speed slider, in tenths. -/
  slider : Int
  /-- The agent chosen in the list of agents, if one is. -/
  selected : Option Nat
  /-- The boxes that are checked. -/
  checked : ViewOptions
  /-- Milliseconds between two ticks; none as long as the timer has not been started. -/
  timer : Option Int
  clock : R
  log : List Log.Entry

/-- A window with the controller that it listens to and the executor of that controller. -/
abbrev WindowHost (R : Type) := Host R (Desk R (Window R))

/-- What can be done with a window. -/
abbrev Action (R α : Type) := Operation R (Desk R (Window R)) α

namespace Window

variable {R : Type} [Scalar R]

/-- The window before it has loaded a project. -/
def blank (clock : R) : Window R where
  viewport := .start
  build := .fresh .robot
  project := .null
  status := "Ready"
  pauseButton := "Pause"
  speedLabel := "1.0x"
  pose := ""
  statistics := "Statistics:\nNo program loaded"
  code := ""
  warnings := ""
  console := []
  slider := 10
  selected := some 0
  checked := .allOn
  timer := none
  clock := clock
  log := []

/-- The name of the chosen agent; empty if none is. -/
def selectedAgent (w : Window R) : String :=
  ((w.selected.bind fun n => Config.agentNames[n]?)).getD ""

/-- The window with a text more on its console. -/
def say (text : String) (w : Window R) : Window R := { w with console := w.console ++ [text] }

/-- The window some time later. -/
def pass (dt : R) (w : Window R) : Window R := { w with clock := w.clock + dt }

/-! ## Parts of actions -/

/-- The window as it is. -/
def look : Action R (Window R) := do return (← Controller.desk).memory

/-- Changes the window beside its controller. -/
def change (f : Window R → Window R) : Action R Unit :=
  Controller.change fun d => { d with memory := f d.memory }

/-- Changes the viewport. -/
def changeView (f : Viewport R → Viewport R) : Action R Unit :=
  change fun w => { w with viewport := f w.viewport }

/-- Writes to the console. -/
def print (text : String) : Action R Unit := change (say text)

/-- What a phase is called on the window. -/
def statusOf (p : Phase) : String := p.name.capitalize

/-- What is written on the button that halts a run. -/
def pauseButtonOf (p : Phase) : String := if p == .paused then "Resume" else "Pause"

/-- Shows the phase of the executor. -/
def updateStatus : Action R Unit := do
  let phase := (← Executor.look).phase
  change fun w => { w with pauseButton := pauseButtonOf phase, status := statusOf phase }

/-! ## Texts -/

/-- Where the robot is and how it is turned, in degrees. -/
def poseText (r : Robot R) : String :=
  let field (places : Nat) (x : Float) : String := padLeft 7 (Float.fixedText places x)
  let heading := toDegrees (normalizeAngle (Scalar.toFloat r.heading))
  "x: " ++ field 2 (Scalar.toFloat r.position.x) ++ "\nz: " ++
    field 2 (Scalar.toFloat r.position.z) ++ "\nheading: " ++ field 1 heading

/-- What a movement is called among the statistics. -/
def movementLabel : Movement → String
  | .forward => "Forward"
  | .backward => "Backward"
  | .turnLeft => "Turn left"
  | .turnRight => "Turn right"
  | .wait => "Wait"

/-- Figures about a program. -/
def statisticsText (f : Figures R) : String :=
  let fixed (places : Nat) (x : R) : String := Float.fixedText places (Scalar.toFloat x)
  "\n".intercalate <|
    ["Statistics:", "Blocks: " ++ natText f.blocks, "Commands: " ++ natText f.commands,
      "Warnings: " ++ natText f.diagnostics, "", "Commands by type:"] ++
    f.counts.map (fun c => movementLabel c.1 ++ ": " ++ natText c.2) ++
    ["", "Travel: " ++ fixed 2 f.distance, "Net turn: " ++ fixed 0 f.rotation ++ " deg",
      "Run time (1x): " ++ fixed 1 (f.duration / Scalar.ofNat 1000) ++ " s"]

/-- What is wrong with a program, a line each. -/
def warningsText (ds : List Diagnostic) : Text :=
  if ds.isEmpty then "No problems found."
  else ("\n" : Text).intercalate (ds.map fun d => "[" ++ upper d.severity.name ++ "] " ++ d.text)

/-- The speed in force. -/
def speedText (speed : R) : String := Float.fixedText 1 (Scalar.toFloat speed) ++ "x"

/-! ## Listening -/

/-- Shows the robot. -/
def robotChanged (r : Robot R) : Action R Unit := do
  changeView (·.setRobot r)
  change fun w => { w with pose := poseText r }
  updateStatus

/-- Reports a command that is complete. -/
def commandCompleted (c : Command R) : Action R Unit := do
  let d ← Controller.desk
  print ("[" ++ natText d.executedSteps ++ "/" ++ natText d.commands.length ++ "] " ++ c.text)

/-- The window as a listener of its controller. -/
def listener : Listeners R (Window R) where
  clock d := d.memory.clock
  note entry d := { d with memory.log := d.memory.log ++ [entry] }
  stateChanged := robotChanged
  completed := commandCompleted

/-- Takes a record down. -/
def note (level : Log.Level) (message : Text) : Action R Unit :=
  Executor.note listener level message

/-! ## Programs -/

/-- Shows what is wrong with the program. -/
def showWarnings : Action R Unit :=
  change fun w => { w with warnings := warningsText w.build.diagnostics.sorted }

/-- Builds the program of the controller; what is found wrong is logged. -/
def renewBuild : Action R Unit := do
  let blocks := (← Controller.desk).blocks
  match (Build.ofBlocks blocks).run (← look).build with
  | .error fault build =>
    change fun w => { w with build }
    throw fault
  | .ok _ build =>
    change fun w => { w with build }
    build.diagnostics.sorted.forM fun d => note .warning d.text

/-- Builds the program of the controller and shows it. -/
def processProgram : Action R Unit := do
  renewBuild
  change fun w => { w with code := w.build.code }
  showWarnings
  change fun w => { w with statistics := statisticsText w.build.figures }

/-- Gives the viewport the size of the controller's agent. -/
def showAgentSize : Action R Unit := do
  let size := (← Controller.desk).config.agentSize
  changeView (·.setAgentSize size)

/-- Chooses the agent of that very name in the list, if there is one, without telling anybody. -/
def choose (name : Text) (w : Window R) : Window R :=
  match Config.agentNames.findIdx? fun n => Text.ofString n == name with
  | some n => { w with selected := some n }
  | none => w

/-- Loads what a raw value holds and shows it. -/
def loadProject (project : Data) : Action R Unit := do
  change fun w => { w with project }
  Controller.loadProject listener project
  let obstacles := (← Controller.desk).obstacles
  changeView (·.setObstacles obstacles)
  match project with
  | .record fields =>
    let agent := Data.field fields "agent"
    if agent.isGiven then
      change (choose agent.shown)
      showAgentSize
  | _ => pure ()
  processProgram

/-- What reading a file leads to. -/
abbrev FileContent := Except Fault (Except FileProblem Data)

/-- Loads what the file at a path holds, if it can be read. -/
def openProject (path : String) (content : FileContent) : Action R Unit := do
  match ← Executor.orFail content with
  | .error problem => print ("Could not load " ++ path ++ ": " ++ problem.message)
  | .ok project => do
    print ("Loaded: " ++ path)
    loadProject project

/-- Title, directory and filters of the dialog in which a file is chosen. -/
def fileDialog : List String :=
  ["Open Block Project", "", "Block Projects (*.json);;All Files (*)"]

/-- Loads the file that was chosen; the empty path stands for no choice. -/
def chooseFile (path : String) (content : FileContent) : Action R Unit :=
  if path.isEmpty then pure () else openProject path content

/-! ## Controls -/

/-- Runs the program. -/
def run : Action R Unit := do
  changeView (·.clearTrail)
  let commands ← Controller.run listener none
  showWarnings
  print ("Running " ++ natText commands.length ++ " commands")
  updateStatus

/-- Halts the run, or goes on with it. -/
def togglePause : Action R Unit := do
  Controller.togglePause listener
  updateStatus

/-- Abandons the run. -/
def stop : Action R Unit := do
  Controller.stop listener
  print "Stopped"
  updateStatus

/-- The least and the greatest value of the speed slider. -/
def sliderRange : Int × Int := (1, 30)

/-- Moves the speed slider, as far as it goes; the speed follows if it has moved. -/
def slide (value : Int) : Action R Unit := do
  let value := max sliderRange.1 (min sliderRange.2 value)
  if value != (← look).slider then
    change fun w => { w with slider := value }
    let speed ← Executor.setSpeed (Controller.observing listener) (Scalar.ratio value.toNat 10)
    change fun w => { w with speedLabel := speedText speed }

/-- Goes back to the initial state. -/
def reset : Action R Unit := do
  Controller.reset listener
  changeView (·.clearTrail)
  let tenths := (← Executor.look).speed * Scalar.ofNat 10
  slide (← Executor.orFail (Float.nearestInteger (Scalar.toFloat tenths)))
  updateStatus

/-- Switches to the agent of a name. -/
def changeAgent (name : String) : Action R Unit := do
  Controller.setAgent listener (.text name)
  showAgentSize
  changeView (·.clearTrail)
  print ("Switched to " ++ (← Controller.desk).config.name)
  processProgram

/-- Chooses an agent of the list by its place; a place outside the list chooses none. The agent
changes if the choice does. -/
def select (index : Int) : Action R Unit := do
  let choice := index.toNat?.filter (· < Config.agentNames.length)
  if choice != (← look).selected then
    change fun w => { w with selected := choice }
    changeAgent (← look).selectedAgent

/-- Checks a box, or unchecks it; the viewport follows if that changes it. -/
def check (option : ViewOption) (on : Bool) : Action R Unit := do
  if (← look).checked.isOn option != on then
    change fun w => { w with checked := w.checked.toggle option }
    changeView (·.toggle option)

/-- Lets time pass in steps, with a tick after each; with `untilIdle` only as long as commands are
running. The result is the number of ticks. -/
def elapse (dt : R) (untilIdle : Bool) : (most : Nat) → Action R Nat
  | 0 => return 0
  | most + 1 => do
    if untilIdle && !(← Executor.look).isRunning then return 0
    else
      change (pass dt)
      Controller.tick listener none
      let rest ← elapse dt untilIdle most
      return rest + 1

/-- Opens the window: it loads the sample project and starts its timer. -/
def opening : Action R Unit := do
  loadProject Sample.project
  let interval := (← Controller.desk).config.tickInterval
  change fun w => { w with timer := some interval }

/-- The open window. -/
def start (clock : R) : Except Fault (WindowHost R) := do
  match opening.run (← Controller.start .robot (blank clock)) with
  | .ok _ h => return h
  | .error fault _ => throw fault

end Window

/-- What happens to a window. -/
inductive WindowCall (R : Type)
  | run
  | togglePause
  | stop
  | reset
  | resetView
  /-- The viewer chooses the path of a file to load. -/
  | chooseFile (path : String) (content : Window.FileContent)
  | openProject (path : String) (content : Window.FileContent)
  | loadProject (project : Data)
  | select (index : Int)
  | slide (value : Int)
  | check (option : ViewOption) (on : Bool)
  | elapse (dt : R) (untilIdle : Bool) (most : Nat)
  /-- Something happens to the viewport. -/
  | view (c : ViewCall)

/-- What a call of a window returns. -/
inductive WindowReply
  | nothing
  | ticks (count : Nat)
  | drawing (picture : Drawing)

namespace WindowCall

variable {R : Type} [Scalar R]

/-- Makes a call. -/
def make : WindowCall R → Action R WindowReply
  | .run => do Window.run; return .nothing
  | .togglePause => do Window.togglePause; return .nothing
  | .stop => do Window.stop; return .nothing
  | .reset => do Window.reset; return .nothing
  | .resetView => do Window.changeView (·.resetView); return .nothing
  | .chooseFile path content => do Window.chooseFile path content; return .nothing
  | .openProject path content => do Window.openProject path content; return .nothing
  | .loadProject project => do Window.loadProject project; return .nothing
  | .select index => do Window.select index; return .nothing
  | .slide value => do Window.slide value; return .nothing
  | .check option on => do Window.check option on; return .nothing
  | .elapse dt untilIdle most => return .ticks (← Window.elapse dt untilIdle most)
  | .view c => do
    match c.make.run (← Window.look).viewport with
    | .ok picture viewport =>
      Window.changeView fun _ => viewport
      return .drawing picture
    | .error fault viewport =>
      Window.changeView fun _ => viewport
      throw fault

end WindowCall

end RobotBlocks
