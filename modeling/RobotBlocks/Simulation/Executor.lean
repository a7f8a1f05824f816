import RobotBlocks.Config.Basic
import RobotBlocks.Log
import RobotBlocks.Scene.Collision
import RobotBlocks.Simulation.Robot

/-!
# The executor

The executor animates a robot through a queue of commands. It never waits: the host calls `tick`
once per frame, and each call moves the command in flight to the given time. Whenever the robot
changes or a command is complete, an observer is called from inside the operation. Observers may
call operations themselves, so what an operation does after calling one depends on the state that it
finds then, and they may fail, which ends the operation where it stands.

An operation therefore is a computation over a `Host`: the executor together with the memory of
those who observe it. A failing operation leaves the host as it was at the moment of the failure.
-/

namespace RobotBlocks

/-- What the executor is doing. -/
inductive Phase
  | idle
  | running
  | paused
  deriving DecidableEq, Repr

/-- The name of a phase. -/
def Phase.name : Phase → String
  | .idle => "idle"
  | .running => "running"
  | .paused => "paused"

/-- The command in flight. -/
structure Flight (R : Type) where
  /-- Tells this flight from every other one. -/
  number : Nat
  command : Command R
  startTime : R
  /-- Milliseconds at the speed at which it set out. -/
  duration : R
  startPosition : Point R
  startHeading : R
  /-- How far it leads along `x`. -/
  alongX : R
  /-- How far it leads along `z`. -/
  alongZ : R
  /-- How far it turns. -/
  turn : R
  /-- The obstacles that the robot touched when it set out. -/
  ignored : List Nat

/-- The executor. -/
structure Executor (R : Type) where
  config : Config R
  scene : Scene R
  /-- The state that a reset goes back to. -/
  initial : Robot R
  robot : Robot R
  /-- The speed of the commands that start from now on. -/
  speed : R
  queue : List (Command R)
  flight : Option (Flight R)
  phase : Phase
  /-- How many flights there have been. -/
  flights : Nat

/-- The executor with the memory of those who observe it. -/
structure Host (R μ : Type) where
  executor : Executor R
  memory : μ

/-- An operation on a host. -/
abbrev Operation (R μ α : Type) := EStateM Fault (Host R μ) α

/-- Those who observe an executor, and the clock that it reads. -/
structure Observers (R μ : Type) where
  /-- The time in milliseconds. -/
  clock : μ → R
  /-- Takes a record of the log down. -/
  note : Log.Entry → μ → μ
  /-- Called with the state of the robot whenever it may have changed. -/
  stateChanged : Robot R → Operation R μ Unit
  /-- Called with every command that is complete. -/
  completed : Command R → Operation R μ Unit

/-- What is handed in to be executed: a command, or something else in its place. -/
inductive Submission (R : Type)
  | command (c : Command R)
  | foreign (value : Data)

namespace Executor

variable {R μ : Type} [Scalar R]

/-- The state in which the robot of a configuration starts. -/
def restingState (c : Config R) : Robot R where
  position := ⟨Scalar.ofNat 0, c.groundHeight, Scalar.ofNat 0⟩
  rotation := ⟨Scalar.ofNat 0, c.initialHeading, Scalar.ofNat 0⟩
  moving := false
  speed := c.defaultSpeed

/-- An executor at rest. -/
def start (c : Config R) (obstacles : List (Obstacle R)) : Except Fault (Executor R) :=
  (AgentSize.ofList c.agentSize).map fun agent =>
    { config := c, scene := .of obstacles agent, initial := restingState c, robot := restingState c
      speed := c.defaultSpeed, queue := [], flight := none, phase := .idle, flights := 0 }

/-- Whether commands are running. -/
def isRunning (e : Executor R) : Bool := e.phase == .running

/-- The command in flight. -/
def current? (e : Executor R) : Option (Command R) := e.flight.map (·.command)

/-- The executor with the robot standing still. -/
def still (e : Executor R) : Executor R := { e with robot := { e.robot with moving := false } }

/-- The executor at rest, with nothing to do. -/
def idle (e : Executor R) : Executor R := { e with queue := [], flight := none, phase := .idle }

/-! ## Parts of operations -/

/-- The executor as it is. -/
def look : Operation R μ (Executor R) := do return (← get).executor

/-- Changes the executor. -/
def change (f : Executor R → Executor R) : Operation R μ Unit :=
  modify fun h => { h with executor := f h.executor }

/-- Takes a record down. -/
def note (o : Observers R μ) (level : Log.Level) (message : Text) : Operation R μ Unit :=
  modify fun h => { h with memory := o.note ⟨level, message⟩ h.memory }

/-- The time. -/
def now (o : Observers R μ) : Operation R μ R := do return o.clock (← get).memory

/-- Shows the robot to the observer. -/
def emitState (o : Observers R μ) : Operation R μ Unit := do o.stateChanged (← look).robot

/-- An operation that fails if the value is a fault. -/
def orFail {α : Type} (value : Except Fault α) : Operation R μ α :=
  match value with
  | .ok a => pure a
  | .error fault => throw fault

/-- The flight on which a command sets out from the present state. -/
def prepare (e : Executor R) (c : Command R) (time : R) : Except Fault (Flight R) := do
  if e.speed == Scalar.ofNat 0 then throw .divisionByZero
  let flight : Flight R :=
    { number := e.flights, command := c, startTime := time, duration := c.duration / e.speed
      startPosition := e.robot.position, startHeading := e.robot.heading
      alongX := Scalar.ofNat 0, alongZ := Scalar.ofNat 0, turn := Scalar.ofNat 0, ignored := [] }
  match c.movement with
  | .forward | .backward =>
    let steps := c.value * e.config.unitsPerStep
    let distance := if c.movement = .backward then -steps else steps
    let (alongX, alongZ) ← forwardOffset flight.startHeading distance
    let ignored ← e.scene.overlapping flight.startPosition
    return { flight with alongX, alongZ, ignored }
  | .turnRight => return { flight with turn := toRadians c.value }
  | .turnLeft => return { flight with turn := -toRadians c.value }
  | .wait => return flight

/-- Ends the run. -/
def finish (o : Observers R μ) : Operation R μ Unit := do
  change fun e => { e.still with phase := .idle, flight := none }
  note o .info "Run finished"
  emitState o

/-- Sets the next command of the queue in flight, or ends the run if there is none. -/
def startNext (o : Observers R μ) (time : R) : Operation R μ Unit := do
  match (← look).queue with
  | [] => finish o
  | c :: rest =>
    change fun e => { e with queue := rest }
    let flight ← orFail ((← look).prepare c time)
    change fun e =>
      { e with flight := some flight, flights := e.flights + 1, robot.moving := true }
    emitState o

/-- Reports a command as complete and goes on with the next one, unless the observer stopped, paused
or restarted the executor. -/
def complete (o : Observers R μ) (flight : Flight R) (time : R) : Operation R μ Unit := do
  change fun e => { e with flight := none }
  o.completed flight.command
  let e ← look
  if e.isRunning && e.flight.isNone then startNext o time

/-- The clearance left between the robot and an obstacle that it runs into. -/
def contactGap : R := Scalar.ratio 1 1000000

/-- The point just short of the first contact on a move. -/
def stopBefore (start finish : Point R) (contact : R) : Point R :=
  let dx := finish.x - start.x
  let dz := finish.z - start.z
  let length := Scalar.hypotenuse dx dz
  let fraction :=
    if Scalar.ofNat 0 < length then Scalar.max (contact - contactGap / length) (Scalar.ofNat 0)
    else Scalar.ofNat 0
  ⟨start.x + dx * fraction, start.y, start.z + dz * fraction⟩

/-- The part of a flight's time that has passed at the given moment. -/
def progressAt (f : Flight R) (time : R) : R :=
  if f.duration ≤ Scalar.ofNat 0 then Scalar.ofNat 1
  else
    Scalar.min (Scalar.max ((time - f.startTime) / f.duration) (Scalar.ofNat 0)) (Scalar.ofNat 1)

/-- Where a flight would have the robot after the given part of its way. -/
def positionAt (f : Flight R) (part : R) : Point R :=
  ⟨f.startPosition.x + f.alongX * part, f.startPosition.y, f.startPosition.z + f.alongZ * part⟩

/-- A number with two places. -/
def twoPlaces (x : R) : String := Float.fixedText 2 (Scalar.toFloat x)

/-- Moves the robot to where its flight has it, or to just short of the first obstacle on the way.
The result is the progress of the flight: all of it if an obstacle ends the move. -/
def advance (o : Observers R μ) (f : Flight R) (progress : R) : Operation R μ R := do
  let e ← look
  let current := e.robot.position
  let proposed := positionAt f (ease progress)
  match ← orFail (e.scene.sweep current proposed f.ignored) with
  | none =>
    change fun e => { e with robot := e.robot.placeAt proposed }
    emitState o
    return progress
  | some contact =>
    let stop := stopBefore current proposed contact
    change fun e => { e with robot := e.robot.placeAt stop }
    note o .info ("Collision during " ++ f.command.text ++ "; stopping at (" ++ twoPlaces stop.x ++
      ", " ++ twoPlaces stop.z ++ ")")
    emitState o
    return Scalar.ofNat 1

/-- Turns the robot to where its flight has it. -/
def rotate (o : Observers R μ) (f : Flight R) (progress : R) : Operation R μ Unit := do
  change fun e => { e with robot.rotation.y := f.startHeading + f.turn * ease progress }
  emitState o

/-- Whether the flight is still the one in flight. -/
def isInFlight (e : Executor R) (f : Flight R) : Bool :=
  match e.flight with
  | some g => g.number == f.number
  | none => false

/-! ## Operations -/

/-- Brings the command in flight to the given time, or to that of the clock. -/
def tick (o : Observers R μ) (time? : Option R) : Operation R μ Unit := do
  let e ← look
  match e.phase, e.flight with
  | .running, some f =>
    let time := time?.getD (← now o)
    let progress := progressAt f time
    let progress ←
      if f.command.movement.isMove then advance o f progress
      else if f.command.movement.isTurn then do
        rotate o f progress
        pure progress
      else pure progress
    if Scalar.ofNat 1 ≤ progress then
      if (← look).isInFlight f then complete o f time
  | _, _ => return ()

/-- The commands that were handed in; the first thing that is none is refused. -/
def commandsOf : List (Submission R) → Except Fault (List (Command R))
  | [] => .ok []
  | .command c :: rest => (commandsOf rest).map (c :: ·)
  | .foreign value :: _ => .error (.notCommand value.inspected)

/-- Replaces whatever is running by new commands and starts the first one. -/
def execute (o : Observers R μ) (items : List (Submission R)) : Operation R μ Unit := do
  let commands ← orFail (commandsOf items)
  if (← look).isRunning then note o .info "Pre-empting current run"
  change fun e => { e with queue := commands, flight := none, phase := .running }
  note o .info ("Executing " ++ natText commands.length ++ " commands at speed " ++
    Float.generalText (Scalar.toFloat (← look).speed))
  startNext o (← now o)

/-- Halts in place. What is left of the command in flight is dropped. -/
def pause (o : Observers R μ) : Operation R μ Unit := do
  if (← look).isRunning then
    change fun e => { e.still with phase := .paused, flight := none }
    note o .info ("Paused with " ++ natText (← look).queue.length ++ " commands queued")
    emitState o

/-- Goes on with the next command of the queue. -/
def resume (o : Observers R μ) : Operation R μ Unit := do
  if (← look).phase == .paused then
    change fun e => { e with phase := .running }
    note o .info "Resumed"
    startNext o (← now o)

/-- Abandons the run; the robot stays where it is. -/
def stop (o : Observers R μ) : Operation R μ Unit := do
  change fun e => e.idle.still
  emitState o

/-- Abandons the run and goes back to the initial state. -/
def reset (o : Observers R μ) : Operation R μ Unit := do
  change fun e => { e.idle with robot := e.initial, speed := e.initial.speed }
  emitState o

/-- Changes the height or the heading that a reset goes back to, and resets. -/
def setInitial (o : Observers R μ) (height heading : Option R) : Operation R μ Unit := do
  change fun e =>
    { e with
      initial.position.y := height.getD e.initial.position.y
      initial.rotation.y := heading.getD e.initial.rotation.y }
  reset o

/-- Sets the speed of the commands that start from now on, within the bounds of the configuration;
an undefined speed is ignored. The result is the speed in force. -/
def setSpeed (o : Observers R μ) (value : R) : Operation R μ R := do
  if Scalar.isUndefined value then
    note o .warning "Ignoring NaN speed"
    return (← look).speed
  else
    let speed := (← look).config.clampSpeed value
    change fun e => { e with speed, robot.speed := speed }
    emitState o
    return (← look).speed

/-- Sets the speed to a raw value; one that is no number is ignored. -/
def setSpeedData (o : Observers R μ) (value : Data) : Operation R μ R :=
  match value.toNumber with
  | .ok x => setSpeed o (Scalar.ofFloat x)
  | .error .integerTooLarge => throw .integerTooLarge
  | .error _ => do
    note o .warning ("Ignoring non-numeric speed: " ++ value.inspected)
    return (← look).speed

/-- Replaces the obstacles. -/
def setObstacles (obstacles : List (Obstacle R)) : Operation R μ Unit :=
  change fun e => { e with scene := e.scene.setObstacles obstacles }

/-- Changes the size of the robot. -/
def setAgentSize (size : Except Fault (AgentSize R)) : Operation R μ Unit := do
  let agent ← orFail size
  change fun e => { e with scene.agent := agent }

/-- Lets the time pass in steps, with a tick after each, as long as commands are running and so many
ticks have not been made. The result is the number of ticks. -/
def play (o : Observers R μ) (pass : μ → μ) : (most : Nat) → Operation R μ Nat
  | 0 => return 0
  | most + 1 => do
    if (← look).isRunning then
      modify fun h => { h with memory := pass h.memory }
      tick o none
      let rest ← play o pass most
      return rest + 1
    else return 0

end Executor

end RobotBlocks
