import RobotBlocks.Simulation.Executor

/-!
# Scripted observers

Observers that keep a journal and react: on the n-th notice of a kind, counted from the beginning,
they make the calls that a script lists, from inside the operation that gave the notice. Any
behaviour of observers in one run is such a script, since a run gives each notice once.

The calls of a reaction give notices in turn. `Journal.scripted` unfolds reactions inside reactions
to a depth; as every notice is given once, the number of reactions is depth enough.
-/

namespace RobotBlocks

/-- What an observer is told about. -/
inductive Notice
  | state
  | complete
  deriving DecidableEq, Repr

/-- What an observer was told. -/
inductive Event (R : Type)
  | state (robot : Robot R)
  | complete (command : Command R)

/-- What scripted observers remember, and the clock of their executor. -/
structure Journal (R : Type) where
  clock : R
  events : List (Event R)
  log : List Log.Entry
  /-- How many notices of a new state there have been. -/
  states : Nat
  /-- How many notices of a complete command there have been. -/
  completions : Nat

namespace Journal

/-- An empty journal. -/
def empty {R : Type} (clock : R) : Journal R := ⟨clock, [], [], 0, 0⟩

/-- The journal with an event written down and counted. -/
def write {R : Type} (j : Journal R) (e : Event R) : Journal R :=
  match e with
  | .state _ => { j with events := j.events ++ [e], states := j.states + 1 }
  | .complete _ => { j with events := j.events ++ [e], completions := j.completions + 1 }

/-- The journal with a record of the log written down. -/
def note {R : Type} (j : Journal R) (entry : Log.Entry) : Journal R :=
  { j with log := j.log ++ [entry] }

/-- How many notices of a kind there have been. -/
def count {R : Type} (j : Journal R) : Notice → Nat
  | .state => j.states
  | .complete => j.completions

/-- The journal with the events and the log of a new page. -/
def turn {R : Type} (j : Journal R) : Journal R := { j with events := [], log := [] }

/-- The journal some time later. -/
def pass {R : Type} [Scalar R] (dt : R) (j : Journal R) : Journal R :=
  { j with clock := j.clock + dt }

end Journal

/-- Calls to be made on the n-th notice of a kind. -/
structure Reaction (C : Type) where
  on : Notice
  nth : Nat
  calls : List C

/-- Where a memory keeps the journal. -/
structure JournalIn (R μ : Type) where
  view : μ → Journal R
  update : (Journal R → Journal R) → μ → μ

namespace Journal

variable {R μ C : Type}

/-- Observers that write nothing down and do not react; the log is kept. -/
def silent (at' : JournalIn R μ) (clock : μ → R) : Observers R μ where
  clock := clock
  note entry := at'.update (·.note entry)
  stateChanged _ := pure ()
  completed _ := pure ()

/-- Writes an event down, and then makes the calls of all reactions to it. -/
def receive (at' : JournalIn R μ) (make : C → Operation R μ Unit) (reactions : List (Reaction C))
    (kind : Notice) (e : Event R) : Operation R μ Unit := do
  modify fun h => { h with memory := at'.update (·.write e) h.memory }
  let n := (at'.view (← get).memory).count kind
  (reactions.filter fun r => r.on == kind && r.nth == n).forM fun r => r.calls.forM make

/-- Observers that write every event down and react to it; `make` makes a call with given
observers. Reactions inside reactions are carried out to the given depth. -/
def scripted (at' : JournalIn R μ) (clock : μ → R)
    (make : Observers R μ → C → Operation R μ Unit) (reactions : List (Reaction C)) :
    (depth : Nat) → Observers R μ
  | 0 =>
    { silent at' clock with
      stateChanged := fun s => receive at' (fun (_ : C) => pure ()) [] .state (.state s)
      completed := fun c => receive at' (fun (_ : C) => pure ()) [] .complete (.complete c) }
  | depth + 1 =>
    let inner := scripted at' clock make reactions depth
    { silent at' clock with
      stateChanged := fun s => receive at' (make inner) reactions .state (.state s)
      completed := fun c => receive at' (make inner) reactions .complete (.complete c) }

end Journal

/-- A call of an executor by its host. -/
inductive Call (R : Type)
  | execute (items : List (Submission R))
  /-- Lets time pass, and ticks at the given time or at that of the clock. -/
  | tick (pass : Option R) (time : Option R)
  | play (pass : R) (most : Nat)
  | pause
  | resume
  | stop
  | reset
  | setInitial (height heading : Option R)
  | setSpeed (value : Data)
  | setObstacles (obstacles : List (Obstacle R))
  | setAgentSize (size : Data)
  /-- Looks at the robot. -/
  | look
  /-- Fails. -/
  | fail (fault : Fault)

/-- What a call returns. -/
inductive Reply (R : Type)
  | nothing
  | ticks (count : Nat)
  | speed (value : R)
  | robot (state : Robot R)

namespace Call

variable {R : Type} [Scalar R]

/-- The journal of a memory that is nothing else. -/
def journal : JournalIn R (Journal R) := ⟨id, id⟩

/-- Lets time pass. -/
def letPass (dt : Option R) : Operation R (Journal R) Unit :=
  match dt with
  | some dt => modify fun h => { h with memory := h.memory.pass dt }
  | none => pure ()

/-- Makes a call. -/
def make (o : Observers R (Journal R)) : Call R → Operation R (Journal R) (Reply R)
  | .execute items => do Executor.execute o items; return .nothing
  | .tick dt time => do letPass dt; Executor.tick o time; return .nothing
  | .play dt most => return .ticks (← Executor.play o (Journal.pass dt) most)
  | .pause => do Executor.pause o; return .nothing
  | .resume => do Executor.resume o; return .nothing
  | .stop => do Executor.stop o; return .nothing
  | .reset => do Executor.reset o; return .nothing
  | .setInitial height heading => do Executor.setInitial o height heading; return .nothing
  | .setSpeed value => return .speed (← Executor.setSpeedData o value)
  | .setObstacles obstacles => do Executor.setObstacles obstacles; return .nothing
  | .setAgentSize size => do Executor.setAgentSize (AgentSize.ofData size); return .nothing
  | .look => return .robot (← Executor.look).robot
  | .fail fault => throw fault

/-- Makes a call for its effects. -/
def makeQuietly (o : Observers R (Journal R)) (c : Call R) : Operation R (Journal R) Unit := do
  let _ ← make o c

/-- The observers of a script. -/
def observers (clock : Journal R → R) (reactions : List (Reaction (Call R))) :
    Observers R (Journal R) :=
  Journal.scripted journal clock makeQuietly reactions reactions.length

end Call

end RobotBlocks
