import RobotBlocks.Proofs.Simulation.Requests

/-!
# Observers with a chronicle

What an executor makes known is a list of entries: commands that are reported as complete, commands
that are dropped, and the executor as someone could see it. Any observers can be given a chronicle
in which they enter what they are told (`Observers.recorded`); it lies beside their own memory, and
requests made with it do what they do without it (`make_recorded`), so `Request.told` speaks about
the requests as they are made.

Observers that only watch (`Observers.Passive`) may do anything to their memory, but leave the
executor alone.
-/

namespace RobotBlocks

variable {R μ α β : Type}

/-- What can be known about the work of an executor. -/
inductive Entry (R : Type)
  /-- A command was reported as complete. -/
  | reported (c : Command R)
  /-- A command in flight was dropped. -/
  | dropped (c : Command R)
  /-- The executor as its host or an observer could see it. -/
  | seen (e : Executor R)

namespace Entry

/-- The command that left the executor, complete or not. -/
def left? : Entry R → Option (Command R)
  | reported c | dropped c => some c
  | seen _ => none

/-- The command that was reported as complete. -/
def reported? : Entry R → Option (Command R)
  | reported c => some c
  | dropped _ | seen _ => none

end Entry

/-! ## Giving observers a chronicle -/

/-- The host with a chronicle beside its memory. -/
def Host.withChronicle (h : Host R μ) (entries : List (Entry R)) : Host R (μ × List (Entry R)) :=
  ⟨h.executor, h.memory, entries⟩

/-- The result of an operation with a chronicle beside the memory. -/
def withChronicle (entries : List (Entry R)) :
    EStateM.Result Fault (Host R μ) α → EStateM.Result Fault (Host R (μ × List (Entry R))) α
  | .ok a h => .ok a (h.withChronicle entries)
  | .error fault h => .error fault (h.withChronicle entries)

/-- The operation on hosts that have a chronicle, which it leaves alone. -/
def beside (m : Operation R μ α) : Operation R (μ × List (Entry R)) α := fun h =>
  withChronicle h.memory.2 (m ⟨h.executor, h.memory.1⟩)

/-- Makes an entry. -/
def enter (entry : Entry R) : Operation R (μ × List (Entry R)) Unit :=
  modify fun h => { h with memory := (h.memory.1, h.memory.2 ++ [entry]) }

/-- Enters the executor as it is. -/
def enterSeen : Operation R (μ × List (Entry R)) Unit := do
  enter (.seen (← Executor.look))

/-- The observers with a chronicle in which they enter what they are told. -/
def Observers.recorded (o : Observers R μ) : Observers R (μ × List (Entry R)) where
  clock memory := o.clock memory.1
  note entry memory := (o.note entry memory.1, memory.2)
  stateChanged s := do
    enterSeen
    beside (o.stateChanged s)
  completed c := do
    enter (.reported c)
    enterSeen
    beside (o.completed c)

/-- What observers are told while a request is made. -/
def Request.told [Scalar R] (o : Observers R μ) (r : Request R) (h : Host R μ) : List (Entry R) :=
  match r.make o.recorded (h.withChronicle []) with
  | .ok _ h' | .error _ h' => h'.memory.2

/-! ## A chronicle changes nothing -/

/-- With a chronicle the operation does what it does without, and makes some entries. -/
def Mirrors (m' : Operation R (μ × List (Entry R)) α) (m : Operation R μ α) : Prop :=
  ∀ h entries, ∃ entries', m' (h.withChronicle entries) = withChronicle entries' (m h)

namespace Mirrors

open Executor

theorem pure (a : α) : Mirrors (pure a : Operation R (μ × List (Entry R)) α) (pure a) :=
  fun _ entries => ⟨entries, rfl⟩

theorem bind {m' : Operation R (μ × List (Entry R)) α} {m : Operation R μ α}
    {f' : α → Operation R (μ × List (Entry R)) β} {f : α → Operation R μ β} (hm : Mirrors m' m)
    (hf : ∀ a, Mirrors (f' a) (f a)) : Mirrors (m' >>= f') (m >>= f) := by
  intro h entries
  obtain ⟨between, hbetween⟩ := hm h entries
  simp only [Bind.bind, EStateM.bind, hbetween]
  rcases m h with ⟨a, h'⟩ | ⟨fault, h'⟩
  · exact hf a h' between
  · exact ⟨between, rfl⟩

theorem ite {c : Prop} [Decidable c] {m' n' : Operation R (μ × List (Entry R)) α}
    {m n : Operation R μ α} (hm : Mirrors m' m) (hn : Mirrors n' n) :
    Mirrors (if c then m' else n') (if c then m else n) := by
  split
  · exact hm
  · exact hn

theorem look : Mirrors (look : Operation R (μ × List (Entry R)) (Executor R)) look :=
  fun _ entries => ⟨entries, rfl⟩

theorem change (f : Executor R → Executor R) :
    Mirrors (change f : Operation R (μ × List (Entry R)) Unit) (change f) :=
  fun _ entries => ⟨entries, rfl⟩

theorem orFail (value : Except Fault α) :
    Mirrors (orFail value : Operation R (μ × List (Entry R)) α) (orFail value) := by
  intro h entries
  cases value <;> exact ⟨entries, rfl⟩

variable (o : Observers R μ)

theorem note (level : Log.Level) (message : Text) :
    Mirrors (note o.recorded level message) (note o level message) :=
  fun _ entries => ⟨entries, rfl⟩

theorem now : Mirrors (now o.recorded) (now o) := fun _ entries => ⟨entries, rfl⟩

theorem emitState : Mirrors (emitState o.recorded) (emitState o) :=
  bind look fun _ h entries => ⟨entries ++ [.seen h.executor], rfl⟩

theorem completed (c : Command R) : Mirrors (o.recorded.completed c) (o.completed c) :=
  fun h entries => ⟨entries ++ [.reported c] ++ [.seen h.executor], rfl⟩

theorem pause : Mirrors (pause o.recorded) (pause o) :=
  .bind .look fun _ => .ite (.bind (.change _) fun _ => .bind .look fun _ =>
    .bind (.note o _ _) fun _ => .emitState o) (.pure _)

theorem stop : Mirrors (stop o.recorded) (stop o) := .bind (.change _) fun _ => .emitState o

theorem reset : Mirrors (reset o.recorded) (reset o) := .bind (.change _) fun _ => .emitState o

theorem setInitial (height heading : Option R) :
    Mirrors (setInitial o.recorded height heading) (setInitial o height heading) :=
  .bind (.change _) fun _ => .reset o

theorem setObstacles (obstacles : List (Obstacle R)) :
    Mirrors (setObstacles obstacles : Operation R (μ × List (Entry R)) Unit)
      (setObstacles obstacles) := .change _

theorem setAgentSize (size : Except Fault (AgentSize R)) :
    Mirrors (setAgentSize size : Operation R (μ × List (Entry R)) Unit) (setAgentSize size) :=
  .bind (.orFail _) fun _ => .change _

variable [Scalar R]

theorem startNext (time : R) : Mirrors (startNext o.recorded time) (startNext o time) := by
  refine .bind .look fun e => ?_
  rcases e.queue with _ | ⟨c, rest⟩
  · exact .bind (.change _) fun _ => .bind (.note o _ _) fun _ => .emitState o
  · exact .bind (.change _) fun _ => .bind .look fun _ => .bind (.orFail _) fun _ =>
      .bind (.change _) fun _ => .emitState o

theorem complete (f : Flight R) (time : R) :
    Mirrors (complete o.recorded f time) (complete o f time) :=
  .bind (.change _) fun _ => .bind (.completed o _) fun _ => .bind .look fun _ =>
    .ite (.startNext o time) (.pure _)

theorem advance (f : Flight R) (progress : R) :
    Mirrors (advance o.recorded f progress) (advance o f progress) := by
  refine .bind .look fun e => .bind (.orFail _) fun contact? => ?_
  cases contact? with
  | none => exact .bind (.change _) fun _ => .bind (.emitState o) fun _ => .pure _
  | some contact =>
    exact .bind (.change _) fun _ => .bind (.note o _ _) fun _ => .bind (.emitState o) fun _ =>
      .pure _

theorem rotate (f : Flight R) (progress : R) :
    Mirrors (rotate o.recorded f progress) (rotate o f progress) :=
  .bind (.change _) fun _ => .emitState o

theorem tick (time? : Option R) : Mirrors (tick o.recorded time?) (tick o time?) := by
  refine .bind .look fun e => ?_
  split
  · refine .bind (.now o) fun _ => ?_
    have hend : ∀ (f : Flight R) (time progress : R), Mirrors
        (if Scalar.ofNat 1 ≤ progress then
          (Executor.look >>= fun e =>
            if e.isInFlight f then Executor.complete o.recorded f time else Pure.pure ())
          else Pure.pure ())
        (if Scalar.ofNat 1 ≤ progress then
          (Executor.look >>= fun e =>
            if e.isInFlight f then Executor.complete o f time else Pure.pure ())
          else Pure.pure ()) := fun f time _ =>
      .ite (.bind .look fun _ => .ite (.complete o f time) (.pure _)) (.pure _)
    exact .ite (.bind (.advance o _ _) fun _ => hend _ _ _)
      (.ite (.bind (.rotate o _ _) fun _ => .bind (.pure _) fun _ => hend _ _ _)
        (.bind (.pure _) fun _ => hend _ _ _))
  · exact .pure _

theorem execute (items : List (Submission R)) :
    Mirrors (execute o.recorded items) (execute o items) := by
  refine .bind (.orFail _) fun _ => .bind .look fun _ => ?_
  have hrest : ∀ commands : List (Command R), Mirrors
      (do
        Executor.change fun e => { e with queue := commands, flight := none, phase := .running }
        Executor.note o.recorded .info ("Executing " ++ natText commands.length ++
          " commands at speed " ++ Float.generalText (Scalar.toFloat (← Executor.look).speed))
        Executor.startNext o.recorded (← Executor.now o.recorded))
      (do
        Executor.change fun e => { e with queue := commands, flight := none, phase := .running }
        Executor.note o .info ("Executing " ++ natText commands.length ++
          " commands at speed " ++ Float.generalText (Scalar.toFloat (← Executor.look).speed))
        Executor.startNext o (← Executor.now o)) := fun _ =>
    .bind (.change _) fun _ => .bind .look fun _ => .bind (.note o _ _) fun _ =>
      .bind (.now o) fun _ => .startNext o _
  exact .ite (.bind (.note o _ _) fun _ => hrest _) (hrest _)

theorem resume : Mirrors (resume o.recorded) (resume o) :=
  .bind .look fun _ => .ite (.bind (.change _) fun _ => .bind (.note o _ _) fun _ =>
    .bind (.now o) fun _ => .startNext o _) (.pure _)

theorem setSpeed (value : R) : Mirrors (setSpeed o.recorded value) (setSpeed o value) :=
  .ite (.bind (.note o _ _) fun _ => .bind .look fun _ => .pure _)
    (.bind .look fun _ => .bind (.change _) fun _ => .bind (.emitState o) fun _ =>
      .bind .look fun _ => .pure _)

theorem setSpeedData (value : Data) :
    Mirrors (setSpeedData o.recorded value) (setSpeedData o value) := by
  unfold Executor.setSpeedData
  split
  · exact .setSpeed o _
  · exact fun _ entries => ⟨entries, rfl⟩
  · exact .bind (.note o _ _) fun _ => .bind .look fun _ => .pure _

theorem make (r : Request R) : Mirrors (r.make o.recorded) (r.make o) := by
  cases r with
  | execute items => exact .bind (.execute o items) fun _ => .pure _
  | tick time? => exact .bind (.tick o time?) fun _ => .pure _
  | pause => exact .bind (.pause o) fun _ => .pure _
  | resume => exact .bind (.resume o) fun _ => .pure _
  | stop => exact .bind (.stop o) fun _ => .pure _
  | reset => exact .bind (.reset o) fun _ => .pure _
  | setInitial height heading => exact .bind (.setInitial o height heading) fun _ => .pure _
  | setSpeed value => exact .bind (.setSpeed o value) fun _ => .pure _
  | setSpeedData value => exact .bind (.setSpeedData o value) fun _ => .pure _
  | setObstacles obstacles => exact .bind (.setObstacles obstacles) fun _ => .pure _
  | setAgentSize size => exact .bind (.setAgentSize size) fun _ => .pure _

end Mirrors

/-- **A request made with a chronicle** does what it does without, and enters what observers are
told. -/
theorem make_recorded [Scalar R] (o : Observers R μ) (r : Request R) (h : Host R μ) :
    r.make o.recorded (h.withChronicle []) = withChronicle (r.told o h) (r.make o h) := by
  obtain ⟨entries, hentries⟩ := Mirrors.make o r h []
  have htold : r.told o h = entries := by
    unfold Request.told
    rw [hentries]
    rcases r.make o h with ⟨a, h'⟩ | ⟨fault, h'⟩ <;> rfl
  rw [htold, hentries]

end RobotBlocks
