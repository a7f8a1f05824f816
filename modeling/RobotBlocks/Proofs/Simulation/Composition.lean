import RobotBlocks.Proofs.Simulation.Requests

/-!
# What operations are composed of

An operation of an executor looks at it, changes it, reads the clock, takes records down, calls its
observers and perhaps fails; it does nothing else. `Composed o allowed` is the class of operations
that are put together from such parts, with changes that are allowed, and `Composed.keeps` says what
follows: whatever a host has that allowed changes, records and observers keep, the operation keeps.

Most changes leave the settings of the executor alone (`Spares`): its configuration and scene, the
initial state and the speed. Of the operations below only a reset and setting the speed change any.
-/

namespace RobotBlocks

/-- What a run depends on but does not decide. -/
structure RunSettings (R : Type) where
  config : Config R
  scene : Scene R
  initial : Robot R
  speed : R

namespace Executor

variable {R μ α β : Type}

/-- The operation is put together from looks at the executor, changes that are allowed, readings of
the clock, records, calls of the observers and failures. -/
inductive Composed (o : Observers R μ) (allowed : (Executor R → Executor R) → Prop) :
    {α : Type} → Operation R μ α → Prop
  | pure {α : Type} (a : α) : Composed o allowed (pure a)
  | throw {α : Type} (fault : Fault) : Composed o allowed (throw fault : Operation R μ α)
  | bind {α β : Type} {m : Operation R μ α} {f : α → Operation R μ β} (hm : Composed o allowed m)
    (hf : ∀ a, Composed o allowed (f a)) : Composed o allowed (m >>= f)
  | look : Composed o allowed look
  | change {f : Executor R → Executor R} (hf : allowed f) : Composed o allowed (change f)
  | now : Composed o allowed (now o)
  | note (level : Log.Level) (message : Text) : Composed o allowed (note o level message)
  | stateChanged (s : Robot R) : Composed o allowed (o.stateChanged s)
  | completed (c : Command R) : Composed o allowed (o.completed c)

/-- The settings of the executor. -/
def settings (e : Executor R) : RunSettings R := ⟨e.config, e.scene, e.initial, e.speed⟩

/-- The change leaves the settings alone. -/
def Spares (f : Executor R → Executor R) : Prop := ∀ e, (f e).settings = e.settings

namespace Composed

variable {o : Observers R μ} {allowed : (Executor R → Executor R) → Prop}

theorem orFail (value : Except Fault α) : Composed o allowed (orFail value) := by
  cases value with
  | ok a => exact .pure a
  | error fault => exact .throw fault

theorem ite {c : Prop} [Decidable c] {m m' : Operation R μ α} (hm : Composed o allowed m)
    (hm' : Composed o allowed m') : Composed o allowed (if c then m else m') := by
  split
  · exact hm
  · exact hm'

theorem emitState : Composed o allowed (emitState o) := .bind .look fun e => .stateChanged e.robot

/-- **What the parts keep, the whole keeps.** -/
theorem keeps {m : Operation R μ α} (h : Composed o allowed m) {P : Host R μ → Prop}
    (hchange : ∀ f, allowed f → ∀ x, P x → P { x with executor := f x.executor })
    (hnote : ∀ entry x, P x → P { x with memory := o.note entry x.memory })
    (hstate : ∀ s, Triple P (o.stateChanged s) (fun _ => P) P)
    (hcompleted : ∀ c, Triple P (o.completed c) (fun _ => P) P) : Triple P m (fun _ => P) P := by
  induction h with
  | pure a => exact .pure fun _ hx => hx
  | throw fault => exact .throw fun _ hx => hx
  | bind _ _ ihm ihf => exact .bind ihm ihf
  | look | now => exact fun _ hx => hx
  | change hf => exact fun x hx => hchange _ hf x hx
  | note level message => exact fun x hx => hnote _ x hx
  | stateChanged s => exact hstate s
  | completed c => exact hcompleted c

end Composed

/-! ## The operations -/

section Operations

variable {o : Observers R μ} {allowed : (Executor R → Executor R) → Prop}

theorem composed_reset
    (h : allowed fun e => { e.idle with robot := e.initial, speed := e.initial.speed }) :
    Composed o allowed (reset o) := .bind (.change h) fun _ => .emitState

variable (h : ∀ f : Executor R → Executor R, Spares f → allowed f)
include h

theorem composed_pause : Composed o allowed (pause o) :=
  .bind .look fun _ => .ite
    (.bind (.change (h _ fun _ => rfl)) fun _ =>
      .bind .look fun _ => .bind (.note _ _) fun _ => .emitState)
    (.pure _)

theorem composed_stop : Composed o allowed (stop o) :=
  .bind (.change (h _ fun _ => rfl)) fun _ => .emitState

variable [Scalar R]

theorem composed_startNext (time : R) : Composed o allowed (startNext o time) := by
  have hpop : ∀ rest : List (Command R), allowed fun e => { e with queue := rest } := fun _ =>
    h _ fun _ => rfl
  refine .bind .look fun e => ?_
  split
  · exact .bind (.change (h _ fun _ => rfl)) fun _ =>
      .bind (.note _ _) fun _ => .emitState
  · exact .bind (.change (hpop _)) fun _ => .bind .look fun _ => .bind (.orFail _) fun _ =>
      .bind (.change (h _ fun _ => rfl)) fun _ => .emitState

theorem composed_complete (f : Flight R) (time : R) : Composed o allowed (complete o f time) :=
  .bind (.change (h _ fun _ => rfl)) fun _ =>
    .bind (.completed _) fun _ => .bind .look fun _ => .ite (composed_startNext h time) (.pure _)

theorem composed_advance (f : Flight R) (progress : R) :
    Composed o allowed (advance o f progress) := by
  have hplace : ∀ p : Point R, allowed fun e => { e with robot := e.robot.placeAt p } := fun _ =>
    h _ fun _ => rfl
  refine .bind .look fun e => .bind (.orFail _) fun contact? => ?_
  cases contact? with
  | none => exact .bind (.change (hplace _)) fun _ => .bind .emitState fun _ => .pure _
  | some contact =>
    exact .bind (.change (hplace _)) fun _ => .bind (.note _ _) fun _ =>
      .bind .emitState fun _ => .pure _

theorem composed_tick (time? : Option R) : Composed o allowed (tick o time?) := by
  refine .bind .look fun e => ?_
  split
  next f _ _ =>
    refine .bind .now fun now => ?_
    have hend : ∀ progress : R, Composed o allowed (if Scalar.ofNat 1 ≤ progress then
        (Executor.look >>= fun e =>
          if e.isInFlight f then complete o f (time?.getD now) else pure ())
        else pure ()) := fun progress =>
      .ite (.bind .look fun _ => .ite (composed_complete h f _) (.pure _)) (.pure _)
    have hturn : ∀ progress : R, Composed o allowed (rotate o f progress) := fun _ =>
      .bind (.change (h _ fun _ => rfl)) fun _ =>
        .emitState
    exact .ite (.bind (composed_advance h f _) hend) (.ite
      (.bind (hturn _) fun _ => .bind (.pure _) hend) (.bind (.pure _) hend))
  · exact .pure _

theorem composed_execute (items : List (Submission R)) : Composed o allowed (execute o items) := by
  have hload : ∀ commands : List (Command R), allowed fun e =>
      { e with queue := commands, flight := none, phase := .running } := fun _ =>
    h _ fun _ => rfl
  refine .bind (.orFail _) fun commands => .bind .look fun e => ?_
  have hrun : Composed o allowed (do
      Executor.change fun e => { e with queue := commands, flight := none, phase := .running }
      Executor.note o .info ("Executing " ++ natText commands.length ++ " commands at speed " ++
        Float.generalText (Scalar.toFloat (← Executor.look).speed))
      startNext o (← Executor.now o)) :=
    .bind (.change (hload _)) fun _ => .bind .look fun _ => .bind (.note _ _) fun _ =>
      .bind .now fun time => composed_startNext h time
  exact .ite (.bind (.note _ _) fun _ => hrun) hrun

theorem composed_resume : Composed o allowed (resume o) :=
  .bind .look fun _ => .ite
    (.bind (.change (h _ fun _ => rfl)) fun _ =>
      .bind (.note _ _) fun _ => .bind .now fun time => composed_startNext h time)
    (.pure _)

omit h in
theorem composed_setSpeed (h : ∀ speed : R, allowed fun e => { e with speed, robot.speed := speed })
    (value : R) : Composed o allowed (setSpeed o value) :=
  .ite (.bind (.note _ _) fun _ => .bind .look fun _ => .pure _)
    (.bind .look fun _ => .bind (.change (h _)) fun _ => .bind .emitState fun _ =>
      .bind .look fun _ => .pure _)

end Operations

end Executor

end RobotBlocks
