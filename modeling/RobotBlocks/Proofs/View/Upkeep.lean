import RobotBlocks.Proofs.Simulation.Memory
import RobotBlocks.View.Window

/-!
# What a window keeps up

Most of what a window does concerns its texts, the log and the program. An invariant of a window with
its controller and executor that asks about none of these (`Face`) and is kept by showing the phase and
by the operations of the executor (`Upkept`) is kept by every action but for a reset, the slider and
those that bring other surroundings (`Upkept.run`, `Upkept.elapse` and so on).
-/

namespace RobotBlocks

/-! ## What the viewer does to the viewport -/

namespace Viewport

variable {R α β : Type}

/-- What the host has pushed into a viewport: the robot, its size and the obstacles. -/
def pushed (v : Viewport R) : Robot R × List R × List (Obstacle R) :=
  (v.robot, v.agentSize, v.obstacles)

/-- The operation leaves what was pushed in alone, if it succeeds. -/
def Looks (m : EStateM Fault (Viewport R) α) : Prop :=
  ∀ v a v', m v = .ok a v' → pushed v' = pushed v

theorem Looks.bind {m : EStateM Fault (Viewport R) α} {f : α → EStateM Fault (Viewport R) β}
    (hm : Looks m) (hf : ∀ a, Looks (f a)) : Looks (m >>= f) := by
  intro v b v' h
  simp only [Bind.bind, EStateM.bind] at h
  split at h
  next a v'' hrun => exact (hf a v'' b v' h).trans (hm v a v'' hrun)
  · cases h

theorem looks_pure (a : α) : Looks (R := R) (pure a) := by
  rintro v _ _ ⟨⟩
  rfl

theorem looks_get : Looks (R := R) get := by
  rintro v _ _ ⟨⟩
  rfl

theorem looks_modify {f : Viewport R → Viewport R} (hf : ∀ v, pushed (f v) = pushed v) :
    Looks (modify f) := by
  rintro v _ _ ⟨⟩
  exact hf v

theorem looks_ofExcept (value : Except Fault α) : Looks (R := R) (MonadExcept.ofExcept value) := by
  cases value with
  | ok a => exact looks_pure a
  | error fault => exact fun _ _ _ h => nomatch h

theorem looks_orbit (p : Pixel) : Looks (R := R) (orbit p) :=
  .bind looks_get fun _ => .bind (looks_ofExcept _) fun _ => .bind (looks_modify fun _ => rfl)
    fun _ => .bind (looks_ofExcept _) fun _ => looks_modify fun _ => rfl

theorem looks_drag (p : Pixel) (leading : Bool) : Looks (R := R) (drag p leading) := by
  cases leading with
  | false => exact looks_modify fun _ => rfl
  | true => exact .bind (looks_orbit p) fun _ => looks_modify fun _ => rfl

theorem looks_wheel [Scalar R] (amount : Int) : Looks (R := R) (wheel amount) :=
  .bind (looks_ofExcept _) fun _ => looks_modify fun _ => rfl

/-- **Whatever the viewer does** changes nothing that was pushed in. -/
theorem looks_make [Scalar R] (c : ViewCall) : Looks (R := R) c.make := by
  cases c with
  | prepare => exact looks_pure _
  | resize width height => exact looks_ofExcept _
  | paint => exact .bind looks_get fun _ => looks_ofExcept _
  | press p => exact .bind (looks_modify fun _ => rfl) fun _ => looks_pure _
  | drag p leading => exact .bind (looks_drag p leading) fun _ => looks_pure _
  | wheel amount => exact .bind (looks_wheel amount) fun _ => looks_pure _

end Viewport

/-! ## Invariants that a window keeps up -/

/-- What shows of a window with its controller and executor, but for texts. -/
structure Face (R : Type) where
  executor : Executor R
  agent : Config R
  obstacles : List (Obstacle R)
  pushed : Robot R × List R × List (Obstacle R)
  slider : Int
  selected : Option ℕ
  pauseButton : String
  status : String

namespace Window

variable {R α β : Type}

/-- The face of a window. -/
def face (h : WindowHost R) : Face R where
  executor := h.executor
  agent := h.memory.config
  obstacles := h.memory.obstacles
  pushed := h.memory.memory.viewport.pushed
  slider := h.memory.memory.slider
  selected := h.memory.memory.selected
  pauseButton := h.memory.memory.pauseButton
  status := h.memory.memory.status

/-- The action leads from where `P` holds to where `Q` holds, if it succeeds. -/
abbrev Brings (P Q : WindowHost R → Prop) (m : Action R α) : Prop :=
  Triple P m (fun _ => Q) fun _ => True

section

variable {J : WindowHost R → Prop}

theorem brings_pure (a : α) : Brings J J (pure a) := fun _ h => h

theorem brings_throw (fault : Fault) : Brings J J (throw fault : Action R α) := fun _ _ => trivial

/-- Looking at the host does not change it. -/
theorem brings_get_bind {f : WindowHost R → α} {k : α → Action R β}
    (hk : ∀ a, Brings J J (k a)) : Brings J J ((do return f (← get) : Action R α) >>= k) :=
  fun h => hk _ h

/-- What can fail fails, or leads on with what was read. -/
theorem brings_orFail {P Q : WindowHost R → Prop} {value : Except Fault α} {k : α → Action R β}
    (hk : ∀ a, value = .ok a → Brings P Q (k a)) : Brings P Q (Executor.orFail value >>= k) := by
  rcases value with fault | a
  · exact fun _ _ => trivial
  · exact hk a rfl

end

variable [Scalar R] {J : WindowHost R → Prop}

/-- The invariant asks about the face of the window alone, and is kept by showing the phase and by what
a host of an executor can do during a run. -/
structure Upkept (J : WindowHost R → Prop) : Prop where
  congr : ∀ {h h' : WindowHost R}, face h' = face h → J h → J h'
  updateStatus : Brings J J updateStatus
  execute : ∀ items, Brings J J (Executor.execute (Controller.observing listener) items)
  tick : Brings J J (Executor.tick (Controller.observing listener) none)
  pause : Brings J J (Executor.pause (Controller.observing listener))
  resume : Brings J J (Executor.resume (Controller.observing listener))
  stop : Brings J J (Executor.stop (Controller.observing listener))

namespace Upkept

variable (hJ : Upkept J)
include hJ

/-! ## Parts of actions -/

/-- A change that the face does not show. -/
theorem beside {f : WindowHost R → WindowHost R} (hf : ∀ h, face (f h) = face h) :
    Brings J J (modify f : Action R PUnit) := fun h => hJ.congr (hf h)

theorem note (level : Log.Level) (message : Text) : Brings J J (Window.note level message) :=
  hJ.beside fun _ => rfl

theorem print (text : String) : Brings J J (Window.print text) := hJ.beside fun _ => rfl

theorem noteAll (ds : List Diagnostic) :
    Brings J J (ds.forM fun d => Window.note .warning d.text) := by
  induction ds with
  | nil => exact brings_pure _
  | cons d ds ih => exact .bind (hJ.note _ _) fun _ => ih

theorem changeStatistics (text : Window R → String) :
    Brings J J (change fun w => { w with statistics := text w }) := hJ.beside fun _ => rfl

theorem changeWarnings (text : Window R → Text) :
    Brings J J (change fun w => { w with warnings := text w }) := hJ.beside fun _ => rfl

theorem showWarnings : Brings J J Window.showWarnings := hJ.changeWarnings _

/-! ## Programs -/

theorem compile : Brings J J (Controller.compile listener) := by
  refine brings_get_bind fun d => ?_
  split
  · exact .bind (hJ.beside fun _ => rfl) fun _ => brings_throw _
  · exact .bind (hJ.beside fun _ => rfl) fun _ => .bind (hJ.noteAll _) fun _ => brings_pure _

theorem renewBuild : Brings J J Window.renewBuild := by
  refine brings_get_bind fun d => .bind (brings_get_bind fun _ => brings_pure _) fun w => ?_
  split
  · exact .bind (hJ.beside fun _ => rfl) fun _ => brings_throw _
  · exact .bind (hJ.beside fun _ => rfl) fun _ => hJ.noteAll _

theorem processProgram : Brings J J Window.processProgram :=
  .bind hJ.renewBuild fun _ => .bind (hJ.beside fun _ => rfl) fun _ =>
    .bind hJ.showWarnings fun _ => hJ.changeStatistics _

/-! ## Actions -/

theorem controllerRun : Brings J J (Controller.run listener none) :=
  .bind hJ.compile fun _ => .bind (hJ.beside fun _ => rfl) fun _ => .bind (hJ.execute _) fun _ =>
    brings_get_bind fun _ => brings_pure _

theorem run : Brings J J Window.run :=
  .bind (hJ.beside fun _ => rfl) fun _ => .bind hJ.controllerRun fun _ =>
    .bind hJ.showWarnings fun _ => .bind (hJ.print _) fun _ => hJ.updateStatus

theorem togglePause : Brings J J Window.togglePause :=
  .bind (brings_get_bind fun _ => .ite (fun _ => hJ.resume) fun _ => hJ.pause) fun _ => hJ.updateStatus

theorem stopped : Brings J J Window.stop :=
  .bind hJ.stop fun _ => .bind (hJ.print _) fun _ => hJ.updateStatus

theorem check (option : ViewOption) (on : Bool) : Brings J J (Window.check option on) :=
  .bind (brings_get_bind fun _ => brings_pure _) fun _ => .ite
    (fun _ => .bind (hJ.beside fun _ => rfl) fun _ => hJ.beside fun _ => rfl) fun _ => brings_pure _

/-- Ticks keep the invariant, however many there are. -/
theorem elapse (dt : R) (untilIdle : Bool) (most : ℕ) :
    Brings J J (Window.elapse dt untilIdle most) := by
  induction most with
  | zero => exact brings_pure _
  | succ most ih =>
    exact brings_get_bind fun _ => .ite (fun _ => brings_pure _) fun _ => .bind (hJ.beside fun _ => rfl)
      fun _ => .bind hJ.tick fun _ => .bind ih fun _ => brings_pure _

/-- So does what happens to the viewport. -/
theorem view (c : ViewCall) : Brings J J (WindowCall.make (.view c)) := by
  refine .bind (Q := fun w h => w = h.memory.memory ∧ J h) (fun _ h => ⟨rfl, h⟩) fun w => ?_
  split
  next picture viewport hrun =>
    rintro h ⟨rfl, hh⟩
    have hface : face { h with memory.memory.viewport := viewport } = face h := by
      rw [face, Viewport.looks_make c _ _ _ hrun]
      rfl
    exact hJ.congr hface hh
  · exact .bind (Q := fun _ _ => True) (fun _ _ => trivial) fun _ _ _ => trivial

end Upkept

end Window

end RobotBlocks
