import RobotBlocks.Proofs.View.Agreement

/-!
# The window mirrors its controller

The window learns of the robot and of the phase of the executor when it is shown the robot, and at the
end of most actions it reads the phase again. An operation of the executor may change them in the
middle; what matters is that it shows the robot behind its last change.

* `Refreshes m`: wherever the action starts, the window mirrors the executor behind it. Whatever shows
  the robot does (`refreshes_emitState`), so starting the next command does, or ending the run, and a
  reset.
* `Mirrors` is kept up by the other operations (`upkept_mirrors`): they leave robot and phase alone, or
  lead to one that refreshes the window.
* `mirrors_controller`: with the agreement on agent, obstacles and speed this is what the window shows
  of its controller at every moment between calls.
-/

namespace RobotBlocks

namespace Window

open Executor (emitState startNext)

variable {R α β : Type}

/-- The window shows the robot and the phase of the executor. -/
structure Mirrors (h : WindowHost R) : Prop where
  robot : h.memory.memory.viewport.robot = h.executor.robot
  pauseButton : h.memory.memory.pauseButton = pauseButtonOf h.executor.phase
  status : h.memory.memory.status = statusOf h.executor.phase

/-- Wherever the action starts, the window mirrors the executor behind it. -/
abbrev Refreshes (m : Action R α) : Prop := Brings (fun _ => True) Mirrors m

/-- The window still mirrors the executor behind the action. -/
abbrev Reflects (m : Action R α) : Prop := Brings Mirrors Mirrors m

/-! ## Rules -/

/-- What comes before a part that refreshes the window does not matter. -/
theorem refreshes_behind {m : Action R α} {f : α → Action R β} (hf : ∀ a, Refreshes (f a)) :
    Refreshes (m >>= f) :=
  .bind (Q := fun _ _ => True) (.of_cases (fun _ _ _ _ _ => trivial) fun _ _ _ _ _ => trivial) hf

theorem Refreshes.reflects {m : Action R α} (h : Refreshes m) : Reflects m :=
  h.mono (fun _ _ => trivial) fun _ _ h => h

/-- A change of the executor that leaves robot and phase alone. -/
theorem reflects_change {f : Executor R → Executor R}
    (hf : ∀ e, (f e).robot = e.robot ∧ (f e).phase = e.phase) :
    Reflects (Executor.change f : Action R Unit) := by
  intro h hh
  obtain ⟨hrobot, hphase⟩ := hf h.executor
  refine ⟨hh.robot.trans hrobot.symm, ?_, ?_⟩
  · show _ = pauseButtonOf (f h.executor).phase
    rw [hphase]
    exact hh.pauseButton
  · show _ = statusOf (f h.executor).phase
    rw [hphase]
    exact hh.status

variable [Scalar R]

/-! ## The executor -/

/-- **Showing the robot** shows the phase, too. -/
theorem refreshes_emitState :
    Refreshes (R := R) (Executor.emitState (Controller.observing listener)) :=
  fun _ _ => ⟨rfl, rfl, rfl⟩

/-- Setting the next command in flight shows the robot last, and so does ending the run. -/
theorem refreshes_startNext (time : R) :
    Refreshes (Executor.startNext (Controller.observing listener) time) := by
  refine refreshes_behind fun e => ?_
  split
  · exact refreshes_behind fun _ => refreshes_behind fun _ => refreshes_emitState
  · exact refreshes_behind fun _ => refreshes_behind fun _ => refreshes_behind fun _ =>
      refreshes_behind fun _ => refreshes_emitState

/-- The report of a command is not about the robot. -/
theorem reflects_completed (c : Command R) :
    Reflects ((Controller.observing listener).completed c) :=
  fun _ h => ⟨h.robot, h.pauseButton, h.status⟩

theorem reflects_complete (f : Flight R) (time : R) :
    Reflects (Executor.complete (Controller.observing listener) f time) :=
  .bind (reflects_change fun _ => ⟨rfl, rfl⟩) fun _ => .bind (reflects_completed _) fun _ =>
    brings_get_bind fun _ => .ite (fun _ => (refreshes_startNext time).reflects) fun _ =>
      brings_pure _

theorem refreshes_advance (f : Flight R) (progress : R) :
    Refreshes (Executor.advance (Controller.observing listener) f progress) := by
  refine refreshes_behind fun e => refreshes_behind fun contact? => ?_
  cases contact? with
  | none => exact refreshes_behind fun _ => .bind refreshes_emitState fun _ => brings_pure _
  | some contact =>
    exact refreshes_behind fun _ => refreshes_behind fun _ =>
      .bind refreshes_emitState fun _ => brings_pure _

theorem reflects_tick : Reflects (R := R) (Executor.tick (Controller.observing listener) none) := by
  refine brings_get_bind fun e => ?_
  split
  next f _ _ =>
    refine brings_get_bind fun time => ?_
    have hend : ∀ progress : R, Reflects (if Scalar.ofNat 1 ≤ progress then
        (Executor.look >>= fun e => if e.isInFlight f then
          Executor.complete (Controller.observing listener) f time else pure ())
        else pure ()) := fun progress =>
      .ite (fun _ => brings_get_bind fun _ => .ite (fun _ => reflects_complete f _) fun _ =>
        brings_pure _) fun _ => brings_pure _
    have hturn : ∀ progress : R,
        Reflects (Executor.rotate (Controller.observing listener) f progress) := fun _ =>
      (refreshes_behind fun _ => refreshes_emitState).reflects
    exact .ite (fun _ => .bind (refreshes_advance f _).reflects hend) fun _ =>
      .ite (fun _ => .bind (hturn _) fun _ => .bind (brings_pure _) hend) fun _ =>
        .bind (brings_pure _) hend
  · exact brings_pure _

theorem refreshes_execute (items : List (Submission R)) :
    Refreshes (Executor.execute (Controller.observing listener) items) := by
  refine refreshes_behind fun commands => refreshes_behind fun e => ?_
  have hrun : Refreshes (R := R) (do
      Executor.change fun e => { e with queue := commands, flight := none, phase := .running }
      Executor.note (Controller.observing listener) .info ("Executing " ++ natText commands.length ++
        " commands at speed " ++ Float.generalText (Scalar.toFloat (← Executor.look).speed))
      Executor.startNext (Controller.observing listener)
        (← Executor.now (Controller.observing listener))) :=
    refreshes_behind fun _ => refreshes_behind fun _ => refreshes_behind fun _ =>
      refreshes_behind fun time => refreshes_startNext time
  exact .ite (fun _ => refreshes_behind fun _ => hrun) fun _ => hrun

theorem reflects_pause : Reflects (R := R) (Executor.pause (Controller.observing listener)) :=
  brings_get_bind fun _ => .ite
    (fun _ => (refreshes_behind fun _ => refreshes_behind fun _ => refreshes_behind fun _ =>
      refreshes_emitState).reflects) fun _ => brings_pure _

theorem reflects_resume : Reflects (R := R) (Executor.resume (Controller.observing listener)) :=
  brings_get_bind fun _ => .ite
    (fun _ => (refreshes_behind fun _ => refreshes_behind fun _ => refreshes_behind fun time =>
      refreshes_startNext time).reflects) fun _ => brings_pure _

theorem refreshes_stop : Refreshes (R := R) (Executor.stop (Controller.observing listener)) :=
  refreshes_behind fun _ => refreshes_emitState

theorem refreshes_reset : Refreshes (R := R) (Executor.reset (Controller.observing listener)) :=
  refreshes_behind fun _ => refreshes_emitState

theorem reflects_note (level : Log.Level) (message : Text) : Reflects (R := R) (note level message) :=
  fun _ h => ⟨h.robot, h.pauseButton, h.status⟩

theorem reflects_setSpeed (value : R) :
    Reflects (Executor.setSpeed (Controller.observing listener) value) :=
  .ite (fun _ => .bind (reflects_note _ _) fun _ => brings_get_bind fun _ => brings_pure _)
    fun _ => (refreshes_behind fun _ => refreshes_behind fun _ => .bind refreshes_emitState
      fun _ => brings_get_bind fun _ => brings_pure _).reflects

/-- **Mirroring is kept up.** -/
theorem upkept_mirrors : Upkept (R := R) Mirrors where
  congr {h h'} hface hh := by
    simp only [face, Viewport.pushed, Face.mk.injEq, Prod.mk.injEq] at hface
    obtain ⟨hexecutor, -, -, ⟨hrobot, -⟩, -, -, hpauseButton, hstatus⟩ := hface
    refine ⟨?_, ?_, ?_⟩
    · rw [hrobot, hexecutor]
      exact hh.robot
    · rw [hpauseButton, hexecutor]
      exact hh.pauseButton
    · rw [hstatus, hexecutor]
      exact hh.status
  updateStatus h hh := ⟨hh.robot, rfl, rfl⟩
  execute items := (refreshes_execute items).reflects
  tick := reflects_tick
  pause := reflects_pause
  resume := reflects_resume
  stop := refreshes_stop.reflects

/-! ## Other surroundings -/

theorem refreshes_switchTo (preset : Config R) : Refreshes (Controller.switchTo listener preset) := by
  have hinitial : Refreshes (Executor.setInitial (Controller.observing listener)
      (some preset.groundHeight) (some preset.initialHeading)) :=
    refreshes_behind fun _ => refreshes_reset
  exact refreshes_behind fun _ => refreshes_behind fun _ => refreshes_behind fun _ =>
    refreshes_behind fun _ => .bind hinitial fun _ => .bind (reflects_setSpeed _) fun _ =>
      reflects_note _ _

/-- Loading a project keeps the mirroring, and brings it about if the project names an agent. -/
theorem brings_controllerLoadProject (project : Data) :
    Brings (R := R) (fun h => Mirrors h ∨ (Controller.agentNamed? project).isSome) Mirrors
      (Controller.loadProject listener project) := by
  rw [Controller.loadProject_eq]
  refine brings_orFail fun blocks _ => .bind
    (Q := fun _ h => Mirrors h ∨ (Controller.agentNamed? project).isSome)
    (fun _ hh => hh.imp_left fun h => ⟨h.robot, h.pauseButton, h.status⟩) fun _ =>
      brings_orFail fun s hs => ?_
  have hswitch : Brings (R := R) (fun h => Mirrors h ∨ (Controller.agentNamed? project).isSome)
      Mirrors (s.agent.forM (Controller.switchTo listener)) := by
    rw [Controller.agent_of_surroundingsOf hs]
    cases Controller.agentNamed? project with
    | none => exact fun _ hh => hh.resolve_right (by simp)
    | some name => exact (refreshes_switchTo _).mono (fun _ _ => trivial) fun _ _ h => h
  have hobstacles : Reflects (R := R) (Controller.setObstacles s.obstacles) := fun _ h =>
    ⟨h.robot, h.pauseButton, h.status⟩
  exact .bind hswitch fun _ => .bind hobstacles fun _ => brings_get_bind fun _ => reflects_note _ _

omit [Scalar R] in
/-- A change of the window that leaves what is mirrored alone. -/
theorem reflects_beside {f : Window R → Window R}
    (hf : ∀ w, (f w).viewport.robot = w.viewport.robot ∧ (f w).pauseButton = w.pauseButton ∧
      (f w).status = w.status) : Reflects (change f) := by
  intro h hh
  obtain ⟨hrobot, hpauseButton, hstatus⟩ := hf h.memory.memory
  exact ⟨hrobot.trans hh.robot, hpauseButton.trans hh.pauseButton, hstatus.trans hh.status⟩

omit [Scalar R] in
theorem reflects_showAgentSize : Reflects (R := R) showAgentSize :=
  brings_get_bind fun _ => reflects_beside fun _ => ⟨rfl, rfl, rfl⟩

/-- The same for what follows in the window. -/
theorem brings_loadProject (project : Data) :
    Brings (R := R) (fun h => Mirrors h ∨ (Controller.agentNamed? project).isSome) Mirrors
      (loadProject project) := by
  refine .bind (Q := fun _ h => Mirrors h ∨ (Controller.agentNamed? project).isSome)
    (fun _ hh => hh.imp_left fun h => ⟨h.robot, h.pauseButton, h.status⟩) fun _ =>
      .bind (brings_controllerLoadProject project) fun _ => brings_get_bind fun d =>
        .bind (reflects_beside fun _ => ⟨rfl, rfl, rfl⟩) fun _ => ?_
  split
  · refine .ite (fun _ => .bind (reflects_beside fun w => ?_) fun _ =>
      .bind reflects_showAgentSize fun _ => upkept_mirrors.processProgram) fun _ =>
        upkept_mirrors.processProgram
    rw [choose_eq]
    exact ⟨rfl, rfl, rfl⟩
  · exact upkept_mirrors.processProgram

theorem reflects_changeAgent (name : String) : Reflects (R := R) (changeAgent name) := by
  have hswitch : Reflects (R := R) (Controller.setAgent listener (.text name)) := by
    rw [Controller.setAgent_eq]
    exact brings_orFail fun _ _ => (refreshes_switchTo _).reflects
  exact .bind hswitch fun _ => .bind reflects_showAgentSize fun _ =>
    .bind (reflects_beside fun _ => ⟨rfl, rfl, rfl⟩) fun _ => brings_get_bind fun _ =>
      .bind (upkept_mirrors.print _) fun _ => upkept_mirrors.processProgram

theorem reflects_slide (value : Int) : Reflects (R := R) (slide value) :=
  .bind (brings_get_bind fun _ => brings_pure _) fun _ => .ite
    (fun _ => .bind (reflects_beside fun _ => ⟨rfl, rfl, rfl⟩) fun _ =>
      .bind (reflects_setSpeed _) fun _ => reflects_beside fun _ => ⟨rfl, rfl, rfl⟩)
    fun _ => brings_pure _

theorem reflects_reset : Reflects (R := R) reset := by
  have hback : Reflects (R := R) (Controller.reset listener) :=
    (refreshes_behind fun _ => refreshes_reset).reflects
  exact .bind hback fun _ => .bind (reflects_beside fun _ => ⟨rfl, rfl, rfl⟩) fun _ =>
    brings_get_bind fun _ => brings_orFail fun _ _ => .bind (reflects_slide _) fun _ =>
      upkept_mirrors.updateStatus

theorem reflects_select (index : Int) : Reflects (R := R) (select index) :=
  .bind (brings_get_bind fun _ => brings_pure _) fun _ => .ite
    (fun _ => .bind (reflects_beside fun _ => ⟨rfl, rfl, rfl⟩) fun _ =>
      .bind (brings_get_bind fun _ => brings_pure _) fun _ => reflects_changeAgent _)
    fun _ => brings_pure _

/-! ## Calls -/

/-- **Whatever happens to a window**, it mirrors the executor. -/
theorem reflects_make (c : WindowCall R) : Reflects c.make := by
  have hload : ∀ project, Reflects (R := R) (loadProject project) := fun project =>
    (brings_loadProject project).mono (fun _ h => .inl h) fun _ _ h => h
  have hopen : ∀ path content, Reflects (R := R) (openProject path content) := by
    refine fun path content => brings_orFail fun found _ => ?_
    split
    · exact upkept_mirrors.print _
    · exact .bind (upkept_mirrors.print _) fun _ => hload _
  have hdone : ∀ reply : WindowReply, Reflects (R := R) (pure reply) := fun _ => brings_pure _
  cases c with
  | run => exact .bind upkept_mirrors.run fun _ => hdone _
  | togglePause => exact .bind upkept_mirrors.togglePause fun _ => hdone _
  | stop => exact .bind upkept_mirrors.stopped fun _ => hdone _
  | reset => exact .bind reflects_reset fun _ => hdone _
  | resetView => exact .bind (reflects_beside fun _ => ⟨rfl, rfl, rfl⟩) fun _ => hdone _
  | chooseFile path content =>
    exact .bind (.ite (fun _ => brings_pure _) fun _ => hopen path content) fun _ => hdone _
  | openProject path content => exact .bind (hopen path content) fun _ => hdone _
  | loadProject project => exact .bind (hload project) fun _ => hdone _
  | select index => exact .bind (reflects_select index) fun _ => hdone _
  | slide value => exact .bind (reflects_slide value) fun _ => hdone _
  | check option on => exact .bind (upkept_mirrors.check option on) fun _ => hdone _
  | elapse dt untilIdle most => exact .bind (upkept_mirrors.elapse dt untilIdle most) fun _ => hdone _
  | view c => exact upkept_mirrors.view c

/-- An open window has been shown the robot of the sample's agent. -/
theorem mirrors_start {clock : R} {h : WindowHost R} (hstart : Window.start clock = .ok h) :
    Mirrors h := by
  obtain ⟨h₀, -, hstart⟩ := Outcome.bind_eq_ok.1 hstart
  have hopening : Refreshes (R := R) opening :=
    .bind ((brings_loadProject Sample.project).mono (fun _ _ => .inr rfl) fun _ _ h => h) fun _ =>
      brings_get_bind fun _ => reflects_beside fun _ => ⟨rfl, rfl, rfl⟩
  split at hstart
  next h' hrun =>
    cases hstart
    exact hopening.ok trivial hrun
  · cases hstart

theorem Used.mirrors {clock : R} {h : WindowHost R} (hused : Used clock h) : Mirrors h := by
  induction hused with
  | start hstart => exact mirrors_start hstart
  | call _ hrun ih => exact (reflects_make _).ok ih hrun

/-- **A window mirrors its controller.** At every moment between calls it shows the robot, the obstacles
and the size of the agent as controller and executor have them, the button that halts a run offers to go
on with it exactly if it is halted, the phase is shown under its name with a capital letter, and the
slider is at the speed of the executor. -/
theorem mirrors_controller {clock : Float} {h : WindowHost Float} (hused : Used clock h) :
    let window := h.memory.memory
    window.viewport.robot = h.executor.robot ∧
      window.viewport.obstacles = h.memory.obstacles ∧
      h.executor.scene.obstacles = h.memory.obstacles ∧
      window.viewport.agentSize = h.memory.config.agentSize ∧
      window.pauseButton = (if h.executor.phase = .paused then "Resume" else "Pause") ∧
      window.status = h.executor.phase.name.capitalize ∧
      1 ≤ window.slider ∧ Scalar.ratio window.slider.toNat 10 = h.executor.speed := by
  intro window
  have hmirrors := hused.mirrors
  have hagree := hused.agree
  have hbutton : pauseButtonOf h.executor.phase =
      if h.executor.phase = .paused then "Resume" else "Pause" := by
    cases h.executor.phase <;> rfl
  exact ⟨hmirrors.robot, hagree.drawn, hagree.obstacles, hagree.size,
    hmirrors.pauseButton.trans hbutton, hmirrors.status, hagree.low, hagree.speed.symm⟩

/-- A fish at twice the speed, halted at the beginning of a run. -/
theorem mirrors_controller_halted :
    ∃ h : WindowHost Float, Used 0.0 h ∧
      (h.memory.config.name = "Fish" ∧ h.executor.phase = .paused ∧ h.executor.speed = 2.0) ∧
      let window := h.memory.memory
      window.viewport.robot = h.executor.robot ∧
        window.viewport.obstacles = h.memory.obstacles ∧
        h.executor.scene.obstacles = h.memory.obstacles ∧
        window.viewport.agentSize = h.memory.config.agentSize ∧
        window.pauseButton = (if h.executor.phase = .paused then "Resume" else "Pause") ∧
        window.status = h.executor.phase.name.capitalize ∧
        1 ≤ window.slider ∧ Scalar.ratio window.slider.toNat 10 = h.executor.speed := by
  have hhalted : ((opened? (0.0 : Float) [.select 2, .slide 20, .run, .togglePause]).any fun h =>
      decide (h.memory.config.name = "Fish" ∧ h.executor.phase = .paused ∧
        h.executor.speed = 2.0)) = true := by decide +kernel
  obtain ⟨h, hopened, hfish⟩ := (Option.any_eq_true _ _).1 hhalted
  exact ⟨h, .of_opened hopened, of_decide_eq_true hfish, mirrors_controller (.of_opened hopened)⟩

end Window

end RobotBlocks
