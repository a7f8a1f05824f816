import RobotBlocks.Proofs.Program.Retiming
import RobotBlocks.Proofs.Simulation.Loading
import RobotBlocks.View.Window

/-!
# The program that is shown and the one that runs

A window has compiled the program of its controller for the box robot, whatever agent is chosen; the
controller compiles it again when it runs it, for its own agent.

* `Shows S`: a relation between the controller's agent and blocks and the window's build. Whatever the
  viewer does but for loading a project or choosing an agent leaves these three alone, so it keeps any
  such relation (`minds_run`, `minds_elapse` and so on).
* `InStep`: the build has the commands of the controller's blocks. Loading a project and choosing an
  agent establish it, since they end by building the program (`inStep_processProgram`).
* `runs_retimed`: at every moment, the controller would run the commands that the window shows, in the
  time of its own agent; that is the shown time for all agents but the golem.
-/

namespace RobotBlocks

namespace Window

open Executor

variable {R : Type}

/-! ## Parts of actions -/

/-- An invariant of the desk that asks about no more of the window than its build. -/
def Unseen (J : Desk R (Window R) → Prop) : Prop :=
  ∀ d w, w.build = d.memory.build → J d → J { d with memory := w }

section Unseen

variable {J : Desk R (Window R) → Prop} (hJ : Unseen J)
include hJ

theorem minds_change {f : Window R → Window R} (hf : ∀ w, (f w).build = w.build) :
    Minds J (change f) := Controller.minds_change fun d hd => hJ d _ (hf d.memory) hd

theorem minds_changeView (f : Viewport R → Viewport R) : Minds J (changeView f) :=
  minds_change hJ fun _ => rfl

theorem minds_print (text : String) : Minds J (print text) := minds_change hJ fun _ => rfl

theorem minds_updateStatus : Minds (R := R) J updateStatus :=
  .bind minds_look fun _ => minds_change hJ fun _ => rfl

theorem minds_showWarnings : Minds (R := R) J showWarnings := minds_change hJ fun _ => rfl

theorem minds_showAgentSize : Minds (R := R) J showAgentSize :=
  .bind (.bind Controller.minds_desk fun _ => minds_pure _) fun _ => minds_changeView hJ _

variable [Scalar R]

/-- **What the window does as a listener** is not seen by such an invariant. -/
theorem mind_listener : (listener : Listeners R (Window R)).Mind J where
  note _ d hd := hJ d _ rfl hd
  stateChanged _ := .bind (minds_changeView hJ _) fun _ =>
    .bind (minds_change hJ fun _ => rfl) fun _ => minds_updateStatus hJ
  completed _ := .bind Controller.minds_desk fun _ => minds_print hJ _

/-- Taking diagnostics down is not seen either. -/
theorem minds_noteAll (ds : List Diagnostic) :
    Minds J (ds.forM fun d => note (R := R) .warning d.text) := by
  induction ds with
  | nil => exact minds_pure _
  | cons d ds ih => exact .bind (minds_note (mind_listener hJ) _ _) fun _ => ih

end Unseen

/-! ## Actions that leave the program alone -/

/-- A relation between the agent and the blocks of the controller and the build of the window. -/
def Shows (S : Config R → List Block → Build R → Prop) (d : Desk R (Window R)) : Prop :=
  S d.config d.blocks d.memory.build

theorem unseen_shows (S : Config R → List Block → Build R → Prop) : Unseen (Shows S) :=
  fun d w hw hd => by
    rw [Shows, hw]
    exact hd

section Shows

variable [Scalar R] (S : Config R → List Block → Build R → Prop)

/-- A controller passes on to its window what is not seen by such a relation. -/
theorem mind_observing :
    (Controller.observing (listener : Listeners R (Window R))).Mind (Shows S) :=
  (mind_listener (unseen_shows S)).observing fun _ _ hd => hd

theorem minds_compile : Minds (R := R) (Shows S) (Controller.compile listener) := by
  refine .bind Controller.minds_desk fun d => ?_
  split
  · exact .bind (Controller.minds_change fun _ hd => hd) fun _ => .throw fun _ hx => hx
  · exact .bind (Controller.minds_change fun _ hd => hd) fun _ =>
      .bind (minds_noteAll (unseen_shows S) _) fun _ => minds_pure _

theorem minds_controllerRun : Minds (R := R) (Shows S) (Controller.run listener none) :=
  .bind (minds_compile S) fun _ => .bind (Controller.minds_change fun _ hd => hd) fun _ =>
    .bind (minds_execute (mind_observing S) _) fun _ =>
      .bind Controller.minds_desk fun _ => minds_pure _

theorem minds_run : Minds (R := R) (Shows S) run :=
  .bind (minds_changeView (unseen_shows S) _) fun _ => .bind (minds_controllerRun S) fun _ =>
    .bind (minds_showWarnings (unseen_shows S)) fun _ =>
      .bind (minds_print (unseen_shows S) _) fun _ => minds_updateStatus (unseen_shows S)

theorem minds_togglePause : Minds (R := R) (Shows S) togglePause :=
  .bind (.bind minds_look fun _ => .ite (fun _ => minds_resume (mind_observing S)) fun _ =>
    Executor.minds_pause (mind_observing S)) fun _ => minds_updateStatus (unseen_shows S)

theorem minds_stop : Minds (R := R) (Shows S) stop :=
  .bind (Executor.minds_stop (mind_observing S)) fun _ =>
    .bind (minds_print (unseen_shows S) _) fun _ => minds_updateStatus (unseen_shows S)

theorem minds_slide (value : Int) : Minds (R := R) (Shows S) (slide value) :=
  .bind (.bind Controller.minds_desk fun _ => minds_pure _) fun _ => .ite
    (fun _ => .bind (minds_change (unseen_shows S) fun _ => rfl) fun _ =>
      .bind (minds_setSpeed (mind_observing S) _) fun _ =>
        minds_change (unseen_shows S) fun _ => rfl)
    fun _ => minds_pure _

theorem minds_reset : Minds (R := R) (Shows S) reset :=
  .bind (.bind (Controller.minds_change fun _ hd => hd) fun _ =>
    Executor.minds_reset (mind_observing S)) fun _ =>
      .bind (minds_changeView (unseen_shows S) _) fun _ => .bind minds_look fun _ =>
        .bind (minds_orFail _) fun _ => .bind (minds_slide S _) fun _ =>
          minds_updateStatus (unseen_shows S)

omit [Scalar R] in
theorem minds_check (option : ViewOption) (on : Bool) :
    Minds (R := R) (Shows S) (check option on) :=
  .bind (.bind Controller.minds_desk fun _ => minds_pure _) fun _ => .ite
    (fun _ => .bind (minds_change (unseen_shows S) fun _ => rfl) fun _ =>
      minds_changeView (unseen_shows S) _)
    fun _ => minds_pure _

/-- Ticks of the timer leave the program alone, however many there are. -/
theorem minds_elapse (dt : R) (untilIdle : Bool) (most : Nat) :
    Minds (Shows S) (elapse dt untilIdle most) := by
  induction most with
  | zero => exact minds_pure _
  | succ most ih =>
    exact .bind minds_look fun _ => .ite (fun _ => minds_pure _) fun _ =>
      .bind (minds_change (unseen_shows S) fun _ => rfl) fun _ =>
        .bind (minds_tick (mind_observing S) none) fun _ => .bind ih fun _ => minds_pure _

/-- What happens to the viewport leaves the program alone. -/
theorem minds_view (c : ViewCall) : Minds (R := R) (Shows S) (WindowCall.make (.view c)) := by
  refine .bind (.bind Controller.minds_desk fun _ => minds_pure _) fun w => ?_
  split
  · exact .bind (minds_changeView (unseen_shows S) _) fun _ => minds_pure _
  · exact .bind (minds_changeView (unseen_shows S) _) fun _ => .throw fun _ hx => hx

end Shows

end Window

/-- A build that succeeds has the commands of its blocks, for the agent that it is for. -/
theorem Build.ofBlocks_eq_ok {R : Type} [Scalar R] {blocks : List Block} {b b' : Build R}
    {good : Bool} (h : (Build.ofBlocks blocks).run b = .ok good b') :
    b'.config = b.config ∧
      (Compilation.ofBlocks b.config blocks).outcome = .ok b'.commands := by
  unfold ofBlocks at h
  change EStateM.run _ { b with blockCount := blocks.length } = _ at h
  split at h
  · cases h
  next commands ds hcompile =>
    change EStateM.run _ { b with blockCount := blocks.length, diagnostics := ds, commands } = _ at h
    split at h
    · cases h
    · cases h
      exact ⟨rfl, (Compilation.outcome_ofBlocks_eq_ok _).2 ⟨ds, hcompile⟩⟩

namespace Window

open Executor

variable {R : Type} [Scalar R]

/-! ## Actions that renew the program -/

/-- The agent is one of the presets, and the window builds for the box robot. -/
def Known : Desk R (Window R) → Prop :=
  Shows fun c _ build => c ∈ Config.presets ∧ build.config = Config.robot

/-- The window has built the controller's blocks. -/
def InStep : Desk R (Window R) → Prop :=
  Shows fun c blocks build => c ∈ Config.presets ∧ build.config = Config.robot ∧
    (Compilation.ofBlocks Config.robot blocks).outcome = .ok build.commands

/-- The action leads from a desk of which `P` holds to one of which `Q` holds, if it succeeds. -/
abbrev Leads {α : Type} (P Q : Desk R (Window R) → Prop) (m : Action R α) : Prop :=
  Triple (Of P) m (fun _ => Of Q) fun _ => True

omit [Scalar R] in
theorem leads_of_minds {α : Type} {J : Desk R (Window R) → Prop} {m : Action R α}
    (h : Minds J m) : Leads J J m := h.mono_error fun _ _ => trivial

/-- **Building the program** brings the window into step with the controller. -/
theorem leads_renewBuild : Leads (R := R) Known InStep renewBuild := by
  refine .bind (Q := fun d h => d = h.memory ∧ Known h.memory) (fun _ hx => ⟨rfl, hx⟩) fun d => ?_
  refine .bind (Q := fun w h => w = h.memory.memory ∧ d = h.memory ∧ Known h.memory)
    (fun _ hx => ⟨rfl, hx⟩) fun w => ?_
  split
  · exact .bind (Q := fun _ _ => True) (fun _ _ => trivial) fun _ => .throw fun _ _ => trivial
  next good build hbuild =>
    refine .bind (Q := fun _ => Of InStep) ?_ fun _ => leads_of_minds (minds_noteAll (unseen_shows _) _)
    rintro x ⟨rfl, rfl, hpreset, hrobot⟩
    obtain ⟨hconfig, houtcome⟩ := Build.ofBlocks_eq_ok hbuild
    rw [hrobot] at hconfig houtcome
    exact ⟨hpreset, hconfig, houtcome⟩

theorem leads_processProgram : Leads (R := R) Known InStep processProgram :=
  .bind leads_renewBuild fun _ =>
    .bind (leads_of_minds (minds_change (unseen_shows _) fun _ => rfl)) fun _ =>
      .bind (leads_of_minds (minds_showWarnings (unseen_shows _))) fun _ =>
        leads_of_minds (minds_change (unseen_shows _) fun _ => rfl)

/-- Switching to a preset leaves the window's build alone. -/
theorem leads_switchTo {preset : Config R} (hpreset : preset ∈ Config.presets) :
    Leads Known Known (Controller.switchTo listener preset) := by
  have hmind := mind_observing (R := R) fun c _ build =>
    c ∈ Config.presets ∧ build.config = Config.robot
  refine .bind (leads_of_minds minds_look) fun _ =>
    .bind (Q := fun _ => Of Known) (fun _ hx => ⟨hpreset, hx.2⟩) fun _ => leads_of_minds ?_
  exact .bind (Executor.minds_change _) fun _ => .bind (minds_setAgentSize _) fun _ =>
    .bind (minds_setInitial hmind _ _) fun _ => .bind (minds_setSpeed hmind _) fun _ =>
      minds_note (mind_listener (unseen_shows _)) _ _

omit [Scalar R] in
/-- What follows a reading that can fail may rely on what was read. -/
theorem leads_orFail {α β : Type} {P Q : Desk R (Window R) → Prop} {value : Except Fault α}
    {k : α → Action R β} (h : ∀ a, value = .ok a → Leads P Q (k a)) :
    Leads P Q (orFail value >>= k) :=
  .bind (Q := fun a x => value = .ok a ∧ P x.memory)
    (.orFail (fun _ ha _ hx => ⟨ha, hx⟩) fun _ _ => trivial) fun a x hx => h a hx.1 x hx.2

theorem leads_controllerLoadProject (project : Data) :
    Leads (R := R) Known Known (Controller.loadProject listener project) := by
  rw [Controller.loadProject_eq]
  refine leads_orFail fun blocks _ => .bind (Q := fun _ => Of Known) (fun _ hx => hx) fun _ =>
    leads_orFail fun s hs => .bind (Q := fun _ => Of Known) ?_ fun _ =>
      .bind (Q := fun _ => Of Known) (fun _ hx => hx) fun _ => leads_of_minds ?_
  · rcases hagent : s.agent with _ | preset
    · exact leads_of_minds (minds_pure _)
    · exact leads_switchTo (Controller.mem_presets_of_surroundingsOf hs preset hagent)
  · exact .bind Controller.minds_desk fun _ => minds_note (mind_listener (unseen_shows _)) _ _

/-- **Loading a project** ends with building it, -/
theorem leads_loadProject (project : Data) : Leads (R := R) Known InStep (loadProject project) := by
  refine .bind (leads_of_minds (minds_change (unseen_shows _) fun _ => rfl)) fun _ =>
    .bind (leads_controllerLoadProject project) fun _ =>
      .bind (leads_of_minds Controller.minds_desk) fun d =>
        .bind (leads_of_minds (minds_changeView (unseen_shows _) _)) fun _ => ?_
  split
  · refine .ite (fun _ => ?_) fun _ => leads_processProgram
    have hchoose : ∀ name (w : Window R), (choose name w).build = w.build := fun name w => by
      unfold choose
      split <;> rfl
    exact .bind (leads_of_minds (minds_change (unseen_shows _) (hchoose _))) fun _ =>
      .bind (leads_of_minds (minds_showAgentSize (unseen_shows _))) fun _ => leads_processProgram
  · exact leads_processProgram

/-- and so does choosing an agent. -/
theorem leads_changeAgent (name : String) : Leads (R := R) Known InStep (changeAgent name) := by
  refine .bind ?_ fun _ => .bind (leads_of_minds (minds_showAgentSize (unseen_shows _))) fun _ =>
    .bind (leads_of_minds (minds_changeView (unseen_shows _) _)) fun _ =>
      .bind (leads_of_minds Controller.minds_desk) fun _ =>
        .bind (leads_of_minds (minds_print (unseen_shows _) _)) fun _ => leads_processProgram
  rw [Controller.setAgent_eq]
  exact leads_orFail fun preset hpreset => leads_switchTo (Config.mem_presets_of_ofData hpreset)

/-! ## Windows in use -/

/-- The windows after calls that all succeeded. -/
inductive Used (clock : R) : WindowHost R → Prop
  | start {h : WindowHost R} (hstart : Window.start clock = .ok h) : Used clock h
  | call {h h' : WindowHost R} {c : WindowCall R} {reply : WindowReply} (before : Used clock h)
    (hrun : c.make h = .ok reply h') : Used clock h'

/-- **Whatever the viewer does**, the window stays in step. -/
theorem leads_make (c : WindowCall R) : Leads InStep InStep c.make := by
  have hknown : ∀ h : WindowHost R, Of InStep h → Of Known h := fun _ h => ⟨h.1, h.2.1⟩
  have hload : ∀ project, Leads InStep InStep (loadProject (R := R) project) := fun project =>
    (leads_loadProject project).mono hknown fun _ _ h => h
  have hopen : ∀ path content, Leads InStep InStep (openProject (R := R) path content) := by
    refine fun path content => .bind (leads_of_minds (minds_orFail _)) fun found => ?_
    split
    · exact leads_of_minds (minds_print (unseen_shows _) _)
    · exact .bind (leads_of_minds (minds_print (unseen_shows _) _)) fun _ => hload _
  have hdone : ∀ reply : WindowReply, Leads (R := R) InStep InStep (pure reply) := fun _ =>
    leads_of_minds (minds_pure _)
  cases c with
  | run => exact .bind (leads_of_minds (minds_run _)) fun _ => hdone _
  | togglePause => exact .bind (leads_of_minds (minds_togglePause _)) fun _ => hdone _
  | stop => exact .bind (leads_of_minds (minds_stop _)) fun _ => hdone _
  | reset => exact .bind (leads_of_minds (minds_reset _)) fun _ => hdone _
  | resetView =>
    exact .bind (leads_of_minds (minds_changeView (unseen_shows _) _)) fun _ => hdone _
  | chooseFile path content =>
    exact .bind (.ite (fun _ => leads_of_minds (minds_pure _)) fun _ => hopen _ _) fun _ => hdone _
  | openProject path content => exact .bind (hopen _ _) fun _ => hdone _
  | loadProject project => exact .bind (hload _) fun _ => hdone _
  | select index =>
    refine .bind ?_ fun _ => hdone _
    refine .bind (leads_of_minds Controller.minds_desk) fun _ =>
      .ite (fun _ => ?_) fun _ => leads_of_minds (minds_pure _)
    exact .bind (leads_of_minds (minds_change (unseen_shows _) fun _ => rfl)) fun _ =>
      .bind (leads_of_minds Controller.minds_desk) fun _ =>
        (leads_changeAgent _).mono hknown fun _ _ h => h
  | slide value => exact .bind (leads_of_minds (minds_slide _ _)) fun _ => hdone _
  | check option on => exact .bind (leads_of_minds (minds_check _ _ _)) fun _ => hdone _
  | elapse dt untilIdle most =>
    exact .bind (leads_of_minds (minds_elapse _ _ _ _)) fun _ => hdone _
  | view c => exact leads_of_minds (minds_view _ c)

/-- The open window is in step with its controller. -/
theorem inStep_start {clock : R} {h : WindowHost R} (hstart : Window.start clock = .ok h) :
    InStep h.memory := by
  obtain ⟨h₀, hcontroller, hstart⟩ := Outcome.bind_eq_ok.1 hstart
  obtain ⟨e, -, rfl⟩ := Outcome.map_eq_ok.1 hcontroller
  have hopening : Leads (R := R) Known InStep opening :=
    .bind (leads_loadProject _) fun _ => .bind (leads_of_minds Controller.minds_desk) fun _ =>
      leads_of_minds (minds_change (unseen_shows _) fun _ => rfl)
  split at hstart
  next h' hrun =>
    cases hstart
    exact hopening.ok ⟨by simp [Config.presets], rfl⟩ hrun
  · cases hstart

/-- **A window in use** is in step with its controller. -/
theorem Used.inStep {clock : R} {h : WindowHost R} (hused : Used clock h) : InStep h.memory := by
  induction hused with
  | start hstart => exact inStep_start hstart
  | call _ hrun ih => exact (leads_make _).ok ih hrun

/-! ## What runs -/

/-- **The controller compiles the shown commands**, in the time of its own agent. -/
theorem InStep.compile {h : WindowHost R} (hstep : InStep h.memory) : ∃ h',
    Controller.compile listener h =
      .ok (h.memory.memory.build.commands.map (Compilation.retimed h.memory.config)) h' := by
  obtain ⟨hpreset, -, houtcome⟩ := hstep
  have halike := Compilation.outcome_alike (Config.alike_of_mem_presets hpreset) h.memory.blocks
  rw [houtcome] at halike
  obtain ⟨d, hcompile⟩ := Controller.compile_of_outcome listener halike
  exact ⟨_, hcompile⟩

/-- A run returns what was compiled for it: nobody who is told of its start can change that. -/
theorem run_returns {h h' h'' : WindowHost R} {runs runs' : List (Command R)}
    (hcompile : Controller.compile listener h = .ok runs h')
    (hrun : Controller.run listener none h = .ok runs' h'') : runs' = runs := by
  have hunseen : Unseen fun d : Desk R (Window R) => d.commands = runs := fun _ _ _ hd => hd
  have hmind := (mind_listener hunseen).observing fun _ _ hd => hd
  have hrest : Triple (fun x => x = h') (do
        Controller.change fun d => { d with commands := runs, executedSteps := 0 }
        execute (Controller.observing listener) (runs.map .command)
        return (← Controller.desk).commands)
      (fun commands _ => commands = runs) fun _ => True := by
    have hkept : Triple (fun x => x = h')
        (Controller.change fun d => { d with commands := runs, executedSteps := 0 })
        (fun _ => Of fun d => d.commands = runs) fun _ => True := fun _ _ => rfl
    have hread : Triple (Of fun d : Desk R (Window R) => d.commands = runs) Controller.desk
        (fun d _ => d.commands = runs) fun _ => True := fun _ hd => hd
    refine .bind hkept fun _ =>
      .bind ((minds_execute hmind _).mono_error fun _ _ => trivial) fun _ =>
        .bind hread fun _ => .pure fun _ hd => hd
  exact hrest.ok rfl ((run_bind_of_ok hcompile).symm.trans hrun)

/-- **What the window shows and what the controller runs.** At every moment between calls the controller
would compile the commands that the window shows, but for the time that each of them takes: that is
the time of its own agent. It is the shown time unless the agent is the golem. -/
theorem runs_retimed {clock : R} {host : WindowHost R} (h : Used clock host) :
    let shown := host.memory.memory.build.commands
    let agent := host.memory.config
    ∃ runs host', Controller.compile listener host = .ok runs host' ∧
      runs = shown.map (Compilation.retimed agent) ∧ agent ∈ Config.presets ∧
      (agent.name ≠ "Lava Golem" → runs = shown) ∧
      ∀ runs' host'', Controller.run listener none host = .ok runs' host'' → runs' = runs := by
  intro shown agent
  have hstep := h.inStep
  obtain ⟨host', hcompile⟩ := hstep.compile
  obtain ⟨hpreset, -, houtcome⟩ := hstep
  refine ⟨_, host', hcompile, rfl, hpreset, fun hname => ?_, fun _ _ => run_returns hcompile⟩
  have hsync := Config.synchronous_of_mem_presets hpreset hname
  calc shown.map (Compilation.retimed agent) = shown.map (Compilation.retimed Config.robot) :=
        List.map_congr_left fun command _ => Compilation.retimed_congr hsync command
    _ = shown := Compilation.map_retimed_self houtcome

/-- When the golem is chosen, the sample runs in its time. -/
theorem runs_retimed_golem :
    ∃ host runs host', Used (0.0 : Float) host ∧ host.memory.config.name = "Lava Golem" ∧
      Controller.compile listener host = .ok runs host' ∧
      runs = host.memory.memory.build.commands.map (Compilation.retimed host.memory.config) := by
  have hgolem : ((Window.start (0.0 : Float)).toOption.any fun host =>
      Outcome.returned ((WindowCall.select 4).make host) fun _ host =>
        decide (host.memory.config.name = "Lava Golem")) = true := by decide +kernel
  obtain ⟨host, hstart, hselects⟩ := Outcome.any_toOption.1 hgolem
  obtain ⟨reply, host', hselect, hname⟩ := Outcome.returned_eq_true.1 hselects
  have hused : Used 0.0 host' := .call (.start hstart) hselect
  obtain ⟨runs, host'', hcompile, hretimed, -⟩ := runs_retimed hused
  exact ⟨host', runs, host'', hused, of_decide_eq_true hname, hcompile, hretimed⟩

/-- The controller does not always run what is shown: no command of the sample takes the box robot more
than a second, and this is what the window shows, but the golem takes longer. -/
theorem not_runs_as_shown :
    ¬ ∀ (clock : Float) (host host' : WindowHost Float) (runs : List (Command Float)),
      Used clock host → Controller.run listener none host = .ok runs host' →
        runs = host.memory.memory.build.commands := by
  intro h
  let brisk (c : Command Float) : Bool := decide (c.duration ≤ 1000.0)
  have hgolem : ((Window.start (0.0 : Float)).toOption.any fun host =>
      Outcome.returned ((WindowCall.select 4).make host) fun _ host =>
        Outcome.returned (Controller.run listener none host) fun runs _ =>
          host.memory.memory.build.commands.all brisk && !runs.all brisk) = true := by
    decide +kernel
  obtain ⟨host, hstart, hselects⟩ := Outcome.any_toOption.1 hgolem
  obtain ⟨reply, host', hselect, hruns⟩ := Outcome.returned_eq_true.1 hselects
  obtain ⟨runs, host'', hrun, hslow⟩ := Outcome.returned_eq_true.1 hruns
  rw [h 0.0 host' host'' runs (.call (.start hstart) hselect) hrun] at hslow
  simp at hslow

end Window

end RobotBlocks
