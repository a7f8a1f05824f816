import RobotBlocks.Proofs.Simulation.Loading
import RobotBlocks.Proofs.View.Upkeep

/-!
# The fixtures of a window

A window, its controller and its executor each know an agent, obstacles and a speed. Runs of programs
do not touch them: they are the `Fixtures` of the window, and so are the places of its speed slider and
of its list of agents.

* `Refits v v' m`: the action leads from the fixtures `v` to `v'`, if it succeeds. Whatever an executor
  does but for a reset and for setting the speed spares them (`refits_composed`), so they are kept up
  (`upkept_fixtures`).
* `refits_switchTo`, `alters_controllerLoadProject`: what a new agent and new obstacles change in the
  controller and its executor.
* `refits_select`, `alters_loadProject`: what choosing an agent and loading a project change in the
  window, too. The list of agents follows the project only if it has the agent under that very name.
-/

namespace RobotBlocks

/-- What a window, its controller and its executor have beside a run. -/
structure Fixtures (R : Type) where
  /-- The configuration of the executor. -/
  config : Config R
  /-- The obstacles into which the robot runs. -/
  obstacles : List (Obstacle R)
  /-- The speed to which a reset goes back. -/
  initialSpeed : R
  /-- The speed of the executor. -/
  speed : R
  /-- The agent of the controller. -/
  agent : Config R
  /-- The obstacles of the controller. -/
  listed : List (Obstacle R)
  /-- The obstacles that are drawn. -/
  drawn : List (Obstacle R)
  /-- The size in which the robot is drawn. -/
  size : List R
  slider : Int
  selected : Option ℕ

namespace Window

open Executor (Composed Spares)

variable {R α β : Type}

/-- The fixtures of a window with its controller and executor. -/
def fixtures (h : WindowHost R) : Fixtures R where
  config := h.executor.config
  obstacles := h.executor.scene.obstacles
  initialSpeed := h.executor.initial.speed
  speed := h.executor.speed
  agent := h.memory.config
  listed := h.memory.obstacles
  drawn := h.memory.memory.viewport.obstacles
  size := h.memory.memory.viewport.agentSize
  slider := h.memory.memory.slider
  selected := h.memory.memory.selected

/-- The action leads from the fixtures `v` to fixtures of which `Q` holds, if it succeeds. -/
abbrev Alters (v : Fixtures R) (Q : Fixtures R → Prop) (m : Action R α) : Prop :=
  Brings (fun h => fixtures h = v) (fun h => Q (fixtures h)) m

/-- The action leads from the fixtures `v` to the fixtures `v'`, if it succeeds. -/
abbrev Refits (v v' : Fixtures R) (m : Action R α) : Prop := Alters v (fun w => w = v') m

/-! ## Parts of actions -/

section

variable {v v' : Fixtures R} {Q : Fixtures R → Prop}

theorem Alters.bind {m : Action R α} {f : α → Action R β} (hm : Refits v v' m)
    (hf : ∀ a, Alters v' Q (f a)) : Alters v Q (m >>= f) := Triple.bind hm hf

/-- A change of the host changes its fixtures by a function, -/
theorem refits_modify {f : WindowHost R → WindowHost R} (g : Fixtures R → Fixtures R)
    (h : ∀ host, fixtures (f host) = g (fixtures host)) :
    Refits v (g v) (modify f : Action R PUnit) := by
  rintro host rfl
  exact h host

/-- or leaves them alone. -/
theorem refits_beside {f : WindowHost R → WindowHost R}
    (h : ∀ host, fixtures (f host) = fixtures host) : Refits v v (modify f : Action R PUnit) :=
  refits_modify id h

/-- The executor that is seen has the fixtures. -/
theorem alters_executorLook {f : Executor R → Action R β}
    (hf : ∀ e, e.speed = v.speed → e.config = v.config → Alters v Q (f e)) :
    Alters v Q (Executor.look >>= f) := fun h hh =>
  hf h.executor (congrArg Fixtures.speed hh) (congrArg Fixtures.config hh) h hh

/-- The controller that is seen has the fixtures. -/
theorem alters_desk {f : Desk R (Window R) → Action R β}
    (hf : ∀ d, d.config = v.agent → d.obstacles = v.listed → Alters v Q (f d)) :
    Alters v Q (Controller.desk >>= f) := fun h hh =>
  hf h.memory (congrArg Fixtures.agent hh) (congrArg Fixtures.listed hh) h hh

/-- The window that is seen has the fixtures. -/
theorem alters_look {f : Window R → Action R β}
    (hf : ∀ w, w.slider = v.slider → w.selected = v.selected → Alters v Q (f w)) :
    Alters v Q (look >>= f) := fun h hh =>
  hf h.memory.memory (congrArg Fixtures.slider hh) (congrArg Fixtures.selected hh) h hh

end

section

variable [Scalar R] {v : Fixtures R}

/-- **Whatever the executor does** spares the fixtures, if it leaves its own settings alone. -/
theorem refits_composed {m : Action R α}
    (h : Composed (Controller.observing (listener (R := R))) Spares m) : Refits v v m := by
  refine (h.keeps (P := fun h => fixtures h = v) (fun f hf x hx => ?_) (fun _ _ hx => hx)
    (fun _ _ hx => hx) fun _ _ hx => hx).mono_error fun _ _ => trivial
  have hsettings := hf x.executor
  simp only [Executor.settings, RunSettings.mk.injEq] at hsettings
  obtain ⟨hconfig, hscene, hinitial, hspeed⟩ := hsettings
  rw [← hx, fixtures, hconfig, hscene, hinitial, hspeed]
  rfl

/-- **The fixtures are kept up.** -/
theorem upkept_fixtures (v : Fixtures R) : Upkept fun h => fixtures h = v where
  congr {h h'} hface hh := by
    simp only [face, Viewport.pushed, Face.mk.injEq, Prod.mk.injEq] at hface
    obtain ⟨hexecutor, hagent, hlisted, ⟨-, hsize, hdrawn⟩, hslider, hselected, -⟩ := hface
    rw [← hh, fixtures, fixtures, hexecutor, hagent, hlisted, hsize, hdrawn, hslider, hselected]
  updateStatus _ hh := hh
  execute items := refits_composed (Executor.composed_execute (fun _ hf => hf) items)
  tick := refits_composed (Executor.composed_tick (fun _ hf => hf) none)
  pause := refits_composed (Executor.composed_pause fun _ hf => hf)
  resume := refits_composed (Executor.composed_resume fun _ hf => hf)
  stop := refits_composed (Executor.composed_stop fun _ hf => hf)

/-! ## The controller and its executor -/

theorem refits_executorReset :
    Refits v { v with speed := v.initialSpeed }
      (Executor.reset (Controller.observing (listener (R := R)))) :=
  .bind (refits_modify (fun v => { v with speed := v.initialSpeed }) fun _ => rfl) fun _ =>
    refits_composed .emitState

theorem refits_setInitial (height heading : Option R) :
    Refits v { v with speed := v.initialSpeed }
      (Executor.setInitial (Controller.observing listener) height heading) :=
  .bind (refits_beside fun _ => rfl) fun _ => refits_executorReset

theorem refits_setSpeed {value : R} (hvalue : Scalar.isUndefined value = false) :
    Refits v { v with speed := v.config.clampSpeed value }
      (Executor.setSpeed (Controller.observing listener) value) := by
  rw [Executor.setSpeed, if_neg (by simp [hvalue])]
  refine alters_executorLook fun e he hconfig => ?_
  rw [hconfig]
  exact .bind (refits_modify (fun w => { w with speed := v.config.clampSpeed value }) fun _ => rfl)
    fun _ => refits_composed (.bind .emitState fun _ => .bind .look fun _ => .pure _)

omit [Scalar R] in
theorem refits_setAgentSize (size : Except Fault (AgentSize R)) :
    Refits v v (Executor.setAgentSize size : Action R Unit) :=
  brings_orFail fun _ _ => refits_beside fun _ => rfl

omit [Scalar R] in
theorem refits_setObstacles (obstacles : List (Obstacle R)) :
    Refits v { v with obstacles, listed := obstacles }
      (Controller.setObstacles obstacles : Action R Unit) :=
  .bind (refits_modify (fun v => { v with listed := obstacles }) fun _ => rfl) fun _ =>
    refits_modify (fun v => { v with obstacles }) fun _ => rfl

end

end Window

namespace Fixtures

variable {R : Type} [Scalar R]

/-- The controller and its executor have another agent. -/
def switched (v : Fixtures R) (preset : Config R) : Fixtures R :=
  { v with config := preset, agent := preset, speed := preset.clampSpeed v.speed }

/-- The controller and its executor are in other surroundings. -/
def furnished (v : Fixtures R) (s : Surroundings R) : Fixtures R :=
  { s.agent.elim v v.switched with obstacles := s.obstacles, listed := s.obstacles }

end Fixtures

namespace Window

variable {R : Type} [Scalar R] {v : Fixtures R}

/-- **Switching to an agent** gives it to the controller and its executor; the speed stays, as far as
the agent's bounds let it. -/
theorem refits_switchTo (preset : Config R) (hspeed : Scalar.isUndefined v.speed = false) :
    Refits v (v.switched preset) (Controller.switchTo listener preset) := by
  refine alters_executorLook fun e he _ => ?_
  rw [he]
  exact .bind (refits_modify (fun v => { v with agent := preset }) fun _ => rfl) fun _ =>
    .bind (refits_modify (fun v => { v with config := preset }) fun _ => rfl) fun _ =>
      .bind (refits_setAgentSize _) fun _ => .bind (refits_setInitial _ _) fun _ =>
        .bind (refits_setSpeed hspeed) fun _ => (upkept_fixtures _).note _ _

/-- **Loading a project** gives its obstacles and perhaps its agent to the controller and its
executor. -/
theorem alters_controllerLoadProject (project : Data) (hspeed : Scalar.isUndefined v.speed = false) :
    Alters v (fun w => ∃ s, Controller.surroundingsOf project = .ok s ∧ w = v.furnished s)
      (Controller.loadProject listener project) := by
  rw [Controller.loadProject_eq]
  refine brings_orFail fun blocks _ => .bind (refits_beside fun _ => rfl) fun _ =>
    brings_orFail fun s hs => ?_
  have hswitch : Refits v (s.agent.elim v v.switched)
      (s.agent.forM (Controller.switchTo (R := R) listener)) := by
    cases s.agent with
    | none => exact brings_pure _
    | some preset => exact refits_switchTo preset hspeed
  have hinstall : Refits v (v.furnished s) (Controller.install listener s) :=
    .bind hswitch fun _ => .bind (refits_setObstacles s.obstacles) fun _ =>
      alters_desk fun _ _ _ => (upkept_fixtures _).note _ _
  exact hinstall.mono (fun _ h => h) fun _ _ h => ⟨s, hs, h⟩

end Window

/-! ## The agent of a project -/

/-- What names an agent and counts as given is the text of its name. -/
theorem Config.exists_text_of_ofData {R : Type} [Scalar R] {value : Data} {c : Config R}
    (hvalue : value.isGiven = true) (h : ofData value = .ok c) :
    ∃ name, value = .text name ∧ c = ofName name := by
  unfold ofData at h
  split at h
  next name => exact ⟨name, rfl, (Except.ok.inj h).symm⟩
  · rw [if_pos hvalue] at h
    cases h

namespace Controller

/-- The text by which a project names an agent, if it does. -/
def agentNamed? (project : Data) : Option Text :=
  match project with
  | .record fields =>
    match Data.field fields "agent" with
    | .text name => if name.isEmpty then none else some name
    | _ => none
  | _ => none

variable {R : Type} [Scalar R] {s : Surroundings R}

/-- If surroundings can be read, an agent that counts as given is named by a text. -/
theorem agent_of_record {fields : Fields} (h : surroundingsOf (.record fields) = .ok s) :
    (∃ name, Data.field fields "agent" = .text name ∧ (Data.field fields "agent").isGiven = true ∧
      agentNamed? (.record fields) = some name ∧ s.agent = some (Config.ofName name)) ∨
    (Data.field fields "agent").isGiven = false ∧ agentNamed? (.record fields) = none ∧
      s.agent = none := by
  obtain ⟨items, -, h⟩ := Outcome.bind_eq_ok.1 h
  obtain ⟨obstacles, -, h⟩ := Outcome.bind_eq_ok.1 h
  dsimp only at h
  by_cases hgiven : (Data.field fields "agent").isGiven = true
  · rw [if_pos hgiven] at h
    obtain ⟨preset, hpreset, h⟩ := Outcome.bind_eq_ok.1 h
    cases h
    obtain ⟨name, hname, rfl⟩ := Config.exists_text_of_ofData hgiven hpreset
    have hfilled : ¬ name.isEmpty = true := by simpa [hname, Data.isGiven] using hgiven
    refine .inl ⟨name, hname, hgiven, ?_, rfl⟩
    rw [agentNamed?, hname]
    exact if_neg hfilled
  · rw [if_neg hgiven] at h
    cases h
    refine .inr ⟨by simpa using hgiven, ?_, rfl⟩
    unfold agentNamed?
    dsimp only
    split
    next name hname => exact if_pos (by simpa [hname, Data.isGiven] using hgiven)
    · rfl

/-- The agent of a project is the one that it names. -/
theorem agent_of_surroundingsOf {project : Data} (h : surroundingsOf project = .ok s) :
    s.agent = (agentNamed? project).map Config.ofName := by
  cases project with
  | record fields =>
    obtain ⟨name, -, -, hname, hagent⟩ | ⟨-, hnone, hagent⟩ := agent_of_record h
    · rw [hname, hagent, Option.map_some]
    · rw [hnone, hagent, Option.map_none]
  | _ =>
    cases h
    rfl

end Controller

/-! ## Actions that change the fixtures -/

namespace Window

/-- The place of the agent of that very name in the list of agents. -/
def placeOf? (name : Text) : Option ℕ :=
  Config.agentNames.findIdx? fun n => Text.ofString n == name

/-- The name at a place of the list of agents; none has the empty one. -/
def nameAt (choice : Option ℕ) : String := (choice.bind fun n => Config.agentNames[n]?).getD ""

/-- The choice that a viewer makes by a place of the list. -/
def choiceAt (index : Int) : Option ℕ := index.toNat?.filter (· < Config.agentNames.length)

end Window

namespace Fixtures

variable {R : Type} [Scalar R]

/-- The window shows another agent. -/
def dressed (v : Fixtures R) (preset : Config R) : Fixtures R :=
  { v.switched preset with size := preset.agentSize }

/-- A project has named an agent. The list of agents follows if it has one of that very name. -/
def named (v : Fixtures R) (name : Text) : Fixtures R :=
  { v.dressed (Config.ofName name) with selected := (Window.placeOf? name).or v.selected }

/-- A project with obstacles has been loaded, which perhaps names an agent. -/
def loaded (v : Fixtures R) (obstacles : List (Obstacle R)) (name? : Option Text) : Fixtures R :=
  { name?.elim v v.named with obstacles, listed := obstacles, drawn := obstacles }

/-- A choice has been made in the list of agents. -/
def chosen (v : Fixtures R) (choice : Option ℕ) : Fixtures R :=
  if choice = v.selected then v
  else { v with selected := choice }.dressed (Config.ofName (Window.nameAt choice))

/-- The speed slider has been moved. -/
def atSlider (v : Fixtures R) (tenths : Int) : Fixtures R :=
  { v with slider := tenths, speed := Scalar.ratio tenths.toNat 10 }

end Fixtures

namespace Window

section

variable {R : Type} [Scalar R] {v : Fixtures R} (hspeed : Scalar.isUndefined v.speed = false)

omit [Scalar R] in
theorem choose_eq (name : Text) (w : Window R) :
    choose name w = { w with selected := (placeOf? name).or w.selected } := by
  unfold choose placeOf?
  split
  next n hn => rw [hn, Option.some_or]
  next hn => rw [hn, Option.none_or]

omit [Scalar R] in
theorem refits_choose (name : Text) :
    Refits v { v with selected := (placeOf? name).or v.selected } (change (choose name)) := by
  refine refits_modify (fun v => { v with selected := (placeOf? name).or v.selected }) fun h => ?_
  show fixtures { h with memory.memory := choose name h.memory.memory } = _
  rw [choose_eq]
  rfl

omit [Scalar R] in
theorem refits_showAgentSize : Refits v { v with size := v.agent.agentSize } (showAgentSize (R := R)) :=
  alters_desk fun d hd _ => by
    rw [hd]
    exact refits_modify (fun w => { w with size := v.agent.agentSize }) fun _ => rfl

include hspeed

theorem refits_changeAgent (name : String) :
    Refits v (v.dressed (Config.ofName name)) (changeAgent name) := by
  have hswitch : Refits v (v.switched (Config.ofName name))
      (Controller.setAgent (R := R) listener (.text name)) := by
    rw [Controller.setAgent_eq]
    refine brings_orFail fun preset hpreset => ?_
    cases hpreset
    exact refits_switchTo _ hspeed
  exact .bind hswitch fun _ => .bind refits_showAgentSize fun _ => .bind (refits_beside fun _ => rfl)
    fun _ => alters_desk fun _ _ _ => .bind ((upkept_fixtures _).print _) fun _ =>
      (upkept_fixtures _).processProgram

/-- **Choosing an agent** in the list changes nothing if it was chosen before. -/
theorem refits_select (index : Int) : Refits v (v.chosen (choiceAt index)) (select index) := by
  refine alters_look fun w _ hw => ?_
  rw [hw, Fixtures.chosen]
  by_cases hsame : choiceAt index = v.selected
  · rw [if_pos hsame, if_neg (by simpa [choiceAt] using hsame)]
    exact brings_pure _
  · rw [if_neg hsame, if_pos (by simpa [choiceAt] using hsame)]
    refine .bind (refits_modify (fun w => { w with selected := choiceAt index }) fun _ => rfl)
      fun _ => alters_look fun w' _ hw' => ?_
    have hname : w'.selectedAgent = nameAt (choiceAt index) := by rw [selectedAgent, hw']; rfl
    rw [hname]
    exact refits_changeAgent (v := { v with selected := choiceAt index }) hspeed _

/-- **Loading a project** shows its obstacles and the agent that it names. -/
theorem alters_loadProject (project : Data) :
    Alters v (fun w => ∃ obstacles, w = v.loaded obstacles (Controller.agentNamed? project))
      (loadProject project) := by
  refine .bind (refits_beside fun _ => rfl) fun _ =>
    Triple.bind (alters_controllerLoadProject project hspeed) fun _ => ?_
  rintro h ⟨s, hs, hh⟩
  suffices hshow : Refits (v.furnished s) (v.loaded s.obstacles (Controller.agentNamed? project)) _ from
    (hshow.mono (fun _ h => h) fun _ _ h => ⟨s.obstacles, h⟩) h hh
  have hagent := Controller.agent_of_surroundingsOf hs
  refine alters_desk fun d _ hlisted => ?_
  rw [hlisted]
  refine .bind (refits_modify (fun w => { w with drawn := s.obstacles }) fun _ => rfl) fun _ => ?_
  unfold Fixtures.loaded Fixtures.furnished
  rw [hagent]
  cases project with
  | record fields =>
    obtain ⟨name, hfield, hgiven, hname, -⟩ | ⟨hgiven, hnone, -⟩ := Controller.agent_of_record hs
    · rw [hname]
      dsimp only
      rw [if_pos hgiven, hfield]
      exact .bind (refits_choose _) fun _ => .bind refits_showAgentSize fun _ =>
        (upkept_fixtures _).processProgram
    · rw [hnone]
      dsimp only
      rw [if_neg (by simp [hgiven])]
      exact (upkept_fixtures _).processProgram
  | _ => exact (upkept_fixtures _).processProgram

end

end Window

end RobotBlocks
