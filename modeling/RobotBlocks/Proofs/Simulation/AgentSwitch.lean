import RobotBlocks.Proofs.Simulation.Pasts

/-!
# Switching the agent forgets the past

Behind a switch to another agent a controller that was built from a preset does what a new
controller does that was built for that agent and has got the same program, the same obstacles and
the same speed (`lookalike_setAgent`). Whatever the controller has been through shows only in what it
compiled last and in its number of complete commands, and there only as long as it has not run or
been reset.

* A run in progress is lost: the executor is that of the new controller but for the numbers of
  flights and the tags of obstacles (`Executor.switched_eq_renumbered`).
* All directives leave the robot in the middle of the floor with the default speed as the state to
  be reset to (`Rested`), so a switch puts it where the new robot stands.
-/

namespace RobotBlocks

variable {R μ : Type} [Scalar R]

namespace Controller

/-- Gives the controller a program, obstacles and a speed. -/
def equip (l : Listeners R μ) (blocks : List Block) (obstacles : List (Obstacle R)) (speed : R) :
    Operation R (Desk R μ) Unit := do
  change fun d => { d with blocks }
  setObstacles obstacles
  let _ ← Executor.setSpeed (observing l) speed

/-- The controller with listeners that remember something else. -/
def recalling (memory : μ) (h : Host R (Desk R μ)) : Host R (Desk R μ) :=
  { h with memory := { h.memory with memory } }

/-! ## The state to be reset to -/

/-- The executor has the obstacles of the controller, and a reset puts the robot in the middle of
the floor, with the default speed of the configuration that the controller was built from. -/
structure Rested (built : Config R) (s : RunSettings R) (_c : Config R)
    (obstacles : List (Obstacle R)) : Prop where
  obstacles : s.scene.obstacles = obstacles
  initial : ∃ height heading, s.initial =
    { position := ⟨Scalar.ofNat 0, height, Scalar.ofNat 0⟩
      rotation := ⟨Scalar.ofNat 0, heading, Scalar.ofNat 0⟩
      moving := false
      speed := built.defaultSpeed }

theorem lasting_rested (built : Config R) : Lasting (Rested built) where
  reset _ _ _ h := ⟨h.obstacles, h.initial⟩
  setSpeed _ _ _ _ h _ := ⟨h.obstacles, h.initial⟩
  setObstacles _ _ _ _ h := ⟨rfl, h.initial⟩
  switch e preset _ _ _ h := by
    obtain ⟨height, heading, hinitial⟩ := h.initial
    have hrested : e.initial = _ := hinitial
    refine ⟨h.obstacles, preset.groundHeight, preset.initialHeading, ?_⟩
    change { e.initial with
      position.y := preset.groundHeight
      rotation.y := preset.initialHeading } = _
    rw [hrested]

theorem rested_start {c : Config R} {memory : μ} {h : Host R (Desk R μ)}
    (hstart : start c memory = .ok h) : Upholds (Rested c) h := by
  obtain ⟨e, he, rfl⟩ := Outcome.map_eq_ok.1 hstart
  obtain ⟨agent, -, rfl⟩ := Outcome.map_eq_ok.1 he
  exact ⟨rfl, c.groundHeight, c.initialHeading, rfl⟩

end Controller

namespace Executor

theorem atSpeed_renumbered {k n : ℕ} (e : Executor R) (speed : R) :
    (e.atSpeed speed).renumbered k n = (e.renumbered k n).atSpeed speed := by
  unfold atSpeed
  split <;> rfl

/-- **Switching to a preset** makes an executor like a new one with the same obstacles, but for its
numbers and tags. -/
theorem switched_eq_renumbered {built preset c : Config R} {obstacles : List (Obstacle R)}
    {e f : Executor R} (he : Controller.Rested built e.settings c obstacles)
    (hspeed : preset.defaultSpeed = built.defaultSpeed) (hf : start preset [] = .ok f) :
    e.switched preset =
      { f with scene := f.scene.setObstacles obstacles }.renumbered e.flights e.scene.firstTag := by
  obtain ⟨agent, hagent, rfl⟩ := Outcome.map_eq_ok.1 hf
  obtain ⟨height, heading, hinitial⟩ := he.initial
  have hrested : e.initial = _ := hinitial
  have hobstacles : e.scene.obstacles = obstacles := he.obstacles
  unfold switched withInitial restored idle
  rw [hagent, hrested, ← hobstacles]
  simp [renumbered, Scene.retagged, Scene.setObstacles, Scene.of, restingState, hspeed,
    Except.toOption]

end Executor

namespace Controller

/-! ## Main result -/

/-- Nothing tells the controllers apart but what was compiled last, unless `compiled` holds, and the
number of complete commands, unless `counted` holds. -/
structure Lookalike (compiled counted : Prop) (h h' : Host R (Desk R μ)) : Prop
    extends Alongside compiled counted h.memory h'.memory where
  robot : h'.executor.robot = h.executor.robot
  speed : h'.executor.speed = h.executor.speed
  phase : h'.executor.phase = h.executor.phase
  queue : h'.executor.queue = h.executor.queue
  current : h'.executor.current? = h.executor.current?

omit [Scalar R] in
/-- Numbers and tags do not show. -/
theorem lookalike_of_paired {k n : ℕ} {compiled counted : Prop} {h h' : Host R (Desk R μ)}
    (hpaired : Paired k n (Alongside compiled counted) h h') : Lookalike compiled counted h h' := by
  obtain ⟨hexecutor, halongside⟩ := hpaired
  refine ⟨halongside, ?_, ?_, ?_, ?_, ?_⟩ <;> rw [hexecutor]
  case refine_5 =>
    simp [Executor.current?, Executor.renumbered, Function.comp_def, Flight.renumbered]
  all_goals rfl

section Switch

variable {l : Listeners R μ} {e : Executor R} {d : Desk R μ}

/-- **Equipping a controller** gives it all it is given. -/
theorem beside_equip {mayFail : Prop} (hl : Apart mayFail l) (blocks : List Block)
    (obstacles : List (Obstacle R)) (speed : R) :
    Triple (Beside e d) (equip l blocks obstacles speed)
      (fun _ => Beside ({ e with scene := e.scene.setObstacles obstacles }.atSpeed speed)
        { d with blocks, obstacles })
      fun _ => mayFail :=
  desk_at (fun _ => rfl) (.bind (beside_setObstacles obstacles) fun _ =>
    .bind (beside_setSpeed hl speed fun _ hfails _ => hfails) fun _ => .pure fun _ hx => hx)

variable {c preset : Config R} {memory : μ} {h₀ h₁ : Host R (Desk R μ)}

/-- **Switching the agent forgets the past.** Let a controller be built from a preset, and be given
whatever directives, by its host or by its listeners, whether they fail or not. When it then
switches to an agent, it does from there on what a new controller does that is built for that agent,
equipped with the program, the obstacles and the speed of the old one, and handed over to its
listeners: all directives return the same, the listeners are told the same, and the two look alike,
also in what was compiled last as soon as a run has succeeded, and in the number of complete
commands as soon as there was such a run or a reset. Listeners that are shown the robot keep to
their own memory. -/
theorem lookalike_setAgent (hc : c ∈ Config.presets) (hstart : start c memory = .ok h₀)
    (hl : l.Confer) {mayFail : Prop} (hapart : Apart mayFail l) (history : List (Directive R μ))
    {name : Data} (hname : Config.ofData name = .ok preset)
    (hswitch : setAgent l name (Directive.attemptAll l history h₀).2 = .ok () h₁)
    {l' : Listeners R μ} (hl' : Apart False l') (memory' : μ) :
    let h := (Directive.attemptAll l history h₀).2
    ∃ f₀ f₁, start preset memory' = .ok f₀ ∧
      equip l' h.memory.blocks h.memory.obstacles h.executor.speed f₀ = .ok () f₁ ∧
      ∀ later : List (Directive R μ),
        let (outcomes, f₂) := Directive.attemptAll l later (recalling h₁.memory.memory f₁)
        let (outcomes', h₂) := Directive.attemptAll l later h₁
        outcomes' = outcomes ∧
          Lookalike (∃ j ∈ later.zip outcomes, j.1.Compiles j.2)
            (∃ j ∈ later.zip outcomes, j.1.Recounts j.2) f₂ h₂ := by
  intro h
  have hrested : Upholds (Rested c) h :=
    (lasting_rested c).attemptAll (direct_of_confer hl) history (rested_start hstart)
  have hpreset : preset ∈ Config.presets := Config.mem_presets_of_ofData hname
  have hspeed : preset.defaultSpeed = c.defaultSpeed :=
    (Config.equallyFast_of_mem_presets hpreset).defaultSpeed.trans
      (Config.equallyFast_of_mem_presets hc).defaultSpeed.symm
  obtain ⟨f, hf⟩ : ∃ f, Executor.start preset [] = .ok f := by
    obtain ⟨size, hsize⟩ := Config.exists_agentSize hpreset
    exact ⟨_, congrArg _ hsize⟩
  have hforgets : h.executor.switched preset =
      { f with scene := f.scene.setObstacles h.memory.obstacles }.renumbered h.executor.flights
        h.executor.scene.firstTag := Executor.switched_eq_renumbered hrested hspeed hf
  obtain ⟨memory₁, rfl⟩ := (beside_setAgent hapart hname).ok ⟨h.memory.memory, rfl⟩ hswitch
  have hequip := beside_equip hl' (e := f) (d := ⟨preset, .empty, [], [], [], 0, memory'⟩)
    h.memory.blocks h.memory.obstacles h.executor.speed _ ⟨memory', rfl⟩
  split at hequip
  next f₁ hruns =>
    obtain ⟨memory₂, rfl⟩ := hequip
    refine ⟨_, _, congrArg _ hf, hruns, fun later => ?_⟩
    have hpaired : Paired h.executor.flights h.executor.scene.firstTag (Alongside False False)
        (recalling memory₁
          ⟨{ f with scene := f.scene.setObstacles h.memory.obstacles }.atSpeed h.executor.speed,
            ⟨preset, .empty, h.memory.blocks, h.memory.obstacles, [], 0, memory₂⟩⟩)
        ⟨(h.executor.switched preset).atSpeed h.executor.speed,
          { h.memory with config := preset, memory := memory₁ }⟩ := by
      refine ⟨?_, rfl, rfl, rfl, rfl, False.elim, False.elim, False.elim⟩
      change (h.executor.switched preset).atSpeed _ = (Executor.atSpeed _ _).renumbered _ _
      rw [Executor.atSpeed_renumbered, hforgets]
    obtain ⟨houtcomes, hbehind⟩ := alongside_attemptAll hl later hpaired
    exact ⟨houtcomes, lookalike_of_paired ⟨hbehind.1, hbehind.2.mono .inr .inr⟩⟩
  next => exact hequip.elim

end Switch

/-- What a listener writes down, and its clock. -/
structure Logbook where
  time : Float
  shown : List (Robot Float)
  done : List (Command Float)

/-- Listeners that write down what they are told. -/
def writing : Listeners Float Logbook where
  clock d := d.memory.time
  note _ d := d
  stateChanged s := privately (modify fun b => { b with shown := b.shown ++ [s] })
  completed c := privately (modify fun b => { b with done := b.done ++ [c] })

/-- A program is run, and the speed is set. -/
def outing : List (Directive Float Logbook) :=
  [.run (some (.list [waitBlock "w"])), .setSpeed (.real 2.0)]

/-- The program is run again for a while. -/
def encore : List (Directive Float Logbook) :=
  [.run none, .meanwhile fun b => { b with time := b.time + 400.0 }, .tick none, .reset]

theorem lookalike_setAgent_midway :
    ∃ h₀ h₁ f₀ f₁, start (Config.robot : Config Float) ⟨0.0, [], []⟩ = .ok h₀ ∧
      let h := (Directive.attemptAll writing outing h₀).2
      h.executor.phase = .running ∧ setAgent writing (.text "Fish") h = .ok () h₁ ∧
      start (Config.ofName "Fish" : Config Float) ⟨0.0, [], []⟩ = .ok f₀ ∧
      equip writing h.memory.blocks h.memory.obstacles h.executor.speed f₀ = .ok () f₁ ∧
      let (outcomes, f₂) := Directive.attemptAll writing encore (recalling h₁.memory.memory f₁)
      let (outcomes', h₂) := Directive.attemptAll writing encore h₁
      outcomes' = outcomes ∧ h₂.memory.memory = f₂.memory.memory ∧
        h₂.memory.executedSteps = f₂.memory.executedSteps := by
  let blank : Logbook := ⟨0.0, [], []⟩
  obtain ⟨h₀, hstart⟩ : ∃ h, start (Config.robot : Config Float) blank = .ok h := ⟨_, rfl⟩
  have hconfer : writing.Confer :=
    { clock := ⟨Logbook.time, fun _ => rfl⟩
      note := ⟨fun _ b => b, fun _ _ => rfl⟩
      stateChanged := fun s =>
        .privately (modify fun b : Logbook => { b with shown := b.shown ++ [s] })
      completed := fun c =>
        .privately (modify fun b : Logbook => { b with done := b.done ++ [c] }) }
  have hapart : Apart False writing := by
    refine ⟨fun _ d => ⟨d.memory, rfl⟩, fun _ _ _ => ?_⟩
    rintro _ ⟨memory, rfl⟩
    exact ⟨_, rfl⟩
  have hname : Config.ofData (.text "Fish") = .ok (Config.ofName "Fish" : Config Float) := rfl
  have hphase : (Directive.attemptAll writing outing h₀).2.executor.phase = .running := by
    cases hstart
    decide +kernel
  have hset := beside_setAgent hapart hname (Directive.attemptAll writing outing h₀).2 ⟨_, rfl⟩
  split at hset
  next _ h₁ hswitch =>
    obtain ⟨f₀, f₁, hfresh, hequip, hlater⟩ := lookalike_setAgent (by simp [Config.presets]) hstart
      hconfer hapart outing hname hswitch hapart blank
    obtain ⟨houtcomes, halike⟩ := hlater encore
    exact ⟨h₀, h₁, f₀, f₁, hstart, hphase, hswitch, hfresh, hequip, houtcomes, halike.memory,
      halike.executedSteps (by simp [encore, Directive.Recounts])⟩
  · exact hset.1.elim

end Controller

end RobotBlocks
