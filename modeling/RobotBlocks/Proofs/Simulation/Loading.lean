import RobotBlocks.Proofs.Config.Presets
import RobotBlocks.Proofs.Outcome
import RobotBlocks.Proofs.Simulation.Memory
import RobotBlocks.Proofs.Simulation.Stability
import RobotBlocks.Project.Sample

/-!
# Loading a project

A project holds blocks, and its surroundings: obstacles and perhaps the name of an agent. Loading it
reads the blocks and installs them, then reads the surroundings and installs these
(`loadProject_eq`).

* What cannot be read makes loading fail. If it is a block, the controller and its executor are as
  they were; if it is one of the surroundings, the blocks are new and the rest is as it was.
* What has been read is installed whole (`Executor.furnished`), unless a listener fails when it is
  shown the robot of the new agent: then the obstacles are the old ones still (`Interrupted`).

`loadProject_cases` says that there are no other cases, for listeners that keep to their own memory
(`Apart`).
-/

namespace RobotBlocks

/-! ## Surroundings -/

/-- What a project holds beside its blocks. -/
structure Surroundings (R : Type) where
  obstacles : List (Obstacle R)
  /-- The agent, if one is named. -/
  agent : Option (Config R)

namespace Executor

variable {R : Type} [Scalar R]

/-- The executor at rest in the resting place of another agent. -/
def switched (e : Executor R) (preset : Config R) : Executor R :=
  let size := (AgentSize.ofList preset.agentSize).toOption.getD e.scene.agent
  ({ e with config := preset, scene.agent := size }.withInitial (some preset.groundHeight)
    (some preset.initialHeading)).restored

/-- The executor at a speed as far as its bounds let it; an undefined speed changes nothing. -/
def atSpeed (e : Executor R) (speed : R) : Executor R :=
  if Scalar.isUndefined speed then e
  else { e with speed := e.config.clampSpeed speed, robot.speed := e.config.clampSpeed speed }

/-- The executor in other surroundings. Its speed stays, as far as the bounds of a new agent let it.
-/
def furnished (e : Executor R) (s : Surroundings R) : Executor R :=
  let e' := match s.agent with
    | some preset => (e.switched preset).atSpeed e.speed
    | none => e
  { e' with scene := e'.scene.setObstacles s.obstacles }

end Executor

namespace Controller

open Executor (orFail look)

variable {R μ : Type} [Scalar R]

/-- The surroundings that a raw project describes. -/
def surroundingsOf (project : Data) : Except Fault (Surroundings R) :=
  match project with
  | .record fields => do
    let items ← itemsOf (Data.field fields "obstacles")
    let obstacles ← obstaclesOf items
    let agent := Data.field fields "agent"
    if agent.isGiven then return ⟨obstacles, some (← Config.ofData agent)⟩
    else return ⟨obstacles, none⟩
  | _ => .ok ⟨[], none⟩

/-- Switches to an agent. -/
def switchTo (l : Listeners R μ) (preset : Config R) : Operation R (Desk R μ) Unit := do
  let speed := (← look).speed
  change fun d => { d with config := preset }
  Executor.change fun e => { e with config := preset }
  Executor.setAgentSize (AgentSize.ofList preset.agentSize)
  Executor.setInitial (observing l) (some preset.groundHeight) (some preset.initialHeading)
  let _ ← Executor.setSpeed (observing l) speed
  Executor.note l .info ("Switched agent to " ++ preset.name)

/-- Installs surroundings. -/
def install (l : Listeners R μ) (s : Surroundings R) : Operation R (Desk R μ) Unit := do
  s.agent.forM (switchTo l)
  setObstacles s.obstacles
  let count := (← desk).blocks.length
  Executor.note l .info ("Loaded project with " ++ natText count ++ " blocks and " ++
    natText s.obstacles.length ++ " obstacles")

omit [Scalar R] in
theorem orFail_bind {α β : Type} (x : Except Fault α) (f : α → Except Fault β) :
    (orFail (x >>= f) : Operation R (Desk R μ) β) = orFail x >>= fun a => orFail (f a) := by
  rcases x with fault | a
  · rfl
  · rfl

theorem setAgent_eq (l : Listeners R μ) (name : Data) :
    setAgent l name = orFail (Config.ofData name) >>= switchTo l := rfl

/-- **Loading a project** installs its blocks before it reads the surroundings. -/
theorem loadProject_eq (l : Listeners R μ) (project : Data) :
    loadProject l project =
      (do
        let blocks ← orFail (Block.load project)
        change fun d => { d with blocks }
        let surroundings ← orFail (surroundingsOf project)
        install l surroundings) := by
  unfold loadProject
  congr 1
  funext blocks
  congr 1
  funext _
  cases project with
  | record fields =>
    simp only [surroundingsOf, orFail_bind, setAgent_eq, bind_assoc, pure_bind]
    congr 1
    funext items
    congr 1
    funext obstacles
    split
    · simp only [orFail_bind, bind_assoc]
      rfl
    · rfl
  | _ => rfl

/-! ## Listeners that keep to their own memory -/

/-- The executor is the given one, and so is the desk but for the memory of the listeners. -/
def Beside (e : Executor R) (d : Desk R μ) (h : Host R (Desk R μ)) : Prop :=
  ∃ memory, h = ⟨e, { d with memory }⟩

/-- The listeners change nothing but their own memory. Where `mayFail` holds, they may fail. -/
structure Apart (mayFail : Prop) (l : Listeners R μ) : Prop where
  note : ∀ entry d, ∃ memory, l.note entry d = { d with memory }
  stateChanged : ∀ s e d, Triple (Beside e d) (l.stateChanged s) (fun _ => Beside e d)
    fun h => mayFail ∧ Beside e d h

section Apart

variable {α : Type} {mayFail : Prop} {l : Listeners R μ} {e : Executor R} {d : Desk R μ}
  {Q : α → Host R (Desk R μ) → Prop} {E : Host R (Desk R μ) → Prop}

omit [Scalar R] in
theorem executor_at {g : Executor R → Executor R} {k : Unit → Operation R (Desk R μ) α}
    (h : Triple (Beside (g e) d) (k ()) Q E) : Triple (Beside e d) (Executor.change g >>= k) Q E := by
  rintro x ⟨memory, rfl⟩
  exact h _ ⟨memory, rfl⟩

omit [Scalar R] in
theorem look_at {k : Executor R → Operation R (Desk R μ) α} (h : Triple (Beside e d) (k e) Q E) :
    Triple (Beside e d) (look >>= k) Q E := by
  rintro x ⟨memory, rfl⟩
  exact h _ ⟨memory, rfl⟩

omit [Scalar R] in
theorem desk_at {g : Desk R μ → Desk R μ} {k : Unit → Operation R (Desk R μ) α}
    (hg : ∀ memory, g { d with memory } = { g d with memory })
    (h : Triple (Beside e (g d)) (k ()) Q E) : Triple (Beside e d) (change g >>= k) Q E := by
  rintro x ⟨memory, rfl⟩
  exact h _ ⟨memory, congrArg (Host.mk e) (hg memory)⟩

omit [Scalar R] in
theorem beside_setObstacles (obstacles : List (Obstacle R)) :
    Triple (Beside e d) (setObstacles obstacles)
      (fun _ => Beside { e with scene := e.scene.setObstacles obstacles } { d with obstacles })
      E := by
  refine desk_at (fun _ => rfl) ?_
  rintro _ ⟨memory, rfl⟩
  exact ⟨memory, rfl⟩

variable (hl : Apart mayFail l)
include hl

omit [Scalar R] in
theorem beside_note (level : Log.Level) (message : Text) :
    Triple (Beside e d) (Executor.note l level message) (fun _ => Beside e d) E := by
  rintro x ⟨memory, rfl⟩
  obtain ⟨memory', hnote⟩ := hl.note ⟨level, message⟩ { d with memory }
  exact ⟨memory', congrArg (Host.mk e) hnote⟩

omit [Scalar R] in
theorem beside_emitState (hE : ∀ h, mayFail → Beside e d h → E h) :
    Triple (Beside e d) (Executor.emitState (observing l)) (fun _ => Beside e d) E :=
  look_at ((hl.stateChanged e.robot e d).mono_error fun h hh => hE h hh.1 hh.2)

theorem beside_setSpeed (speed : R) (hE : ∀ h, mayFail → Beside (e.atSpeed speed) d h → E h) :
    Triple (Beside e d) (Executor.setSpeed (observing l) speed)
      (fun _ => Beside (e.atSpeed speed) d) E := by
  by_cases hundefined : Scalar.isUndefined speed = true
  · rw [Executor.setSpeed, if_pos hundefined, Executor.atSpeed, if_pos hundefined]
    exact .bind (beside_note hl _ _) fun _ => look_at (.pure fun _ h => h)
  · rw [Executor.atSpeed, if_neg hundefined] at hE ⊢
    rw [Executor.setSpeed, if_neg hundefined]
    exact look_at (executor_at (.bind (beside_emitState hl hE) fun _ => look_at (.pure fun _ h => h)))

/-- Where switching to an agent can be interrupted: the executor has the new agent and has perhaps
kept its speed; the controller has the new agent. -/
def Interrupted (e : Executor R) (d : Desk R μ) (preset : Config R) (h : Host R (Desk R μ)) : Prop :=
  Beside (e.switched preset) { d with config := preset } h ∨
    Beside ((e.switched preset).atSpeed e.speed) { d with config := preset } h

/-- **Switching to a preset** takes its size, timing and resting place over, and keeps the speed. -/
theorem beside_switchTo {preset : Config R} (hpreset : preset ∈ Config.presets) :
    Triple (Beside e d) (switchTo l preset)
      (fun _ => Beside ((e.switched preset).atSpeed e.speed) { d with config := preset })
      fun h => mayFail ∧ Interrupted e d preset h := by
  obtain ⟨size, hsize⟩ := Config.exists_agentSize hpreset
  have hswitched : e.switched preset =
      ({ e with config := preset, scene.agent := size }.withInitial (some preset.groundHeight)
        (some preset.initialHeading)).restored := by
    rw [Executor.switched, hsize]
    rfl
  refine look_at (desk_at (fun _ => rfl) (executor_at ?_))
  rw [hsize]
  simp only [Executor.setAgentSize, orFail, pure_bind]
  refine executor_at (.bind
    (Q := fun _ => Beside (e.switched preset) { d with config := preset }) ?_ fun _ => .bind (beside_setSpeed hl e.speed fun h hfails hh => ⟨hfails, .inr hh⟩) fun _ =>
      beside_note hl _ _)
  rw [hswitched]
  refine executor_at (executor_at (beside_emitState hl fun h hfails hh => ⟨hfails, .inl ?_⟩))
  rw [hswitched]
  exact hh

/-- Naming a preset switches to it. -/
theorem beside_setAgent {name : Data} {preset : Config R} (hname : Config.ofData name = .ok preset) :
    Triple (Beside e d) (setAgent l name)
      (fun _ => Beside ((e.switched preset).atSpeed e.speed) { d with config := preset })
      fun h => mayFail ∧ Interrupted e d preset h := by
  rw [setAgent_eq, hname]
  exact beside_switchTo hl (Config.mem_presets_of_ofData hname)

/-- **Installing surroundings** that name a preset, if any, gives all of them to the controller and
its executor. -/
theorem beside_install {s : Surroundings R} (hs : ∀ preset ∈ s.agent, preset ∈ Config.presets) :
    Triple (Beside e d) (install l s)
      (fun _ => Beside (e.furnished s)
        { d with obstacles := s.obstacles, config := s.agent.getD d.config })
      fun h => mayFail ∧ ∃ preset ∈ s.agent, Interrupted e d preset h := by
  obtain ⟨obstacles, agent⟩ := s
  have hrest : ∀ e d {E}, Triple (Beside e d)
      (do
        setObstacles obstacles
        let count := (← desk).blocks.length
        Executor.note l .info ("Loaded project with " ++ natText count ++ " blocks and " ++
          natText obstacles.length ++ " obstacles"))
      (fun _ => Beside { e with scene := e.scene.setObstacles obstacles } { d with obstacles })
      E := fun e d =>
    .bind (beside_setObstacles obstacles) fun _ =>
      .bind (Q := fun _ =>
        Beside { e with scene := e.scene.setObstacles obstacles } { d with obstacles })
        (fun _ h => h) fun _ => beside_note hl _ _
  cases agent with
  | none => exact hrest e d
  | some preset =>
    have hfails : ∀ h, mayFail ∧ Interrupted e d preset h →
        mayFail ∧ ∃ p ∈ some preset, Interrupted e d p h := fun h hh => ⟨hh.1, preset, rfl, hh.2⟩
    exact .bind ((beside_switchTo hl (hs preset rfl)).mono_error hfails) fun _ => hrest _ _

end Apart

/-! ## Main result -/

/-- An agent that surroundings name is a preset. -/
theorem mem_presets_of_surroundingsOf {project : Data} {s : Surroundings R}
    (h : surroundingsOf project = .ok s) : ∀ preset ∈ s.agent, preset ∈ Config.presets := by
  unfold surroundingsOf at h
  split at h
  · obtain ⟨items, -, h⟩ := Outcome.bind_eq_ok.1 h
    obtain ⟨obstacles, -, h⟩ := Outcome.bind_eq_ok.1 h
    dsimp only at h
    split at h
    · obtain ⟨preset, hpreset, h⟩ := Outcome.bind_eq_ok.1 h
      cases h
      rintro _ ⟨⟩
      exact Config.mem_presets_of_ofData hpreset
    · cases h
      simp
  · cases h
    simp

/-- **The outcomes of loading a project.** If its blocks cannot be read, loading fails and changes
nothing. If its surroundings cannot be read, loading fails, too, but then its blocks are there. If
all of it can be read and listeners keep to their own memory, all of it is installed, unless a
listener fails when it is shown the robot of a new agent. -/
theorem loadProject_cases (l : Listeners R μ) (project : Data) (h : Host R (Desk R μ)) :
    (∃ fault, Block.load project = .error fault ∧ loadProject l project h = .error fault h) ∨
    (∃ blocks fault, Block.load project = .ok blocks ∧
      surroundingsOf (R := R) project = .error fault ∧
      loadProject l project h = .error fault { h with memory := { h.memory with blocks } }) ∨
    ∃ blocks s, Block.load project = .ok blocks ∧ surroundingsOf project = .ok s ∧
      ∀ mayFail, Apart mayFail l →
        (∃ memory, loadProject l project h =
          .ok () ⟨h.executor.furnished s,
            { h.memory with
              blocks, obstacles := s.obstacles, config := s.agent.getD h.memory.config, memory }⟩) ∨
        mayFail ∧ ∃ preset ∈ s.agent, ∃ fault h', loadProject l project h = .error fault h' ∧
          Interrupted h.executor { h.memory with blocks } preset h' := by
  rw [loadProject_eq]
  rcases hblocks : Block.load project with fault | blocks
  · exact .inl ⟨fault, rfl, rfl⟩
  rcases hs : surroundingsOf (R := R) project with fault | s
  · exact .inr (.inl ⟨blocks, fault, rfl, rfl, rfl⟩)
  refine .inr (.inr ⟨blocks, s, rfl, rfl, fun mayFail hl => ?_⟩)
  let h₀ : Host R (Desk R μ) := { h with memory := { h.memory with blocks } }
  have hinstall := beside_install hl (e := h.executor) (d := { h.memory with blocks })
    (mem_presets_of_surroundingsOf hs) h₀ ⟨h.memory.memory, rfl⟩
  have hrun : (do
      let blocks ← orFail (.ok blocks)
      change fun d => { d with blocks }
      let s ← orFail (.ok s)
      install l s) h = install l s h₀ := rfl
  rw [hrun]
  split at hinstall
  next h' hok =>
    obtain ⟨memory, rfl⟩ := hinstall
    exact .inl ⟨memory, hok⟩
  next fault h' hfails =>
    obtain ⟨hmay, preset, hpreset, hinterrupted⟩ := hinstall
    exact .inr ⟨hmay, preset, hpreset, fault, h', hfails, hinterrupted⟩

/-- Listeners that do nothing. -/
def unconcerned : Listeners Float Unit where
  clock _ := 0.0
  note _ d := d
  stateChanged _ := pure ()
  completed _ := pure ()

/-- A list of projects' blocks: one block that waits. -/
def waitBlock (id : String) : Data := Sample.block id "wait" "control" 0 0 [] []

/-- A project with a block, a wall and another agent. -/
def aquarium : Data :=
  .record
    [("blocks", .list [waitBlock "w"]), ("obstacles", .list [Sample.wall 3 2]),
     ("agent", .text "fish")]

theorem loadProject_cases_aquarium :
    ∃ h blocks s memory, start (Config.robot : Config Float) () = .ok h ∧
      Block.load aquarium = .ok blocks ∧ surroundingsOf aquarium = .ok s ∧
      s.obstacles.length = 1 ∧ s.agent.map (·.name) = some "Fish" ∧
      loadProject unconcerned aquarium h =
        .ok () ⟨h.executor.furnished s,
          { h.memory with
            blocks, obstacles := s.obstacles, config := s.agent.getD h.memory.config, memory }⟩ := by
  obtain ⟨h, hstart⟩ : ∃ h, start (Config.robot : Config Float) () = .ok h := ⟨_, rfl⟩
  have hapart : Apart False unconcerned :=
    ⟨fun _ d => ⟨d.memory, rfl⟩, fun _ _ _ _ hx => hx⟩
  have hloads : (Block.load aquarium).toOption.isSome = true := by decide +kernel
  have hreads : ((surroundingsOf (R := Float) aquarium).toOption.any fun s =>
      decide (s.obstacles.length = 1 ∧ s.agent.map (·.name) = some "Fish")) = true := by
    decide +kernel
  rcases loadProject_cases unconcerned aquarium h with
    ⟨fault, hblocks, -⟩ | ⟨blocks, fault, -, hs, -⟩ | ⟨blocks, s, hblocks, hs, hinstalls⟩
  · rw [hblocks] at hloads
    cases hloads
  · rw [hs] at hreads
    cases hreads
  · obtain ⟨memory, hrun⟩ := (hinstalls False hapart).resolve_right fun hfails => hfails.1
    rw [hs] at hreads
    obtain ⟨hwall, hfish⟩ := of_decide_eq_true hreads
    exact ⟨h, blocks, s, memory, hstart, hblocks, hs, hwall, hfish, hrun⟩

/-- A project with a block and an obstacle that stands at a number. -/
def misplaced : Data :=
  .record
    [("blocks", .list [waitBlock "new"]),
     ("obstacles", .list [.record [("position", .integer 5)]])]

/-- Loading is not all or nothing: where the obstacles cannot be read, the blocks are new. -/
theorem not_loadProject_all_or_nothing :
    ¬ ∀ (l : Listeners Float Unit) (project : Data) (h : Host Float (Desk Float Unit)),
      (∃ h', loadProject l project h = .ok () h') ∨
        ∃ fault h', loadProject l project h = .error fault h' ∧
          h'.memory.blocks = h.memory.blocks := by
  intro hall
  obtain ⟨h₀, hstart⟩ : ∃ h, start (Config.robot : Config Float) () = .ok h := ⟨_, rfl⟩
  let names (h : Host Float (Desk Float Unit)) : List Text := h.memory.blocks.map Block.id
  have hruns : (Outcome.returned (loadProject unconcerned (.list [waitBlock "old"]) h₀) fun _ h =>
      decide (names h = [("old" : Text)]) &&
        Outcome.failed (loadProject unconcerned misplaced h) fun _ h' =>
          decide (names h' = [("new" : Text)])) = true := by
    cases hstart
    decide +kernel
  obtain ⟨_, h, -, hnames⟩ := Outcome.returned_eq_true.1 hruns
  obtain ⟨hold, hmisplaced⟩ := Bool.and_eq_true_iff.1 hnames
  obtain ⟨fault, h', hfails, hnew⟩ := Outcome.failed_eq_true.1 hmisplaced
  rcases hall unconcerned misplaced h with ⟨h'', hok⟩ | ⟨fault'', h'', hfails'', hsame⟩
  · cases hfails.symm.trans hok
  · cases hfails.symm.trans hfails''
    have hkept : names h' = [("old" : Text)] :=
      (congrArg (List.map Block.id) hsame).trans (of_decide_eq_true hold)
    exact absurd (hkept.symm.trans (of_decide_eq_true hnew)) (by decide)

end Controller

end RobotBlocks
