import RobotBlocks.Proofs.Number.Division
import RobotBlocks.Proofs.Simulation.Completion
import RobotBlocks.Proofs.Simulation.Loading

/-!
# Runs of programs

The controller of a preset agent runs a program that compiles to its end, if every move sets out at an
angle that has a sine and a cosine (`run_completes`): whatever the times of the ticks are, they return,
and as long as the run is not over, none of them has come late enough for the command that is in flight.
A double that is finite has a sine and a cosine; but the angle of a turn is checked to be finite in
degrees, and it can be infinite in radians. The run of a program that moves behind such a turn does not
end (`not_run_completes`).
-/

namespace RobotBlocks

/-! ## Doubles -/

namespace Executor

theorem saturates_float : Saturates Float where
  one_le_one := by decide
  not_lt_one _ h := Float.not_lt_of_le h

/-- The tick comes late enough: the duration of the flight has passed since it set out. -/
def Late (f : Flight Float) (time : Float) : Prop :=
  f.duration.isFinite = true ∧ f.duration ≤ time - f.startTime

/-- A number of at least one is still that when it is brought between zero and one. -/
theorem one_le_clamped {x : Float} (h : (Scalar.ofNat 1 : Float) ≤ x) :
    (Scalar.ofNat 1 : Float) ≤ Scalar.min (Scalar.max x (Scalar.ofNat 0)) (Scalar.ofNat 1) := by
  have hnonneg : ¬ x < (Scalar.ofNat 0 : Float) := fun hneg => by
    have hnumber := (Float.isNaN_of_le h).2
    have hone := (Float.le_iff_rank_le rfl hnumber).1 h
    have hzero := (Float.lt_iff_rank_lt hnumber rfl).1 hneg
    exact absurd ((Float.lt_iff_rank_lt rfl rfl).2 (hone.trans_lt hzero)) (by decide)
  rw [Scalar.max, if_neg hnonneg, Scalar.min]
  split
  · exact saturates_float.one_le_one
  · exact h

/-- **A tick that comes late enough completes the flight.** -/
theorem due_of_late {f : Flight Float} {time : Float} (h : Late f time) : Due f time := by
  obtain ⟨hfinite, hpast⟩ := h
  unfold Due progressAt
  split
  · exact saturates_float.one_le_one
  next hpos =>
    have hnumber := (Float.isNaN_of_le hpast).1
    exact one_le_clamped (Float.one_le_div (Float.lt_of_not_le hnumber rfl hpos) hfinite hpast)

end Executor

/-! ## Controllers of preset agents -/

namespace Controller

open Executor

variable {μ : Type} {l : Listeners Float μ} {c : Config Float} {h : Host Float (Desk Float μ)}

/-- The controller and its executor are set to an agent: to its configuration, to its size and to a
speed that is not too slow for it. -/
structure Serves (c : Config Float) (h : Host Float (Desk Float μ)) : Prop where
  config : h.memory.config = c
  size : AgentSize.ofList c.agentSize = .ok h.executor.scene.agent
  speed : c.minSpeed ≤ h.executor.speed

/-- A new controller is set to its agent. -/
theorem serves_start (hc : c ∈ Config.presets) {memory : μ} (hstart : start c memory = .ok h) :
    Serves c h := by
  obtain ⟨e, he, rfl⟩ := Outcome.map_eq_ok.1 hstart
  obtain ⟨agent, hagent, rfl⟩ := Outcome.map_eq_ok.1 he
  have hspeed : ∀ c ∈ (Config.presets : List (Config Float)), c.minSpeed ≤ c.defaultSpeed := by
    decide
  exact ⟨rfl, hagent, hspeed c hc⟩

/-- Nothing but its heading keeps a preset agent from setting out. -/
theorem Serves.able (hserves : Serves c h) (hc : c ∈ Config.presets) : h.executor.Able := by
  refine ⟨?_, ?_⟩
  · have hpositive : ∀ c ∈ (Config.presets : List (Config Float)),
        (Scalar.ofNat 0 : Float) < c.minSpeed := by decide
    obtain ⟨hmin, hnumber⟩ := Float.isNaN_of_le hserves.speed
    have hzero := (Float.lt_iff_rank_lt rfl hmin).1 (hpositive c hc)
    have hspeed := (Float.le_iff_rank_le hmin hnumber).1 hserves.speed
    rw [← Bool.not_eq_true]
    exact fun hsame =>
      (hzero.trans_le hspeed).ne' ((Float.beq_iff_rank_eq hnumber rfl).1 hsame)
  · have hsize := hserves.size
    unfold AgentSize.ofList at hsize
    split at hsize
    next width height depth _ =>
      rw [← Except.ok.inj hsize]
      exact ⟨height, rfl⟩
    · cases hsize

/-- What a controller does when it is told of a complete command is calm if its listeners are. -/
theorem calm_observing (hl : l.Calm) : (observing l).Calm where
  stateChanged := hl.stateChanged
  completed c x :=
    hl.completed c
      { x with memory := { x.memory with executedSteps := x.memory.executedSteps + 1 } }

/-- Listeners that do nothing are calm. -/
theorem calm_unconcerned : unconcerned.Calm :=
  ⟨fun _ x => ⟨(), x, rfl, rfl⟩, fun _ x => ⟨(), x, rfl, rfl⟩⟩

/-- **Running a program that compiles** is handing in its commands. -/
theorem run_of_outcome (l : Listeners Float μ) {program : Data} {commands : List (Command Float)}
    (hcompile : (Compilation.ofData h.memory.config program).outcome = .ok commands) :
    ∃ x, x.executor = h.executor ∧
      run l (some program) h =
        match execute (observing l) (commands.map .command) x with
        | .ok _ x' => .ok x'.memory.commands x'
        | .error fault x' => .error fault x' := by
  obtain ⟨blocks, hload, houtcome⟩ : ∃ blocks, Block.load program = .ok blocks ∧
      (Compilation.ofBlocks h.memory.config blocks).outcome = .ok commands := by
    rw [Compilation.ofData] at hcompile
    rcases hload : Block.load program with fault | blocks <;> rw [hload] at hcompile
    · cases hcompile
    · exact ⟨blocks, rfl, hcompile⟩
  obtain ⟨d, hcompiled⟩ := compile_of_outcome l
    (h := { h with memory := { h.memory with blocks } }) houtcome
  let x : Host Float (Desk Float μ) := ⟨h.executor, { d with commands, executedSteps := 0 }⟩
  refine ⟨x, rfl, ?_⟩
  have hloaded : run l (some program) h =
      (compile l >>= fun commands => do
        change fun d => { d with commands, executedSteps := 0 }
        execute (observing l) (commands.map .command)
        return (← desk).commands) { h with memory := { h.memory with blocks } } := by
    rw [run, hload]
    rfl
  have hexecutes : run l (some program) h = (do
      execute (observing l) (commands.map .command)
      return (← desk).commands) x := hloaded.trans (run_bind_of_ok hcompiled)
  rw [hexecutes]
  rcases hrun : execute (observing l) (commands.map .command) x with ⟨_, x'⟩ | ⟨fault, x'⟩
  · exact run_bind_of_ok hrun
  · exact run_bind_of_error hrun

/-- **Where running a program leads**: to the end of the run, if there are no commands, to the flight of
the first command, or to a failure if that is a move that cannot set out. -/
theorem run_cases (hc : c ∈ Config.presets) (hl : l.Calm) (hserves : Serves c h) {program : Data}
    {commands : List (Command Float)}
    (hcompile : (Compilation.ofData c program).outcome = .ok commands) :
    (Steady h.executor.robot.heading commands ∧
      ∃ runs h₁, run l (some program) h = .ok runs h₁ ∧ h₁.executor.phase = .idle) ∨
    (∃ runs h₁ f, run l (some program) h = .ok runs h₁ ∧
      h₁.executor.Underway h.executor.robot.heading commands f) ∨
    (¬ Steady h.executor.robot.heading commands ∧
      ∃ h₁, run l (some program) h = .error .outsideDomain h₁ ∧ ¬ h₁.executor.Live) := by
  rw [← hserves.config] at hcompile
  obtain ⟨x, hx, hrun⟩ := run_of_outcome l hcompile
  have hable := hserves.able hc
  rw [← hx] at hable ⊢
  cases execute_cases (calm_observing hl) hable commands with
  | ended hsteady hr hidle =>
    rw [hr] at hrun
    exact .inl ⟨hsteady, _, _, hrun, hidle⟩
  | underway hr hf =>
    rw [hr] at hrun
    exact .inr (.inl ⟨_, _, _, hrun, hf⟩)
  | stranded hsteady hr hlive =>
    rw [hr] at hrun
    exact .inr (.inr ⟨hsteady, _, hrun, hlive⟩)

/-! ## Main result -/

/-- **Which programs run to their end.** Let a controller with calm listeners be set to a preset agent,
and let it run a program that compiles, with ticks at any times. If every move sets out at an angle with
a direction, nothing fails; and behind the ticks either the run is over, or the command in flight is one
of the program's for which no tick has come late enough, and those behind it have still to be made. If
there is a move that sets out at an angle without a direction, the run is never over, and what fails is
this move: it strands the executor. -/
theorem run_completes (hc : c ∈ Config.presets) (hl : l.Calm) (hserves : Serves c h)
    {program : Data} {commands : List (Command Float)}
    (hcompile : (Compilation.ofData c program).outcome = .ok commands) :
    (Steady h.executor.robot.heading commands →
      ∃ runs h₁, run l (some program) h = .ok runs h₁ ∧ ∀ times,
        ∃ h₂, ticks (observing l) times h₁ = .ok () h₂ ∧
          (h₂.executor.phase = .idle ∨ ∃ f, h₂.executor.flight = some f ∧
            f.command :: h₂.executor.queue <:+ commands ∧
            NoneLate Late (observing l) times h₁ f)) ∧
    (¬ Steady h.executor.robot.heading commands →
      (∃ h₁, run l (some program) h = .error .outsideDomain h₁ ∧ ¬ h₁.executor.Live) ∨
      ∃ runs h₁, run l (some program) h = .ok runs h₁ ∧ ∀ times,
        (∃ h₂, ticks (observing l) times h₁ = .ok () h₂ ∧ h₂.executor.phase = .running) ∨
        ∃ h₂, ticks (observing l) times h₁ = .error .outsideDomain h₂ ∧ ¬ h₂.executor.Live) := by
  rcases run_cases hc hl hserves hcompile with
    ⟨hsteady, runs, h₁, hrun, hidle⟩ | ⟨runs, h₁, f, hrun, hf⟩ | ⟨hnot, h₁, hrun, hlive⟩
  · refine ⟨fun _ => ⟨runs, h₁, hrun, fun times => ?_⟩, fun hnot => absurd hsteady hnot⟩
    exact ⟨h₁, ticks_of_idle times hidle, .inl hidle⟩
  · have hticks := ticks_cases (calm_observing hl) saturates_float hf
    refine ⟨fun hsteady => ⟨runs, h₁, hrun, fun times => ?_⟩,
      fun hnot => .inr ⟨runs, h₁, hrun, fun times => ?_⟩⟩
    · cases hticks times with
      | ended _ hr hidle => exact ⟨_, hr, .inl hidle⟩
      | underway hr hg hnone =>
        exact ⟨_, hr, .inr ⟨_, hg.flight, hg.left, hnone.2.mono fun _ _ => due_of_late⟩⟩
      | stranded hnot => exact absurd hsteady hnot
    · cases hticks times with
      | ended hsteady => exact absurd hsteady hnot
      | underway hr hg => exact .inl ⟨_, hr, hg.running⟩
      | stranded _ hr hlive => exact .inr ⟨_, hr, hlive⟩
  · exact ⟨fun hsteady => absurd hsteady hnot, fun _ => .inl ⟨h₁, hrun, hlive⟩⟩

/-- A program of three blocks that stand apart, with a turn between two moves. -/
def errand : Data :=
  .list
    [Sample.block "m" "moveForward" "motion" 0 0 [] [],
     Sample.block "t" "turnRight" "motion" 0 40 [] [],
     Sample.block "b" "moveBackward" "motion" 0 80 [] []]

/-- The box robot moves, turns and moves back; nothing fails on the way. -/
theorem run_completes_errand :
    ∃ h commands, start (Config.robot : Config Float) () = .ok h ∧
      (Compilation.ofData Config.robot errand).outcome = .ok commands ∧ commands.length = 3 ∧
      Steady h.executor.robot.heading commands ∧
      ∃ runs h₁, run unconcerned (some errand) h = .ok runs h₁ ∧ ∀ times,
        ∃ h₂, ticks (observing unconcerned) times h₁ = .ok () h₂ ∧
          (h₂.executor.phase = .idle ∨ ∃ f, h₂.executor.flight = some f ∧
            f.command :: h₂.executor.queue <:+ commands ∧
            NoneLate Late (observing unconcerned) times h₁ f) := by
  have hrobot : (Config.robot : Config Float) ∈ Config.presets := by simp [Config.presets]
  obtain ⟨h, hstart⟩ : ∃ h, start (Config.robot : Config Float) () = .ok h := ⟨_, rfl⟩
  have hcompiles : ((Compilation.ofData (Config.robot : Config Float) errand).outcome.toOption.any
      fun commands => decide (commands.length = 3 ∧ Steady h.executor.robot.heading commands)) =
        true := by
    cases hstart
    decide +kernel
  obtain ⟨commands, hcompile, hcommands⟩ := Outcome.any_toOption.1 hcompiles
  obtain ⟨hthree, hsteady⟩ := of_decide_eq_true hcommands
  exact ⟨h, commands, hstart, hcompile, hthree, hsteady,
    (run_completes hrobot calm_unconcerned (serves_start hrobot hstart) hcompile).1 hsteady⟩

/-- A program that moves behind a turn of very many degrees. -/
def whirl : Data :=
  .list
    [Sample.block "t" "turnRight" "motion" 0 0 [("degrees", .real 1e308)] [],
     Sample.block "m" "moveForward" "motion" 0 40 [("steps", .integer 0)] []]

/-- Not every program that compiles runs without failing: the box robot turns by an angle that is
infinite in radians, and cannot move in that direction. -/
theorem not_run_completes :
    ¬ ∀ (c : Config Float) (l : Listeners Float Unit) (h : Host Float (Desk Float Unit))
      (program : Data) (commands : List (Command Float)) (times : List Float),
      c ∈ Config.presets → l.Calm → start c () = .ok h →
        (Compilation.ofData c program).outcome = .ok commands →
          times.all Float.isFinite → times.Pairwise (· ≤ ·) →
            ∃ runs h₁ h₂, run l (some program) h = .ok runs h₁ ∧
              ticks (observing l) times h₁ = .ok () h₂ := by
  intro hall
  have hrobot : (Config.robot : Config Float) ∈ Config.presets := by simp [Config.presets]
  obtain ⟨h, hstart⟩ : ∃ h, start (Config.robot : Config Float) () = .ok h := ⟨_, rfl⟩
  have hcompiles : ((Compilation.ofData (Config.robot : Config Float) whirl).outcome.toOption.any
      fun _ => true) = true := by decide +kernel
  obtain ⟨commands, hcompile, -⟩ := Outcome.any_toOption.1 hcompiles
  -- After a second the turn is over, and the move cannot set out.
  have hfails : (Outcome.returned (run unconcerned (some whirl) h) fun _ h₁ =>
      Outcome.failed (ticks (observing unconcerned) [1000.0] h₁) fun fault _ =>
        decide (fault = .outsideDomain)) = true := by
    cases hstart
    decide +kernel
  obtain ⟨runs, h₁, hrun, htick⟩ := Outcome.returned_eq_true.1 hfails
  obtain ⟨fault, h₂, hfault, -⟩ := Outcome.failed_eq_true.1 htick
  obtain ⟨runs', h₁', h₂', hrun', hticks⟩ := hall _ _ _ _ _ [1000.0] hrobot calm_unconcerned
    hstart hcompile (by decide +kernel) (List.pairwise_singleton _ _)
  cases hrun.symm.trans hrun'
  cases hfault.symm.trans hticks

end Controller

end RobotBlocks
