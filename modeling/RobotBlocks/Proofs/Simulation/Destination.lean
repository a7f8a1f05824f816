import RobotBlocks.Proofs.Motion.Easing
import RobotBlocks.Proofs.Simulation.Ticks

/-!
# Where a run ends

In exact numbers and with nothing in the way, the pose of the robot at the end of a run depends on
its commands only (`pose_at_rest`): neither the times of the ticks nor their number nor the speeds
matter. The pose is the one that the commands lead to one after the other (`Pose.afterAll`).

`OnCourse` is the invariant: from where the flight under way leads to, the commands of the queue
lead to the pose at the end. A flight is complete when all of it is made, and then the robot is
exactly where the flight leads (`OnCourse.arrived`), whatever was shown before.
-/

namespace RobotBlocks

/-! ## Poses -/

/-- Where the robot is and which way it faces. -/
structure Pose (R : Type) where
  position : Point R
  heading : R

/-- The pose of the robot at one moment. -/
def Robot.pose {R : Type} (r : Robot R) : Pose R := ⟨r.position, r.heading⟩

namespace Pose

variable {R : Type} [Scalar R]

/-- The pose moved over the ground. -/
def shifted (p : Pose R) (offset : R × R) : Pose R :=
  { p with position := ⟨p.position.x + offset.1, p.position.y, p.position.z + offset.2⟩ }

/-- The pose to which a command leads, with so many units to a step. -/
def after (unit : R) (p : Pose R) (c : Command R) : Except Fault (Pose R) :=
  match c.movement with
  | .forward => (forwardOffset p.heading (c.value * unit)).map p.shifted
  | .backward => (forwardOffset p.heading (-(c.value * unit))).map p.shifted
  | .turnRight => .ok { p with heading := p.heading + toRadians c.value }
  | .turnLeft => .ok { p with heading := p.heading - toRadians c.value }
  | .wait => .ok p

/-- The pose to which commands lead one after the other. -/
def afterAll (unit : R) (p : Pose R) (commands : List (Command R)) : Except Fault (Pose R) :=
  commands.foldlM (after unit) p

theorem afterAll_cons {unit : R} {p p' : Pose R} {c : Command R} (h : p.after unit c = .ok p')
    (rest : List (Command R)) : p.afterAll unit (c :: rest) = p'.afterAll unit rest := by
  rw [afterAll, List.foldlM_cons, h]
  rfl

end Pose

variable {K μ : Type} [Field K] [LinearOrder K] [IsStrictOrderedRing K] [Measures K]

/-- The pose to which a flight leads. -/
def Flight.destination (f : Flight K) : Pose K :=
  ⟨Executor.positionAt f 1, f.startHeading + f.turn⟩

namespace Executor

/-- What is left to do leads to the given pose: once the executor is at rest the robot has it, and
with a flight under way the commands behind lead from its destination to it. What a flight does not
change is already as it is at its destination. -/
structure OnCourse (unit : K) (goal : Except Fault (Pose K)) (e : Executor K) : Prop where
  bare : e.scene.obstacles = []
  scale : e.config.unitsPerStep = unit
  rest : e.phase = .idle → goal = .ok e.robot.pose
  ahead : e.phase = .running → ∀ f, e.flight = some f → f.destination.afterAll unit e.queue = goal
  level : ∀ f, e.flight = some f → f.command.movement.isMove = false →
    e.robot.position = f.destination.position
  straight : ∀ f, e.flight = some f → f.command.movement.isTurn = false →
    e.robot.heading = f.destination.heading

/-- The next command is about to be started, from where the rest of the commands leads to the given
pose. -/
structure AtStart (unit : K) (goal : Except Fault (Pose K)) (e : Executor K) : Prop where
  bare : e.scene.obstacles = []
  scale : e.config.unitsPerStep = unit
  running : e.phase = .running
  flight : e.flight = none
  ahead : e.robot.pose.afterAll unit e.queue = goal

variable {unit : K} {goal : Except Fault (Pose K)} {e e' : Executor K} {f : Flight K} {time : K}

/-! ## Steps -/

omit [IsStrictOrderedRing K] in
/-- **A flight leads to where its command does**, and what the command does not change is there
already. -/
theorem SetsOut.destination_eq {c : Command K} (h : e.SetsOut c time f) :
    e.robot.pose.after e.config.unitsPerStep c = .ok f.destination ∧
    (f.command.movement.isMove = false → e.robot.position = f.destination.position) ∧
    (f.command.movement.isTurn = false → e.robot.heading = f.destination.heading) := by
  cases h with
  | forward hc hoffset | backward hc hoffset =>
    refine ⟨?_, ?_, ?_⟩
    · simp [Pose.after, Pose.shifted, hc, Robot.pose, hoffset, Except.map, Flight.destination,
        outset, positionAt]
    · simp [outset, hc, Movement.isMove]
    · intro
      simp [outset, Flight.destination]
  | turnRight hc | turnLeft hc =>
    refine ⟨?_, ?_, ?_⟩
    · simp [Pose.after, hc, Robot.pose, Flight.destination, outset, positionAt, sub_eq_add_neg]
    · intro
      simp [outset, Flight.destination, positionAt]
    · simp [outset, hc, Movement.isTurn]
  | wait hc =>
    refine ⟨?_, ?_, ?_⟩
    · simp [Pose.after, hc, Robot.pose, Flight.destination, outset, positionAt]
    · intro
      simp [outset, Flight.destination, positionAt]
    · intro
      simp [outset, Flight.destination]

omit [IsStrictOrderedRing K] in
/-- **Starting the next command** leaves what is left to do. -/
theorem AtStart.continues (h : e.AtStart unit goal) (hnext : e.Continues time e') :
    e'.OnCourse unit goal := by
  cases hnext with
  | finished hqueue =>
    refine ⟨h.bare, h.scale, fun _ => ?_, ?_, ?_, ?_⟩
    · have hahead := h.ahead
      rw [hqueue] at hahead
      exact hahead.symm
    all_goals simp [finished]
  | launched hqueue hprepare =>
    obtain ⟨hafter, hlevel, hstraight⟩ := (setsOut_of_prepare hprepare).destination_eq
    have hahead := h.ahead
    rw [hqueue, ← h.scale, Pose.afterAll_cons hafter] at hahead
    refine ⟨h.bare, h.scale, fun hidle => ?_, fun _ f hf => ?_, fun f hf => ?_, fun f hf => ?_⟩
    · simp [launched, h.running] at hidle
    all_goals cases hf
    · exact h.scale ▸ hahead
    · exact hlevel
    · exact hstraight
  | lost hqueue =>
    refine ⟨h.bare, h.scale, fun hidle => ?_, ?_, ?_, ?_⟩
    · simp [h.running] at hidle
    all_goals simp [h.flight]

namespace OnCourse

/-- **Following the flight** leaves what is left to do. Once all of the flight is made, the robot is
exactly where it leads. -/
theorem follow {progress made : K} (h : e.OnCourse unit goal) (hrun : e.phase = .running)
    (hf : e.flight = some f) (hfollows : e.Follows f progress e' made) :
    e'.OnCourse unit goal ∧ (Scalar.ofNat 1 ≤ made → e'.landed.AtStart unit goal) := by
  have hrest : e.phase ≠ .idle := by simp [hrun]
  -- It is enough that the robot arrives at the destination.
  have hstart : ∀ {e' : Executor K}, e'.OnCourse unit goal → e'.phase = .running →
      e'.flight = some f → e'.robot.pose = f.destination → e'.landed.AtStart unit goal :=
    fun h' hrun' hf' hpose => ⟨h'.bare, h'.scale, hrun', rfl, hpose ▸ h'.ahead hrun' f hf'⟩
  have hwhole : Scalar.ofNat 1 ≤ progress → ease progress = 1 := fun hle =>
    ease_of_one_le (by simpa using hle)
  cases hfollows with
  | arrive hmove hsweep =>
    have hturn : f.command.movement.isTurn = false := by
      generalize f.command.movement = movement at hmove
      cases movement <;> simp_all [Movement.isMove, Movement.isTurn]
    have hcourse : (e.moved (positionAt f (ease progress))).OnCourse unit goal :=
      ⟨h.bare, h.scale, fun hidle => absurd hidle hrest, h.ahead,
        fun f' hf' hstill => by cases hf.symm.trans hf'; simp [hmove] at hstill, h.straight⟩
    refine ⟨hcourse, fun hmade => hstart hcourse hrun hf ?_⟩
    have hposition : positionAt f (ease progress) = f.destination.position := by
      rw [hwhole hmade, Flight.destination]
    exact congrArg₂ Pose.mk hposition (h.straight f hf hturn)
  | halt hmove hsweep => simp [Scene.sweep, Scene.tagged, h.bare] at hsweep
  | rotate hmove hturn =>
    have hcourse : (e.turned (f.startHeading + f.turn * ease progress)).OnCourse unit goal :=
      ⟨h.bare, h.scale, fun hidle => absurd hidle hrest, h.ahead, h.level,
        fun f' hf' hstill => by cases hf.symm.trans hf'; simp [hturn] at hstill⟩
    refine ⟨hcourse, fun hmade => hstart hcourse hrun hf ?_⟩
    have hheading : f.startHeading + f.turn * ease progress = f.destination.heading := by
      rw [hwhole hmade, Flight.destination]
      ring
    exact congrArg₂ Pose.mk (h.level f hf hmove) hheading
  | wait hmove hturn =>
    exact ⟨h, fun _ => hstart h hrun hf
      (congrArg₂ Pose.mk (h.level f hf hmove) (h.straight f hf hturn))⟩

/-- **A tick** leaves what is left to do. -/
theorem tick (h : e.OnCourse unit goal) (htick : e.Ticks time e') : e'.OnCourse unit goal := by
  cases htick with
  | unmoved => exact h
  | followed hrun hf hfollows => exact (h.follow hrun hf hfollows).1
  | landed hrun hf hfollows hmade =>
    have hstart := (h.follow hrun hf hfollows).2 hmade
    exact ⟨hstart.bare, hstart.scale, by simp [hstart.running], by simp [landed], by simp [landed],
      by simp [landed]⟩
  | continued hrun hf hfollows hmade hnext =>
    exact ((h.follow hrun hf hfollows).2 hmade).continues hnext

omit [IsStrictOrderedRing K] in
/-- The speed is not part of what is left to do. -/
theorem paced (h : e.OnCourse unit goal) (speed : K) : (e.paced speed).OnCourse unit goal :=
  ⟨h.bare, h.scale, h.rest, h.ahead, h.level, h.straight⟩

end OnCourse

/-! ## Runs -/

end Executor

/-- The requests that let time pass and set the speed. -/
def Request.Times {R : Type} : Request R → Prop
  | .tick _ | .setSpeed _ | .setSpeedData _ => True
  | .execute _ | .pause | .resume | .stop | .reset | .setInitial .. | .setObstacles _
  | .setAgentSize _ => False

/-- A run from one host to another: commands are handed in, and then time passes and the speed is
set, in any way. Also requests that fail are part of the run. -/
def Runs {R μ : Type} [Scalar R] (o : Observers R μ) (commands : List (Command R))
    (h h' : Host R μ) : Prop :=
  ∃ h₀, (Executor.execute o (commands.map .command)).LeadsTo h h₀ ∧
    Served Request.Times True o h₀ h'

/-- A run made by the requests of a list. -/
theorem Runs.of_makeAll {R μ : Type} [Scalar R] {o : Observers R μ} {commands : List (Command R)}
    {requests : List (Request R)} {h h' : Host R μ} (hrequests : ∀ r ∈ requests, r.Times)
    (hrun : (do
      Executor.execute o (commands.map .command)
      Request.makeAll o requests : Operation R μ Unit) h = .ok () h') : Runs o commands h h' := by
  simp only [Bind.bind, EStateM.bind] at hrun
  split at hrun
  next a h₀ hexecute => exact ⟨h₀, .inl ⟨a, hexecute⟩, .of_makeAll .start hrequests hrun⟩
  · cases hrun

namespace Executor

variable {o : Observers K μ}

/-- **What is left to do during a run** leads to where all commands lead. -/
theorem onCourse_of_runs (ho : o.Passive) {commands : List (Command K)} {h h' : Host K μ}
    (hbare : h.executor.scene.obstacles = []) (hruns : Runs o commands h h') :
    h'.executor.OnCourse h.executor.config.unitsPerStep
      (h.executor.robot.pose.afterAll h.executor.config.unitsPerStep commands) := by
  obtain ⟨h₀, hexecute, hserved⟩ := hruns
  have hstart : (h.executor.loaded commands).AtStart h.executor.config.unitsPerStep
      (h.executor.robot.pose.afterAll h.executor.config.unitsPerStep commands) :=
    ⟨hbare, rfl, rfl, rfl, rfl⟩
  obtain ⟨time, hcontinues⟩ := (continues_execute ho commands).leadsTo rfl hexecute
  refine hserved.keeps (hstart.continues hcontinues) (fun _ _ h => h) fun r hr => ?_
  cases r with
  | tick time? =>
    exact .bind (keeps_ticks ho (fun _ _ _ h htick => h.tick htick) time?) fun _ => .done
  | setSpeed value => exact .bind (keeps_setSpeed ho (fun _ _ h => h.paced _) value) fun _ => .done
  | setSpeedData value =>
    exact .bind (keeps_setSpeedData ho (fun _ _ h => h.paced _) value) fun _ => .done
  | execute | pause | resume | stop | reset | setInitial | setObstacles | setAgentSize =>
    exact hr.elim

/-- **Without obstacles the pose at the end depends on the commands only.** Two runs of the same
commands from the same pose, on executors with the same length of a step, end with the same pose if
both come to rest: the one to which the commands lead one after the other. The runs may differ in
their observers, in the times and the number of ticks and in the speeds, from the beginning on and
whenever they are set. -/
theorem pose_at_rest {μ' : Type} {o' : Observers K μ'} (ho : o.Passive) (ho' : o'.Passive)
    {commands : List (Command K)} {h host : Host K μ} {h' host' : Host K μ'}
    (hbare : h.executor.scene.obstacles = []) (hbare' : h'.executor.scene.obstacles = [])
    (hpose : h'.executor.robot.pose = h.executor.robot.pose)
    (hunit : h'.executor.config.unitsPerStep = h.executor.config.unitsPerStep)
    (hruns : Runs o commands h host) (hruns' : Runs o' commands h' host')
    (hidle : host.executor.phase = .idle) (hidle' : host'.executor.phase = .idle) :
    h.executor.robot.pose.afterAll h.executor.config.unitsPerStep commands =
      .ok host.executor.robot.pose ∧
    host'.executor.robot.pose = host.executor.robot.pose := by
  have hgoal := (onCourse_of_runs ho hbare hruns).rest hidle
  have hgoal' := (onCourse_of_runs ho' hbare' hruns').rest hidle'
  rw [hpose, hunit, hgoal] at hgoal'
  exact ⟨hgoal, (Except.ok.inj hgoal').symm⟩

/-! ## Two runs of one program -/

/-- Forwards, a part of the way back, a turn and a rest. -/
def stroll : List (Command ℚ) :=
  [⟨.forward, 30, 1000, none⟩, ⟨.backward, 10, 400, none⟩, ⟨.turnRight, 90, 500, none⟩, waitFor 1]

/-- Walked at normal speed with late ticks and at changing speeds with many ticks, some of them
backwards in time, the stroll ends in the same place. -/
theorem pose_at_rest_stroll :
    ∃ e : Executor ℚ, ∃ host host' : Host ℚ Unit, Executor.start Config.robot [] = .ok e ∧
      onlookers.Passive ∧ e.scene.obstacles = [] ∧
      (e.paced 2).scene.obstacles = [] ∧ (e.paced 2).robot.pose = e.robot.pose ∧
      (e.paced 2).config.unitsPerStep = e.config.unitsPerStep ∧
      Runs onlookers stroll ⟨e, ()⟩ host ∧ Runs onlookers stroll ⟨e.paced 2, ()⟩ host' ∧
      host.executor.phase = .idle ∧ host'.executor.phase = .idle ∧
      host.executor.robot.position = ⟨0, 0, 2⟩ ∧
      e.robot.pose.afterAll e.config.unitsPerStep stroll = .ok host.executor.robot.pose ∧
      host'.executor.robot.pose = host.executor.robot.pose := by
  obtain ⟨e, hstart⟩ : ∃ e, Executor.start (Config.robot : Config ℚ) [] = .ok e := ⟨_, rfl⟩
  have hpassive : onlookers.Passive := ⟨fun _ _ _ hx => hx, fun _ _ _ hx => hx⟩
  have hbare : e.scene.obstacles = [] := by
    cases hstart
    rfl
  let late : List (Request ℚ) := [2000, 4000, 6000, 8000].map fun time => .tick (some time)
  let often : List (Request ℚ) :=
    [.tick (some 200), .tick (some 100), .setSpeed (1 / 2), .tick (some 499), .tick (some 500),
      .tick (some 1299), .tick (some 1300), .tick (some 3000), .setSpeed 3, .tick (some 9000)]
  let run (requests : List (Request ℚ)) : Operation ℚ Unit Unit := do
    execute onlookers (stroll.map .command)
    Request.makeAll onlookers requests
  have hok : Outcome.returned (run late ⟨e, ()⟩) fun _ host =>
      Outcome.returned (run often ⟨e.paced 2, ()⟩) fun _ host' =>
        decide (host.executor.phase = .idle ∧ host'.executor.phase = .idle ∧
          host.executor.robot.position = ⟨0, 0, 2⟩) := by
    cases hstart
    decide +kernel
  obtain ⟨_, host, hrun, hok⟩ := Outcome.returned_eq_true.1 hok
  obtain ⟨_, host', hrun', hok⟩ := Outcome.returned_eq_true.1 hok
  obtain ⟨hidle, hidle', hplace⟩ := of_decide_eq_true hok
  have hruns : Runs onlookers stroll ⟨e, ()⟩ host :=
    .of_makeAll (by simp [late, Request.Times]) hrun
  have hruns' : Runs onlookers stroll ⟨e.paced 2, ()⟩ host' :=
    .of_makeAll (by simp [often, Request.Times]) hrun'
  have hpose : (e.paced 2).robot.pose = e.robot.pose := rfl
  have hunit : (e.paced 2).config.unitsPerStep = e.config.unitsPerStep := rfl
  exact ⟨e, host, host', hstart, hpassive, hbare, hbare, hpose, hunit, hruns, hruns', hidle, hidle',
    hplace, pose_at_rest hpassive hpassive hbare hbare hpose hunit hruns hruns' hidle hidle'⟩

end Executor

end RobotBlocks
