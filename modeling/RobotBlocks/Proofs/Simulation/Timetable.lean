import Mathlib.Tactic.IntervalCases
import Mathlib.Tactic.NormNum
import RobotBlocks.Program.Build
import RobotBlocks.Project.Sample
import RobotBlocks.Proofs.Simulation.Completion
import RobotBlocks.Proofs.Simulation.Destination
import RobotBlocks.Proofs.Simulation.Tally

/-!
# The timetable of a run

The figures of a build are sums over its commands. An executor never adds anything up: it follows one
flight after the other in time. In exact numbers, at speed one and with nothing in the way, the figures
say all the same what a run of the commands will be like (`figures_predict_run`).

* `instant start commands k` is when the first `k` commands are over by the figures; the ticks of
  `timetable` are at these instants, with as many early ones between them as anyone likes.
* `OnTime time commands e`: the commands are ahead of the executor, and the first one of them has set
  out at the given time. An early tick keeps this (`OnTime.early`), and one at the end of the flight
  leads to the next command, which sets out at that time (`OnTime.due`).
* What a tick completes is what is then no longer ahead (`ahead_tick`).
-/

namespace RobotBlocks

/-! ## Figures as sums -/

section Figures

variable {K : Type} [Field K] [LinearOrder K] [Measures K]

/-- The degrees that a command turns to the right. -/
def Command.degrees (c : Command K) : K :=
  match c.movement with
  | .turnRight => c.value
  | .turnLeft => -c.value
  | .forward | .backward | .wait => 0

theorem Build.total_eq_sum {change : K → Command K → K} (amount : Command K → K)
    (h : ∀ sum c, change sum c = sum + amount c) (commands : List (Command K)) :
    Build.total commands change = (commands.map amount).sum := by
  have hall : ∀ sum, commands.foldl change sum = sum + (commands.map amount).sum := by
    induction commands with
    | nil => simp
    | cons c rest ih =>
      intro sum
      rw [List.foldl_cons, ih, h, List.map_cons, List.sum_cons, add_assoc]
  simpa [Build.total] using hall (Scalar.ofNat 0)

theorem Build.rotation_eq_sum (b : Build K) :
    b.figures.rotation = (b.commands.map Command.degrees).sum := by
  refine Build.total_eq_sum _ (fun sum c => ?_) b.commands
  obtain ⟨movement, value, duration, source⟩ := c
  cases movement <;> simp [Command.degrees, sub_eq_add_neg]

/-- A command turns the robot by its degrees. -/
theorem Pose.heading_after {unit : K} {p p' : Pose K} {c : Command K}
    (h : p.after unit c = .ok p') : p'.heading = p.heading + toRadians c.degrees := by
  unfold Pose.after at h
  unfold Command.degrees
  split at h
  case h_1 hc | h_2 hc =>
    obtain ⟨offset, -, rfl⟩ := Outcome.map_eq_ok.1 h
    simp [hc, Pose.shifted, toRadians]
  case h_3 hc =>
    cases h
    simp [hc]
  case h_4 hc =>
    cases h
    simp [hc, toRadians, sub_eq_add_neg, neg_div]
  case h_5 hc =>
    cases h
    simp [hc, toRadians]

/-- **Commands turn the robot by the sum of their degrees.** -/
theorem Pose.heading_afterAll {unit : K} {p p' : Pose K} {commands : List (Command K)}
    (h : p.afterAll unit commands = .ok p') :
    p'.heading = p.heading + toRadians (commands.map Command.degrees).sum := by
  induction commands generalizing p with
  | nil =>
    cases h
    simp [toRadians]
  | cons c rest ih =>
    obtain ⟨between, hafter, hrest⟩ := Outcome.bind_eq_ok.1 h
    rw [ih hrest, Pose.heading_after hafter]
    simp only [toRadians, List.map_cons, List.sum_cons]
    ring

end Figures

/-! ## Instants -/

section Instants

variable {R K : Type} [Scalar R] [Field K] [LinearOrder K] [Measures K]

/-- When the first so many commands of a run are over, if it begins at the given time. -/
def instant (start : R) (commands : List (Command R)) (k : ℕ) : R :=
  start + Build.total (commands.take k) fun sum c => sum + c.duration

/-- The visits to a run for one of its commands: early ones at the given times, at which nothing is
complete, and one at its end, at which the command is. -/
def visits (start : R) (commands : List (Command R)) (early : ℕ → List R) :
    Command R × ℕ → List (R × List (Command R))
  | (c, k) => (early k).map (fun time => (time, [])) ++ [(instant start commands (k + 1), [c])]

/-- The visits to a run for all its commands. -/
def timetable (start : R) (commands : List (Command R)) (early : ℕ → List R) :
    List (R × List (Command R)) :=
  commands.zipIdx.flatMap (visits start commands early)

/-- By the timetable all commands are completed, in their order. -/
theorem completed_timetable (start : R) (commands : List (Command R)) (early : ℕ → List R) :
    (timetable start commands early).flatMap Prod.snd = commands := by
  have hvisits : ∀ visited : Command R × ℕ,
      (visits start commands early visited).flatMap Prod.snd = [visited.1] := by
    rintro ⟨c, k⟩
    simp [visits, List.flatMap_map]
  calc (timetable start commands early).flatMap Prod.snd
      = commands.zipIdx.flatMap fun visited => [visited.1] := by
        rw [timetable, List.flatMap_assoc]
        exact List.flatMap_congr fun visited _ => hvisits visited
    _ = commands := by simp [← List.map_eq_flatMap]

theorem instant_length (start : K) (b : Build K) :
    instant start b.commands b.commands.length = start + b.figures.duration := by
  rw [instant, List.take_length]
  rfl

theorem instant_eq_sum (start : K) (commands : List (Command K)) (k : ℕ) :
    instant start commands k = start + ((commands.map Command.duration).take k).sum := by
  rw [instant, Build.total_eq_sum Command.duration fun _ _ => rfl, List.map_take]

/-- The next command takes its duration. -/
theorem instant_succ (start : K) (before : List (Command K)) (c : Command K)
    (rest : List (Command K)) :
    instant start (before ++ c :: rest) (before.length + 1) =
      instant start (before ++ c :: rest) before.length + c.duration := by
  have htake : (before ++ c :: rest).take (before.length + 1) = before ++ [c] := by
    rw [List.take_length_add_append]
    rfl
  simp only [instant_eq_sum, ← List.map_take, htake, List.take_left]
  simp [add_assoc]

end Instants

namespace Executor

/-! ## Flights on time -/

section Flights

variable {K μ : Type} [Field K] [LinearOrder K] [Measures K]

/-- A scene without obstacles has none in the way of a move, -/
theorem sweep_of_bare {s : Scene K} (h : s.obstacles = []) (start finish : Point K)
    (ignored : List ℕ) : s.sweep start finish ignored = .ok none := by
  simp [Scene.sweep, Scene.tagged, h]

/-- and at speed one every command sets out in it, if every angle has a direction. -/
theorem prepare_of_bare {e : Executor K} (hbare : e.scene.obstacles = []) (hspeed : e.speed = 1)
    (hangles : ∀ angle : K, (direction? angle).isSome) (c : Command K) (time : K) :
    ∃ f, e.prepare c time = .ok f := by
  have hgoes : (e.speed == (Scalar.ofNat 0 : K)) = false := by
    rw [← Bool.not_eq_true, Scalar.beq_iff, hspeed]
    simp
  have hnone : e.scene.overlapping e.robot.position = .ok [] := by
    simp [Scene.overlapping, hbare]
  exact exists_prepare hgoes ⟨[], hnone⟩ time fun _ => hangles _

/-- A flight begins when its command sets out, and takes the duration of the command at that speed. -/
theorem SetsOut.times {e : Executor K} {c : Command K} {time : K} {f : Flight K}
    (h : e.SetsOut c time f) : f.startTime = time ∧ f.duration = c.duration / e.speed := by
  cases h <;> exact ⟨rfl, rfl⟩

/-- At speed one and without obstacles, the command is in flight since the given time, with the others
behind it. -/
structure Flying (time : K) (c : Command K) (rest : List (Command K)) (f : Flight K)
    (e : Executor K) : Prop where
  bare : e.scene.obstacles = []
  speed : e.speed = 1
  running : e.phase = .running
  flight : e.flight = some f
  queue : e.queue = rest
  command : f.command = c
  startTime : f.startTime = time
  duration : f.duration = c.duration

/-- The first one of the commands is flying since the given time; without any the executor is at rest.
-/
inductive OnTime (time : K) : List (Command K) → Executor K → Prop
  | ended {e : Executor K} (hidle : e.phase = .idle) (hflight : e.flight = none)
    (hqueue : e.queue = []) : OnTime time [] e
  | flying {e : Executor K} {c : Command K} {rest : List (Command K)} {f : Flight K}
    (h : e.Flying time c rest f) : OnTime time (c :: rest) e

variable {time : K} {c : Command K} {rest commands : List (Command K)} {f : Flight K}

omit [LinearOrder K] [Measures K] in
theorem OnTime.ahead_eq {e : Executor K} (h : e.OnTime time commands) : e.ahead = commands := by
  cases h with
  | ended _ hflight hqueue => rw [ahead_of_none hflight, hqueue]
  | flying h => rw [ahead_of_some h.flight, h.command, h.queue]

omit [LinearOrder K] [Measures K] in
theorem OnTime.orderly {e : Executor K} (h : e.OnTime time commands) : e.Orderly := by
  cases h with
  | ended hidle hflight hqueue => exact ⟨by simp [hflight], fun _ => hqueue⟩
  | flying h => exact ⟨fun _ => h.running, by simp [h.running]⟩

/-- A tick completes the commands that are not on time behind it. -/
theorem OnTime.completed {o : Observers K μ} (ho : o.Passive) {x x' : Host K μ} {now later : K}
    {left : List (Command K)} (h : x.executor.OnTime time commands)
    (htick : tick o (some now) x = .ok () x') (h' : x'.executor.OnTime later left) :
    commands = (Request.tick (some now)).completions o x ++ left := by
  have hahead := ahead_tick ho h.orderly htick
  rwa [h.ahead_eq, h'.ahead_eq] at hahead

/-- With nothing in its way a flight is followed as far as its progress goes. -/
theorem Flying.follows {e : Executor K} (h : e.Flying time c rest f) (progress : K) :
    ∃ e', e.Follows f progress e' progress ∧ e'.Flying time c rest f := by
  rcases hmove : f.command.movement.isMove with _ | _
  · rcases hturn : f.command.movement.isTurn with _ | _
    · exact ⟨e, .wait hmove hturn, h⟩
    · exact ⟨_, .rotate hmove hturn, h.bare, h.speed, h.running, h.flight, h.queue, h.command,
        h.startTime, h.duration⟩
  · exact ⟨_, .arrive hmove (sweep_of_bare h.bare _ _ _), h.bare, h.speed, h.running, h.flight,
      h.queue, h.command, h.startTime, h.duration⟩

/-! ## At the end of a flight -/

/-- At its end a flight has made all of its progress. -/
theorem progressAt_end (f : Flight K) :
    (Scalar.ofNat 1 : K) ≤ progressAt f (f.startTime + f.duration) := by
  unfold progressAt
  split
  · exact le_rfl
  next hlong =>
    have hpos : 0 < f.duration := by simpa using hlong
    simp [hpos.ne']

section Ends

variable {o : Observers K μ} (ho : o.Calm) (hangles : ∀ angle : K, (direction? angle).isSome)
  {x : Host K μ}
include ho hangles

/-- **Starting the next command** puts it on time. -/
theorem onTime_startNext (hbare : x.executor.scene.obstacles = []) (hspeed : x.executor.speed = 1)
    (hrun : x.executor.phase = .running) (time : K) :
    ∃ x', startNext o time x = .ok () x' ∧ x'.executor.OnTime time x.executor.queue := by
  rcases hqueue : x.executor.queue with _ | ⟨c, rest⟩
  · obtain ⟨x', hstart, hx'⟩ := (startNext_of_nil ho time hqueue).unit
    refine ⟨x', hstart, ?_⟩
    rw [hx']
    exact .ended rfl rfl hqueue
  · obtain ⟨f, hf⟩ := prepare_of_bare (e := { x.executor with queue := rest }) hbare hspeed hangles c
      time
    obtain ⟨x', hstart, hx'⟩ := (startNext_of_cons ho hqueue hf).unit
    have hout := setsOut_of_prepare hf
    obtain ⟨hbegin, hduration⟩ := hout.times
    have hpace : c.duration / x.executor.speed = c.duration := by rw [hspeed, div_one]
    refine ⟨x', hstart, ?_⟩
    rw [hx']
    exact .flying ⟨hbare, hspeed, hrun, rfl, rfl, hout.command_eq, hbegin, hduration.trans hpace⟩

/-- **A tick at the end of the flight** starts the next command at that time. -/
theorem OnTime.due (h : x.executor.OnTime time (c :: rest)) :
    ∃ x', tick o (some (time + c.duration)) x = .ok () x' ∧
      x'.executor.OnTime (time + c.duration) rest := by
  obtain ⟨⟩ | @⟨_, _, _, f, h⟩ := h
  obtain ⟨e', hfollows, hflying⟩ := h.follows (progressAt f (time + c.duration))
  obtain ⟨x', rfl, htick⟩ := tick_of_follows ho h.running h.flight hfollows
  have hmade : (Scalar.ofNat 1 : K) ≤ progressAt f (time + c.duration) := by
    rw [← h.startTime, ← h.duration]
    exact progressAt_end f
  rw [if_pos hmade] at htick
  obtain ⟨x'', hx'', hcomplete⟩ := complete_eq ho f (time + c.duration) hflying.running
  obtain ⟨y, hstart, hy⟩ := onTime_startNext ho hangles (x := x'') (by rw [hx'']; exact hflying.bare)
    (by rw [hx'']; exact hflying.speed) (by rw [hx'']; exact hflying.running) (time + c.duration)
  refine ⟨y, htick.trans (hcomplete.trans hstart), ?_⟩
  rw [hx''] at hy
  exact hflying.queue ▸ hy

/-- The tick at the end of the flight completes its command. -/
theorem OnTime.complete (h : x.executor.OnTime time (c :: rest)) :
    ∃ x', Ticked o [(time + c.duration, [c])] x x' ∧
      x'.executor.OnTime (time + c.duration) rest := by
  obtain ⟨x', htick, h'⟩ := h.due ho hangles
  have hfirst : (Request.tick (some (time + c.duration))).completions o x = [c] :=
    (List.append_cancel_right (h.completed ho.passive htick h')).symm
  have hticked := Ticked.tick htick .done
  rw [hfirst] at hticked
  exact ⟨x', hticked, h'⟩

end Ends

/-! ## Before the end of a flight -/

variable [IsStrictOrderedRing K]

/-- Before its end a flight has not made all of its progress. -/
theorem progressAt_lt {f : Flight K} {time : K} (hstart : f.startTime ≤ time)
    (hend : time < f.startTime + f.duration) : ¬ (Scalar.ofNat 1 : K) ≤ progressAt f time := by
  have hpos : 0 < f.duration := by linarith
  have hpart : (time - f.startTime) / f.duration < 1 := by
    rw [div_lt_one hpos]
    linarith
  unfold progressAt
  rw [if_neg (by simpa using hpos)]
  simpa using hpart

section Early

variable {o : Observers K μ} (ho : o.Calm) {x : Host K μ}
include ho

/-- **An early tick** leaves the first command in flight. -/
theorem OnTime.early {now : K} (h : x.executor.OnTime time (c :: rest)) (hstart : time ≤ now)
    (hend : now < time + c.duration) :
    ∃ x', tick o (some now) x = .ok () x' ∧ x'.executor.OnTime time (c :: rest) := by
  obtain ⟨⟩ | ⟨h⟩ := h
  obtain ⟨e', hfollows, hflying⟩ := h.follows (progressAt _ now)
  obtain ⟨x', rfl, htick⟩ := tick_of_follows ho h.running h.flight hfollows
  rw [← h.startTime] at hstart
  rw [← h.startTime, ← h.duration] at hend
  rw [if_neg (progressAt_lt hstart hend)] at htick
  exact ⟨x', htick, .flying hflying⟩

/-- Early ticks complete nothing. -/
theorem OnTime.wait {times : List K} (h : x.executor.OnTime time (c :: rest))
    (htimes : ∀ now ∈ times, time ≤ now ∧ now < time + c.duration) :
    ∃ x', Ticked o (times.map fun now => (now, [])) x x' ∧
      x'.executor.OnTime time (c :: rest) := by
  induction times generalizing x with
  | nil => exact ⟨x, .done, h⟩
  | cons now times ih =>
    obtain ⟨⟨hstart, hend⟩, hlater⟩ := List.forall_mem_cons.1 htimes
    obtain ⟨x', htick, h'⟩ := h.early ho hstart hend
    have hnothing : (Request.tick (some now)).completions o x = [] :=
      List.self_eq_append_left.1 (h.completed ho.passive htick h')
    obtain ⟨x'', hrest, h''⟩ := ih h' hlater
    have hticked := Ticked.tick htick hrest
    rw [hnothing] at hticked
    exact ⟨x'', hticked, h''⟩

end Early

/-! ## Runs by the timetable -/

/-- **A run goes by the timetable**, from whichever command on. -/
theorem ticked_of_onTime {o : Observers K μ} (ho : o.Calm)
    (hangles : ∀ angle : K, (direction? angle).isSome) {x : Host K μ} {start : K} {early : ℕ → List K}
    (hearly : ∀ k < commands.length, ∀ now ∈ early k,
      instant start commands k ≤ now ∧ now < instant start commands (k + 1))
    (before left : List (Command K)) (hcommands : commands = before ++ left)
    (h : x.executor.OnTime (instant start commands before.length) left) :
    ∃ x', Ticked o ((left.zipIdx before.length).flatMap (visits start commands early)) x x' ∧
      x'.executor.OnTime (instant start commands commands.length) [] := by
  induction left generalizing before x with
  | nil =>
    rw [List.append_nil] at hcommands
    subst hcommands
    exact ⟨x, .done, h⟩
  | cons c rest ih =>
    have hsucc : instant start commands (before.length + 1) =
        instant start commands before.length + c.duration := by
      rw [hcommands]
      exact instant_succ start before c rest
    have hwithin : before.length < commands.length := by simp [hcommands]
    have hwaits := hearly before.length hwithin
    rw [hsucc] at hwaits
    obtain ⟨x₁, hwaited, h₁⟩ := h.wait ho hwaits
    obtain ⟨x₂, hcompleted, h₂⟩ := h₁.complete ho hangles
    rw [← hsucc] at hcompleted h₂
    obtain ⟨x₃, hrest, h₃⟩ := ih (before ++ [c]) (by simpa using hcommands) (by simpa using h₂)
    refine ⟨x₃, ?_, h₃⟩
    rw [List.zipIdx_cons, List.flatMap_cons]
    rw [List.length_append, List.length_singleton] at hrest
    exact (hwaited.append hcompleted).append hrest

/-- **The figures of a build predict its run.** Let the commands of a build be handed in to an executor
at speed one without obstacles, with calm observers and a clock that shows the same time while records
are taken down, in exact numbers in which every angle has a direction. Then the ticks of the timetable
return, each completes what the timetable says, and behind the last one, when the duration of the
figures is over, the executor is at rest and the robot has turned by the rotation of the figures. The
completions of each movement are as many as the figures count. -/
theorem figures_predict_run {o : Observers K μ} (ho : o.Calm)
    (hclock : ∀ entry memory, o.clock (o.note entry memory) = o.clock memory)
    (hangles : ∀ angle : K, (direction? angle).isSome) (b : Build K) {h : Host K μ}
    (hbare : h.executor.scene.obstacles = []) (hspeed : h.executor.speed = 1) {early : ℕ → List K}
    (hearly : ∀ k < b.commands.length, ∀ now ∈ early k,
      instant (o.clock h.memory) b.commands k ≤ now ∧
        now < instant (o.clock h.memory) b.commands (k + 1)) :
    ∃ h₁ h₂, execute o (b.commands.map .command) h = .ok () h₁ ∧
      (Request.execute (b.commands.map .command)).completions o h = [] ∧
      Ticked o (timetable (o.clock h.memory) b.commands early) h₁ h₂ ∧
      h₂.executor.phase = .idle ∧
      instant (o.clock h.memory) b.commands b.commands.length =
        o.clock h.memory + b.figures.duration ∧
      h₂.executor.robot.heading =
        h.executor.robot.heading + b.figures.rotation * Scalar.pi / 180 ∧
      b.figures.counts = Movement.all.map fun m =>
        (m, ((timetable (o.clock h.memory) b.commands early).flatMap Prod.snd).countP
          fun c => c.movement == m) := by
  obtain ⟨x, hx, hexecute, htime⟩ := execute_eq_startNext hclock h b.commands
  obtain ⟨h₁, hstart, hontime⟩ := onTime_startNext ho hangles (x := x) (by rw [hx]; exact hbare)
    (by rw [hx]; exact hspeed) (by rw [hx]; rfl) (o.clock x.memory)
  rw [hstart] at hexecute
  rw [htime, hx] at hontime
  have hfirst : h₁.executor.OnTime (instant (o.clock h.memory) b.commands 0) b.commands := by
    have hzero : instant (o.clock h.memory) b.commands 0 = o.clock h.memory := by
      simp [instant, Build.total]
    rw [hzero]
    exact hontime
  obtain ⟨h₂, hticked, hover⟩ := ticked_of_onTime ho hangles hearly [] b.commands rfl hfirst
  have hnothing : (Request.execute (b.commands.map .command)).completions o h = [] := by
    have hahead := ahead_execute ho.passive hexecute
    rw [hfirst.ahead_eq] at hahead
    exact List.self_eq_append_left.1 hahead
  obtain ⟨hidle, -, -⟩ := hover
  have hruns : Runs o b.commands h h₂ := ⟨h₁, .inl ⟨(), hexecute⟩, hticked.served .start⟩
  have hheading : h₂.executor.robot.heading =
      h.executor.robot.heading + toRadians b.figures.rotation := by
    rw [Build.rotation_eq_sum]
    exact Pose.heading_afterAll ((onCourse_of_runs ho.passive hbare hruns).rest hidle)
  refine ⟨h₁, h₂, hexecute, hnothing, hticked, hidle, instant_length _ b, ?_, ?_⟩
  · simpa [toRadians] using hheading
  · rw [completed_timetable]
    rfl

end Flights

/-! ## A run with a rest that takes no time -/

/-- Rational numbers in which every angle has a direction. That of the angle zero is the usual one. -/
local instance instMeasuresAxes : Measures ℚ :=
  { instMeasuresRat with
    sin := fun angle => some (if angle = 0 then 0 else 1)
    cos := fun angle => some (if angle = 0 then 1 else 0) }

/-- A program of three blocks: to move, to wait for no time at all and to turn back. -/
def jaunt : Data :=
  .list
    [Sample.block "m" "moveForward" "motion" 0 0 [] [],
     Sample.block "w" "wait" "control" 0 40 [("seconds", .integer 0)] [],
     Sample.block "t" "turnLeft" "motion" 0 80 [("degrees", .integer 180)] []]

/-- Visits in the middle of the first command and of the last one. -/
def glances : ℕ → List ℚ
  | 0 => [0, 500]
  | 2 => [1000, 1799]
  | _ => []

/-- The box robot makes a jaunt; the wait in the middle is complete at the instant at which it begins.
-/
theorem figures_predict_run_jaunt :
    ∃ (b : Build ℚ) (e : Executor ℚ),
      (Build.ofData jaunt).run (Build.fresh Config.robot) = .ok true b ∧
      Executor.start Config.robot [] = .ok e ∧
      b.figures.duration = 1800 ∧ b.figures.rotation = -180 ∧
      onlookers.Calm ∧ (∀ entry memory, onlookers.clock (onlookers.note entry memory) =
        onlookers.clock memory) ∧
      (∀ angle : ℚ, (direction? angle).isSome) ∧ e.scene.obstacles = [] ∧ e.speed = 1 ∧
      (∀ k < b.commands.length, ∀ now ∈ glances k,
        instant 0 b.commands k ≤ now ∧ now < instant 0 b.commands (k + 1)) ∧
      ∃ h₁ h₂, execute onlookers (b.commands.map .command) ⟨e, ()⟩ = .ok () h₁ ∧
        (Request.execute (b.commands.map .command)).completions onlookers ⟨e, ()⟩ = [] ∧
        Ticked onlookers (timetable 0 b.commands glances) h₁ h₂ ∧
        h₂.executor.phase = .idle ∧
        instant 0 b.commands b.commands.length = 0 + b.figures.duration ∧
        h₂.executor.robot.heading = e.robot.heading + b.figures.rotation * Scalar.pi / 180 ∧
        b.figures.counts = Movement.all.map fun m =>
          (m, ((timetable 0 b.commands glances).flatMap Prod.snd).countP
            fun c => c.movement == m) := by
  obtain ⟨e, hstart⟩ : ∃ e, Executor.start (Config.robot : Config ℚ) [] = .ok e := ⟨_, rfl⟩
  have hbare : e.scene.obstacles = [] := by
    cases hstart
    rfl
  have hspeed : e.speed = 1 := by
    cases hstart
    rfl
  have hcalm : onlookers.Calm :=
    ⟨fun _ x => ⟨(), x, rfl, rfl⟩, fun _ x => ⟨(), x, rfl, rfl⟩⟩
  have hangles : ∀ angle : ℚ, (direction? angle).isSome := fun _ => rfl
  have hbuilds : (Outcome.returned
      ((Build.ofData jaunt).run (Build.fresh (Config.robot : Config ℚ))) fun success b =>
        decide (success = true ∧ b.commands.map Command.duration = [1000, 0, 800] ∧
          b.figures.duration = 1800 ∧ b.figures.rotation = -180)) = true := by decide +kernel
  obtain ⟨success, b, hbuild, hfigures⟩ := Outcome.returned_eq_true.1 hbuilds
  obtain ⟨rfl, hdurations, hduration, hrotation⟩ := of_decide_eq_true hfigures
  have hearly : ∀ k < b.commands.length, ∀ now ∈ glances k,
      instant 0 b.commands k ≤ now ∧ now < instant 0 b.commands (k + 1) := by
    intro k hk
    have hlength : b.commands.length = 3 := by
      rw [← List.length_map (f := Command.duration), hdurations]
      rfl
    simp only [instant_eq_sum, hdurations]
    rw [hlength] at hk
    interval_cases k <;> simp [glances] <;> norm_num
  exact ⟨b, e, hbuild, hstart, hduration, hrotation, hcalm, fun _ _ => rfl, hangles, hbare, hspeed,
    hearly, figures_predict_run hcalm (fun _ _ => rfl) hangles b (h := ⟨e, ()⟩) hbare hspeed hearly⟩

end Executor

end RobotBlocks
