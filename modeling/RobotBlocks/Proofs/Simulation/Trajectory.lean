import RobotBlocks.Proofs.Simulation.Landing
import RobotBlocks.Proofs.Simulation.Timetable

/-!
# Poses in flight

In exact numbers and with nothing in the way, the pose in which a flight shows the robot depends on
the time of the tick and on how the command set out, but on nothing that has happened since
(`flight_has_no_memory`): each tick puts the robot to where the flight leads from its start, not on
from where the last tick has left it, and the speed was divided out of the duration at the start.

* `Timing` says when a command set out, how long it takes and at what speed. From it follow the part
  of the way that is covered at some time (`Timing.covered`) and when the time is up (`Timing.Over`).
* `Steered o f start times host`: `host` has control after ticks at the given times and changes of
  speed, all made while `f` was in flight.
* `Aloft f part e` and `Ended f part e` are the states between requests: the flight is under way or
  over, and the robot is where the flight has it after the given part of its way. `shows_tick` says
  which of them a tick leads to and what observers are told meanwhile; `Steered.cases` carries them
  along.
-/

namespace RobotBlocks

variable {K μ : Type} [Field K] [LinearOrder K] [Measures K]

/-! ## Poses along a flight -/

/-- The pose after the given part of the way from one to another. -/
def Pose.toward (p q : Pose K) (part : K) : Pose K :=
  ⟨p.position.along q.position part, p.heading + (q.heading - p.heading) * part⟩

/-- The pose that a flight has for the robot after the given part of its way. -/
def Flight.poseAt (f : Flight K) (part : K) : Pose K :=
  ⟨Executor.positionAt f part, f.startHeading + f.turn * part⟩

/-- Where a flight sets out. -/
def Flight.origin (f : Flight K) : Pose K := ⟨f.startPosition, f.startHeading⟩

theorem Flight.poseAt_eq_toward (f : Flight K) (part : K) :
    f.poseAt part = f.origin.toward f.destination part := by
  refine congrArg₂ Pose.mk (Executor.positionAt_eq_along f part) ?_
  simp [Flight.origin, Flight.destination]

theorem Flight.poseAt_zero (f : Flight K) : f.poseAt 0 = f.origin := by
  simp [poseAt, origin, Executor.positionAt]

/-- A flight changes nothing but what its command does: only turns turn, and only moves move. -/
structure Flight.Apt (f : Flight K) : Prop where
  straight : f.command.movement.isTurn = false → f.turn = 0
  level : f.command.movement.isMove = false → f.alongX = 0 ∧ f.alongZ = 0

namespace Flight.Apt

variable {f : Flight K} (h : f.Apt)
include h

theorem heading_eq (hturn : f.command.movement.isTurn = false) (part part' : K) :
    (f.poseAt part).heading = (f.poseAt part').heading := by
  simp [poseAt, h.straight hturn]

theorem position_eq (hmove : f.command.movement.isMove = false) (part part' : K) :
    (f.poseAt part).position = (f.poseAt part').position := by
  simp [poseAt, Executor.positionAt, h.level hmove]

end Flight.Apt

namespace Executor

/-- Commands set out from where the robot is, on flights that change nothing else. -/
theorem SetsOut.apt {e : Executor K} {c : Command K} {time : K} {f : Flight K}
    (h : e.SetsOut c time f) : f.Apt ∧ f.origin = e.robot.pose := by
  cases h with
  | forward hc | backward hc =>
    exact ⟨⟨fun _ => by simp [outset], by simp [outset, hc, Movement.isMove]⟩, rfl⟩
  | turnRight hc | turnLeft hc =>
    exact ⟨⟨by simp [outset, hc, Movement.isTurn], fun _ => by simp [outset]⟩, rfl⟩
  | wait hc => exact ⟨⟨fun _ => by simp [outset], fun _ => by simp [outset]⟩, rfl⟩

end Executor

/-- The time to which a request brings the command in flight, if the clock shows the given one. -/
def Request.tickTime? {R : Type} (clock : R) : Request R → Option R
  | .tick time? => some (time?.getD clock)
  | _ => none

/-! ## The time of a command -/

/-- When a command set out, how long it takes at normal speed, and the speed at which it set out. -/
structure Timing (K : Type) where
  start : K
  duration : K
  speed : K

namespace Timing

/-- The part of the time of the command that has passed. A command that takes no time has used all
of it up at once. -/
def elapsed (t : Timing K) (now : K) : K :=
  if t.duration = 0 then 1 else max 0 (min 1 ((now - t.start) / (t.duration / t.speed)))

/-- The part of the way of the command that is covered. -/
def covered (t : Timing K) (now : K) : K := ease (t.elapsed now)

/-- The part of the way that is covered behind ticks at the given times. -/
def coveredBy (t : Timing K) (times : List K) : K := times.getLast?.elim 0 t.covered

/-- The time of the command is up. -/
def Over (t : Timing K) (now : K) : Prop := t.duration = 0 ∨ t.start + t.duration / t.speed ≤ now

instance (t : Timing K) (now : K) : Decidable (t.Over now) := inferInstanceAs (Decidable (_ ∨ _))

@[simp] theorem coveredBy_append (t : Timing K) (times : List K) (now : K) :
    t.coveredBy (times ++ [now]) = t.covered now := by
  simp [coveredBy]

variable [IsStrictOrderedRing K]

/-- **The covered part stays between nothing and all of the way.** -/
theorem covered_mem (t : Timing K) (now : K) : 0 ≤ t.covered now ∧ t.covered now ≤ 1 :=
  ⟨ease_nonneg _, ease_le_one _⟩

/-- **The covered part never decreases.** -/
theorem covered_mono {t : Timing K} (hspeed : 0 < t.speed) (hduration : 0 ≤ t.duration)
    {now later : K} (h : now ≤ later) : t.covered now ≤ t.covered later := by
  refine ease_mono ?_
  unfold elapsed
  split
  · exact le_rfl
  · have hlength : 0 ≤ t.duration / t.speed := div_nonneg hduration hspeed.le
    have hpart : (now - t.start) / (t.duration / t.speed) ≤
        (later - t.start) / (t.duration / t.speed) :=
      div_le_div_of_nonneg_right (sub_le_sub_right h _) hlength
    exact max_le_max le_rfl (min_le_min le_rfl hpart)

end Timing

/-- The flight takes the time of a command with the given timing. -/
structure Flight.Timed (f : Flight K) (t : Timing K) : Prop where
  start : f.startTime = t.start
  duration : f.duration = t.duration / t.speed
  speed_pos : 0 < t.speed
  duration_nonneg : 0 ≤ t.duration

namespace Flight.Timed

variable [IsStrictOrderedRing K] {f : Flight K} {t : Timing K} (h : f.Timed t)
include h

/-- A flight takes no time if its command takes none. -/
theorem duration_nonpos_iff : f.duration ≤ 0 ↔ t.duration = 0 := by
  rw [h.duration, div_nonpos_iff]
  have := h.speed_pos
  have := h.duration_nonneg
  grind

/-- The progress of a flight is the part of its time that has passed. -/
theorem progressAt_eq (now : K) : Executor.progressAt f now = t.elapsed now := by
  simp only [Executor.progressAt, Timing.elapsed, Scalar.ofNat_eq_cast, Nat.cast_zero, Nat.cast_one,
    Scalar.min_eq, Scalar.max_eq, h.duration_nonpos_iff]
  split
  · rfl
  · rw [h.start, h.duration, max_comm, max_min_distrib_left, min_comm, max_eq_right zero_le_one]

/-- All of a flight is made when the time of its command is up. -/
theorem due_iff (now : K) : Executor.Due f now ↔ t.Over now := by
  rw [Executor.Due, h.progressAt_eq, Scalar.ofNat_eq_cast, Nat.cast_one, Timing.elapsed,
    Timing.Over]
  split
  next hzero => simp [hzero]
  next hlong =>
    have hpos : 0 < t.duration / t.speed := div_pos (h.duration_nonneg.lt_of_ne' hlong) h.speed_pos
    rw [le_max_iff, le_min_iff, one_le_div hpos]
    have : ¬ (1 : K) ≤ 0 := not_le.2 zero_lt_one
    grind

end Flight.Timed

/-! ## Observers that never fail -/

section Calm

variable {R α : Type} {o : Observers R μ}

/-- An operation that always returns need not say where it fails. -/
theorem Triple.total {P E E' : Host R μ → Prop} {Q : α → Host R μ → Prop} {m : Operation R μ α}
    (h : Triple P m Q E) (hm : ∀ x, ∃ a x', m x = .ok a x') : Triple P m Q E' := by
  intro x hx
  obtain ⟨a, x', hrun⟩ := hm x
  rw [hrun]
  exact h.ok hx hrun

/-- A chronicle does not disturb observers that never fail. -/
theorem Observers.Calm.recorded (ho : o.Calm) : o.recorded.Calm := by
  have hbeside : ∀ {m : Operation R μ Unit}, Undisturbed m → Undisturbed (beside m) := by
    intro m hm x
    obtain ⟨a, x', hrun, hx'⟩ := hm ⟨x.executor, x.memory.1⟩
    refine ⟨a, x'.withChronicle x.memory.2, ?_, hx'⟩
    unfold beside
    rw [hrun]
    rfl
  refine ⟨fun s x => ?_, fun c x => ?_⟩
  · obtain ⟨a, x', hrun, hx'⟩ := hbeside (ho.stateChanged s) _
    exact ⟨a, x', hrun, hx'⟩
  · obtain ⟨a, x', hrun, hx'⟩ := hbeside (ho.completed c) _
    exact ⟨a, x', hrun, hx'⟩

variable (ho : o.Calm) {P Q : Executor R → List (Entry R) → Prop}
  {E : Host R (μ × List (Entry R)) → Prop}
include ho

/-- Observers that never fail are shown the executor as it is, -/
theorem Executor.calmly_emitState (h : ∀ e entries, P e entries → Q e (entries ++ [.seen e])) :
    Triple (Upon P) (emitState o.recorded) (fun _ => Upon Q) E :=
  (upon_emitState ho.passive h).total fun x =>
    let ⟨a, x', hrun, _⟩ := returns_emitState ho.recorded x
    ⟨a, x', hrun⟩

/-- and told what is complete. -/
theorem Executor.calmly_completed {c : Command R}
    (h : ∀ e entries, P e entries → Q e (entries ++ [.reported c] ++ [.seen e])) :
    Triple (Upon P) (o.recorded.completed c) (fun _ => Upon Q) E :=
  (upon_completed ho.passive h).total fun x =>
    let ⟨a, x', hrun, _⟩ := ho.recorded.completed c x
    ⟨a, x', hrun⟩

end Calm

/-! ## What observers are told -/

/-- All poses in which the robot is shown are the given one, and the commands reported as complete
are the given ones. -/
structure Showing (p : Pose K) (commands : List (Command K)) (entries : List (Entry K)) : Prop where
  seen : ∀ e, .seen e ∈ entries → e.robot.pose = p
  reported : entries.filterMap Entry.reported? = commands

namespace Showing

variable {p : Pose K} {c : Command K} {commands : List (Command K)} {entries : List (Entry K)}

omit [Field K] [LinearOrder K] [Measures K] in
theorem nil : Showing p [] [] := ⟨by simp, rfl⟩

omit [Field K] [LinearOrder K] [Measures K] in
theorem enterSeen {e : Executor K} (h : Showing p commands entries) (he : e.robot.pose = p) :
    Showing p commands (entries ++ [.seen e]) := by
  refine ⟨fun e' he' => ?_, by simp [h.reported, Entry.reported?]⟩
  rcases List.mem_append.1 he' with hmem | hlast
  · exact h.seen e' hmem
  · cases List.mem_singleton.1 hlast
    exact he

omit [Field K] [LinearOrder K] [Measures K] in
theorem report (h : Showing p commands entries) :
    Showing p (commands ++ [c]) (entries ++ [.reported c]) := by
  refine ⟨fun e' he' => ?_, by simp [h.reported, Entry.reported?]⟩
  rcases List.mem_append.1 he' with hmem | hlast
  · exact h.seen e' hmem
  · simp at hlast

end Showing

namespace Executor

/-! ## The flight under way and over -/

/-- The flight is under way with nothing in its way, and the robot is where the flight has it after
the given part of its way. -/
structure Aloft (f : Flight K) (part : K) (e : Executor K) : Prop where
  bare : e.scene.obstacles = []
  running : e.phase = .running
  flight : e.flight = some f
  number : f.number < e.flights
  pose : e.robot.pose = f.poseAt part

/-- The flight is over, and the robot is where the flight has it after the given part of its way. -/
structure Ended (f : Flight K) (part : K) (e : Executor K) : Prop where
  gone : e.isInFlight f = false
  number : f.number < e.flights
  pose : e.robot.pose = f.poseAt part

/-- The flight is under way, and observers have been told nothing but where the robot is. -/
def Flies (f : Flight K) (part : K) (e : Executor K) (entries : List (Entry K)) : Prop :=
  e.Aloft f part ∧ Showing (f.poseAt part) [] entries

/-- The flight is over, and observers have been told that the given commands are complete. -/
def Arrives (f : Flight K) (part : K) (commands : List (Command K)) (e : Executor K)
    (entries : List (Entry K)) : Prop :=
  e.Ended f part ∧ Showing (f.poseAt part) commands entries

variable {o : Observers K μ} {f : Flight K} {part progress time : K} {e : Executor K}
  {commands : List (Command K)} {entries : List (Entry K)}

theorem Aloft.isInFlight (h : e.Aloft f part) : e.isInFlight f = true := by
  simp [Executor.isInFlight, h.flight]

theorem Aloft.ended (h : e.Aloft f part) : e.landed.Ended f part := ⟨rfl, h.number, h.pose⟩

theorem Flies.enterSeen (h : Flies f part e entries) : Flies f part e (entries ++ [.seen e]) :=
  ⟨h.1, h.2.enterSeen h.1.pose⟩

theorem Arrives.enterSeen (h : Arrives f part commands e entries) :
    Arrives f part commands e (entries ++ [.seen e]) :=
  ⟨h.1, h.2.enterSeen h.1.pose⟩

theorem Arrives.report (h : Arrives f part commands e entries) (c : Command K) :
    Arrives f part (commands ++ [c]) e (entries ++ [.reported c]) := ⟨h.1, h.2.report⟩

/-! ## A tick of a flight -/

section Steps

variable {E : Host K (μ × List (Entry K)) → Prop} (ho : o.Calm)
include ho

/-- Starting a command that can set out puts its flight in the air. -/
theorem aloft_of_startNext {x x' : Host K μ} {c : Command K} {rest : List (Command K)}
    (hbare : x.executor.scene.obstacles = []) (hrun : x.executor.phase = .running)
    (hqueue : x.executor.queue = c :: rest) (hspeed : 0 < x.executor.speed)
    (hduration : 0 ≤ c.duration) (hstart : startNext o time x = .ok () x') :
    ∃ f, x'.executor.flight = some f ∧ f.command = c ∧ f.Apt ∧
      f.Timed ⟨time, c.duration, x.executor.speed⟩ ∧ f.origin = x.executor.robot.pose ∧
      x.executor.robot.pose.after x.executor.config.unitsPerStep c = .ok f.destination ∧
      x'.executor.Aloft f 0 := by
  rcases hprepare : ({ x.executor with queue := rest }).prepare c time with fault | f
  · simp only [startNext, run_look_bind, hqueue, run_change_bind, hprepare] at hstart
    cases hstart
  · obtain ⟨y, hy, hexecutor⟩ := (startNext_of_cons ho hqueue hprepare).unit
    obtain rfl : y = x' := (EStateM.Result.ok.inj (hy.symm.trans hstart)).2
    have hout := setsOut_of_prepare hprepare
    obtain ⟨hapt, horigin⟩ := hout.apt
    refine ⟨f, by rw [hexecutor]; rfl, hout.command_eq, hapt,
      ⟨hout.times.1, hout.times.2, hspeed, hduration⟩, horigin, hout.destination_eq.1, ?_⟩
    rw [hexecutor]
    refine ⟨hbare, hrun, rfl, ?_, ?_⟩
    · exact hout.number_eq.trans_lt (Nat.lt_succ_self _)
    · exact horigin.symm.trans f.poseAt_zero.symm

/-- **A step along the flight** brings the robot to where the flight has it, wherever it was. -/
theorem shows_follow (hapt : f.Apt) :
    Triple (Upon fun e entries => e.Aloft f part ∧ entries = []) (follow o.recorded f progress)
      (fun made => Upon fun e entries => made = progress ∧ Flies f (ease progress) e entries)
      E := by
  have hshow : Triple (Upon (Flies f (ease progress)))
      (emitState o.recorded >>= fun _ => pure progress)
      (fun made => Upon fun e entries => made = progress ∧ Flies f (ease progress) e entries) E :=
    .bind (calmly_emitState ho fun _ _ h => h.enterSeen) fun _ => .pure fun _ hx => ⟨rfl, hx⟩
  rintro x ⟨haloft, hnil⟩
  have hpose := haloft.pose
  have hnothing : Showing (f.poseAt (ease progress)) [] x.memory.2 := hnil ▸ .nil
  unfold follow
  rcases hmove : f.command.movement.isMove with _ | _
  · have hposition := hapt.position_eq hmove part (ease progress)
    rcases hturn : f.command.movement.isTurn with _ | _
    · -- Waiting changes nothing, and nothing is shown.
      have hstill : x.executor.robot.pose = f.poseAt (ease progress) :=
        hpose.trans (congrArg₂ Pose.mk hposition (hapt.heading_eq hturn _ _))
      exact ⟨rfl, { haloft with pose := hstill }, hnothing⟩
    · refine hshow ⟨x.executor.turned (f.startHeading + f.turn * ease progress), x.memory⟩
        ⟨⟨haloft.bare, haloft.running, haloft.flight, haloft.number, ?_⟩, hnothing⟩
      exact congrArg₂ Pose.mk ((congrArg Pose.position hpose).trans hposition) rfl
  · have hheading := hapt.heading_eq (isTurn_of_isMove hmove) part (ease progress)
    have hadvance : advance o.recorded f progress x =
        (emitState o.recorded >>= fun _ => pure progress)
          ⟨x.executor.moved (positionAt f (ease progress)), x.memory⟩ := by
      simp only [advance, run_look_bind, sweep_of_bare haloft.bare, orFail, pure_bind,
        run_change_bind]
      rfl
    simp only [if_true]
    rw [hadvance]
    refine hshow _
      ⟨⟨haloft.bare, haloft.running, haloft.flight, haloft.number, ?_⟩, hnothing⟩
    exact congrArg₂ Pose.mk rfl ((congrArg Pose.heading hpose).trans hheading)

/-- Starting the next command leaves the robot where the last one has brought it, whether the next
one can set out or not. -/
theorem shows_startNext :
    Triple (Upon (Arrives f part commands)) (startNext o.recorded time)
      (fun _ => Upon (Arrives f part commands)) (Upon (Arrives f part commands)) := by
  have hshow : ∀ {E : Host K (μ × List (Entry K)) → Prop}, Triple (Upon (Arrives f part commands))
      (emitState o.recorded) (fun _ => Upon (Arrives f part commands)) E :=
    calmly_emitState ho fun _ _ h => h.enterSeen
  refine .bind upon_peek fun e => ?_
  split
  · refine .bind (Q := fun _ => Upon (Arrives f part commands)) (.change fun x hx => ?_) fun _ =>
      .bind (upon_note o _ _) fun _ => hshow
    exact ⟨⟨rfl, hx.1.number, hx.1.pose⟩, hx.2⟩
  next c rest _ =>
    refine .bind (Q := fun _ => Upon (Arrives f part commands)) (.change fun x hx => ?_) fun _ =>
      .bind upon_look fun e' => ?_
    · exact ⟨⟨hx.1.gone, hx.1.number, hx.1.pose⟩, hx.2⟩
    -- A new flight has another number.
    refine .bind (Q := fun g => Upon fun e entries => f.number < g.number ∧
      Arrives f part commands e entries) (.orFail (fun g hg x hx => ?_) fun x hx => hx.2)
      fun g => ?_
    · obtain ⟨rfl, hx⟩ := hx
      exact ⟨hx.1.number.trans_eq (setsOut_of_prepare hg).number_eq.symm, hx⟩
    refine .bind (Q := fun _ => Upon (Arrives f part commands)) (.change fun x hx => ?_)
      fun _ => hshow
    obtain ⟨hnew, hended, hshowing⟩ := hx
    refine ⟨⟨?_, hended.number.trans (Nat.lt_succ_self _), hended.pose⟩, hshowing⟩
    simpa [isInFlight] using hnew.ne'

/-- **Completing the flight** reports its command. -/
theorem shows_complete :
    Triple (Upon (Flies f part)) (complete o.recorded f time)
      (fun _ => Upon (Arrives f part [f.command])) (Upon (Arrives f part [f.command])) := by
  refine .bind (Q := fun _ => Upon (Arrives f part []))
    (.change fun x hx => ⟨hx.1.ended, hx.2⟩) fun _ => ?_
  refine .bind (calmly_completed ho fun e entries h => (h.report f.command).enterSeen) fun _ =>
    .bind upon_peek fun e => ?_
  exact .ite (fun _ => shows_startNext ho) fun _ => .pure fun _ hx => hx

omit [Field K] [LinearOrder K] [Measures K] ho in
/-- A tick without a time is one at the time of the clock. -/
theorem tick_eq_tick_getD [Scalar K] (time? : Option K) (x : Host K μ) :
    tick o time? x = tick o (some (time?.getD (o.clock x.memory))) x := by
  cases time? with
  | some time => rfl
  | none =>
    simp only [tick, run_look_bind, Option.getD_none, Option.getD_some]
    rcases x.executor.phase with _ | _ | _ <;> rcases x.executor.flight with _ | f
    case running.some => simp only [run_now_bind]
    all_goals rfl

/-- **A tick** shows the robot where the flight has it at that time, and completes the flight if all
of it is made then. It can fail only behind that, if the next command cannot set out. -/
theorem shows_tick (hapt : f.Apt) (time? : Option K) :
    Triple (fun x => (x.executor.Aloft f part ∧ x.memory.2 = []) ∧
        time?.getD (o.clock x.memory.1) = time)
      ((Request.tick time?).make o.recorded)
      (fun _ => Upon fun e entries =>
        (¬ Due f time ∧ Flies f (ease (progressAt f time)) e entries) ∨
        (Due f time ∧ Arrives f (ease (progressAt f time)) [f.command] e entries))
      (Upon fun e entries =>
        Due f time ∧ Arrives f (ease (progressAt f time)) [f.command] e entries) := by
  refine .bind ?_ fun _ => .pure fun _ hx => hx
  rintro x ⟨⟨haloft, hnil⟩, htime⟩
  have hclock : o.recorded.clock x.memory = o.clock x.memory.1 := rfl
  rw [tick_eq_tick_getD, hclock, htime, tick_eq_follow haloft.running haloft.flight]
  refine Triple.bind (shows_follow ho hapt) (fun made => ?_) x ⟨haloft, hnil⟩
  rintro x' ⟨rfl, hflies⟩
  split_ifs with hdue
  · rw [run_look_bind, if_pos hflies.1.isInFlight]
    exact ((shows_complete ho).mono (fun _ h => h) fun _ _ h => .inr ⟨hdue, h⟩).mono_error
      (fun _ h => ⟨hdue, h⟩) x' hflies
  · exact .inl ⟨hdue, hflies⟩

/-- Setting the speed shows the robot where it is. -/
theorem shows_setSpeed (value : K) :
    Triple (Upon (Flies f part)) (setSpeed o.recorded value) (fun _ => Upon (Flies f part))
      (Upon (Flies f part)) := by
  refine .ite (fun _ => ?_) fun _ => ?_
  · exact .bind (upon_note o _ _) fun _ => .bind upon_peek fun _ => .pure fun _ hx => hx
  · refine .bind upon_peek fun e => .bind (Q := fun _ => Upon (Flies f part))
      (.change fun x hx => ?_) fun _ => .bind (calmly_emitState ho fun _ _ h => h.enterSeen)
        fun _ => .bind upon_peek fun _ => .pure fun _ hx => hx
    exact ⟨⟨hx.1.bare, hx.1.running, hx.1.flight, hx.1.number, hx.1.pose⟩, hx.2⟩

/-- **A change of speed** leaves the flight alone. -/
theorem shows_pace {r : Request K} (hr : r.Times) (hpace : ∀ time, r.tickTime? time = none) :
    Triple (Upon (Flies f part)) (r.make o.recorded) (fun _ => Upon (Flies f part))
      (Upon (Flies f part)) := by
  cases r with
  | tick => cases hpace 0
  | setSpeed value => exact .bind (shows_setSpeed ho value) fun _ => .pure fun _ hx => hx
  | setSpeedData value =>
    refine .bind (Q := fun _ => Upon (Flies f part)) ?_ fun _ => .pure fun _ hx => hx
    unfold setSpeedData
    split
    · exact shows_setSpeed ho _
    · exact .throw fun _ hx => hx
    · exact .bind (upon_note o _ _) fun _ => .bind upon_peek fun _ => .pure fun _ hx => hx
  | execute | pause | resume | stop | reset | setInitial | setObstacles | setAgentSize =>
    exact hr.elim

end Steps

end Executor

/-! ## Runs -/

/-- With a chronicle a request leads to the same host, and to what observers are told. -/
theorem leadsTo_recorded {R : Type} [Scalar R] {o : Observers R μ} {r : Request R} {x x' : Host R μ}
    (h : (r.make o).LeadsTo x x') :
    (r.make o.recorded).LeadsTo (x.withChronicle []) (x'.withChronicle (r.told o x)) := by
  obtain ⟨a, hrun⟩ | ⟨fault, hrun⟩ := h
  · exact .inl ⟨a, by rw [make_recorded, hrun]; rfl⟩
  · exact .inr ⟨fault, by rw [make_recorded, hrun]; rfl⟩

namespace Executor

/-- The hosts that have control after ticks and changes of speed that were made while the flight was
in flight, in any order and also if they failed, with the times of the ticks so far. Between
requests hosts may remember whatever they like. -/
inductive Steered (o : Observers K μ) (f : Flight K) (start : Host K μ) :
    List K → Host K μ → Prop
  | start : Steered o f start [] start
  | request {times : List K} {h h' : Host K μ} {r : Request K} (before : Steered o f start times h)
    (hf : h.executor.isInFlight f = true) (hr : r.Times) (hrun : (r.make o).LeadsTo h h') :
    Steered o f start (times ++ (r.tickTime? (o.clock h.memory)).toList) h'
  | remember {times : List K} {h : Host K μ} (before : Steered o f start times h) (memory : μ) :
    Steered o f start times { h with memory }

variable [IsStrictOrderedRing K] {o : Observers K μ} {f : Flight K} {t : Timing K} {times : List K}
  {r : Request K} {x x' : Host K μ}

/-- The pose at the end of a request during a flight, and what observers are told meanwhile: the
flight is over if the time of its command is up. -/
theorem Aloft.request (ho : o.Calm) (hapt : f.Apt) (ht : f.Timed t)
    (h : x.executor.Aloft f (t.coveredBy times)) (hr : r.Times) (hrun : (r.make o).LeadsTo x x') :
    ((∀ now ∈ r.tickTime? (o.clock x.memory), ¬ t.Over now) ∧
      Flies f (t.coveredBy (times ++ (r.tickTime? (o.clock x.memory)).toList)) x'.executor
        (r.told o x)) ∨
    ((∃ now ∈ r.tickTime? (o.clock x.memory), t.Over now) ∧
      Arrives f (t.coveredBy (times ++ (r.tickTime? (o.clock x.memory)).toList)) [f.command]
        x'.executor (r.told o x)) := by
  have hrecorded := leadsTo_recorded hrun
  cases r with
  | tick time? =>
    have htick := ((shows_tick ho hapt time?).mono_error fun _ => .inr).leadsTo
      ⟨⟨h, rfl⟩, rfl⟩ hrecorded
    have hpart := congrArg ease (ht.progressAt_eq (time?.getD (o.clock x.memory)))
    simp only [Request.tickTime?, Option.mem_some_iff, forall_eq', exists_eq_left',
      Option.toList_some, Timing.coveredBy_append]
    rw [← ht.due_iff, Timing.covered, ← hpart]
    exact htick
  | setSpeed value | setSpeedData value =>
    have hflies : Flies f (t.coveredBy times) x'.executor (Request.told o _ x) :=
      (shows_pace ho hr fun _ => rfl).leadsTo (x := x.withChronicle []) ⟨h, .nil⟩ hrecorded
    simpa [Request.tickTime?] using hflies
  | execute | pause | resume | stop | reset | setInitial | setObstacles | setAgentSize =>
    exact hr.elim

/-- A tick before the time of the command is up returns. -/
theorem Aloft.tick_returns (ho : o.Calm) (hapt : f.Apt) (ht : f.Timed t) {part : K}
    (h : x.executor.Aloft f part) {time? : Option K}
    (hearly : ¬ t.Over (time?.getD (o.clock x.memory))) :
    ∃ a x', (Request.tick time?).make o x = .ok a x' := by
  rcases hrun : (Request.tick time?).make o x with ⟨a, x'⟩ | ⟨fault, x'⟩
  · exact ⟨a, x', rfl⟩
  · have hrecorded := make_recorded o (.tick time?) x
    rw [hrun] at hrecorded
    have hfails := (shows_tick ho hapt time?).error ⟨⟨h, rfl⟩, rfl⟩ hrecorded
    exact absurd ((ht.due_iff _).1 hfails.1) hearly

/-- **While it is steered** a flight is under way until a tick at which the time of its command is
up, and the robot is where the last tick has brought it. -/
theorem Steered.cases {start : Host K μ} (ho : o.Calm) (hapt : f.Apt) (ht : f.Timed t)
    (hstart : start.executor.Aloft f 0) (h : Steered o f start times x) :
    ((∀ now ∈ times, ¬ t.Over now) ∧ x.executor.Aloft f (t.coveredBy times)) ∨
    ((∃ now ∈ times, t.Over now) ∧ x.executor.Ended f (t.coveredBy times)) := by
  induction h with
  | start => exact .inl ⟨by simp, hstart⟩
  | request before hf hr hrun ih =>
    rcases ih with ⟨hearly, haloft⟩ | ⟨-, hended⟩
    · rcases haloft.request ho hapt ht hr hrun with ⟨hnot, haloft', -⟩ | ⟨hover, hended, -⟩
      · refine .inl ⟨fun now hnow => ?_, haloft'⟩
        rcases List.mem_append.1 hnow with hnow | hnow
        · exact hearly now hnow
        · exact hnot now (Option.mem_toList.1 hnow)
      · obtain ⟨now, hnow, hup⟩ := hover
        exact .inr ⟨⟨now, List.mem_append.2 (.inr (Option.mem_toList.2 hnow)), hup⟩, hended⟩
    · -- Requests are made only while the flight is in flight.
      simp [hended.gone] at hf
  | remember before memory ih => exact ih

/-! ## Main result -/

/-- **Motion in flight has no memory and does not overshoot.** Let a command be started at some
time, at a positive speed and without obstacles, with calm observers and in exact numbers. Then,
whatever ticks and changes of speed are made while it is in flight,

* the robot is, on the way from where it was to where the command leads, as far as the command has
  covered it by the time of the last tick, and observers are shown it nowhere else;
* the command is in flight until the first tick at which its time is up, and that tick reports it
  and nothing else; all other requests report nothing, and ticks before that time return;
* the covered part lies between nothing and all of the way and grows with the time.

The timing is that of the start: it has the speed at which the command set out. -/
theorem flight_has_no_memory (ho : o.Calm) {h h₀ : Host K μ} {start : K} {c : Command K}
    {rest : List (Command K)} (hbare : h.executor.scene.obstacles = [])
    (hrun : h.executor.phase = .running) (hqueue : h.executor.queue = c :: rest)
    (hspeed : 0 < h.executor.speed) (hduration : 0 ≤ c.duration)
    (hstart : startNext o start h = .ok () h₀) (ht : t = ⟨start, c.duration, h.executor.speed⟩) :
    ∃ f goal, h₀.executor.flight = some f ∧ f.command = c ∧
      h.executor.robot.pose.after h.executor.config.unitsPerStep c = .ok goal ∧
      (∀ times x, Steered o f h₀ times x →
        (x.executor.isInFlight f = true ↔ ∀ now ∈ times, ¬ t.Over now) ∧
        x.executor.robot.pose = h.executor.robot.pose.toward goal (t.coveredBy times)) ∧
      (∀ times x (r : Request K), Steered o f h₀ times x → x.executor.isInFlight f = true →
        r.Times → (∀ e, .seen e ∈ r.told o x → e.robot.pose = h.executor.robot.pose.toward goal
          (t.coveredBy (times ++ (r.tickTime? (o.clock x.memory)).toList))) ∧
        r.completions o x =
          if ∃ now ∈ r.tickTime? (o.clock x.memory), t.Over now then [c] else []) ∧
      (∀ times x time?, Steered o f h₀ times x → x.executor.isInFlight f = true →
        ¬ t.Over (time?.getD (o.clock x.memory)) →
        ∃ a x', (Request.tick time?).make o x = .ok a x') ∧
      (∀ now, 0 ≤ t.covered now ∧ t.covered now ≤ 1) ∧
      ∀ now later, now ≤ later → t.covered now ≤ t.covered later := by
  obtain ⟨f, hf, hcommand, hapt, htimed, horigin, hgoal, haloft⟩ :=
    aloft_of_startNext ho hbare hrun hqueue hspeed hduration hstart
  rw [← ht] at htimed
  have hpose : ∀ part, f.poseAt part = h.executor.robot.pose.toward f.destination part :=
    fun part => horigin ▸ f.poseAt_eq_toward part
  -- While the flight is in flight it is under way.
  have hunderway : ∀ times x, Steered o f h₀ times x → x.executor.isInFlight f = true →
      x.executor.Aloft f (t.coveredBy times) := fun times x hsteered hflies => by
    rcases hsteered.cases ho hapt htimed haloft with ⟨-, h⟩ | ⟨-, h⟩
    · exact h
    · simp [h.gone] at hflies
  refine ⟨f, f.destination, hf, hcommand, hgoal, fun times x hsteered => ?_,
    fun times x r hsteered hflies hr => ?_, fun times x time? hsteered hflies hearly => ?_,
    t.covered_mem, fun now later => ?_⟩
  · rw [← hpose]
    rcases hsteered.cases ho hapt htimed haloft with ⟨hearly, hup⟩ | ⟨hlate, hdown⟩
    · exact ⟨iff_of_true hup.isInFlight hearly, hup.pose⟩
    · exact ⟨iff_of_false (by simp [hdown.gone]) (by simpa using hlate), hdown.pose⟩
  · obtain ⟨x', hleads⟩ : ∃ x', (r.make o).LeadsTo x x' := by
      rcases hmake : r.make o x with ⟨a, x'⟩ | ⟨fault, x'⟩
      · exact ⟨x', .inl ⟨a, hmake⟩⟩
      · exact ⟨x', .inr ⟨fault, hmake⟩⟩
    rw [← hpose]
    rcases (hunderway times x hsteered hflies).request ho hapt htimed hr hleads with
      ⟨hearly, -, hshowing⟩ | ⟨hlate, -, hshowing⟩
    · exact ⟨hshowing.seen, by rw [if_neg (by simpa using hearly)]; exact hshowing.reported⟩
    · exact ⟨hshowing.seen, by rw [if_pos hlate, ← hcommand]; exact hshowing.reported⟩
  · exact (hunderway times x hsteered hflies).tick_returns ho hapt htimed hearly
  · exact Timing.covered_mono htimed.speed_pos htimed.duration_nonneg

/-- A robot that is to walk three units at normal speed within a second, and then to wait. -/
def forTheRoad : Except Fault (Host ℚ Unit) :=
  (Executor.start Config.robot []).map fun e =>
    ⟨e.loaded [⟨.forward, 30, 1000, none⟩, waitFor 1], ()⟩

/-- A change of speed and a tick after a quarter of the time bring the robot a sixteenth of the
way. -/
theorem flight_has_no_memory_quarter :
    ∃ h h₀ x₁ x₂ : Host ℚ Unit, forTheRoad = .ok h ∧ onlookers.Calm ∧
      h.executor.scene.obstacles = [] ∧ h.executor.phase = .running ∧
      h.executor.queue = [⟨.forward, 30, 1000, none⟩, waitFor 1] ∧ 0 < h.executor.speed ∧
      startNext onlookers 0 h = .ok () h₀ ∧
      (Request.setSpeed 2).make onlookers h₀ = .ok (some 2) x₁ ∧
      (Request.tick (some 250)).make onlookers x₁ = .ok none x₂ ∧
      x₂.executor.robot.position = ⟨0, 0, 3 / 16⟩ ∧
      ∃ f goal, h₀.executor.flight = some f ∧ Steered onlookers f h₀ [250] x₂ ∧
        x₂.executor.isInFlight f = true ∧
        x₂.executor.robot.pose = h.executor.robot.pose.toward goal (1 / 16) ∧
        (Request.tick (some 1000)).completions onlookers x₂ = [⟨.forward, 30, 1000, none⟩] := by
  obtain ⟨h, hready⟩ : ∃ h, forTheRoad = .ok h := ⟨_, rfl⟩
  have hcalm : onlookers.Calm := ⟨fun _ x => ⟨(), x, rfl, rfl⟩, fun _ x => ⟨(), x, rfl, rfl⟩⟩
  have hbegins : h.executor.scene.obstacles = [] ∧ h.executor.phase = .running ∧
      h.executor.queue = [⟨.forward, 30, 1000, none⟩, waitFor 1] ∧ h.executor.speed = 1 := by
    cases hready
    exact ⟨rfl, rfl, rfl, rfl⟩
  obtain ⟨hbare, hrunning, hqueue, hspeed⟩ := hbegins
  have hpositive : 0 < h.executor.speed := by simp [hspeed]
  have hok : Outcome.returned (startNext onlookers 0 h) fun _ h₀ =>
      Outcome.returned ((Request.setSpeed 2).make onlookers h₀) fun speed x₁ =>
        Outcome.returned ((Request.tick (some 250)).make onlookers x₁) fun a x₂ =>
          decide (speed = some 2 ∧ a = none ∧
            x₂.executor.robot.position = ⟨0, 0, 3 / 16⟩) := by
    cases hready
    decide +kernel
  obtain ⟨_, h₀, hstart, hok⟩ := Outcome.returned_eq_true.1 hok
  obtain ⟨speed, x₁, hpace, hok⟩ := Outcome.returned_eq_true.1 hok
  obtain ⟨a, x₂, htick, hok⟩ := Outcome.returned_eq_true.1 hok
  obtain ⟨rfl, rfl, hplace⟩ := of_decide_eq_true hok
  obtain ⟨f, goal, hf, -, -, hruns, htells, -⟩ := flight_has_no_memory hcalm hbare hrunning
    hqueue hpositive (by norm_num) hstart rfl
  have hstill := (hruns [] h₀ .start).1.2 (by simp)
  have hpaced : Steered onlookers f h₀ [] x₁ :=
    .request (r := .setSpeed 2) .start hstill trivial (.inl ⟨_, hpace⟩)
  have hsteered : Steered onlookers f h₀ [250] x₂ :=
    .request (r := .tick (some 250)) hpaced ((hruns [] x₁ hpaced).1.2 (by simp)) trivial
      (.inl ⟨_, htick⟩)
  have hquarter : Timing.covered ⟨0, 1000, h.executor.speed⟩ 250 = 1 / 16 := by
    rw [hspeed]
    decide +kernel
  obtain ⟨hflies, hpose⟩ := hruns [250] x₂ hsteered
  have hearly : ∀ now ∈ [(250 : ℚ)], ¬ Timing.Over ⟨0, 1000, h.executor.speed⟩ now := by
    rw [hspeed]
    decide +kernel
  have hlate : Timing.Over ⟨0, 1000, h.executor.speed⟩ (1000 : ℚ) := by
    rw [hspeed]
    decide +kernel
  refine ⟨h, h₀, x₁, x₂, hready, hcalm, hbare, hrunning, hqueue, hpositive, hstart, hpace, htick,
    hplace, f, goal, hf, hsteered, hflies.2 hearly, ?_, ?_⟩
  · exact hpose.trans (congrArg _ hquarter)
  · exact (htells [250] x₂ (.tick (some 1000)) hsteered (hflies.2 hearly) trivial).2.trans
      (if_pos ⟨1000, rfl, hlate⟩)

end Executor

end RobotBlocks
