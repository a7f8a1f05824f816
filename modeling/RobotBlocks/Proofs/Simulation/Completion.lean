import RobotBlocks.Proofs.Simulation.Failures

/-!
# Runs to the end

With observers that leave the executor alone and never fail (`Observers.Calm`), the only thing that can
go wrong in a run of an able executor is that a move sets out at a heading that has no direction.
Commands are `Steady` from a heading if none of their moves does.

* `tick_of_follows`: what a tick does to a flight that can be followed.
* `startNext_cases`: what starting the next command leads to: the end of the run, a new flight, or a
  failure that strands the executor.
* `tick_cases`: what a tick leads to: the flight goes on, if the tick comes before its end, or it is
  over and the next command is started.
* `ticks_cases`: what any number of ticks lead to. The commands that are still to set out are steady
  as long as all are (`Underway`); so the run ends if they are, and fails before its end if they are
  not. A flight that is still under way has been given no tick late enough (`NoneLate`).
-/

namespace RobotBlocks

variable {R μ α : Type}

/-- The operation returns, and leaves the executor as it is. -/
def Undisturbed (m : Operation R μ α) : Prop :=
  ∀ x, ∃ a x', m x = .ok a x' ∧ x'.executor = x.executor

/-- What observers do never fails and leaves the executor alone. -/
structure Observers.Calm (o : Observers R μ) : Prop where
  stateChanged : ∀ s, Undisturbed (o.stateChanged s)
  completed : ∀ c, Undisturbed (o.completed c)

theorem Undisturbed.quiet {m : Operation R μ α} (h : Undisturbed m) : Quiet m := by
  intro e x hx
  obtain ⟨_, x', hrun, hx'⟩ := h x
  rw [hrun]
  exact hx'.trans hx

theorem Observers.Calm.passive {o : Observers R μ} (ho : o.Calm) : o.Passive :=
  ⟨fun s => (ho.stateChanged s).quiet, fun c => (ho.completed c).quiet⟩

namespace Executor

/-- The operation returns, and leads to the given executor. -/
def Returns (m : Operation R μ α) (x : Host R μ) (e : Executor R) : Prop :=
  ∃ a x', m x = .ok a x' ∧ x'.executor = e

theorem Returns.unit {m : Operation R μ Unit} {x : Host R μ} {e : Executor R}
    (h : Returns m x e) : ∃ x', m x = .ok () x' ∧ x'.executor = e :=
  let ⟨_, x', hrun, hx'⟩ := h
  ⟨x', hrun, hx'⟩

/-! ## Where moves set out -/

section Directions

variable [Scalar R]

/-- The heading that a command leads to. -/
def headingAfter (heading : R) (c : Command R) : R :=
  match c.movement with
  | .turnRight => heading + toRadians c.value * ease (Scalar.ofNat 1)
  | .turnLeft => heading + -toRadians c.value * ease (Scalar.ofNat 1)
  | .forward | .backward | .wait => heading

/-- Every move sets out at a heading that has a direction, if the first command sets out at the given
heading. -/
def Steady (heading : R) : List (Command R) → Prop
  | [] => True
  | c :: rest =>
    (c.movement.isMove = true → (direction? heading).isSome) ∧ Steady (headingAfter heading c) rest

instance decidableSteady : (heading : R) → (commands : List (Command R)) →
    Decidable (Steady heading commands)
  | _, [] => .isTrue trivial
  | heading, c :: rest =>
    have := decidableSteady (headingAfter heading c) rest
    inferInstanceAs (Decidable (_ ∧ _))

/-- Nothing but its heading keeps a command from setting out: the executor has a speed, and the height
of the robot is known. -/
structure Able (e : Executor R) : Prop where
  speed : (e.speed == Scalar.ofNat 0) = false
  height : ∃ height, e.scene.agent.heightFor "-" = .ok height

theorem Able.congr {e e' : Executor R} (h : e.Able) (hspeed : e'.speed = e.speed)
    (hagent : e'.scene.agent = e.scene.agent) : e'.Able := by
  refine ⟨?_, ?_⟩
  · rw [hspeed]
    exact h.speed
  · rw [hagent]
    exact h.height

/-- The flight of a turn leads to the heading that the turn leads to. -/
theorem SetsOut.turning {e : Executor R} {c : Command R} {time : R} {f : Flight R}
    (h : e.SetsOut c time f) (hturn : f.command.movement.isTurn = true) :
    f.startHeading + f.turn * ease (Scalar.ofNat 1) = headingAfter f.startHeading f.command := by
  rw [h.command_eq] at hturn ⊢
  cases h with
  | turnRight hc | turnLeft hc => simp [headingAfter, hc, outset]
  | forward hc | backward hc | wait hc => simp [hc, Movement.isTurn] at hturn

theorem overlapping_of_able {e : Executor R} (h : e.Able) (p : Point R) :
    ∃ ignored, e.scene.overlapping p = .ok ignored := by
  obtain ⟨height, hheight⟩ := h.height
  unfold Scene.overlapping
  split
  · exact ⟨[], rfl⟩
  · simp only [AgentSize.footprint, hheight]
    exact ⟨_, rfl⟩

theorem sweep_of_able {e : Executor R} (h : e.Able) (start finish : Point R) (ignored : List ℕ) :
    ∃ contact?, e.scene.sweep start finish ignored = .ok contact? := by
  obtain ⟨height, hheight⟩ := h.height
  unfold Scene.sweep
  dsimp only
  split
  · exact ⟨none, rfl⟩
  · simp only [AgentSize.footprint, hheight]
    exact ⟨_, rfl⟩

/-- A command sets out if the executor has a speed, it is known what the robot touches, and the heading
has a direction or the command is no move. -/
theorem exists_prepare {e : Executor R} (hspeed : (e.speed == Scalar.ofNat 0) = false)
    (hoverlapping : ∃ ignored, e.scene.overlapping e.robot.position = .ok ignored) {c : Command R}
    (time : R) (hc : c.movement.isMove = true → (direction? e.robot.heading).isSome) :
    ∃ f, e.prepare c time = .ok f := by
  have hoffset : c.movement.isMove = true → ∀ distance,
      ∃ offset, forwardOffset e.robot.heading distance = .ok offset := fun hmove distance => by
    obtain ⟨⟨sine, cosine⟩, hdirection⟩ := Option.isSome_iff_exists.1 (hc hmove)
    exact ⟨_, by rw [forwardOffset, hdirection]⟩
  obtain ⟨ignored, hignored⟩ := hoverlapping
  unfold prepare
  simp only [hspeed, Bool.false_eq_true, if_false]
  split
  case h_1 hm | h_2 hm =>
    obtain ⟨offset, hok⟩ := hoffset (by simp [hm, Movement.isMove]) _
    rw [hok]
    refine ⟨_, Outcome.bind_eq_ok.2 ⟨offset, rfl, Outcome.bind_eq_ok.2 ⟨ignored, hignored, rfl⟩⟩⟩
  all_goals exact ⟨_, rfl⟩

/-- **A command sets out** if it is no move or the heading has a direction, -/
theorem prepare_of_steady {e : Executor R} (h : e.Able) {c : Command R} (time : R)
    (hc : c.movement.isMove = true → (direction? e.robot.heading).isSome) :
    ∃ f, e.prepare c time = .ok f :=
  exists_prepare h.speed (overlapping_of_able h _) time hc

/-- and fails to do so otherwise. -/
theorem prepare_of_not_steady {e : Executor R} (h : e.Able) {c : Command R} (time : R)
    (hmove : c.movement.isMove = true) (hdirection : direction? e.robot.heading = none) :
    e.prepare c time = .error .outsideDomain := by
  have hoffset : ∀ distance, forwardOffset e.robot.heading distance = .error .outsideDomain :=
    fun distance => by rw [forwardOffset, hdirection]
  unfold prepare
  simp only [h.speed, Bool.false_eq_true, if_false]
  split
  case h_1 hm | h_2 hm =>
    rw [hoffset]
    rfl
  all_goals simp_all [Movement.isMove]

/-- What has made all of its progress has made as much as there is: the order of the numbers is that
much of an order at one. -/
structure Saturates (R : Type) [Scalar R] : Prop where
  one_le_one : (Scalar.ofNat 1 : R) ≤ Scalar.ofNat 1
  not_lt_one : ∀ x : R, Scalar.ofNat 1 ≤ x → ¬ x < Scalar.ofNat 1

theorem Saturates.ease_eq (h : Saturates R) {x : R} (hx : Scalar.ofNat 1 ≤ x) :
    ease x = ease (Scalar.ofNat 1) := by
  have hclamp : ∀ x : R, Scalar.ofNat 1 ≤ x →
      clamp x (Scalar.ofNat 0) (Scalar.ofNat 1) = Scalar.max (Scalar.ofNat 0) (Scalar.ofNat 1) :=
    fun x hx => by rw [clamp, Scalar.min, if_neg (h.not_lt_one x hx)]
  rw [ease, ease, hclamp x hx, hclamp _ h.one_le_one]

end Directions

/-! ## Operations with calm observers -/

/-- The step along a flight that a tick makes: how much of it is made then. -/
def follow [Scalar R] (o : Observers R μ) (f : Flight R) (progress : R) : Operation R μ R :=
  if f.command.movement.isMove then advance o f progress
  else if f.command.movement.isTurn then do
    rotate o f progress
    pure progress
  else pure progress

section Operations

variable [Scalar R] {o : Observers R μ} (ho : o.Calm) {x : Host R μ} {e e' : Executor R}
  {f : Flight R} {time progress made : R}
include ho

omit [Scalar R] in
theorem returns_emitState (x : Host R μ) : Returns (emitState o) x x.executor := by
  obtain ⟨_, x', hrun, hx'⟩ := ho.stateChanged x.executor.robot x
  exact ⟨(), x', hrun, hx'⟩

/-- At the end of the queue the run is over. -/
theorem startNext_of_nil (time : R) (hqueue : x.executor.queue = []) :
    Returns (startNext o time) x x.executor.finished := by
  obtain ⟨_, x', hrun, hx'⟩ := returns_emitState ho
    { executor := x.executor.finished, memory := o.note ⟨.info, "Run finished"⟩ x.memory }
  refine ⟨(), x', ?_, hx'⟩
  simp only [startNext, run_look_bind, hqueue]
  exact hrun

/-- A command that can set out does. -/
theorem startNext_of_cons {c : Command R} {rest : List (Command R)}
    (hqueue : x.executor.queue = c :: rest)
    (hprepare : ({ x.executor with queue := rest }).prepare c time = .ok f) :
    Returns (startNext o time) x (x.executor.launched rest f) := by
  obtain ⟨_, x', hrun, hx'⟩ := returns_emitState ho
    { x with executor := x.executor.launched rest f }
  refine ⟨(), x', ?_, hx'⟩
  simp only [startNext, run_look_bind, hqueue, run_change_bind, hprepare]
  exact (run_bind_of_ok rfl).trans hrun

/-- Completing a flight is starting the next command behind it. -/
theorem complete_eq (f : Flight R) (time : R) (hrun : x.executor.phase = .running) :
    ∃ x', x'.executor = x.executor.landed ∧ complete o f time x = startNext o time x' := by
  obtain ⟨_, x', hcompleted, hx'⟩ :=
    ho.completed f.command { x with executor := x.executor.landed }
  refine ⟨x', hx', ?_⟩
  have hgoes : x'.executor.isRunning && x'.executor.flight.isNone := by
    simp [hx', isRunning, landed, hrun]
  rw [complete, run_change_bind]
  refine (run_bind_of_ok hcompleted).trans ?_
  rw [run_look_bind, if_pos hgoes]

/-- **A step along a flight** goes as far as the flight can be followed. -/
theorem follow_of_follows (h : x.executor.Follows f progress e made) :
    ∃ x', x'.executor = e ∧ follow o f progress x = .ok made x' := by
  cases h with
  | arrive hmove hsweep =>
    obtain ⟨_, x', hshown, hx'⟩ := returns_emitState ho
      { x with executor := x.executor.moved (positionAt f (ease progress)) }
    refine ⟨x', hx', ?_⟩
    simp only [follow, hmove, if_true, advance, run_look_bind, hsweep]
    exact run_bind_of_ok hshown
  | @halt contact hmove hsweep =>
    let place := stopBefore x.executor.robot.position (positionAt f (ease progress)) contact
    obtain ⟨_, x', hshown, hx'⟩ := returns_emitState ho
      { executor := x.executor.moved place, memory := o.note ⟨.info, "Collision during " ++
          f.command.text ++ "; stopping at (" ++ twoPlaces place.x ++ ", " ++ twoPlaces place.z ++
          ")"⟩ x.memory }
    refine ⟨x', hx', ?_⟩
    simp only [follow, hmove, if_true, advance, run_look_bind, hsweep]
    exact run_bind_of_ok hshown
  | rotate hmove hturn =>
    obtain ⟨_, x', hshown, hx'⟩ := returns_emitState ho
      { x with executor := x.executor.turned (f.startHeading + f.turn * ease progress) }
    refine ⟨x', hx', ?_⟩
    simp only [follow, hmove, hturn, Bool.false_eq_true, if_false, if_true]
    exact run_bind_of_ok (m := rotate o f progress) hshown
  | wait hmove hturn =>
    refine ⟨x, rfl, ?_⟩
    simp only [follow, hmove, hturn, Bool.false_eq_true, if_false]
    rfl

omit ho in
/-- A tick is a step along the flight, and completes it if it is still in flight when all of it is
made. -/
theorem tick_eq_follow (hrun : x.executor.phase = .running) (hflight : x.executor.flight = some f)
    (time : R) :
    tick o (some time) x = (follow o f (progressAt f time) >>= fun made =>
      if Scalar.ofNat 1 ≤ made then
        look >>= fun e => if e.isInFlight f then complete o f time else pure ()
      else pure ()) x := by
  simp only [tick, run_look_bind, hrun, hflight, run_now_bind, Option.getD_some, follow]
  split
  · rfl
  · split
    · rw [bind_assoc]
    · rfl

/-- Behind the step along a flight, a tick completes it if all of it is made. -/
theorem tick_of_follows (hrun : x.executor.phase = .running) (hflight : x.executor.flight = some f)
    (h : x.executor.Follows f (progressAt f time) e made) :
    ∃ x', x'.executor = e ∧ tick o (some time) x =
      if Scalar.ofNat 1 ≤ made then complete o f time x' else .ok () x' := by
  have hstill : e.flight = some f := by
    rw [← hflight]
    cases h <;> rfl
  obtain ⟨x', rfl, hfollow⟩ := follow_of_follows ho h
  refine ⟨x', rfl, ?_⟩
  rw [tick_eq_follow hrun hflight, run_bind_of_ok hfollow]
  split
  · rw [run_look_bind, if_pos (by simp [isInFlight, hstill])]
  · rfl

end Operations

/-! ## Steps of a run -/

section Steps

variable [Scalar R] {heading : R} {commands : List (Command R)} {e e' : Executor R} {f : Flight R}
  {time made : R}

/-- An executor that is about to start the next one of the commands that it was given at a heading:
those in its queue are left, and on them depends whether all are steady. -/
structure Poised (heading : R) (commands : List (Command R)) (e : Executor R) : Prop where
  able : e.Able
  running : e.phase = .running
  empty : e.flight = none
  left : e.queue <:+ commands
  steady : Steady heading commands ↔ Steady e.robot.heading e.queue

/-- An executor that runs with one of the commands in flight that it was given at a heading. On those
that are left behind it depends whether all are steady. -/
structure Underway (heading : R) (commands : List (Command R)) (f : Flight R) (e : Executor R) :
    Prop where
  able : e.Able
  running : e.phase = .running
  flight : e.flight = some f
  left : f.command :: e.queue <:+ commands
  number : f.number < e.flights
  turning : f.command.movement.isTurn = true →
    f.startHeading + f.turn * ease (Scalar.ofNat 1) = headingAfter f.startHeading f.command
  straight : f.command.movement.isTurn = false → e.robot.heading = f.startHeading
  steady : Steady heading commands ↔
    Steady (headingAfter f.startHeading f.command) e.queue

/-- The tick comes late enough for the flight to be over. -/
def Due (f : Flight R) (time : R) : Prop := Scalar.ofNat 1 ≤ progressAt f time

/-- A command that is no turn leads to the heading at which it sets out. -/
theorem headingAfter_of_not_isTurn {c : Command R} (h : c.movement.isTurn = false) (heading : R) :
    headingAfter heading c = heading := by
  unfold headingAfter
  split <;> simp_all [Movement.isTurn]

theorem isTurn_of_isMove {m : Movement} (h : m.isMove = true) : m.isTurn = false := by
  cases m <;> first | rfl | cases h

/-- Setting out puts a command under way. -/
theorem Poised.underway {c : Command R} {rest : List (Command R)} (h : e.Poised heading commands)
    (hqueue : e.queue = c :: rest)
    (hdirection : c.movement.isMove = true → (direction? e.robot.heading).isSome)
    (hf : ({ e with queue := rest }).prepare c time = .ok f) :
    (e.launched rest f).Underway heading commands f := by
  have hout := setsOut_of_prepare hf
  refine ⟨h.able.congr rfl rfl, h.running, rfl, ?_, ?_, hout.turning,
    fun _ => hout.startHeading_eq.symm, ?_⟩
  · rw [hout.command_eq]
    exact hqueue ▸ h.left
  · rw [hout.number_eq]
    exact Nat.lt_succ_self _
  · rw [h.steady, hqueue, Steady, hout.command_eq, hout.startHeading_eq]
    exact ⟨fun hall => hall.2, fun hrest => ⟨hdirection, hrest⟩⟩

/-- A flight can be followed at any time. -/
theorem Underway.exists_follows (h : e.Underway heading commands f) (progress : R) :
    ∃ e' made, e.Follows f progress e' made := by
  by_cases hmove : f.command.movement.isMove = true
  · obtain ⟨contact?, hsweep⟩ := sweep_of_able h.able e.robot.position
      (positionAt f (ease progress)) f.ignored
    cases contact? with
    | none => exact ⟨_, _, .arrive hmove hsweep⟩
    | some contact => exact ⟨_, _, .halt hmove hsweep⟩
  · rw [Bool.not_eq_true] at hmove
    by_cases hturn : f.command.movement.isTurn = true
    · exact ⟨_, _, .rotate hmove hturn⟩
    · exact ⟨_, _, .wait hmove (by simpa using hturn)⟩

/-- Following a flight leaves it under way, -/
theorem Underway.followed (h : e.Underway heading commands f) {progress : R}
    (hfollows : e.Follows f progress e' made) : e'.Underway heading commands f := by
  cases hfollows with
  | wait => exact h
  | arrive hmove | halt hmove =>
    exact ⟨h.able.congr rfl rfl, h.running, h.flight, h.left, h.number, h.turning, h.straight,
      h.steady⟩
  | rotate hmove hturn =>
    exact ⟨h.able.congr rfl rfl, h.running, h.flight, h.left, h.number, h.turning,
      fun hstill => by simp [hturn] at hstill, h.steady⟩

/-- and if all of it is made, the executor is ready for the next command when it has landed. -/
theorem Underway.landed (h : e.Underway heading commands f) (hR : Saturates R) {progress : R}
    (hfollows : e.Follows f progress e' made) (hmade : Scalar.ofNat 1 ≤ made) :
    e'.landed.Poised heading commands := by
  have hafter := h.followed hfollows
  have hheading : e'.robot.heading = headingAfter f.startHeading f.command := by
    cases hfollows with
    | rotate _ hturn =>
      rw [← h.turning hturn, ← hR.ease_eq hmade]
      rfl
    | arrive hmove | halt hmove =>
      rw [headingAfter_of_not_isTurn (isTurn_of_isMove hmove)]
      exact h.straight (isTurn_of_isMove hmove)
    | wait _ hstill =>
      rw [headingAfter_of_not_isTurn hstill]
      exact h.straight hstill
  refine ⟨hafter.able.congr rfl rfl, hafter.running, rfl,
    (List.suffix_cons _ _).trans hafter.left, ?_⟩
  change _ ↔ Steady e'.robot.heading e'.queue
  rw [hheading]
  exact hafter.steady

/-- Following a flight leaves the commands behind it alone. -/
theorem Follows.queue_eq {progress : R} (hfollows : e.Follows f progress e' made) :
    e'.queue = e.queue := by cases hfollows <;> rfl

/-- A flight that is due is made, whatever is in its way. -/
theorem Follows.one_le_made (hR : Saturates R) {progress : R}
    (hfollows : e.Follows f progress e' made) (hdue : Scalar.ofNat 1 ≤ progress) :
    Scalar.ofNat 1 ≤ made := by
  cases hfollows with
  | halt => exact hR.one_le_one
  | arrive | rotate | wait => exact hdue

end Steps

/-! ## Runs -/

section Runs

variable [Scalar R] {heading : R} {commands : List (Command R)}

/-- **Where a run can be** after an operation with the given result: at its end, in the middle of a
flight, or stranded by a move that cannot set out. The first takes steady commands, and the last
takes commands that are not. -/
inductive Reaches (heading : R) (commands : List (Command R)) (Q : Host R μ → Flight R → Prop)
    (r : EStateM.Result Fault (Host R μ) Unit) : Prop
  | ended {x : Host R μ} (hsteady : Steady heading commands) (hr : r = .ok () x)
    (hidle : x.executor.phase = .idle)
  | underway {x : Host R μ} {f : Flight R} (hr : r = .ok () x)
    (h : x.executor.Underway heading commands f) (hf : Q x f)
  | stranded {x : Host R μ} (hsteady : ¬ Steady heading commands)
    (hr : r = .error .outsideDomain x) (hlive : ¬ x.executor.Live)

theorem Reaches.mono {Q Q' : Host R μ → Flight R → Prop} {r : EStateM.Result Fault (Host R μ) Unit}
    (h : Reaches heading commands Q r) (hQ : ∀ x f, Q x f → Q' x f) :
    Reaches heading commands Q' r := by
  cases h with
  | ended hsteady hr hidle => exact .ended hsteady hr hidle
  | underway hr h hf => exact .underway hr h (hQ _ _ hf)
  | stranded hsteady hr hlive => exact .stranded hsteady hr hlive

/-- Ticks at the given times. -/
def ticks (o : Observers R μ) : List R → Operation R μ Unit
  | [] => pure ()
  | time :: times => do
    tick o (some time)
    ticks o times

/-- None of the ticks at the given times that are made while a flight is in flight is late for it. -/
def NoneLate (late : Flight R → R → Prop) (o : Observers R μ) (times : List R) (x : Host R μ)
    (f : Flight R) : Prop :=
  ∀ earlier time later x', times = earlier ++ time :: later → ticks o earlier x = .ok () x' →
    x'.executor.flight = some f → ¬ late f time

theorem NoneLate.mono {late late' : Flight R → R → Prop} {o : Observers R μ} {times : List R}
    {x : Host R μ} {f : Flight R} (h : NoneLate late o times x f)
    (hlate : ∀ f time, late' f time → late f time) : NoneLate late' o times x f :=
  fun earlier time later x' hsplit hrun hflight hl =>
    h earlier time later x' hsplit hrun hflight (hlate f time hl)

variable {o : Observers R μ} {x : Host R μ} {f : Flight R}

/-- At rest, ticks do nothing. -/
theorem ticks_of_idle (times : List R) (hidle : x.executor.phase = .idle) :
    ticks o times x = .ok () x := by
  induction times with
  | nil => rfl
  | cons time times ih =>
    have htick : tick o (some time) x = .ok () x := by
      rw [tick, run_look_bind]
      simp only [hidle]
      rfl
    exact (run_bind_of_ok htick).trans ih

/-- Handing in commands is starting the first one of them. -/
theorem execute_eq (x : Host R μ) (commands : List (Command R)) :
    ∃ x' time, x'.executor = x.executor.loaded commands ∧
      execute o (commands.map .command) x = startNext o time x' := by
  unfold execute
  rw [commandsOf_map]
  simp only [orFail, pure_bind, run_look_bind]
  split
  · exact ⟨_, _, rfl, rfl⟩
  · exact ⟨_, _, rfl, rfl⟩

/-- Handing in commands starts the first one of them, and the clock shows the time that it did if no
time passes while records are taken down. -/
theorem execute_eq_startNext
    (hclock : ∀ entry memory, o.clock (o.note entry memory) = o.clock memory) (x : Host R μ)
    (commands : List (Command R)) :
    ∃ x', x'.executor = x.executor.loaded commands ∧
      execute o (commands.map .command) x = startNext o (o.clock x'.memory) x' ∧
      o.clock x'.memory = o.clock x.memory := by
  unfold execute
  rw [commandsOf_map]
  simp only [orFail, pure_bind, run_look_bind]
  split
  · exact ⟨⟨x.executor.loaded commands, _⟩, rfl, rfl, by rw [hclock, hclock]⟩
  · exact ⟨⟨x.executor.loaded commands, _⟩, rfl, rfl, by rw [hclock]⟩

variable (ho : o.Calm)
include ho

/-- **Starting the next command.** -/
theorem startNext_cases (h : x.executor.Poised heading commands) (time : R) :
    Reaches heading commands
      (fun x' f => f.number = x.executor.flights ∧
        x.executor.queue = f.command :: x'.executor.queue)
      (startNext o time x) := by
  rcases hqueue : x.executor.queue with _ | ⟨c, rest⟩
  · obtain ⟨x', hrun, hx'⟩ := (startNext_of_nil ho time hqueue).unit
    exact .ended (h.steady.2 (by rw [hqueue]; trivial)) hrun (by rw [hx']; rfl)
  · by_cases hdirection :
      c.movement.isMove = true → (direction? x.executor.robot.heading).isSome
    · obtain ⟨f, hf⟩ := prepare_of_steady (e := { x.executor with queue := rest })
        (h.able.congr rfl rfl) time hdirection
      obtain ⟨x', hrun, hx'⟩ := (startNext_of_cons ho hqueue hf).unit
      have hout := setsOut_of_prepare hf
      refine .underway hrun (by rw [hx']; exact h.underway hqueue hdirection hf) ⟨hout.number_eq, ?_⟩
      rw [hx', hout.command_eq]
      rfl
    · obtain ⟨hmove, hnone⟩ := Classical.not_imp.1 hdirection
      rw [Option.not_isSome_iff_eq_none] at hnone
      have hprepare := prepare_of_not_steady (e := { x.executor with queue := rest })
        (h.able.congr rfl rfl) time hmove hnone
      have hlive : ¬ x.executor.Live := not_live_iff.2 ⟨h.running, h.empty⟩
      obtain ⟨x', hrun, hx'⟩ := strands_startNext (o := o) hlive hqueue hprepare x rfl
      refine .stranded (fun hsteady => hdirection ?_) hrun hx'
      have hall := h.steady.1 hsteady
      rw [hqueue] at hall
      exact hall.1

/-- **Handing in commands** starts a run of them. -/
theorem execute_cases (h : x.executor.Able) (commands : List (Command R)) :
    Reaches x.executor.robot.heading commands (fun _ _ => True)
      (execute o (commands.map .command) x) := by
  obtain ⟨x', time, hx', hexecute⟩ := execute_eq (o := o) x commands
  have hpoised : x'.executor.Poised x.executor.robot.heading commands := by
    rw [hx']
    exact ⟨h.congr rfl rfl, rfl, rfl, List.suffix_rfl, Iff.rfl⟩
  rw [hexecute]
  exact (startNext_cases ho hpoised time).mono fun _ _ _ => trivial

variable (hR : Saturates R)
include hR

/-- **A tick** that comes before the end of the flight leaves it under way; one that is due does not. A
new flight is for the next command of the queue. -/
theorem tick_cases (h : x.executor.Underway heading commands f) (time : R) :
    Reaches heading commands
      (fun x' g => (g = f ∧ ¬ Due f time) ∨
        (f.number < g.number ∧ x.executor.queue = g.command :: x'.executor.queue))
      (tick o (some time) x) := by
  obtain ⟨e, made, hfollows⟩ := h.exists_follows (progressAt f time)
  obtain ⟨x', rfl, htick⟩ := tick_of_follows ho h.running h.flight hfollows
  rw [htick]
  have hafter := h.followed hfollows
  split
  next hmade =>
    obtain ⟨x'', hx'', hcomplete⟩ := complete_eq ho f time hafter.running
    have hpoised : x''.executor.Poised heading commands := by
      rw [hx'']
      exact h.landed hR hfollows hmade
    rw [hcomplete]
    refine (startNext_cases ho hpoised time).mono fun y g ⟨hnumber, hqueue⟩ => .inr ⟨?_, ?_⟩
    · rw [hnumber, hx'']
      exact hafter.number
    · rw [hx''] at hqueue
      exact hfollows.queue_eq.symm.trans hqueue
  next hmade =>
    exact .underway rfl hafter (.inl ⟨rfl, fun hdue => hmade (hfollows.one_le_made hR hdue)⟩)

/-- **Any number of ticks.** A flight that is under way behind them has been given no tick that was
due. -/
theorem ticks_cases (h : x.executor.Underway heading commands f) (times : List R) :
    Reaches heading commands
      (fun _ g => (g = f ∨ f.number < g.number) ∧ NoneLate Due o times x g)
      (ticks o times x) := by
  induction times generalizing x f with
  | nil => exact .underway rfl h ⟨.inl rfl, fun earlier _ _ _ hsplit => by simp at hsplit⟩
  | cons time times ih =>
    cases tick_cases ho hR h time with
    | ended hsteady hr hidle =>
      exact .ended hsteady ((run_bind_of_ok hr).trans (ticks_of_idle times hidle)) hidle
    | stranded hsteady hr hlive => exact .stranded hsteady (run_bind_of_error hr) hlive
    | @underway x' g hr hg hstep =>
      have hrest : ticks o (time :: times) x = ticks o times x' := run_bind_of_ok hr
      rw [hrest]
      refine (ih hg).mono fun _ k ⟨hk, hnone⟩ => ⟨?_, ?_⟩
      · rcases hk with rfl | hk <;> rcases hstep with ⟨rfl, -⟩ | ⟨hlt, -⟩
        · exact .inl rfl
        · exact .inr hlt
        · exact .inr hk
        · exact .inr (hlt.trans hk)
      · intro earlier late later x'' hsplit hrun hflight
        rcases earlier with _ | ⟨first, earlier⟩
        · -- The first tick: had it been due, the flight would be an older one.
          obtain ⟨rfl, rfl⟩ := List.cons.inj hsplit
          cases hrun
          obtain rfl : f = k := Option.some.inj (h.flight.symm.trans hflight)
          rcases hstep with ⟨-, hearly⟩ | ⟨hlt, -⟩
          · exact hearly
          · rcases hk with rfl | hk
            · exact absurd hlt (lt_irrefl _)
            · exact absurd (hlt.trans hk) (lt_irrefl _)
        · obtain ⟨rfl, rfl⟩ := List.cons.inj hsplit
          exact hnone earlier late later x'' rfl ((run_bind_of_ok hr).symm.trans hrun) hflight

end Runs

end Executor

end RobotBlocks
