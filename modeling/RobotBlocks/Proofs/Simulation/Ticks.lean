import RobotBlocks.Proofs.Outcome
import RobotBlocks.Proofs.Simulation.Delivery

/-!
# Where a tick leads

With observers that leave the executor alone, the executor behind a tick depends on the executor
before it and on the time only, up to the place at which an observer fails. The relations of this
module say once where it can be:

* `e.Follows f progress e' made`: the robot has been brought to where the flight `f` has it at the
  given progress, or to just short of an obstacle, and the flight has made the progress `made`;
* `e.Continues time e'`: the next command of the queue has been set in flight, or there is none, or
  it could not set out;
* `e.Ticks time e'`: the two of them in sequence, as far as they got.

`ticks_tick` and `continues_startNext` tie them to the operations. They hold of an operation that
succeeds and of one that fails alike: `Operation.LeadsTo` is either.
-/

namespace RobotBlocks

variable {R μ : Type}

/-- The operation ends at the second host if it begins at the first, whether it succeeds or fails.
-/
def Operation.LeadsTo {α : Type} (m : Operation R μ α) (h h' : Host R μ) : Prop :=
  (∃ a, m h = .ok a h') ∨ ∃ fault, m h = .error fault h'

/-- What holds wherever an operation ends holds where it leads to. -/
theorem Triple.leadsTo {α : Type} {P Q : Host R μ → Prop} {m : Operation R μ α}
    (h : Triple P m (fun _ => Q) Q) {x x' : Host R μ} (hx : P x) (hm : m.LeadsTo x x') : Q x' := by
  obtain ⟨a, hm⟩ | ⟨fault, hm⟩ := hm
  · exact h.ok hx hm
  · exact h.error hx hm

namespace Executor

/-! ## Steps of a run -/

/-- The executor with nothing in flight. -/
def landed (e : Executor R) : Executor R := { e with flight := none }

/-- The executor at the end of a run. -/
def finished (e : Executor R) : Executor R := { e.still with phase := .idle, flight := none }

/-- The executor with new commands, about to start the first one. -/
def loaded (e : Executor R) (commands : List (Command R)) : Executor R :=
  { e with queue := commands, flight := none, phase := .running }

/-- The executor with a new flight, and what is left of the queue. -/
def launched (e : Executor R) (rest : List (Command R)) (f : Flight R) : Executor R :=
  { e with queue := rest, flight := some f, flights := e.flights + 1, robot.moving := true }

/-- The executor with another speed. -/
def paced (e : Executor R) (speed : R) : Executor R := { e with speed, robot.speed := speed }

/-- The executor with the robot at another place. -/
def moved (e : Executor R) (p : Point R) : Executor R := { e with robot := e.robot.placeAt p }

/-- The executor with the robot turned to another heading. -/
def turned (e : Executor R) (heading : R) : Executor R := { e with robot.rotation.y := heading }

variable [Scalar R]

/-- **Where following a flight leads**, and the progress that the flight has made. -/
inductive Follows (e : Executor R) (f : Flight R) (progress : R) : Executor R → R → Prop
  /-- The way is free. -/
  | arrive (hmove : f.command.movement.isMove = true)
    (hsweep : e.scene.sweep e.robot.position (positionAt f (ease progress)) f.ignored = .ok none) :
    Follows e f progress (e.moved (positionAt f (ease progress))) progress
  /-- An obstacle ends the move. -/
  | halt {contact : R} (hmove : f.command.movement.isMove = true)
    (hsweep : e.scene.sweep e.robot.position (positionAt f (ease progress)) f.ignored =
      .ok (some contact)) :
    Follows e f progress
      (e.moved (stopBefore e.robot.position (positionAt f (ease progress)) contact))
      (Scalar.ofNat 1)
  | rotate (hmove : f.command.movement.isMove = false) (hturn : f.command.movement.isTurn = true) :
    Follows e f progress (e.turned (f.startHeading + f.turn * ease progress)) progress
  | wait (hmove : f.command.movement.isMove = false) (hturn : f.command.movement.isTurn = false) :
    Follows e f progress e progress

/-- The flight of a command from where the robot is. -/
def outset (e : Executor R) (c : Command R) (time alongX alongZ turn : R) (ignored : List ℕ) :
    Flight R where
  number := e.flights
  command := c
  startTime := time
  duration := c.duration / e.speed
  startPosition := e.robot.position
  startHeading := e.robot.heading
  alongX := alongX
  alongZ := alongZ
  turn := turn
  ignored := ignored

/-- **The flight on which a command sets out.** -/
inductive SetsOut (e : Executor R) (c : Command R) (time : R) : Flight R → Prop
  | forward {x z : R} {ignored : List ℕ} (hc : c.movement = .forward)
    (hoffset : forwardOffset e.robot.heading (c.value * e.config.unitsPerStep) = .ok (x, z))
    (hignored : e.scene.overlapping e.robot.position = .ok ignored) :
    SetsOut e c time (e.outset c time x z (Scalar.ofNat 0) ignored)
  | backward {x z : R} {ignored : List ℕ} (hc : c.movement = .backward)
    (hoffset : forwardOffset e.robot.heading (-(c.value * e.config.unitsPerStep)) = .ok (x, z))
    (hignored : e.scene.overlapping e.robot.position = .ok ignored) :
    SetsOut e c time (e.outset c time x z (Scalar.ofNat 0) ignored)
  | turnRight (hc : c.movement = .turnRight) :
    SetsOut e c time
      (e.outset c time (Scalar.ofNat 0) (Scalar.ofNat 0) (toRadians c.value) [])
  | turnLeft (hc : c.movement = .turnLeft) :
    SetsOut e c time
      (e.outset c time (Scalar.ofNat 0) (Scalar.ofNat 0) (-toRadians c.value) [])
  | wait (hc : c.movement = .wait) :
    SetsOut e c time
      (e.outset c time (Scalar.ofNat 0) (Scalar.ofNat 0) (Scalar.ofNat 0) [])

/-- A command that can set out does so on such a flight. -/
theorem setsOut_of_prepare {e : Executor R} {c : Command R} {time : R} {f : Flight R}
    (h : e.prepare c time = .ok f) : e.SetsOut c time f := by
  obtain ⟨movement, value, duration, source⟩ := c
  simp only [prepare, throw, throwThe, MonadExceptOf.throw] at h
  split at h
  · cases h
  cases movement with
  | forward =>
    obtain ⟨⟨x, z⟩, hoffset, h⟩ := Outcome.bind_eq_ok.1 h
    obtain ⟨ignored, hignored, h⟩ := Outcome.bind_eq_ok.1 h
    cases h
    exact .forward rfl hoffset hignored
  | backward =>
    obtain ⟨⟨x, z⟩, hoffset, h⟩ := Outcome.bind_eq_ok.1 h
    obtain ⟨ignored, hignored, h⟩ := Outcome.bind_eq_ok.1 h
    cases h
    exact .backward rfl hoffset hignored
  | turnRight =>
    cases h
    exact .turnRight rfl
  | turnLeft =>
    cases h
    exact .turnLeft rfl
  | wait =>
    cases h
    exact .wait rfl

theorem SetsOut.command_eq {e : Executor R} {c : Command R} {time : R} {f : Flight R}
    (h : e.SetsOut c time f) : f.command = c := by cases h <;> rfl

theorem SetsOut.number_eq {e : Executor R} {c : Command R} {time : R} {f : Flight R}
    (h : e.SetsOut c time f) : f.number = e.flights := by cases h <;> rfl

theorem SetsOut.startHeading_eq {e : Executor R} {c : Command R} {time : R} {f : Flight R}
    (h : e.SetsOut c time f) : f.startHeading = e.robot.heading := by cases h <;> rfl

/-- **Where starting the next command leads.** -/
inductive Continues (e : Executor R) (time : R) : Executor R → Prop
  | finished (hqueue : e.queue = []) : Continues e time e.finished
  | launched {c : Command R} {rest : List (Command R)} {f : Flight R} (hqueue : e.queue = c :: rest)
    (hf : ({ e with queue := rest }).prepare c time = .ok f) : Continues e time (e.launched rest f)
  /-- The command cannot set out, and is gone. -/
  | lost {c : Command R} {rest : List (Command R)} (hqueue : e.queue = c :: rest) :
    Continues e time { e with queue := rest }

/-- **Where a tick leads.** -/
inductive Ticks (e : Executor R) (time : R) : Executor R → Prop
  | unmoved : Ticks e time e
  | followed {f : Flight R} {e' : Executor R} {made : R} (hrun : e.phase = .running)
    (hf : e.flight = some f) (h : e.Follows f (progressAt f time) e' made) : Ticks e time e'
  | landed {f : Flight R} {e' : Executor R} {made : R} (hrun : e.phase = .running)
    (hf : e.flight = some f) (h : e.Follows f (progressAt f time) e' made)
    (hmade : Scalar.ofNat 1 ≤ made) : Ticks e time e'.landed
  | continued {f : Flight R} {e' e'' : Executor R} {made : R} (hrun : e.phase = .running)
    (hf : e.flight = some f) (h : e.Follows f (progressAt f time) e' made)
    (hmade : Scalar.ofNat 1 ≤ made) (hnext : e'.landed.Continues time e'') : Ticks e time e''

/-! ## Operations at a known executor -/

section Known

variable {α : Type} {e : Executor R} {Q : α → Host R μ → Prop} {E : Host R μ → Prop}

omit [Scalar R] in
theorem look_at {k : Executor R → Operation R μ α} (h : Triple (On (· = e)) (k e) Q E) :
    Triple (On (· = e)) (look >>= k) Q E := by
  rintro x rfl
  exact h x rfl

omit [Scalar R] in
theorem change_at {g : Executor R → Executor R} {k : Unit → Operation R μ α}
    (h : Triple (On (· = g e)) (k ()) Q E) : Triple (On (· = e)) (change g >>= k) Q E := by
  rintro x rfl
  exact h { x with executor := g x.executor } rfl

omit [Scalar R] in
theorem note_at {o : Observers R μ} {level : Log.Level} {message : Text}
    {k : Unit → Operation R μ α} (h : Triple (On (· = e)) (k ()) Q E) :
    Triple (On (· = e)) (note o level message >>= k) Q E := by
  rintro x rfl
  exact h { x with memory := o.note ⟨level, message⟩ x.memory } rfl

omit [Scalar R] in
theorem orFail_at {β : Type} {value : Except Fault β} {F : Executor R → Prop}
    {k : β → Operation R μ α} (hfails : F e)
    (h : ∀ b, value = .ok b → Triple (On (· = e)) (k b) Q (On F)) :
    Triple (On (· = e)) (orFail value >>= k) Q (On F) := by
  rcases value with fault | b
  · rintro x rfl
    exact hfails
  · exact h b rfl

omit [Scalar R] in
theorem pure_at {P : α → Executor R → Prop} {a : α} (h : P a e) :
    Triple (On (· = e)) (pure a : Operation R μ α) (fun a => On (P a)) E := by
  rintro x rfl
  exact h

omit [Scalar R] in
/-- An operation that leaves the executor alone ends with it. -/
theorem quiet_last {m : Operation R μ α} (hm : Quiet m) {F : Executor R → Prop} (h : F e) :
    Triple (On (· = e)) m (fun _ => On F) (On F) := by
  rintro x rfl
  exact hm.keeps (fun _ h => h) x h

omit [Scalar R] in
theorem quiet_at {β : Type} {m : Operation R μ β} (hm : Quiet m) {F : Executor R → Prop}
    {k : β → Operation R μ α} (hfails : F e) (h : ∀ b, Triple (On (· = e)) (k b) Q (On F)) :
    Triple (On (· = e)) (m >>= k) Q (On F) :=
  .bind (.of_cases (fun _ _ _ hx hrun => (quiet_last hm (F := (· = e)) rfl).ok hx hrun)
    fun _ _ _ hx hrun => (quiet_last hm hfails).error hx hrun) h

omit [Scalar R] in
/-- Showing the robot to observers that leave the executor alone does so. -/
theorem quiet_emitState {o : Observers R μ} (ho : o.Passive) : Quiet (emitState o) :=
  fun e x hx => ho.stateChanged _ e x hx

end Known

/-! ## The operations take these steps -/

section Operations

variable {o : Observers R μ} (ho : o.Passive) {e : Executor R} {f : Flight R} {time : R}
include ho

/-- **Starting the next command** is a step of a run. -/
theorem continues_startNext :
    Triple (On (· = e)) (startNext o time) (fun _ => On (e.Continues time))
      (On (e.Continues time)) := by
  refine look_at ?_
  split
  next hqueue => exact change_at (note_at (quiet_last (quiet_emitState ho) (.finished hqueue)))
  next c rest hqueue =>
    exact change_at (look_at (orFail_at (.lost hqueue) fun f hf =>
      change_at (quiet_last (quiet_emitState ho) (.launched hqueue hf))))

/-- **Handing in commands** leads to where starting the first one does. -/
theorem continues_execute (commands : List (Command R)) :
    Triple (On (· = e)) (execute o (commands.map .command))
      (fun _ => On fun e' => ∃ time, (e.loaded commands).Continues time e')
      (On fun e' => ∃ time, (e.loaded commands).Continues time e') := by
  have hstart : Triple (On (· = e.loaded commands)) (now o >>= startNext o)
      (fun _ => On fun e' => ∃ time, (e.loaded commands).Continues time e')
      (On fun e' => ∃ time, (e.loaded commands).Continues time e') :=
    .bind (.now o) fun time => .of_cases
      (fun _ _ _ hx hm => ⟨time, (continues_startNext ho).ok hx hm⟩)
      fun _ _ _ hx hm => ⟨time, (continues_startNext ho).error hx hm⟩
  unfold execute
  rw [commandsOf_map]
  simp only [orFail, pure_bind]
  refine look_at (.ite (fun _ => note_at ?_) fun _ => ?_)
  · exact change_at (look_at (note_at hstart))
  · exact change_at (look_at (note_at hstart))

/-- Moving along the flight is a step of a tick, -/
theorem follows_advance (hrun : e.phase = .running) (hf : e.flight = some f)
    (hmove : f.command.movement.isMove = true) :
    Triple (On (· = e)) (advance o f (progressAt f time))
      (fun made => On fun e' => e.Follows f (progressAt f time) e' made) (On (e.Ticks time)) := by
  refine look_at (orFail_at .unmoved fun contact? hsweep => ?_)
  cases contact? with
  | none =>
    have harrive := Follows.arrive hmove hsweep
    exact change_at (quiet_at (quiet_emitState ho) (.followed hrun hf harrive) fun _ =>
      pure_at harrive)
  | some contact =>
    have hhalt := Follows.halt hmove hsweep
    exact change_at (note_at (quiet_at (quiet_emitState ho) (.followed hrun hf hhalt) fun _ =>
      pure_at hhalt))

/-- and so is turning along it. -/
theorem follows_rotate (hrun : e.phase = .running) (hf : e.flight = some f)
    (hmove : f.command.movement.isMove = false) (hturn : f.command.movement.isTurn = true) :
    Triple (On (· = e)) (rotate o f (progressAt f time))
      (fun _ => On fun e' => e.Follows f (progressAt f time) e' (progressAt f time))
      (On (e.Ticks time)) :=
  have hrotate : e.Follows f (progressAt f time)
      (e.turned (f.startHeading + f.turn * ease (progressAt f time))) (progressAt f time) :=
    .rotate hmove hturn
  change_at (.of_cases (fun _ _ _ hx hm => (quiet_last (quiet_emitState ho) hrotate).ok hx hm)
    fun _ _ _ hx hm => (quiet_last (quiet_emitState ho) (.followed hrun hf hrotate)).error hx hm)

/-- **Completing a flight** ends the tick and starts the next command. -/
theorem ticks_complete {e' : Executor R} {made : R} (hrun : e.phase = .running)
    (hf : e.flight = some f) (hfollows : e.Follows f (progressAt f time) e' made)
    (hmade : Scalar.ofNat 1 ≤ made) :
    Triple (On (· = e')) (complete o f time) (fun _ => On (e.Ticks time)) (On (e.Ticks time)) := by
  have hlanded : e.Ticks time e'.landed := .landed hrun hf hfollows hmade
  refine change_at (quiet_at (ho.completed _) hlanded fun _ =>
    look_at (.ite (fun _ => ?_) fun _ => ?_))
  · exact .of_cases
      (fun _ _ _ hx hm => .continued hrun hf hfollows hmade ((continues_startNext ho).ok hx hm))
      fun _ _ _ hx hm => .continued hrun hf hfollows hmade ((continues_startNext ho).error hx hm)
  · exact pure_at hlanded

/-- **A tick** takes the step of a tick, at the given time or that of the clock. -/
theorem ticks_tick (time? : Option R) :
    Triple (fun x => x.executor = e ∧ time?.getD (o.clock x.memory) = time) (tick o time?)
      (fun _ => On (e.Ticks time)) (On (e.Ticks time)) := by
  refine .bind (Q := fun e₀ x => e₀ = e ∧ x.executor = e ∧ time?.getD (o.clock x.memory) = time)
    (fun x hx => ⟨hx.1, hx⟩) fun e₀ => ?_
  split
  next f hrun hf =>
    refine .bind (Q := fun now x => (e.phase = .running ∧ e.flight = some f ∧
      time?.getD now = time) ∧ x.executor = e) ?_ fun now => ?_
    · rintro x ⟨rfl, hsame, htime⟩
      exact ⟨⟨hrun, hf, htime⟩, hsame⟩
    rintro x ⟨⟨hrun, hf, rfl⟩, hx⟩
    -- Behind the step the flight is completed if all of it is made.
    have hend : ∀ made : R,
        Triple (On fun e' => e.Follows f (progressAt f (time?.getD now)) e' made)
          (if Scalar.ofNat 1 ≤ made then
            (look >>= fun e => if e.isInFlight f then complete o f (time?.getD now) else pure ())
            else pure ())
          (fun _ => On (e.Ticks (time?.getD now))) (On (e.Ticks (time?.getD now))) := by
      intro made y hy
      refine (Triple.ite (fun hmade => look_at (.ite (fun _ => ?_) fun _ => ?_)) fun _ => ?_ :
        Triple (On (· = y.executor)) _ _ _) y rfl
      · exact ticks_complete ho hrun hf hy hmade
      · exact pure_at (.followed hrun hf hy)
      · exact pure_at (.followed hrun hf hy)
    refine (Triple.ite (fun hmove => ?_) fun hmove => .ite (fun hturn => ?_) fun hturn => ?_ :
      Triple (On (· = e)) _ _ _) x hx
    · exact .bind (follows_advance ho hrun hf hmove) hend
    · exact .bind (follows_rotate ho hrun hf (by simpa using hmove) hturn) fun _ =>
        .bind (.pure fun _ hx => hx) hend
    · exact .bind (pure_at (.wait (by simpa using hmove) (by simpa using hturn))) hend
  · refine .pure fun x hx => ?_
    rw [On, hx.2.1]
    exact .unmoved

/-- **Setting the speed** keeps what holds at any speed. -/
theorem keeps_setSpeed {I : Executor R → Prop} (h : ∀ e speed, I e → I (e.paced speed))
    (value : R) : Keeps I I (Executor.setSpeed o value) := by
  refine .ite (fun _ => ?_) fun _ => ?_
  · exact .bind (.note o _ _) fun _ => .bind .peek fun _ => .done
  · exact .bind .peek fun _ => .bind (Q := fun _ => On I) (.change fun x hx => h _ _ hx) fun _ =>
      .bind ((quiet_emitState ho).keeps fun _ h => h) fun _ => .bind .peek fun _ => .done

theorem keeps_setSpeedData {I : Executor R → Prop} (h : ∀ e speed, I e → I (e.paced speed))
    (value : Data) : Keeps I I (Executor.setSpeedData o value) := by
  unfold setSpeedData
  split
  · exact keeps_setSpeed ho h _
  · exact .throw fun _ hx => hx
  · exact .bind (.note o _ _) fun _ => .bind .peek fun _ => .done

theorem ticks_of_leadsTo {h h' : Host R μ} {time? : Option R} (hrun : (tick o time?).LeadsTo h h') :
    h.executor.Ticks (time?.getD (o.clock h.memory)) h'.executor :=
  (ticks_tick ho time?).leadsTo ⟨rfl, rfl⟩ hrun

theorem keeps_ticks {I : Executor R → Prop} (h : ∀ e e' time, I e → e.Ticks time e' → I e')
    (time? : Option R) : Keeps I I (tick o time?) :=
  .of_cases (fun _ _ _ hx hm => h _ _ _ hx (ticks_of_leadsTo ho (.inl ⟨_, hm⟩)))
    fun _ _ _ hx hm => h _ _ _ hx (ticks_of_leadsTo ho (.inr ⟨_, hm⟩))

theorem continues_of_leadsTo {h h' : Host R μ} (hrun : (startNext o time).LeadsTo h h') :
    h.executor.Continues time h'.executor :=
  (continues_startNext ho).leadsTo rfl hrun

end Operations

end Executor

end RobotBlocks
