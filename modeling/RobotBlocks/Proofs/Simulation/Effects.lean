import RobotBlocks.Proofs.Simulation.Completion
import RobotBlocks.Proofs.Simulation.Landing

/-!
# What commands change

A command changes nothing but what it names (`commands_change_what_they_name`): only moves change
the position, only turns change the heading, and a wait changes nothing until it is over. Nothing
changes the height of the robot or tilts it, short of a reset. This holds for numbers of any kind,
also if requests fail, as long as observers make none. In exact numbers, a move puts the robot to
points of the straight line along which it set out only, wherever it is cut short.

* Requests other than ticks leave the robot where it stands (`staysPut_request`), and so does what a
  tick does when a flight is over (`Ticks.cases`). What is in flight behind them was so before, or
  sets out from there (`Stays`).
* What is left is following a flight (`Follows`). That it keeps the height and the line is due to
  where the flight set out, so both are carried along as invariants (`Level`, `OnLine`).
-/

namespace RobotBlocks

/-- The requests by which a robot is steered: those that do not put it back to its initial state. -/
def Request.Steers {R : Type} : Request R → Prop
  | .reset | .setInitial .. => False
  | .execute _ | .tick _ | .pause | .resume | .stop | .setSpeed _ | .setSpeedData _
  | .setObstacles _ | .setAgentSize _ => True

namespace Executor

variable {R μ : Type}

/-- The robot stands as it did, and what is in flight was so before or sets out from there. -/
structure Stays (e e' : Executor R) : Prop where
  position : e'.robot.position = e.robot.position
  rotation : e'.robot.rotation = e.robot.rotation
  flight : ∀ f, e'.flight = some f → e.flight = some f ∨ f.startPosition = e'.robot.position

namespace Stays

variable {e e' e'' : Executor R}

theorem refl (e : Executor R) : e.Stays e := ⟨rfl, rfl, fun _ hf => .inl hf⟩

/-- Whatever only drops the flight, if it touches it at all, leaves the robot where it stands. -/
theorem of_eq (hposition : e'.robot.position = e.robot.position)
    (hrotation : e'.robot.rotation = e.robot.rotation)
    (hflight : e'.flight = e.flight ∨ e'.flight = none) : e.Stays e' where
  position := hposition
  rotation := hrotation
  flight f hf := by
    rcases hflight with hsame | hnone
    · exact .inl (hsame ▸ hf)
    · rw [hnone] at hf
      cases hf

theorem trans (h : e.Stays e') (h' : e'.Stays e'') : e.Stays e'' where
  position := h'.position.trans h.position
  rotation := h'.rotation.trans h.rotation
  flight f hf := by
    rcases h'.flight f hf with hbefore | hstart
    · exact (h.flight f hbefore).imp_right fun hstart => hstart.trans h'.position.symm
    · exact .inr hstart

end Stays

variable [Scalar R]

theorem SetsOut.startPosition_eq {e : Executor R} {c : Command R} {time : R} {f : Flight R}
    (h : e.SetsOut c time f) : f.startPosition = e.robot.position := by cases h <;> rfl

variable {e e' : Executor R} {f : Flight R} {time progress made : R}

/-- Starting the next command leaves the robot where it stands. -/
theorem Continues.stays (h : e.Continues time e') : e.Stays e' := by
  cases h with
  | finished hqueue => exact .of_eq rfl rfl (.inr rfl)
  | launched hqueue hprepare =>
    refine ⟨rfl, rfl, fun f hf => .inr ?_⟩
    cases hf
    exact (setsOut_of_prepare hprepare).startPosition_eq
  | lost hqueue => exact .of_eq rfl rfl (.inl rfl)

/-- **A tick** leaves the robot where it stands, or where following the flight brings it. -/
theorem Ticks.cases (h : e.Ticks time e') :
    e.Stays e' ∨ ∃ f e'' made, e.flight = some f ∧ e.Follows f (progressAt f time) e'' made ∧
      e''.Stays e' := by
  have hlanded : ∀ e : Executor R, e.Stays e.landed := fun _ => .of_eq rfl rfl (.inr rfl)
  cases h with
  | unmoved => exact .inl (.refl e)
  | followed _ hf hfollows => exact .inr ⟨_, _, _, hf, hfollows, .refl _⟩
  | landed _ hf hfollows _ => exact .inr ⟨_, _, _, hf, hfollows, hlanded _⟩
  | continued _ hf hfollows _ hnext =>
    exact .inr ⟨_, _, _, hf, hfollows, (hlanded _).trans hnext.stays⟩

/-! ## Requests other than ticks -/

/-- The operation leaves the robot where it stands. -/
def StaysPut {α : Type} (m : Operation R μ α) : Prop :=
  ∀ e : Executor R, Keeps e.Stays e.Stays m

omit [Scalar R] in
theorem staysPut_change {g : Executor R → Executor R} (hg : ∀ e : Executor R, e.Stays (g e)) :
    StaysPut (change g : Operation R μ Unit) := fun _ =>
  .change fun x hx => Stays.trans hx (hg x.executor)

omit [Scalar R] in
/-- A change that leaves the robot where it stands can come before any operation that does. -/
theorem staysPut_change_bind {α : Type} {g : Executor R → Executor R} {m : Operation R μ α}
    (hg : ∀ e : Executor R, e.Stays (g e)) (hm : StaysPut m) :
    StaysPut (change g >>= fun _ => m) := fun e =>
  .bind (staysPut_change hg e) fun _ => hm e

section Requests

variable {o : Observers R μ} (ho : o.Passive)
include ho

theorem staysPut_startNext (time : R) : StaysPut (startNext o time) := fun _ =>
  .of_cases (fun _ _ _ hx hm => hx.trans (continues_of_leadsTo ho (.inl ⟨_, hm⟩)).stays)
    fun _ _ _ hx hm => hx.trans (continues_of_leadsTo ho (.inr ⟨_, hm⟩)).stays

omit [Scalar R] in
theorem staysPut_emitState : StaysPut (emitState o) := fun _ =>
  (quiet_emitState ho).keeps fun _ h => h

theorem staysPut_execute (items : List (Submission R)) : StaysPut (execute o items) := by
  intro e
  refine .bind (Q := fun _ => On e.Stays) (.orFail (fun _ _ _ hx => hx) fun _ hx => hx)
    fun commands => .bind .peek fun _ => ?_
  have hrun : Keeps e.Stays e.Stays (do
      change fun e => { e with queue := commands, flight := none, phase := .running }
      note o .info ("Executing " ++ natText commands.length ++ " commands at speed " ++
        Float.generalText (Scalar.toFloat (← look).speed))
      startNext o (← now o)) := by
    refine staysPut_change_bind (fun e => ?_) (fun _ => ?_) e
    · exact .of_eq rfl rfl (.inr rfl)
    · exact .bind .peek fun _ => .bind (.note o _ _) fun _ => .bind (.now o) fun time =>
        staysPut_startNext ho time _
  exact .ite (fun _ => .bind (.note o _ _) fun _ => hrun) fun _ => hrun

omit [Scalar R] in
theorem staysPut_pause : StaysPut (Executor.pause o) := by
  intro e
  refine .bind .peek fun _ => .ite (fun _ => ?_) fun _ => .done
  refine staysPut_change_bind (fun e => ?_) (fun _ => ?_) e
  · exact .of_eq rfl rfl (.inr rfl)
  · exact .bind .peek fun _ => .bind (.note o _ _) fun _ => staysPut_emitState ho _

theorem staysPut_resume : StaysPut (Executor.resume o) := by
  intro e
  refine .bind .peek fun _ => .ite (fun _ => ?_) fun _ => .done
  refine staysPut_change_bind (fun e => ?_) (fun _ => ?_) e
  · exact .of_eq rfl rfl (.inl rfl)
  · exact .bind (.note o _ _) fun _ => .bind (.now o) fun time => staysPut_startNext ho time _

/-- **Whatever steers the robot without a tick** leaves it where it stands. -/
theorem staysPut_request {r : Request R} (hr : r.Steers) (htick : ∀ time?, r ≠ .tick time?) :
    StaysPut (r.make o) := by
  intro e
  cases r with
  | tick time? => exact absurd rfl (htick time?)
  | reset | setInitial => exact hr.elim
  | execute items => exact .bind (staysPut_execute ho items e) fun _ => .done
  | pause => exact .bind (staysPut_pause ho e) fun _ => .done
  | resume => exact .bind (staysPut_resume ho e) fun _ => .done
  | stop =>
    refine .bind (staysPut_change_bind (fun e => ?_) (staysPut_emitState ho) e) fun _ => .done
    exact .of_eq rfl rfl (.inr rfl)
  | setSpeed value =>
    exact .bind (keeps_setSpeed ho (fun _ _ hx => hx.trans (.of_eq rfl rfl (.inl rfl))) value)
      fun _ => .done
  | setSpeedData value =>
    exact .bind (keeps_setSpeedData ho (fun _ _ hx => hx.trans (.of_eq rfl rfl (.inl rfl))) value)
      fun _ => .done
  | setObstacles obstacles =>
    refine .bind (staysPut_change (fun e => ?_) e) fun _ => .done
    exact .of_eq rfl rfl (.inl rfl)
  | setAgentSize size =>
    refine .bind (.bind (Q := fun _ => On e.Stays) (.orFail (fun _ _ _ hx => hx) fun _ hx => hx)
      fun _ => staysPut_change (fun e => ?_) e) fun _ => .done
    exact .of_eq rfl rfl (.inl rfl)

/-- **Where steering the robot leads**: it stays where it stands, or follows its flight. -/
theorem cases_of_leadsTo {h h' : Host R μ} {r : Request R} (hr : r.Steers)
    (hrun : (r.make o).LeadsTo h h') :
    h.executor.Stays h'.executor ∨ ∃ f time e made, h.executor.flight = some f ∧
      h.executor.Follows f (progressAt f time) e made ∧ e.Stays h'.executor := by
  by_cases htick : ∃ time?, r = .tick time?
  · obtain ⟨time?, rfl⟩ := htick
    have hticks : h.executor.Ticks (time?.getD (o.clock h.memory)) h'.executor :=
      (Triple.bind (ticks_tick ho time?) fun _ => .done).leadsTo ⟨rfl, rfl⟩ hrun
    refine hticks.cases.imp_right ?_
    rintro ⟨f, e, made, hf, hfollows, hstays⟩
    exact ⟨f, _, e, made, hf, hfollows, hstays⟩
  · exact .inl ((staysPut_request ho hr (not_exists.1 htick) h.executor).leadsTo (.refl _) hrun)

end Requests

/-! ## Following a flight -/

namespace Follows

variable (h : e.Follows f progress e' made)
include h

theorem flight_eq : e'.flight = e.flight := by cases h <;> rfl

/-- Nothing tilts the robot. -/
theorem tilt_eq : e'.robot.rotation.x = e.robot.rotation.x ∧
    e'.robot.rotation.z = e.robot.rotation.z := by cases h <;> exact ⟨rfl, rfl⟩

/-- Only moves move. -/
theorem position_eq (hmove : f.command.movement.isMove = false) :
    e'.robot.position = e.robot.position := by
  cases h with
  | arrive hmove' | halt hmove' => simp [hmove] at hmove'
  | rotate | wait => rfl

/-- Only turns turn. -/
theorem rotation_eq (hturn : f.command.movement.isTurn = false) :
    e'.robot.rotation = e.robot.rotation := by
  cases h with
  | arrive | halt | wait => rfl
  | rotate _ hturn' => simp [hturn] at hturn'

/-- A flight that set out at the height of the robot keeps it. -/
theorem height_eq (hlevel : f.startPosition.y = e.robot.position.y) :
    e'.robot.position.y = e.robot.position.y := by
  cases h with
  | arrive => exact hlevel
  | halt | rotate | wait => rfl

end Follows

/-- A tick that comes before a wait is over does nothing at all. -/
theorem tick_of_waiting {o : Observers R μ} {h : Host R μ} (hflight : h.executor.flight = some f)
    (hwait : f.command.movement = .wait) {time? : Option R}
    (hdue : ¬ Due f (time?.getD (o.clock h.memory))) : tick o time? h = .ok () h := by
  rcases hphase : h.executor.phase
  case running =>
    simp only [tick, run_look_bind, hphase, hflight, run_now_bind, hwait, Movement.isMove,
      Movement.isTurn, Bool.false_eq_true, if_false, pure_bind]
    exact congrFun (if_neg hdue) h
  all_goals
    simp only [tick, run_look_bind, hphase]
    rfl

/-! ## Height and heading -/

/-- What is in flight set out at the height of the robot. -/
def Level (e : Executor R) : Prop := ∀ f, e.flight = some f → f.startPosition.y = e.robot.position.y

/-- The second executor differs from the first one, in height and heading of the robot, at most by
what the flight of the first one is there for. -/
structure Confined (e e' : Executor R) : Prop where
  height : e'.robot.position.y = e.robot.position.y
  tilt : e'.robot.rotation.x = e.robot.rotation.x ∧ e'.robot.rotation.z = e.robot.rotation.z
  /-- Only a move in flight changes the position. -/
  position : (∀ f, e.flight = some f → f.command.movement.isMove = false) →
    e'.robot.position = e.robot.position
  /-- Only a turn in flight changes the heading. -/
  heading : (∀ f, e.flight = some f → f.command.movement.isTurn = false) →
    e'.robot.heading = e.robot.heading

omit [Scalar R] in
theorem Stays.confined (h : e.Stays e') : e.Confined e' where
  height := by rw [h.position]
  tilt := by rw [h.rotation]; exact ⟨rfl, rfl⟩
  position _ := h.position
  heading _ := by rw [Robot.heading, h.rotation]; rfl

omit [Scalar R] in
theorem Stays.level (h : e.Stays e') (hlevel : e.Level) : e'.Level := by
  intro f hf
  rcases h.flight f hf with hbefore | hstart
  · rw [h.position]
    exact hlevel f hbefore
  · rw [hstart]

theorem Follows.confined (h : e.Follows f progress e' made) (hf : e.flight = some f)
    (hlevel : e.Level) : e.Confined e' where
  height := h.height_eq (hlevel f hf)
  tilt := h.tilt_eq
  position hmove := h.position_eq (hmove f hf)
  heading hturn := congrArg Point.y (h.rotation_eq (hturn f hf))

omit [Scalar R] in
theorem Confined.trans_stays {e'' : Executor R} (h : e.Confined e') (h' : e'.Stays e'') :
    e.Confined e'' where
  height := by rw [h'.position, h.height]
  tilt := by rw [h'.rotation]; exact h.tilt
  position hmove := h'.position.trans (h.position hmove)
  heading hturn := (congrArg Point.y h'.rotation).trans (h.heading hturn)

/-- **Steering the robot** changes what the command in flight names, and leaves what is in flight at
the height of the robot. -/
theorem confined_of_leadsTo {o : Observers R μ} (ho : o.Passive) {h h' : Host R μ} {r : Request R}
    (hr : r.Steers) (hrun : (r.make o).LeadsTo h h') (hlevel : h.executor.Level) :
    h.executor.Confined h'.executor ∧ h'.executor.Level := by
  obtain hstays | ⟨f, time, e, made, hf, hfollows, hstays⟩ := cases_of_leadsTo ho hr hrun
  · exact ⟨hstays.confined, hstays.level hlevel⟩
  · have hconfined := hfollows.confined hf hlevel
    refine ⟨hconfined.trans_stays hstays, hstays.level fun g hg => ?_⟩
    rw [hconfined.height]
    exact hlevel g (hfollows.flight_eq ▸ hg)

/-- What every request keeps, whether it succeeds or fails, holds whenever the host has control. -/
theorem invariant_of_served {allowed : Request R → Prop} {o : Observers R μ} {start host : Host R μ}
    {I : Executor R → Prop} (h : Served allowed True o start host) (hstart : I start.executor)
    (hrequest : ∀ r h h', allowed r → I h.executor → (r.make o).LeadsTo h h' → I h'.executor) :
    I host.executor :=
  h.keeps (F := I) hstart (fun _ _ he => he) fun r hr => .of_cases
    (fun _ _ _ hx hm => hrequest r _ _ hr hx (.inl ⟨_, hm⟩))
    fun _ _ _ hx hm => hrequest r _ _ hr hx (.inr ⟨_, hm⟩)

end Executor

/-! ## Lines -/

namespace Executor

variable {K ν : Type} [Field K] [LinearOrder K] [IsStrictOrderedRing K] [Measures K]
  {e e' : Executor K} {f : Flight K} {progress made : K}

/-- The robot is on the line along which the flight set out, between its ends. -/
def OnLine (f : Flight K) (e : Executor K) : Prop :=
  ∃ t, 0 ≤ t ∧ t ≤ 1 ∧ e.robot.position = positionAt f t

/-- The robot is on the line of the flight that is in flight. -/
def InLine (e : Executor K) : Prop := ∀ f, e.flight = some f → OnLine f e

omit [IsStrictOrderedRing K] in
theorem OnLine.congr (h : OnLine f e) (hposition : e'.robot.position = e.robot.position) :
    OnLine f e' := by
  unfold OnLine
  rwa [hposition]

theorem onLine_of_startPosition (h : f.startPosition = e.robot.position) : OnLine f e :=
  ⟨0, le_rfl, zero_le_one, by simp [positionAt, h]⟩

theorem Stays.inLine (h : e.Stays e') (hline : e.InLine) : e'.InLine := by
  intro f hf
  rcases h.flight f hf with hbefore | hstart
  · exact (hline f hbefore).congr h.position
  · exact onLine_of_startPosition hstart

/-- **Following a flight** keeps the robot on its line, also where an obstacle ends the move: the
point short of it is on the way from where the robot is to where it was to go, and both are on the
line. -/
theorem Follows.onLine (h : e.Follows f progress e' made) (hline : OnLine f e) : OnLine f e' := by
  cases h with
  | arrive => exact ⟨_, ease_nonneg _, ease_le_one _, rfl⟩
  | halt _ hsweep =>
    obtain ⟨t, h0, h1, hposition⟩ := hline
    obtain ⟨u, hu0, hu1, -, hstop⟩ := stopBefore_eq_along e.robot.position
      (positionAt f (ease progress)) (Scene.sweep_le_one hsweep)
    have hease0 := ease_nonneg progress
    have hease1 := ease_le_one progress
    refine ⟨t + (ease progress - t) * u, ?_, ?_, ?_⟩
    · have := mul_nonneg hease0 hu0
      have := mul_nonneg h0 (sub_nonneg.2 hu1)
      linarith
    · have := mul_nonneg (sub_nonneg.2 hease1) hu0
      have := mul_nonneg (sub_nonneg.2 h1) (sub_nonneg.2 hu1)
      linarith
    · refine hstop.trans ?_
      rw [hposition, positionAt_eq_along, positionAt_eq_along, Point.along_along,
        positionAt_eq_along]
  | rotate | wait => exact hline.congr rfl

/-- **Steering the robot** keeps it on the line of its flight, and in line with the next one. -/
theorem inLine_of_leadsTo {o : Observers K ν} (ho : o.Passive) {h h' : Host K ν} {r : Request K}
    (hr : r.Steers) (hrun : (r.make o).LeadsTo h h') (hline : h.executor.InLine) :
    (∀ f, h.executor.flight = some f → OnLine f h'.executor) ∧ h'.executor.InLine := by
  obtain hstays | ⟨g, time, e, made, hg, hfollows, hstays⟩ := cases_of_leadsTo ho hr hrun
  · exact ⟨fun f hf => (hline f hf).congr hstays.position, hstays.inLine hline⟩
  · have honline : ∀ f, h.executor.flight = some f → OnLine f e := fun f hf => by
      obtain rfl : g = f := Option.some.inj (hg.symm.trans hf)
      exact hfollows.onLine (hline g hg)
    refine ⟨fun f hf => (honline f hf).congr hstays.position, hstays.inLine fun f hf => ?_⟩
    exact honline f (hfollows.flight_eq ▸ hf)

/-! ## Main result -/

/-- **Commands change only what they name.** From a moment on at which nothing is in flight, let a
robot be steered by requests that may fail, with observers that leave it alone. Then, for numbers of
any kind, it keeps its height and is never tilted; a request changes its position only if a move is
in flight, and its heading only if a turn is; and a tick that comes before a wait is over returns
with the host as it was, so nobody has been told anything. In exact numbers, the positions in front
of and behind a request that finds a move in flight are points of the straight line from where the
move set out along what it leads, whether it is cut short or not. -/
theorem commands_change_what_they_name {R K μ ν : Type} [Scalar R] [Field K] [LinearOrder K]
    [IsStrictOrderedRing K] [Measures K] :
    (∀ (o : Observers R μ) (start host : Host R μ), o.Passive → start.executor.flight = none →
      Served Request.Steers True o start host →
      (host.executor.robot.position.y = start.executor.robot.position.y ∧
        host.executor.robot.rotation.x = start.executor.robot.rotation.x ∧
        host.executor.robot.rotation.z = start.executor.robot.rotation.z) ∧
      (∀ (r : Request R) (h' : Host R μ), r.Steers → (r.make o).LeadsTo host h' →
        host.executor.Confined h'.executor) ∧
      ∀ f time?, host.executor.flight = some f → f.command.movement = .wait →
        ¬ Due f (time?.getD (o.clock host.memory)) → tick o time? host = .ok () host) ∧
    ∀ (o : Observers K ν) (start host : Host K ν), o.Passive → start.executor.flight = none →
      Served Request.Steers True o start host →
      ∀ (r : Request K) (h' : Host K ν) (f : Flight K), r.Steers → (r.make o).LeadsTo host h' →
        host.executor.flight = some f → f.command.movement.isMove = true →
        OnLine f host.executor ∧ OnLine f h'.executor := by
  constructor
  · intro o start host ho hflight hserved
    obtain ⟨hlevel, hheight, htilt⟩ : host.executor.Level ∧
        host.executor.robot.position.y = start.executor.robot.position.y ∧
        host.executor.robot.rotation.x = start.executor.robot.rotation.x ∧
        host.executor.robot.rotation.z = start.executor.robot.rotation.z := by
      refine invariant_of_served (I := fun e => e.Level ∧
        e.robot.position.y = start.executor.robot.position.y ∧
        e.robot.rotation.x = start.executor.robot.rotation.x ∧
        e.robot.rotation.z = start.executor.robot.rotation.z) hserved ?_ ?_
      · exact ⟨fun f hf => by simp [hflight] at hf, rfl, rfl, rfl⟩
      · rintro r h h' hr ⟨hlevel, hy, hx, hz⟩ hrun
        obtain ⟨hconfined, hlevel'⟩ := confined_of_leadsTo ho hr hrun hlevel
        exact ⟨hlevel', hconfined.height.trans hy, hconfined.tilt.1.trans hx,
          hconfined.tilt.2.trans hz⟩
    exact ⟨⟨hheight, htilt⟩, fun r h' hr hrun => (confined_of_leadsTo ho hr hrun hlevel).1,
      fun f time? hf hwait hdue => tick_of_waiting hf hwait hdue⟩
  · intro o start host ho hflight hserved r h' f hr hrun hf _
    have hline : host.executor.InLine :=
      invariant_of_served hserved (fun f hf => by simp [hflight] at hf) fun _ _ _ hr hline hrun =>
        (inLine_of_leadsTo ho hr hrun hline).2
    exact ⟨hline f hf, (inLine_of_leadsTo ho hr hrun hline).1 f hf⟩

/-- A robot on its way to a wall, which the next tick brings to a halt in front of it: the tick
keeps its heading, and the robot is on the line of its move before and after. -/
theorem commands_change_what_they_name_wall :
    ∃ (start host : Host ℚ Unit) (h' : Host ℚ Unit) (f : Flight ℚ),
      beforeWall = .ok start.executor ∧ start.executor.flight = none ∧
      Served Request.Steers True idleObservers start host ∧
      ((Request.tick (some 1000)).make idleObservers).LeadsTo host h' ∧
      host.executor.flight = some f ∧ f.command.movement.isMove = true ∧
      h'.executor.robot.position.z = 7 / 4 - 1 / 1000000 ∧
      host.executor.Confined h'.executor ∧ OnLine f host.executor ∧ OnLine f h'.executor := by
  obtain ⟨e, hstart⟩ : ∃ e, beforeWall = .ok e := ⟨_, rfl⟩
  have hpassive : idleObservers.Passive := ⟨fun _ _ _ hx => hx, fun _ _ _ hx => hx⟩
  have hflight : e.flight = none := by
    cases hstart
    rfl
  have hok : Outcome.returned
      (Request.make idleObservers (.execute [.command ⟨.forward, 30, 1000, none⟩]) ⟨e, ()⟩) fun _ h =>
        Outcome.returned (Request.make idleObservers (.tick (some 1000)) h) fun _ h' =>
          h.executor.flight.any fun f => decide (f.command.movement.isMove = true ∧
            h'.executor.robot.position.z = 7 / 4 - 1 / 1000000) := by
    cases hstart
    decide +kernel
  obtain ⟨_, h, hexecute, hok⟩ := Outcome.returned_eq_true.1 hok
  obtain ⟨b, h', htick, hok⟩ := Outcome.returned_eq_true.1 hok
  obtain ⟨f, hf, hok⟩ := (Option.any_eq_true _ _).1 hok
  obtain ⟨hmove, hplace⟩ := of_decide_eq_true hok
  have hserved : Served Request.Steers True idleObservers ⟨e, ()⟩ h :=
    .request (r := .execute _) .start trivial hexecute
  have hrun : ((Request.tick (some 1000)).make idleObservers).LeadsTo h h' := .inl ⟨b, htick⟩
  have hboth := commands_change_what_they_name (R := ℚ) (K := ℚ) (μ := Unit) (ν := Unit)
  have hconfined := (hboth.1 _ _ _ hpassive hflight hserved).2.1 (.tick _) h' trivial hrun
  have hline := hboth.2 _ _ _ hpassive hflight hserved (.tick _) h' f trivial hrun hf hmove
  exact ⟨⟨e, ()⟩, h, h', f, hstart, hflight, hserved, hrun, hf, hmove, hplace, hconfined, hline⟩

end Executor

end RobotBlocks
