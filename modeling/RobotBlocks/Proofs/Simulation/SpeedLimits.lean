import RobotBlocks.Proofs.Simulation.FlightReports
import RobotBlocks.Proofs.Simulation.SpeedRange

/-!
# The speed of an executor

An executor keeps its speed in three places: one for the commands that it starts, one in the state
of the robot and one in the state that a reset goes back to. Whatever is asked of it, the first two
are the same number, between the bounds of its configuration (`Regulated`). So the speed is not zero
when a command sets out, and the duration of the command can be divided by it.

This has to hold wherever the executor can be seen, from inside requests, too, and behind requests
that failed:

* `Undivided`: nothing else that a request computes fails with a division by zero.
* `KeepsSteady c own m`: wherever the operation ends, the executor is regulated and has been so at
  every line of the transcript, and it has not failed with a division by zero, unless by one of its
  `own`.
* `Attempting own`: operations that are built from requests and may catch any fault. What they would
  do about a division by zero may be anything at all, unless `own` holds.
* `regulated_of_leadsTo`: all of them, made of a new executor, find it regulated and leave it so.
-/

namespace RobotBlocks

variable {α β : Type}

/-! ## Values that are computed without a division by zero -/

/-- The value is not missing for a division by zero. -/
def Undivided (x : Except Fault α) : Prop := x ≠ .error .divisionByZero

namespace Undivided

theorem ok (a : α) : Undivided (.ok a) := by simp [Undivided]

theorem error {fault : Fault} (h : fault ≠ .divisionByZero) :
    Undivided (.error fault : Except Fault α) := by
  simpa [Undivided] using h

theorem bind {x : Except Fault α} {f : α → Except Fault β} (hx : Undivided x)
    (hf : ∀ a, x = .ok a → Undivided (f a)) : Undivided (x >>= f) := by
  intro h
  obtain h | ⟨a, ha, h⟩ := Outcome.bind_eq_error.1 h
  · exact hx h
  · exact hf a ha h

theorem map {x : Except Fault α} (hx : Undivided x) (f : α → β) : Undivided (x.map f) := by
  rcases x with fault | a
  · exact .error fun h => hx (h ▸ rfl)
  · exact .ok _

theorem ofInt? (n : ℤ) : Undivided (Float.ofInt? n) := by
  unfold Float.ofInt?
  dsimp only
  split
  · exact .error (by decide)
  · exact .ok _

mutual

theorem isLess : ∀ a b : Data, Undivided (a.isLess b) := by
  intro a b
  unfold Data.isLess
  split
  · exact .ok _
  · exact .ok _
  · exact areLess _ _
  · split
    · exact .ok _
    · exact .ok _
    · exact .ok _
    · exact .error (by simp)

theorem areLess : ∀ as bs : List Data, Undivided (Data.areLess as bs) := by
  intro as bs
  unfold Data.areLess
  split
  · exact .ok _
  · exact .ok _
  · split
    · exact areLess _ _
    · exact isLess _ _

end

theorem partsOf (value : Data) : Undivided (AgentSize.partsOf value) := by
  unfold AgentSize.partsOf
  split
  · exact .ok _
  · exact .error (by simp)

theorem halfOf (value : Data) : Undivided (AgentSize.halfOf value) := by
  unfold AgentSize.halfOf
  split
  · exact .ok _
  · split
    · exact (ofInt? _).map _
    · exact .error (by simp)

variable {R : Type} [Scalar R]

/-- What is wrong with a raw size is something else. -/
theorem agentSizeOfData (value : Data) :
    Undivided (AgentSize.ofData value : Except Fault (AgentSize R)) := by
  refine (partsOf value).bind fun parts _ => ?_
  split
  · exact (isLess _ _).bind fun _ _ => (halfOf _).bind fun _ _ => .ok _
  · refine .error ?_
    split <;> simp

theorem footprint (operation : String) (s : AgentSize R) : Undivided (s.footprint operation) := by
  refine map ?_ _
  unfold AgentSize.heightFor
  split
  · exact .ok _
  · exact .ok _
  · split
    · exact (ofInt? _).map _
    · exact .error (by simp)

theorem overlapping (s : Scene R) (p : Point R) : Undivided (s.overlapping p) := by
  unfold Scene.overlapping
  split
  · exact .ok _
  · exact (footprint _ _).bind fun _ _ => .ok _

theorem sweep (s : Scene R) (p p' : Point R) (ignored : List ℕ) :
    Undivided (s.sweep p p' ignored) := by
  unfold Scene.sweep
  dsimp only
  split
  · exact .ok _
  · exact (footprint _ _).bind fun _ _ => .ok _

theorem forwardOffset (heading distance : R) :
    Undivided (RobotBlocks.forwardOffset heading distance) := by
  unfold RobotBlocks.forwardOffset
  split
  · exact .ok _
  · exact .error (by simp)

omit [Scalar R] in
theorem commandsOf (items : List (Submission R)) : Undivided (Executor.commandsOf items) := by
  induction items with
  | nil => exact .ok _
  | cons item rest ih =>
    cases item with
    | command c => exact ih.map _
    | foreign value => exact .error (by simp)

/-- **A command sets out without a division by zero** from an executor whose speed is not zero. -/
theorem prepare {e : Executor R} (hspeed : (e.speed == Scalar.ofNat 0) = false) (c : Command R)
    (time : R) : Undivided (e.prepare c time) := by
  unfold Executor.prepare
  rw [if_neg (by simp [hspeed])]
  split
  case h_1 | h_2 =>
    exact (forwardOffset _ _).bind fun _ _ => (overlapping _ _).bind fun _ _ => .ok _
  all_goals exact .ok _

end Undivided

namespace Executor

/-! ## Regulated executors -/

/-- The executor has the configuration and a speed within its bounds, which is that of the robot,
too, and a reset goes back to such a speed. -/
structure Regulated (c : Config Float) (e : Executor Float) : Prop where
  config : e.config = c
  initial : c.Admits e.initial.speed
  admits : c.Admits e.speed
  robot : e.robot.speed = e.speed

namespace Regulated

variable {c : Config Float} {e e' : Executor Float}

/-- Whatever touches neither the configuration nor a speed leaves an executor regulated. -/
theorem congr (h : e.Regulated c) (hconfig : e'.config = e.config)
    (hinitial : e'.initial.speed = e.initial.speed) (hspeed : e'.speed = e.speed)
    (hrobot : e'.robot.speed = e.robot.speed) : e'.Regulated c where
  config := hconfig.trans h.config
  initial := hinitial ▸ h.initial
  admits := hspeed ▸ h.admits
  robot := hrobot.trans (h.robot.trans hspeed.symm)

theorem restored (h : e.Regulated c) : e.restored.Regulated c :=
  ⟨h.config, h.initial, h.initial, rfl⟩

theorem paced {speed : Float} (h : e.Regulated c) (hspeed : c.Admits speed) :
    (e.paced speed).Regulated c := ⟨h.config, h.initial, hspeed, rfl⟩

/-- A new executor is regulated if the default speed of its configuration is within the bounds. -/
theorem start {obstacles : List (Obstacle Float)} (hdefault : c.Admits c.defaultSpeed)
    (h : Executor.start c obstacles = .ok e) : e.Regulated c := by
  obtain ⟨agent, -, rfl⟩ := Outcome.map_eq_ok.1 h
  exact ⟨rfl, hdefault, hdefault, rfl⟩

/-- The speed is not zero if the lower bound is positive. -/
theorem speed_ne_zero (h : e.Regulated c) (hmin : Scalar.ofNat 0 < c.minSpeed) :
    (e.speed == Scalar.ofNat 0) = false := by
  have hzero : (Scalar.ofNat 0 : Float).isNaN = false := by decide
  obtain ⟨hminimum, hspeed⟩ := Float.isNaN_of_le h.admits.1
  have hlt : Float.rank (Scalar.ofNat 0) < Float.rank e.speed :=
    ((Float.lt_iff_rank_lt hzero hminimum).1 hmin).trans_le
      ((Float.le_iff_rank_le hminimum hspeed).1 h.admits.1)
  rw [← Bool.not_eq_true]
  exact fun hequal => hlt.ne' ((Float.beq_iff_rank_eq hspeed hzero).1 hequal)

end Regulated

end Executor

open Executor

variable {μ : Type}

/-- The executor is regulated, and it was so at every line of the transcript. -/
def Steady (c : Config Float) (h : Host Float (μ × Transcript Float)) : Prop :=
  h.executor.Regulated c ∧ ∀ line ∈ h.memory.2, line.executor.Regulated c

/-- Wherever the operation ends, whether it succeeds or fails, the host is steady as before; and if
`own` does not hold, it does not fail with a division by zero. -/
def KeepsSteady (c : Config Float) (own : Prop) (m : Operation Float (μ × Transcript Float) α) :
    Prop :=
  ∀ h, Steady c h →
    match m h with
    | .ok _ h' => Steady c h'
    | .error fault h' => Steady c h' ∧ (fault = .divisionByZero → own)

/-- What observers do keeps the host steady. -/
structure Observers.KeepSteady (o : Observers Float (μ × Transcript Float)) (c : Config Float)
    (own : Prop) : Prop where
  stateChanged : ∀ s, KeepsSteady c own (o.stateChanged s)
  completed : ∀ cmd, KeepsSteady c own (o.completed cmd)

namespace KeepsSteady

variable {c : Config Float} {own : Prop} {m m' : Operation Float (μ × Transcript Float) α}
  {x x' : Host Float (μ × Transcript Float)}

theorem ok {a : α} (h : KeepsSteady c own m) (hx : Steady c x) (hm : m x = .ok a x') :
    Steady c x' := by
  have := h x hx
  rwa [hm] at this

theorem error {fault : Fault} (h : KeepsSteady c own m) (hx : Steady c x)
    (hm : m x = .error fault x') : Steady c x' ∧ (fault = .divisionByZero → own) := by
  have := h x hx
  rwa [hm] at this

theorem leadsTo (h : KeepsSteady c own m) (hx : Steady c x) (hm : m.LeadsTo x x') :
    Steady c x' := by
  obtain ⟨a, hm⟩ | ⟨fault, hm⟩ := hm
  · exact h.ok hx hm
  · exact (h.error hx hm).1

theorem pure {a : α} : KeepsSteady c own (pure a : Operation Float (μ × Transcript Float) α) :=
  fun _ hx => hx

theorem bind {k : α → Operation Float (μ × Transcript Float) β} (hm : KeepsSteady c own m)
    (hk : ∀ a, KeepsSteady c own (k a)) : KeepsSteady c own (m >>= k) := by
  intro x hx
  simp only [Bind.bind, EStateM.bind]
  rcases hrun : m x with ⟨a, x'⟩ | ⟨fault, x'⟩
  · exact hk a x' (hm.ok hx hrun)
  · exact hm.error hx hrun

theorem ite {p : Prop} [Decidable p] (h : p → KeepsSteady c own m)
    (h' : ¬ p → KeepsSteady c own m') : KeepsSteady c own (if p then m else m') := by
  split
  · exact h ‹_›
  · exact h' ‹_›

/-- Handlers are only called for faults that the operation may fail with. -/
theorem catching {handler : Fault → Operation Float (μ × Transcript Float) α}
    (hm : KeepsSteady c own m)
    (hhandler : ∀ fault, (fault = .divisionByZero → own) → KeepsSteady c own (handler fault)) :
    KeepsSteady c own (tryCatch m handler) := by
  intro x hx
  rcases hrun : m x with ⟨a, x'⟩ | ⟨fault, x'⟩
  · have hcatch : tryCatch m handler x = .ok a x' := by
      simp only [tryCatch, tryCatchThe, MonadExceptOf.tryCatch, EStateM.tryCatch, hrun]
    rw [hcatch]
    exact hm.ok hx hrun
  · have hcatch : tryCatch m handler x = handler fault x' := by
      simp only [tryCatch, tryCatchThe, MonadExceptOf.tryCatch, EStateM.tryCatch, hrun]
      rfl
    rw [hcatch]
    obtain ⟨hx', hfault⟩ := hm.error hx hrun
    exact hhandler fault hfault x' hx'

theorem change {g : Executor Float → Executor Float}
    (hg : ∀ e : Executor Float, e.Regulated c → (g e).Regulated c) :
    KeepsSteady c own (change g : Operation Float (μ × Transcript Float) Unit) :=
  fun _ hx => ⟨hg _ hx.1, hx.2⟩

/-- Whoever looks at the executor finds it regulated. -/
theorem look_bind {k : Executor Float → Operation Float (μ × Transcript Float) α}
    (hk : ∀ e, e.Regulated c → KeepsSteady c own (k e)) : KeepsSteady c own (look >>= k) :=
  fun x hx => hk _ hx.1 x hx

theorem note (o : Observers Float (μ × Transcript Float)) (level : Log.Level) (message : Text) :
    KeepsSteady c own (note o.transcribed level message) := fun _ hx => hx

theorem now (o : Observers Float (μ × Transcript Float)) :
    KeepsSteady c own (now o.transcribed) := fun _ hx => hx

theorem orFail {value : Except Fault α} (hvalue : Undivided value) :
    KeepsSteady c own (orFail value : Operation Float (μ × Transcript Float) α) := by
  rcases value with fault | a
  · exact fun _ hx => ⟨hx, fun h => (hvalue (h ▸ rfl)).elim⟩
  · exact .pure

/-- A line has the executor as it is. -/
theorem writeDown {line : Executor Float → Line Float} (hline : ∀ e, (line e).executor = e) :
    KeepsSteady c own (writeDown line : Operation Float (μ × Transcript Float) Unit) := by
  refine fun x hx => ⟨hx.1, fun l hl => ?_⟩
  rcases List.mem_append.1 hl with hbefore | hlast
  · exact hx.2 l hbefore
  · rw [List.mem_singleton.1 hlast, hline]
    exact hx.1

/-! ## Parts of requests -/

section Requests

variable {o : Observers Float (μ × Transcript Float)} (ho : o.KeepSteady c own)
include ho

theorem emitState : KeepsSteady c own (emitState o.transcribed) :=
  .look_bind fun _ _ => .bind (.writeDown fun _ => rfl) fun _ => ho.stateChanged _

section

variable (hmin : Scalar.ofNat 0 < c.minSpeed)
include hmin

theorem startNext (time : Float) : KeepsSteady c own (startNext o.transcribed time) := by
  refine .look_bind fun e _ => ?_
  split
  · exact .bind (.change fun _ h => h.congr rfl rfl rfl rfl) fun _ =>
      .bind (.note o _ _) fun _ => emitState ho
  · refine .bind (.change fun _ h => h.congr rfl rfl rfl rfl) fun _ => .look_bind fun e he =>
      .bind (.orFail (.prepare (he.speed_ne_zero hmin) _ _)) fun f => ?_
    exact .bind (.change fun _ h => h.congr rfl rfl rfl rfl) fun _ => emitState ho

theorem complete (f : Flight Float) (time : Float) :
    KeepsSteady c own (complete o.transcribed f time) :=
  .bind (.change fun _ h => h.congr rfl rfl rfl rfl) fun _ =>
    .bind (.bind (.writeDown fun _ => rfl) fun _ => ho.completed _) fun _ => .look_bind fun _ _ =>
      .ite (fun _ => startNext ho hmin _) fun _ => .pure

omit hmin in
theorem advance (f : Flight Float) (progress : Float) :
    KeepsSteady c own (advance o.transcribed f progress) := by
  refine .look_bind fun e _ => .bind (.orFail (.sweep _ _ _ _)) fun contact? => ?_
  cases contact? with
  | none =>
    exact .bind (.change fun _ h => h.congr rfl rfl rfl rfl) fun _ =>
      .bind (emitState ho) fun _ => .pure
  | some contact =>
    exact .bind (.change fun _ h => h.congr rfl rfl rfl rfl) fun _ =>
      .bind (.note o _ _) fun _ => .bind (emitState ho) fun _ => .pure

/-! ## Requests -/

theorem tick (time? : Option Float) : KeepsSteady c own (tick o.transcribed time?) := by
  refine .look_bind fun e _ => ?_
  split
  next f _ _ =>
    refine .bind (.now o) fun now => ?_
    have hend : ∀ progress : Float, KeepsSteady c own (if Scalar.ofNat 1 ≤ progress then
        (look >>= fun e => if e.isInFlight f then Executor.complete o.transcribed f (time?.getD now)
          else Pure.pure ())
        else Pure.pure ()) := fun progress =>
      .ite (fun _ => .look_bind fun _ _ => .ite (fun _ => complete ho hmin f _) fun _ => .pure)
        fun _ => .pure
    refine .ite (fun _ => .bind (advance ho f _) hend) fun _ => .ite (fun _ => ?_)
      fun _ => .bind .pure hend
    exact .bind (.bind (.change fun _ h => h.congr rfl rfl rfl rfl) fun _ => emitState ho) fun _ =>
      .bind .pure hend
  · exact .pure

theorem execute (items : List (Submission Float)) :
    KeepsSteady c own (execute o.transcribed items) := by
  refine .bind (.orFail (.commandsOf items)) fun commands => .look_bind fun e _ => ?_
  have hrun : KeepsSteady c own (do
      Executor.change fun e => { e with queue := commands, flight := none, phase := .running }
      Executor.note o.transcribed .info ("Executing " ++ natText commands.length ++
        " commands at speed " ++ Float.generalText (Scalar.toFloat (← look).speed))
      Executor.startNext o.transcribed (← Executor.now o.transcribed)) :=
    .bind (.change fun _ h => h.congr rfl rfl rfl rfl) fun _ => .look_bind fun _ _ =>
      .bind (.note o _ _) fun _ => .bind (.now o) fun time => startNext ho hmin time
  exact .ite (fun _ => .bind (.note o _ _) fun _ => hrun) fun _ => hrun

theorem resume : KeepsSteady c own (Executor.resume o.transcribed) :=
  .look_bind fun _ _ => .ite
    (fun _ => .bind (.change fun _ h => h.congr rfl rfl rfl rfl) fun _ =>
      .bind (.note o _ _) fun _ => .bind (.now o) fun time => startNext ho hmin time)
    fun _ => .pure

end

theorem pause : KeepsSteady c own (Executor.pause o.transcribed) :=
  .look_bind fun _ _ => .ite
    (fun _ => .bind (.change fun _ h => h.congr rfl rfl rfl rfl) fun _ => .look_bind fun _ _ =>
      .bind (.note o _ _) fun _ => emitState ho)
    fun _ => .pure

theorem reset : KeepsSteady c own (Executor.reset o.transcribed) :=
  .bind (.change fun _ h => h.restored) fun _ => emitState ho

/-- **Setting the speed** brings it between the bounds, however large it is asked to be. -/
theorem setSpeed (hbounds : c.minSpeed ≤ c.maxSpeed) (value : Float) :
    KeepsSteady c own (Executor.setSpeed o.transcribed value) := by
  refine .ite (fun _ => .bind (.note o _ _) fun _ => .look_bind fun _ _ => .pure) fun hdefined =>
    .look_bind fun e he => ?_
  have hspeed : c.Admits (e.config.clampSpeed value) := by
    rw [he.config]
    exact Config.admits_clampSpeed hbounds (by simpa using hdefined)
  exact .bind (.change fun _ h => h.paced hspeed) fun _ => .bind (emitState ho) fun _ =>
    .look_bind fun _ _ => .pure

theorem setSpeedData (hbounds : c.minSpeed ≤ c.maxSpeed) (value : Data) :
    KeepsSteady c own (Executor.setSpeedData o.transcribed value) := by
  unfold Executor.setSpeedData
  split
  · exact setSpeed ho hbounds _
  · have hrefused : Undivided (.error .integerTooLarge : Except Fault Float) := .error (by simp)
    exact .orFail hrefused
  · exact .bind (.note o _ _) fun _ => .look_bind fun _ _ => .pure

end Requests

end KeepsSteady

/-! ## Whatever requests there are -/

/-- The size of an agent is given in numbers, or as a raw value. -/
def Request.Given : Request Float → Prop
  | .setAgentSize size => (∃ agent, size = .ok agent) ∨ ∃ raw, size = AgentSize.ofData raw
  | .execute _ | .tick _ | .pause | .resume | .stop | .reset | .setInitial .. | .setSpeed _
  | .setSpeedData _ | .setObstacles _ => True

/-- The operation is built from requests that have their lines, whose observers are again of this
kind, and from operations that leave executor and transcript as they are. It may catch any fault.
Where `own` does not hold it fails with no division by zero of its own; then what it would do about
one is left open. -/
inductive Attempting (own : Prop) :
    {α : Type} → Operation Float (μ × Transcript Float) α → Prop
  | silent {α : Type} {m : Operation Float (μ × Transcript Float) α} (h : Silent m)
    (hown : ∀ x x', m x = .error .divisionByZero x' → own) : Attempting own m
  | bind {α β : Type} {m : Operation Float (μ × Transcript Float) α}
    {k : α → Operation Float (μ × Transcript Float) β} (hm : Attempting own m)
    (hk : ∀ a, Attempting own (k a)) : Attempting own (m >>= k)
  | catching {α : Type} {m : Operation Float (μ × Transcript Float) α}
    {handler : Fault → Operation Float (μ × Transcript Float) α} (hm : Attempting own m)
    (hhandler : ∀ fault, (fault = .divisionByZero → own) → Attempting own (handler fault)) :
    Attempting own (tryCatch m handler)
  | request {o : Observers Float (μ × Transcript Float)} {r : Request Float} (hr : r.Given)
    (hstate : ∀ s, Attempting own (o.stateChanged s))
    (hcompleted : ∀ cmd, Attempting own (o.completed cmd)) : Attempting own (r.ask o)

/-- What observers do is built from requests, and may catch faults. -/
structure Observers.Attempt (o : Observers Float (μ × Transcript Float)) (own : Prop) : Prop where
  stateChanged : ∀ s, Attempting own (o.stateChanged s)
  completed : ∀ cmd, Attempting own (o.completed cmd)

section Invariant

variable {c : Config Float} {own : Prop}

/-- **Every request** keeps a host steady, if its observers do. -/
theorem KeepsSteady.ask {o : Observers Float (μ × Transcript Float)} (ho : o.KeepSteady c own)
    (hmin : Scalar.ofNat 0 < c.minSpeed) (hbounds : c.minSpeed ≤ c.maxSpeed) {r : Request Float}
    (hr : r.Given) : KeepsSteady c own (r.ask o) := by
  refine .bind (.writeDown fun _ => rfl) fun _ => ?_
  cases r with
  | execute items => exact .bind (execute ho hmin items) fun _ => .pure
  | tick time? => exact .bind (tick ho hmin time?) fun _ => .pure
  | pause => exact .bind (pause ho) fun _ => .pure
  | resume => exact .bind (resume ho hmin) fun _ => .pure
  | stop =>
    exact .bind (.bind (.change fun _ h => h.congr rfl rfl rfl rfl) fun _ => emitState ho) fun _ =>
      .pure
  | reset => exact .bind (reset ho) fun _ => .pure
  | setInitial height heading =>
    exact .bind (.bind (.change fun _ h => h.congr rfl rfl rfl rfl) fun _ => reset ho) fun _ =>
      .pure
  | setSpeed value => exact .bind (setSpeed ho hbounds value) fun _ => .pure
  | setSpeedData value => exact .bind (setSpeedData ho hbounds value) fun _ => .pure
  | setObstacles obstacles =>
    exact .bind (.change fun _ h => h.congr rfl rfl rfl rfl) fun _ => .pure
  | setAgentSize size =>
    have hsize : Undivided size := by
      rcases hr with ⟨agent, rfl⟩ | ⟨raw, rfl⟩
      · exact .ok _
      · exact .agentSizeOfData raw
    exact .bind (.bind (.orFail hsize) fun _ => .change fun _ h => h.congr rfl rfl rfl rfl) fun _ =>
      .pure

theorem KeepsSteady.silent {m : Operation Float (μ × Transcript Float) α} (h : Silent m)
    (hown : ∀ x x', m x = .error .divisionByZero x' → own) : KeepsSteady c own m := by
  intro x hx
  have hsilent := h x.executor x.memory.2 x ⟨rfl, rfl⟩
  rcases hrun : m x with ⟨a, x'⟩ | ⟨fault, x'⟩ <;> rw [hrun] at hsilent <;>
    obtain ⟨hexecutor, htranscript⟩ := hsilent
  · exact ⟨hexecutor ▸ hx.1, htranscript ▸ hx.2⟩
  · exact ⟨⟨hexecutor ▸ hx.1, htranscript ▸ hx.2⟩, fun h => hown x x' (h ▸ hrun)⟩

/-- **Whatever is built from requests** keeps a host steady. -/
theorem Attempting.keepsSteady {m : Operation Float (μ × Transcript Float) α}
    (hm : Attempting own m) (hmin : Scalar.ofNat 0 < c.minSpeed)
    (hbounds : c.minSpeed ≤ c.maxSpeed) : KeepsSteady c own m := by
  induction hm with
  | silent h hown => exact .silent h hown
  | bind _ _ ihm ihk => exact .bind ihm ihk
  | catching _ _ ihm ihhandler => exact .catching ihm ihhandler
  | request hr _ _ ihstate ihcompleted => exact .ask ⟨ihstate, ihcompleted⟩ hmin hbounds hr

end Invariant

/-! ## Main result -/

/-- **The speed of an executor stays within its bounds.** Let an executor be new, for a
configuration with a positive lower bound of the speed and with a default speed between the bounds,
and let any requests be made of it, by its host and by its observers, with any of them failing and
the faults caught or passed on. Then its speed is within the bounds and not zero, and the robot has
the same, whenever it can be seen: when the host has control, when a request is made and when
observers are told something. No command fails to set out by a division by zero: what fails with one
has raised it itself. -/
theorem regulated_of_leadsTo {c : Config Float} {obstacles : List (Obstacle Float)}
    {e : Executor Float} {own : Prop} {m : Operation Float (μ × Transcript Float) α} (memory : μ)
    (hmin : Scalar.ofNat 0 < c.minSpeed) (hdefault : c.Admits c.defaultSpeed)
    (hstart : Executor.start c obstacles = .ok e) (hm : Attempting own m) :
    (∀ host, m.LeadsTo ⟨e, memory, []⟩ host →
      ∀ seen ∈ host.executor :: host.memory.2.map Line.executor,
        seen.Regulated c ∧ (seen.speed == Scalar.ofNat 0) = false) ∧
    ∀ host, m ⟨e, memory, []⟩ = .error .divisionByZero host → own := by
  have hkeeps : KeepsSteady c own m := hm.keepsSteady hmin (Float.le_trans hdefault.1 hdefault.2)
  have hsteady : Steady c ⟨e, memory, []⟩ := ⟨.start hdefault hstart, by simp⟩
  refine ⟨fun host hrun seen hseen => ?_, fun host hrun => (hkeeps.error hsteady hrun).2 rfl⟩
  obtain ⟨hregulated, hlines⟩ := hkeeps.leadsTo hsteady hrun
  have hseen' : seen.Regulated c := by
    rcases List.mem_cons.1 hseen with rfl | hseen
    · exact hregulated
    · obtain ⟨line, hline, rfl⟩ := List.mem_map.1 hseen
      exact hlines line hline
  exact ⟨hseen', hseen'.speed_ne_zero hmin⟩

theorem Attempting.pure {own : Prop} {a : α} :
    Attempting own (pure a : Operation Float (μ × Transcript Float) α) := by
  refine .silent (fun _ _ _ hx => hx) fun x x' h => ?_
  cases h

/-- Makes requests one after the other, whether they fail or not. -/
def Request.attemptAll (o : Observers Float (μ × Transcript Float)) :
    List (Request Float) → Operation Float (μ × Transcript Float) Unit
  | [] => return ()
  | r :: requests => do
    tryCatch (do let _ ← r.ask o) fun _ => pure ()
    attemptAll o requests

theorem attempting_attemptAll {own : Prop} {o : Observers Float (μ × Transcript Float)}
    (ho : o.Attempt own) {requests : List (Request Float)} (hrequests : ∀ r ∈ requests, r.Given) :
    Attempting own (Request.attemptAll o requests) := by
  induction requests with
  | nil => exact .pure
  | cons r requests ih =>
    obtain ⟨hr, hrequests⟩ := List.forall_mem_cons.1 hrequests
    exact .bind (.catching (.bind (.request hr ho.stateChanged ho.completed) fun _ => .pure)
      fun _ _ => .pure) fun _ => ih hrequests

section Restless

/-- Observers that do nothing. -/
def onlookers : Observers Float (Unit × Transcript Float) :=
  ⟨fun _ => 0.0, fun _ memory => memory, fun _ => pure (), fun _ => pure ()⟩

/-- Observers that ask for all but no speed whenever they are told something. -/
def restless : Observers Float (Unit × Transcript Float) :=
  { onlookers with
    stateChanged := fun _ => Request.attemptAll onlookers [.setSpeedData (.text "-inf")]
    completed := fun _ => Request.attemptAll onlookers [.setSpeedData (.text "-inf")] }

/-- Requests for speeds that are none, or out of bounds, and others that fail. -/
def unruly : List (Request Float) :=
  [.setSpeedData (.text "nan"), .setSpeedData (.text "quick"), .setSpeedData (.integer (10 ^ 400)),
   .setAgentSize (AgentSize.ofData .null), .execute [.foreign .null], .setSpeed (-5.0),
   .execute [.command ⟨.wait, 1.0, 1000.0, none⟩], .tick (some 20000.0), .reset,
   .setSpeedData (.text "inf")]

/-- Unruly requests leave the robot with the least speed, which restless observers ask for. -/
theorem regulated_of_leadsTo_unruly :
    ∃ (e : Executor Float) (host : Host Float (Unit × Transcript Float)),
      Executor.start Config.robot [] = .ok e ∧
      Request.attemptAll restless unruly ⟨e, (), []⟩ = .ok () host ∧
      (∀ seen ∈ host.executor :: host.memory.2.map Line.executor,
        seen.Regulated Config.robot ∧ (seen.speed == Scalar.ofNat 0) = false) ∧
      host.executor.speed = (Config.robot : Config Float).minSpeed := by
  obtain ⟨e, hstart⟩ : ∃ e, Executor.start (Config.robot : Config Float) [] = .ok e := ⟨_, rfl⟩
  have honlookers : (onlookers : Observers Float (Unit × Transcript Float)).Attempt False :=
    ⟨fun _ => .pure, fun _ => .pure⟩
  have hrestless : restless.Attempt False :=
    ⟨fun _ => attempting_attemptAll honlookers (by simp [Request.Given]),
      fun _ => attempting_attemptAll honlookers (by simp [Request.Given])⟩
  have hunruly : ∀ r ∈ unruly, r.Given := by
    simp only [unruly, List.mem_cons, List.not_mem_nil, or_false, forall_eq_or_imp, forall_eq,
      Request.Given, true_and, and_true]
    exact .inr ⟨.null, rfl⟩
  have hspeed : Outcome.returned (Request.attemptAll restless unruly ⟨e, (), []⟩) fun _ host =>
      decide (host.executor.speed = (Config.robot : Config Float).minSpeed) := by
    cases hstart
    decide +kernel
  obtain ⟨_, host, hrun, hspeed⟩ := Outcome.returned_eq_true.1 hspeed
  have hall := regulated_of_leadsTo () (by decide +kernel) (by decide +kernel) hstart
    (attempting_attemptAll hrestless hunruly)
  exact ⟨e, host, hstart, hrun, hall.1 host (.inl ⟨_, hrun⟩), of_decide_eq_true hspeed⟩

end Restless

end RobotBlocks
