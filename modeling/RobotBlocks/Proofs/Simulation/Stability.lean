import RobotBlocks.Proofs.Simulation.Requests

/-!
# Invariants of the executor

What requests do to an executor, said once: `Stable allowed I Gap Ready F` lists every change that an
allowed request makes and what must hold behind it for `I` to be an invariant. There are four places
at which a request can be found:

* `I` holds whenever the host has control or the robot is shown to an observer;
* `Gap` holds when an observer is told that a command is complete;
* `Ready` holds when the next command is about to be started;
* `F` holds where a request fails.

`Stable.keeps_request` goes through the requests. The fields of `Stable` speak of executors only, so an
invariant is proved without looking at the order in which a request makes changes and calls its
observers.
-/

namespace RobotBlocks

namespace Executor

variable {R μ : Type} [Scalar R]

/-- The executor back at its initial state. -/
def restored (e : Executor R) : Executor R :=
  { e.idle with robot := e.initial, speed := e.initial.speed }

/-- The executor with another height and heading to be reset to. -/
def withInitial (e : Executor R) (height heading : Option R) : Executor R :=
  { e with
    initial.position.y := height.getD e.initial.position.y
    initial.rotation.y := heading.getD e.initial.rotation.y }

/-- **The changes that allowed requests make**, and what they keep. -/
structure Stable (allowed : Request R → Prop) (I Gap Ready F : Executor R → Prop) : Prop where
  fails : ∀ e, I e → F e
  /-- New commands are handed in. -/
  load : ∀ e commands, I e → Ready { e with queue := commands, flight := none, phase := .running }
  resume : ∀ e, I e → e.phase = .paused → Ready { e with phase := .running }
  /-- There is no next command. -/
  rest : ∀ e, Ready e → e.queue = [] → I { e.still with phase := .idle, flight := none }
  /-- The next command sets out. -/
  launch : ∀ e c rest time f, Ready e → e.queue = c :: rest →
    ({ e with queue := rest }).prepare c time = .ok f →
    I { e with queue := rest, flight := some f, flights := e.flights + 1, robot.moving := true }
  /-- The next command cannot set out. -/
  lost : ∀ e c rest, Ready e → e.queue = c :: rest → F { e with queue := rest }
  /-- A move has a free way. -/
  arrive : ∀ e f part, I e → e.flight = some f →
    e.scene.sweep e.robot.position (positionAt f part) f.ignored = .ok none →
    I { e with robot := e.robot.placeAt (positionAt f part) }
  /-- A move runs into an obstacle. -/
  halt : ∀ e f part contact, I e → e.flight = some f →
    e.scene.sweep e.robot.position (positionAt f part) f.ignored = .ok (some contact) →
    I { e with
      robot := e.robot.placeAt (stopBefore e.robot.position (positionAt f part) contact) }
  rotate : ∀ e f part, I e → e.flight = some f →
    I { e with robot.rotation.y := f.startHeading + f.turn * part }
  /-- The command in flight is complete. -/
  land : ∀ e, I e → Gap { e with flight := none }
  /-- An observer has left the executor as it was. -/
  proceed : ∀ e, Gap e → e.phase = .running → e.flight = none → Ready e
  /-- An observer has stopped, paused or restarted the executor. -/
  yield : ∀ e, Gap e → (e.phase = .running → e.flight ≠ none) → I e
  pause : ∀ e, I e → e.phase = .running → I { e.still with phase := .paused, flight := none }
  stop : ∀ e, I e → I e.idle.still
  setSpeed : ∀ e value, I e → Scalar.isUndefined value = false →
    I { e with speed := e.config.clampSpeed value, robot.speed := e.config.clampSpeed value }
  reset : allowed .reset → ∀ e, I e → I e.restored
  setInitial : ∀ height heading, allowed (.setInitial height heading) →
    ∀ e, I e → I (e.withInitial height heading).restored
  setObstacles : ∀ obstacles, allowed (.setObstacles obstacles) →
    ∀ e, I e → I { e with scene := e.scene.setObstacles obstacles }
  setAgentSize : ∀ agent, allowed (.setAgentSize (.ok agent)) →
    ∀ e, I e → I { e with scene.agent := agent }

namespace Stable

variable {allowed : Request R → Prop} {I Gap Ready F : Executor R → Prop}
  (h : Stable allowed I Gap Ready F) {o : Observers R μ} (ho : o.Keep I F)
include h ho

/-! ## Parts of requests -/

/-- **Starting the next command** leads to the invariant, whether there is one or not. -/
theorem keeps_startNext (time : R) :
    Triple (On Ready) (startNext o time) (fun _ => On I) (On F) := by
  refine .bind .seen fun e => ?_
  split
  next hqueue =>
    refine .bind (Q := fun _ => On I) (.change fun x hx => ?_) fun _ =>
      .bind (.note o _ _) fun _ => .emitState ho.stateChanged
    obtain ⟨rfl, hready⟩ := hx
    exact h.rest _ hready hqueue
  next c rest hqueue =>
    refine .bind (Q := fun _ => On fun e' => e' = { e with queue := rest } ∧ Ready e)
      (.change fun x hx => ?_) fun _ => ?_
    · obtain ⟨rfl, hready⟩ := hx
      exact ⟨rfl, hready⟩
    refine .bind .seen fun e' => ?_
    refine .bind (Q := fun f => On fun e'' => e'' = { e with queue := rest } ∧ Ready e ∧
        ({ e with queue := rest }).prepare c time = .ok f)
      (.orFail (fun f hf x hx => ?_) fun x hx => ?_) fun f => ?_
    · obtain ⟨rfl, hsame, hready⟩ := hx
      exact ⟨hsame, hready, hsame ▸ hf⟩
    · rw [On, hx.2.1]
      exact h.lost e c rest hx.2.2 hqueue
    refine .bind (Q := fun _ => On I) (.change fun x hx => ?_) fun _ => .emitState ho.stateChanged
    obtain ⟨hsame, hready, hprepare⟩ := hx
    rw [On, hsame]
    exact h.launch e c rest time f hready hqueue hprepare

/-- Moving along the flight keeps the invariant. -/
theorem keeps_advance (f : Flight R) (progress : R) :
    Triple (On fun e => I e ∧ e.flight = some f) (advance o f progress) (fun _ => On I)
      (On F) := by
  refine .bind .seen fun e => ?_
  refine .bind (Q := fun contact? => On fun e' => e' = e ∧ I e' ∧ e'.flight = some f ∧
      e'.scene.sweep e'.robot.position (positionAt f (ease progress)) f.ignored = .ok contact?)
    (.orFail (fun contact? hsweep x hx => ?_) fun x hx => h.fails _ hx.2.1) fun contact? => ?_
  · obtain ⟨rfl, hI, hf⟩ := hx
    exact ⟨rfl, hI, hf, hsweep⟩
  cases contact? with
  | none =>
    refine .bind (Q := fun _ => On I) (.change fun x hx => ?_) fun _ =>
      .bind (.emitState ho.stateChanged) fun _ => .done
    obtain ⟨rfl, hI, hf, hsweep⟩ := hx
    exact h.arrive _ f _ hI hf hsweep
  | some contact =>
    refine .bind (Q := fun _ => On I) (.change fun x hx => ?_) fun _ =>
      .bind (.note o _ _) fun _ => .bind (.emitState ho.stateChanged) fun _ => .done
    obtain ⟨rfl, hI, hf, hsweep⟩ := hx
    exact h.halt _ f _ contact hI hf hsweep

variable (hgap : ∀ c, Keeps Gap F (o.completed c))
include hgap

/-- **Completing a command** opens the gap for the observer and closes it again. -/
theorem keeps_complete (f : Flight R) (time : R) : Keeps I F (complete o f time) := by
  refine .bind (Q := fun _ => On Gap) (.change fun x hx => h.land _ hx) fun _ => ?_
  refine .bind (hgap f.command) fun _ => ?_
  refine .bind .seen fun e => .ite (fun hrun => ?_) fun hrun => .pure fun x hx => ?_
  · refine (h.keeps_startNext ho time).mono (fun x hx => ?_) fun _ _ hx => hx
    obtain ⟨rfl, hx⟩ := hx
    simp only [isRunning, Bool.and_eq_true, beq_iff_eq, Option.isNone_iff_eq_none] at hrun
    exact h.proceed _ hx hrun.1 hrun.2
  · obtain ⟨rfl, hx⟩ := hx
    refine h.yield _ hx fun hphase hflight => hrun ?_
    simp [isRunning, hphase, hflight]

/-! ## Requests -/

theorem keeps_tick (time? : Option R) : Keeps I F (tick o time?) := by
  refine .bind .seen fun e => ?_
  split
  next f _ hflight =>
    refine .bind (Q := fun _ => On fun e' => I e' ∧ e'.flight = some f) ?_ fun now => ?_
    · rintro x ⟨rfl, hx⟩
      exact ⟨hx, hflight⟩
    have hend : ∀ progress : R, Keeps I F (if Scalar.ofNat 1 ≤ progress then
        (look >>= fun e => if e.isInFlight f then complete o f (time?.getD now) else pure ())
        else pure ()) := fun progress =>
      .ite (fun _ => .bind .peek fun _ => .ite (fun _ => h.keeps_complete ho hgap f _) fun _ => .done)
        fun _ => .done
    refine .ite (fun _ => .bind (h.keeps_advance ho f _) hend) fun _ => .ite (fun _ => ?_)
      fun _ => .bind (Q := fun _ => On I) (.pure fun _ hx => hx.1) hend
    refine .bind (Q := fun _ => On I) ?_ fun _ => .bind .done hend
    exact .bind (Q := fun _ => On I) (.change fun x hx => h.rotate _ f _ hx.1 hx.2) fun _ =>
      .emitState ho.stateChanged
  · exact .pure fun x hx => hx.2

omit hgap

theorem keeps_execute (items : List (Submission R)) : Keeps I F (execute o items) := by
  refine .bind (Q := fun _ => On I) (.orFail (fun _ _ _ hx => hx) fun x hx => h.fails _ hx)
    fun commands => .bind .peek fun e => ?_
  have hrun : Keeps I F (do
      change fun e => { e with queue := commands, flight := none, phase := .running }
      note o .info ("Executing " ++ natText commands.length ++ " commands at speed " ++
        Float.generalText (Scalar.toFloat (← look).speed))
      startNext o (← now o)) := by
    refine .bind (Q := fun _ => On Ready) (.change fun x hx => h.load _ commands hx) fun _ => ?_
    exact .bind (.peek (F := F)) fun _ => .bind (.note o _ _) fun _ => .bind (.now o) fun time =>
      h.keeps_startNext ho time
  exact .ite (fun _ => .bind (.note o _ _) fun _ => hrun) fun _ => hrun

theorem keeps_setSpeed (value : R) : Keeps I F (Executor.setSpeed o value) := by
  refine .ite (fun _ => ?_) fun hdefined => ?_
  · exact .bind (.note o _ _) fun _ => .bind .peek fun _ => .done
  · refine .bind .seen fun e =>
      .bind (Q := fun _ => On I) (.change fun x hx => ?_) fun _ =>
        .bind (.emitState ho.stateChanged) fun _ => .bind .peek fun _ => .done
    obtain ⟨rfl, hx⟩ := hx
    exact h.setSpeed _ value hx (by simpa using hdefined)

theorem keeps_setSpeedData (value : Data) : Keeps I F (setSpeedData o value) := by
  unfold setSpeedData
  split
  · exact h.keeps_setSpeed ho _
  · exact .throw fun _ hx => h.fails _ hx
  · exact .bind (.note o _ _) fun _ => .bind .peek fun _ => .done

theorem keeps_pause : Keeps I F (Executor.pause o) := by
  refine .bind .seen fun e => ?_
  refine .ite (fun hrun => ?_) fun _ => .pure fun x hx => hx.2
  refine .bind (Q := fun _ => On I) (.change fun x hx => ?_) fun _ =>
    .bind .peek fun _ => .bind (.note o _ _) fun _ => .emitState ho.stateChanged
  obtain ⟨rfl, hx⟩ := hx
  exact h.pause _ hx (by simpa [isRunning] using hrun)

theorem keeps_resume : Keeps I F (Executor.resume o) := by
  refine .bind .seen fun e => ?_
  refine .ite (fun hpaused => ?_) fun _ => .pure fun x hx => hx.2
  refine .bind (Q := fun _ => On Ready) (.change fun x hx => ?_) fun _ =>
    .bind (.note o _ _) fun _ => .bind (.now o) fun time => h.keeps_startNext ho time
  obtain ⟨rfl, hx⟩ := hx
  exact h.resume _ hx (by simpa using hpaused)

theorem keeps_stop : Keeps I F (Executor.stop o) :=
  .bind (Q := fun _ => On I) (.change fun _ hx => h.stop _ hx) fun _ => .emitState ho.stateChanged

theorem keeps_reset (hreset : allowed .reset) : Keeps I F (Executor.reset o) :=
  .bind (Q := fun _ => On I) (.change fun _ hx => h.reset hreset _ hx) fun _ =>
    .emitState ho.stateChanged

theorem keeps_setInitial {height heading : Option R} (hr : allowed (.setInitial height heading)) :
    Keeps I F (Executor.setInitial o height heading) := by
  refine .bind (Q := fun _ => On fun e' => ∃ e, I e ∧ e' = e.withInitial height heading)
    (.change fun x hx => ⟨x.executor, hx, rfl⟩) fun _ =>
      .bind (Q := fun _ => On I) (.change fun x hx => ?_) fun _ => .emitState ho.stateChanged
  obtain ⟨e, he, hsame⟩ := hx
  rw [On, hsame]
  exact h.setInitial height heading hr e he

omit ho in
theorem keeps_setObstacles {obstacles : List (Obstacle R)} (hr : allowed (.setObstacles obstacles)) :
    Keeps (μ := μ) I F (Executor.setObstacles obstacles) :=
  .change fun _ hx => h.setObstacles obstacles hr _ hx

omit ho in
theorem keeps_setAgentSize {size : Except Fault (AgentSize R)} (hr : allowed (.setAgentSize size)) :
    Keeps (μ := μ) I F (Executor.setAgentSize size) := by
  refine .bind (Q := fun agent => On fun e => size = .ok agent ∧ I e)
    (.orFail (fun agent hagent x hx => ⟨hagent, hx⟩) fun x hx => h.fails _ hx) fun agent =>
      .change fun x hx => ?_
  obtain ⟨rfl, hx⟩ := hx
  exact h.setAgentSize agent hr _ hx

/-- **Every allowed request keeps the invariant**, if its observers keep it and what holds in the
gap. -/
theorem keeps_request (hgap : ∀ c, Keeps Gap F (o.completed c)) {r : Request R} (hr : allowed r) :
    Keeps I F (r.make o) := by
  cases r with
  | execute items => exact .bind (h.keeps_execute ho items) fun _ => .done
  | tick time? => exact .bind (h.keeps_tick ho hgap time?) fun _ => .done
  | pause => exact .bind (h.keeps_pause ho) fun _ => .done
  | resume => exact .bind (h.keeps_resume ho) fun _ => .done
  | stop => exact .bind (h.keeps_stop ho) fun _ => .done
  | reset => exact .bind (h.keeps_reset ho hr) fun _ => .done
  | setInitial height heading => exact .bind (h.keeps_setInitial ho hr) fun _ => .done
  | setSpeed value => exact .bind (h.keeps_setSpeed ho value) fun _ => .done
  | setSpeedData value => exact .bind (h.keeps_setSpeedData ho value) fun _ => .done
  | setObstacles obstacles => exact .bind (h.keeps_setObstacles hr) fun _ => .done
  | setAgentSize size => exact .bind (h.keeps_setAgentSize hr) fun _ => .done

/-! ## Sequences of requests -/

omit h ho in
/-- **An invariant holds whenever the host has control**, whatever requests observers make, if both
the invariant and what holds in the gap can be found by the requests of observers. -/
theorem of_served {mayFail : Prop} {start host : Host R μ} (hgap : Stable allowed Gap Gap Ready F)
    (h : Stable allowed I Gap Ready F) (ho : o.Reenter allowed)
    (hserved : Served allowed mayFail o start host) (hstart : I start.executor)
    (hFI : mayFail → ∀ e, F e → I e) : I host.executor := by
  have hkeep : ∀ {o : Observers R μ}, o.Reenter allowed → o.Keep Gap F := fun ho =>
    ho.keep hgap.fails fun _ _ hr _ hkeep => hgap.keeps_request hkeep hkeep.completed hr
  have hrequest : ∀ (o : Observers R μ) (r : Request R), allowed r → o.Reenter allowed →
      o.Keep I F → Keeps I F (r.make o) := fun _ _ hr ho hkeep' =>
    h.keeps_request hkeep' (hkeep ho).completed hr
  exact hserved.keeps hstart hFI fun r hr =>
    hrequest o r hr ho (ho.keep h.fails hrequest)

end Stable

end Executor

end RobotBlocks
