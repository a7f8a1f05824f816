import RobotBlocks.Proofs.Simulation.Ticks

/-!
# What failures leave behind

A request that fails has done part of its work. The executor that it leaves is *live* if a command is
in flight whenever it is running: then later ticks go on with the run. One that is running with
nothing in flight is stranded, and no tick changes it (`tick_of_not_live`).

Requests give a command up before they do what may fail in two places: the next command has left
the queue when it turns out that it cannot set out, and the command in flight is gone when the
observer of complete commands is told about it. The faults of these two places are *late*
(`Unlaunchable` are those of the first). Everywhere else a request has made its change when it can
fail, or has not begun it.

* `Ends P m Q late`: started where `P` holds, the operation ends where `Q` holds, or fails with a
  late fault, or fails and leaves a live executor.
* `keepsLive_request`: a request leaves a live executor live, unless it fails with a late fault.
* `Reacting late`: operations that are built from requests and may catch faults, but pass late ones
  on. The robot may be shown to any such operation; what is done when a command is complete may be
  anything that fails with late faults only.
* `live_of_forall_not_late`: after any sequence of requests, whether they succeeded or failed, the
  executor is live unless one of them failed with a late fault.
* `GivesUp` lists the requests that do strand an executor, by what it was about to do (`strands_execute`,
  `strands_resume`, `strands_complete`).
-/

namespace RobotBlocks

namespace Executor

variable {R μ α β : Type}

/-- A command is in flight whenever the executor is running. -/
def Live (e : Executor R) : Prop := e.phase = .running → e.flight.isSome

theorem not_live_iff {e : Executor R} : ¬ e.Live ↔ e.phase = .running ∧ e.flight = none := by
  simp [Live]

/-- The operation ends where `Q` holds if it begins where `P` holds, or fails with a late fault, or
fails and leaves a live executor. -/
def Ends (P : Host R μ → Prop) (m : Operation R μ α) (Q : α → Host R μ → Prop)
    (late : Fault → Prop) : Prop :=
  ∀ h, P h →
    match m h with
    | .ok a h' => Q a h'
    | .error fault h' => late fault ∨ h'.executor.Live

/-- The operation leaves a live executor live, unless it fails with a late fault. -/
abbrev KeepsLive (late : Fault → Prop) (m : Operation R μ α) : Prop :=
  Ends (On Live) m (fun _ => On Live) late

namespace Ends

variable {P : Host R μ → Prop} {m m' : Operation R μ α} {Q : α → Host R μ → Prop}
  {late : Fault → Prop}

theorem ok (h : Ends P m Q late) {x x' : Host R μ} {a : α} (hx : P x) (hm : m x = .ok a x') :
    Q a x' := by
  have := h x hx
  rwa [hm] at this

theorem error (h : Ends P m Q late) {x x' : Host R μ} {fault : Fault} (hx : P x)
    (hm : m x = .error fault x') : late fault ∨ x'.executor.Live := by
  have := h x hx
  rwa [hm] at this

theorem of_triple (h : Triple P m Q (On Live)) : Ends P m Q late := by
  intro x hx
  split
  · exact h.ok hx ‹_›
  · exact .inr (h.error hx ‹_›)

theorem bind {f : α → Operation R μ β} {S : β → Host R μ → Prop} (hm : Ends P m Q late)
    (hf : ∀ a, Ends (Q a) (f a) S late) : Ends P (m >>= f) S late := by
  intro x hx
  simp only [Bind.bind, EStateM.bind]
  rcases hrun : m x with ⟨a, x'⟩ | ⟨fault, x'⟩
  · exact hf a x' (hm.ok hx hrun)
  · exact hm.error hx hrun

/-- The first part may end anywhere if the second may begin anywhere. -/
theorem anywhere {f : α → Operation R μ β} {S : β → Host R μ → Prop}
    (hm : Ends P m (fun _ _ => True) late) (hf : ∀ a, Ends (fun _ => True) (f a) S late) :
    Ends P (m >>= f) S late := hm.bind hf

theorem ite {c : Prop} [Decidable c] (h : c → Ends P m Q late) (h' : ¬ c → Ends P m' Q late) :
    Ends P (if c then m else m') Q late := by
  split
  · exact h ‹_›
  · exact h' ‹_›

/-- A fault that is caught is dealt with where the executor is live, unless it is late: late faults
are passed on. -/
theorem catching {handler : Fault → Operation R μ α} (hm : Ends P m Q late)
    (hhandler : ∀ fault, Ends (On Live) (handler fault) Q late)
    (hlate : ∀ fault, late fault → handler fault = throw fault) :
    Ends P (tryCatch m handler) Q late := by
  intro x hx
  rcases hrun : m x with ⟨a, x'⟩ | ⟨fault, x'⟩
  · have hcatch : tryCatch m handler x = .ok a x' := by
      simp only [tryCatch, tryCatchThe, MonadExceptOf.tryCatch, EStateM.tryCatch, hrun]
    rw [hcatch]
    exact hm.ok hx hrun
  · have hcatch : tryCatch m handler x = handler fault x' := by
      simp only [tryCatch, tryCatchThe, MonadExceptOf.tryCatch, EStateM.tryCatch, hrun]
      rfl
    rw [hcatch]
    by_cases hfault : late fault
    · rw [hlate fault hfault]
      exact .inl hfault
    · exact hhandler fault x' ((hm.error hx hrun).resolve_left hfault)

end Ends

end Executor

open Executor

/-- Observers that leave a live executor live when they are shown the robot, and that fail with late
faults only when they are told that a command is complete. -/
structure Observers.KeepLive {R μ : Type} (o : Observers R μ) (late : Fault → Prop) : Prop where
  stateChanged : ∀ s, KeepsLive late (o.stateChanged s)
  completed : ∀ c h fault h', o.completed c h = .error fault h' → late fault

namespace Executor

variable {R μ α : Type} [Scalar R]

/-- The faults with which a command fails to set out: the executor has no speed, the heading has no
direction, or there are obstacles and the height of the robot is no number. -/
def Unlaunchable (R : Type) [Scalar R] (fault : Fault) : Prop :=
  fault = .divisionByZero ∨ fault = .outsideDomain ∨
    ∃ size : AgentSize R, size.heightFor "-" = .error fault

theorem unlaunchable_of_forwardOffset {heading distance : R} {fault : Fault}
    (h : forwardOffset heading distance = .error fault) : Unlaunchable R fault := by
  unfold forwardOffset at h
  split at h
  · cases h
  · cases h
    exact .inr (.inl rfl)

theorem unlaunchable_of_overlapping {s : Scene R} {p : Point R} {fault : Fault}
    (h : s.overlapping p = .error fault) : Unlaunchable R fault := by
  unfold Scene.overlapping at h
  split at h
  · cases h
  · refine .inr (.inr ⟨s.agent, ?_⟩)
    rcases hheight : s.agent.heightFor "-" with fault' | height
    · simpa [AgentSize.footprint, hheight, Except.map] using h
    · simp [AgentSize.footprint, hheight, Except.map] at h

theorem unlaunchable_of_prepare {e : Executor R} {c : Command R} {time : R} {fault : Fault}
    (h : e.prepare c time = .error fault) : Unlaunchable R fault := by
  simp only [prepare, throw, throwThe, MonadExceptOf.throw] at h
  split at h
  · cases h
    exact .inl rfl
  · split at h
    case h_1 | h_2 =>
      obtain h | ⟨_, -, h⟩ := Outcome.bind_eq_error.1 h
      · exact unlaunchable_of_forwardOffset h
      · obtain h | ⟨_, -, h⟩ := Outcome.bind_eq_error.1 h
        · exact unlaunchable_of_overlapping h
        · cases h
    all_goals cases h

/-- An observer that fails on purpose does so with none of these. -/
theorem not_unlaunchable_raised (message : String) : ¬ Unlaunchable R (.raised message) := by
  rintro (h | h | ⟨size, h⟩)
  · cases h
  · cases h
  · unfold AgentSize.heightFor at h
    split at h
    · cases h
    · cases h
    · split at h
      next n _ =>
        unfold Float.ofInt? at h
        dsimp only at h
        split at h <;> cases h
      · cases h

/-! ## Parts of requests -/

section Requests

variable {o : Observers R μ} {late : Fault → Prop} (ho : o.KeepLive late)
include ho

omit [Scalar R] in
theorem keepsLive_emitState : KeepsLive late (emitState o) := fun x hx => ho.stateChanged _ x hx

section

variable (hlate : ∀ fault, Unlaunchable R fault → late fault)
include hlate

/-- **Starting the next command** leaves a live executor, wherever it begins. -/
theorem ends_startNext (time : R) :
    Ends (fun _ => True) (startNext o time) (fun _ => On Live) late := by
  refine .anywhere (fun _ _ => trivial) fun e => ?_
  split
  · exact .bind (Q := fun _ => On Live) (.of_triple (.change fun x _ => by simp [On, Live]))
      fun _ => .bind (.of_triple (.note o _ _)) fun _ => keepsLive_emitState ho
  next c rest _ =>
    refine .anywhere (fun _ _ => trivial) fun _ =>
      .anywhere (fun _ _ => trivial) fun e' =>
        .anywhere (fun x _ => ?_) fun f => ?_
    · rcases hprepare : e'.prepare c time with fault | f
      · exact .inl (hlate fault (unlaunchable_of_prepare hprepare))
      · trivial
    · exact .bind (Q := fun _ => On Live) (.of_triple (.change fun x _ => by simp [On, Live]))
        fun _ => keepsLive_emitState ho

/-- **Completing a command** leaves a live executor, whatever the observer does. -/
theorem ends_complete (f : Flight R) (time : R) :
    Ends (fun _ => True) (complete o f time) (fun _ => On Live) late := by
  refine .anywhere (fun _ _ => trivial) fun _ =>
    .anywhere (fun x _ => ?_) fun _ =>
      .bind (Q := fun e x => e = x.executor) (fun _ _ => rfl) fun e =>
        .ite (fun _ x _ => ends_startNext ho hlate time x trivial) fun hrun => ?_
  · rcases hcompleted : o.completed f.command x with ⟨_, x'⟩ | ⟨fault, x'⟩
    · trivial
    · exact .inl (ho.completed _ _ _ _ hcompleted)
  · rintro x rfl hphase
    by_contra hflight
    exact hrun (by simpa [isRunning, hphase] using hflight)

omit hlate in
/-- Moving along a flight changes nothing but the place of the robot. -/
theorem keepsLive_advance (f : Flight R) (progress : R) :
    KeepsLive late (advance o f progress) := by
  refine .bind (.of_triple .peek) fun e =>
    .bind (.of_triple (.orFail (fun _ _ _ hx => hx) fun _ hx => hx)) fun contact? => ?_
  cases contact? with
  | none =>
    exact .bind (.of_triple (.change fun _ hx => hx)) fun _ =>
      .bind (keepsLive_emitState ho) fun _ => .of_triple .done
  | some contact =>
    exact .bind (.of_triple (.change fun _ hx => hx)) fun _ =>
      .bind (.of_triple (.note o _ _)) fun _ =>
        .bind (keepsLive_emitState ho) fun _ => .of_triple .done

theorem keepsLive_tick (time? : Option R) : KeepsLive late (tick o time?) := by
  refine .bind (.of_triple .peek) fun e => ?_
  split
  next f _ _ =>
    refine .bind (.of_triple (.now o)) fun now => ?_
    have hend : ∀ progress : R, KeepsLive late (if Scalar.ofNat 1 ≤ progress then
        (look >>= fun e => if e.isInFlight f then complete o f (time?.getD now) else pure ())
        else pure ()) := fun progress =>
      .ite (fun _ => .bind (.of_triple .peek) fun _ =>
        .ite (fun _ x _ => ends_complete ho hlate f _ x trivial) fun _ => .of_triple .done)
        fun _ => .of_triple .done
    refine .ite (fun _ => .bind (keepsLive_advance ho f _) hend) fun _ =>
      .ite (fun _ => ?_) fun _ => .bind (.of_triple .done) hend
    refine .bind (.bind (.of_triple (.change fun _ hx => hx)) fun _ => keepsLive_emitState ho)
      fun _ => .bind (.of_triple .done) hend
  · exact .of_triple .done

/-- New commands are looked at before the executor is touched. -/
theorem keepsLive_execute (items : List (Submission R)) : KeepsLive late (execute o items) := by
  refine .bind (.of_triple (.orFail (fun _ _ _ hx => hx) fun _ hx => hx)) fun commands =>
    .bind (.of_triple .peek) fun e => ?_
  have hrun : KeepsLive late (do
      change fun e => { e with queue := commands, flight := none, phase := .running }
      note o .info ("Executing " ++ natText commands.length ++ " commands at speed " ++
        Float.generalText (Scalar.toFloat (← look).speed))
      startNext o (← now o)) :=
    .anywhere (fun _ _ => trivial) fun _ =>
      .anywhere (fun _ _ => trivial) fun _ =>
        .anywhere (fun _ _ => trivial) fun _ =>
          .anywhere (fun _ _ => trivial) fun time =>
            ends_startNext ho hlate time
  exact .ite (fun _ => .bind (.of_triple (.note o _ _)) fun _ => hrun) fun _ => hrun

theorem keepsLive_resume : KeepsLive late (Executor.resume o) :=
  .bind (.of_triple .peek) fun _ => .ite
    (fun _ => .anywhere (fun _ _ => trivial) fun _ =>
      .anywhere (fun _ _ => trivial) fun _ =>
        .anywhere (fun _ _ => trivial) fun time =>
          ends_startNext ho hlate time)
    fun _ => .of_triple .done

omit hlate

omit [Scalar R] in
theorem keepsLive_pause : KeepsLive late (Executor.pause o) :=
  .bind (.of_triple .peek) fun _ => .ite
    (fun _ => .bind (Q := fun _ => On Live) (.of_triple (.change fun _ _ => by simp [On, Live]))
      fun _ => .bind (.of_triple .peek) fun _ => .bind (.of_triple (.note o _ _)) fun _ =>
        keepsLive_emitState ho)
    fun _ => .of_triple .done

omit [Scalar R] in
theorem keepsLive_stop : KeepsLive late (Executor.stop o) :=
  .bind (Q := fun _ => On Live) (.of_triple (.change fun _ _ => by simp [On, Live, idle, still]))
    fun _ => keepsLive_emitState ho

omit [Scalar R] in
theorem keepsLive_reset : KeepsLive late (Executor.reset o) :=
  .bind (Q := fun _ => On Live) (.of_triple (.change fun _ _ => by simp [On, Live, idle]))
    fun _ => keepsLive_emitState ho

theorem keepsLive_setSpeed (value : R) : KeepsLive late (Executor.setSpeed o value) :=
  .ite (fun _ => .bind (.of_triple (.note o _ _)) fun _ =>
      .bind (.of_triple .peek) fun _ => .of_triple .done)
    fun _ => .bind (.of_triple .peek) fun _ => .bind (.of_triple (.change fun _ hx => hx)) fun _ =>
      .bind (keepsLive_emitState ho) fun _ => .bind (.of_triple .peek) fun _ => .of_triple .done

theorem keepsLive_setSpeedData (value : Data) : KeepsLive late (setSpeedData o value) := by
  unfold setSpeedData
  split
  · exact keepsLive_setSpeed ho _
  · exact .of_triple (.throw fun _ hx => hx)
  · exact .bind (.of_triple (.note o _ _)) fun _ =>
      .bind (.of_triple .peek) fun _ => .of_triple .done

include hlate

/-- **A request leaves a live executor live**, unless it fails with a late fault. -/
theorem keepsLive_request (r : Request R) : KeepsLive late (r.make o) := by
  cases r with
  | execute items => exact .bind (keepsLive_execute ho hlate items) fun _ => .of_triple .done
  | tick time? => exact .bind (keepsLive_tick ho hlate time?) fun _ => .of_triple .done
  | pause => exact .bind (keepsLive_pause ho) fun _ => .of_triple .done
  | resume => exact .bind (keepsLive_resume ho hlate) fun _ => .of_triple .done
  | stop => exact .bind (keepsLive_stop ho) fun _ => .of_triple .done
  | reset => exact .bind (keepsLive_reset ho) fun _ => .of_triple .done
  | setInitial height heading =>
    exact .bind (.bind (.of_triple (.change fun _ hx => hx)) fun _ => keepsLive_reset ho)
      fun _ => .of_triple .done
  | setSpeed value => exact .bind (keepsLive_setSpeed ho value) fun _ => .of_triple .done
  | setSpeedData value => exact .bind (keepsLive_setSpeedData ho value) fun _ => .of_triple .done
  | setObstacles obstacles =>
    exact .bind (.of_triple (.change fun _ hx => hx)) fun _ => .of_triple .done
  | setAgentSize size =>
    exact .bind (.bind (.of_triple (.orFail (fun _ _ _ hx => hx) fun _ hx => hx)) fun _ =>
      .of_triple (.change fun _ hx => hx)) fun _ => .of_triple .done

end

end Requests

/-! ## Observers that make requests and catch faults -/

/-- The operation is built from requests and from operations that leave the executor alone. It may
catch faults, but passes late ones on, and whoever is told of complete commands by its requests fails
with late faults only. -/
inductive Reacting (late : Fault → Prop) : {α : Type} → Operation R μ α → Prop
  | quiet {α : Type} {m : Operation R μ α} (h : Quiet m) : Reacting late m
  | bind {α β : Type} {m : Operation R μ α} {f : α → Operation R μ β} (hm : Reacting late m)
    (hf : ∀ a, Reacting late (f a)) : Reacting late (m >>= f)
  | catching {α : Type} {m : Operation R μ α} {handler : Fault → Operation R μ α}
    (hm : Reacting late m) (hhandler : ∀ fault, Reacting late (handler fault))
    (hlate : ∀ fault, late fault → handler fault = throw fault) :
    Reacting late (tryCatch m handler)
  | request {o : Observers R μ} {r : Request R} (hstate : ∀ s, Reacting late (o.stateChanged s))
    (hcompleted : ∀ c h fault h', o.completed c h = .error fault h' → late fault) :
    Reacting late (r.make o)

/-- The operation leaves a live executor live, unless it fails with a late fault. -/
theorem Reacting.keepsLive {late : Fault → Prop} {m : Operation R μ α} (h : Reacting late m)
    (hlate : ∀ fault, Unlaunchable R fault → late fault) : KeepsLive late m := by
  induction h with
  | quiet h => exact .of_triple (h.keeps fun _ he => he)
  | bind _ _ ihm ihf => exact ihm.bind ihf
  | catching _ _ hpass ihm ihhandler => exact ihm.catching ihhandler hpass
  | request _ hcompleted ihstate => exact keepsLive_request ⟨ihstate, hcompleted⟩ hlate _

end Executor

section Outlived

variable {R μ : Type} [Scalar R]

/-- What is done when the robot is shown is built from requests and passes late faults on; what is
done when a command is complete may be anything that fails with late faults only. -/
structure Observers.React (o : Observers R μ) (late : Fault → Prop) : Prop where
  stateChanged : ∀ s, Reacting late (o.stateChanged s)
  completed : ∀ c h fault h', o.completed c h = .error fault h' → late fault

theorem Observers.React.keepLive {o : Observers R μ} {late : Fault → Prop} (h : o.React late)
    (hlate : ∀ fault, Unlaunchable R fault → late fault) : o.KeepLive late :=
  ⟨fun s => (h.stateChanged s).keepsLive hlate, h.completed⟩

/-- The hosts that have control after requests of theirs, with the faults of those that failed, the
last one first. Between requests they may remember whatever they like. -/
inductive Outlived (o : Observers R μ) (start : Host R μ) : List Fault → Host R μ → Prop
  | start : Outlived o start [] start
  | request {faults : List Fault} {h h' : Host R μ} {r : Request R} {a : Option R}
    (before : Outlived o start faults h) (hrun : r.make o h = .ok a h') :
    Outlived o start faults h'
  | failure {faults : List Fault} {h h' : Host R μ} {r : Request R} {fault : Fault}
    (before : Outlived o start faults h) (hrun : r.make o h = .error fault h') :
    Outlived o start (fault :: faults) h'
  | remember {faults : List Fault} {h : Host R μ} (before : Outlived o start faults h) (memory : μ) :
    Outlived o start faults { h with memory }

end Outlived

namespace Executor

variable {R μ : Type} [Scalar R]

theorem live_start {c : Config R} {obstacles : List (Obstacle R)} {e : Executor R}
    (h : Executor.start c obstacles = .ok e) : e.Live := by
  obtain ⟨agent, -, rfl⟩ := Outcome.map_eq_ok.1 h
  simp [Live]

variable {o : Observers R μ} {late : Fault → Prop}

/-- An executor that was left live by all failures but late ones is live. -/
theorem live_of_forall_not_late {start host : Host R μ} {faults : List Fault}
    (ho : o.KeepLive late) (hlate : ∀ fault, Unlaunchable R fault → late fault)
    (hstart : start.executor.Live) (h : Outlived o start faults host)
    (hfaults : ∀ fault ∈ faults, ¬ late fault) : host.executor.Live := by
  induction h with
  | start => exact hstart
  | request _ hrun ih => exact (keepsLive_request ho hlate _).ok (ih hfaults) hrun
  | failure _ hrun ih =>
    obtain ⟨hfault, hfaults⟩ := List.forall_mem_cons.1 hfaults
    exact ((keepsLive_request ho hlate _).error (ih hfaults) hrun).resolve_left hfault
  | remember _ _ ih => exact ih hfaults

/-! ## Stranded executors -/

/-- **No tick changes** an executor that runs with nothing in flight. -/
theorem tick_of_not_live {h : Host R μ} (hlive : ¬ h.executor.Live) (time? : Option R) :
    tick o time? h = .ok () h := by
  obtain ⟨hphase, hflight⟩ := not_live_iff.1 hlive
  simp only [tick, run_look_bind, hphase, hflight]
  rfl

/-- The operation fails with this fault from wherever `P` holds, and strands the executor. -/
def Strands {α : Type} (P : Host R μ → Prop) (m : Operation R μ α) (fault : Fault) : Prop :=
  ∀ h, P h → ∃ h', m h = .error fault h' ∧ ¬ h'.executor.Live

omit [Scalar R] in
theorem Strands.bind {α β : Type} {P : Host R μ → Prop} {Q : α → Host R μ → Prop}
    {m : Operation R μ α} {f : α → Operation R μ β} {fault : Fault}
    (hm : Triple P m Q (On fun _ => False)) (hf : ∀ a, Strands (Q a) (f a) fault) :
    Strands P (m >>= f) fault := by
  intro x hx
  rcases hrun : m x with ⟨a, x'⟩ | ⟨fault', x'⟩
  · obtain ⟨x'', hfails, hlive⟩ := hf a x' (hm.ok hx hrun)
    exact ⟨x'', (run_bind_of_ok hrun).trans hfails, hlive⟩
  · exact (hm.error hx hrun).elim

omit [Scalar R] in
/-- Nothing is made of a failing operation. -/
theorem Strands.before {α β : Type} {P : Host R μ → Prop} {m : Operation R μ α} {fault : Fault}
    (h : Strands P m fault) (f : α → Operation R μ β) : Strands P (m >>= f) fault := by
  intro x hx
  obtain ⟨x', hm, hlive⟩ := h x hx
  exact ⟨x', run_bind_of_error hm, hlive⟩

/-- A command that cannot set out has left the queue. -/
theorem strands_startNext {e : Executor R} {c : Command R} {rest : List (Command R)} {time : R}
    {fault : Fault} (hlive : ¬ e.Live) (hqueue : e.queue = c :: rest)
    (hprepare : ({ e with queue := rest }).prepare c time = .error fault) :
    Strands (On (· = e)) (startNext o time) fault := by
  rintro x rfl
  refine ⟨{ x with executor := { x.executor with queue := rest } }, ?_, hlive⟩
  simp only [startNext, run_look_bind, hqueue, run_change_bind, hprepare]
  exact run_bind_of_error rfl

/-- **Commands of which the first one cannot set out** strand the executor. -/
theorem strands_execute {e : Executor R} {c : Command R} {rest : List (Command R)} {fault : Fault}
    (hprepare : ∀ time, (e.loaded rest).prepare c time = .error fault) :
    Strands (On (· = e)) (execute o ((c :: rest).map .command)) fault := by
  have hrun : Strands (On (· = e)) (do
      change fun e => { e with queue := c :: rest, flight := none, phase := .running }
      note o .info ("Executing " ++ natText (c :: rest).length ++ " commands at speed " ++
        Float.generalText (Scalar.toFloat (← look).speed))
      startNext o (← now o)) fault :=
    .bind (Q := fun _ => On (· = e.loaded (c :: rest))) (.change fun x hx => congrArg (loaded · _) hx)
      fun _ => .bind .peek fun _ => .bind (.note o _ _) fun _ => .bind (.now o) fun time =>
        strands_startNext (by simp [loaded, Live]) rfl (hprepare time)
  unfold execute
  rw [commandsOf_map]
  simp only [orFail, pure_bind]
  refine .bind .peek fun _ => ?_
  split
  · exact .bind (.note o _ _) fun _ => hrun
  · exact hrun

/-- **A run that goes on** with a command that cannot set out is stranded. -/
theorem strands_resume {e : Executor R} {c : Command R} {rest : List (Command R)} {fault : Fault}
    (hphase : e.phase = .paused) (hflight : e.flight = none) (hqueue : e.queue = c :: rest)
    (hprepare : ∀ time,
      ({ e with phase := .running, queue := rest }).prepare c time = .error fault) :
    Strands (On (· = e)) (resume o) fault := by
  have hgo : Strands (On (· = e)) (do
      change fun e => { e with phase := .running }
      note o .info "Resumed"
      startNext o (← now o)) fault :=
    .bind (Q := fun _ => On (· = { e with phase := .running }))
      (.change fun x hx => by rw [On] at hx ⊢; rw [hx]) fun _ =>
        .bind (.note o _ _) fun _ => .bind (.now o) fun time =>
          strands_startNext (by simp [Live, hflight]) hqueue (hprepare time)
  rintro x rfl
  simpa only [resume, run_look_bind, hphase, beq_self_eq_true, if_true] using hgo x rfl

/-- **An observer that fails when it is told that a command is complete** strands the executor, if it
leaves it as it finds it. -/
theorem strands_complete {e : Executor R} {f : Flight R} {time : R} {fault : Fault}
    (hrun : e.phase = .running)
    (hcompleted : ∀ h : Host R μ, h.executor = e.landed →
      ∃ h', o.completed f.command h = .error fault h' ∧ h'.executor = e.landed) :
    Strands (On (· = e)) (complete o f time) fault := by
  rintro x rfl
  obtain ⟨h', hfails, hsame⟩ := hcompleted { x with executor := x.executor.landed } rfl
  refine ⟨h', ?_, by simp [hsame, Live, landed, hrun]⟩
  rw [complete, run_change_bind]
  exact run_bind_of_error hfails

/-- An observer that leaves the executor as it finds it lets the next command start. -/
theorem strands_complete_next {e : Executor R} {f : Flight R} {time : R} {fault : Fault}
    {c : Command R} {rest : List (Command R)} (hrun : e.phase = .running)
    (hcompleted : Triple (On (· = e.landed)) (o.completed f.command) (fun _ => On (· = e.landed))
      (On fun _ => False))
    (hqueue : e.queue = c :: rest)
    (hprepare : ({ e.landed with queue := rest }).prepare c time = .error fault) :
    Strands (On (· = e)) (complete o f time) fault := by
  refine .bind (Q := fun _ => On (· = e.landed)) (.change fun x hx => congrArg landed hx) fun _ =>
    .bind hcompleted fun _ => .bind .seen fun e' => ?_
  rintro x ⟨rfl, hx⟩
  have hgoes : x.executor.isRunning && x.executor.flight.isNone := by
    rw [show x.executor = e.landed from hx]
    simp [isRunning, landed, hrun]
  rw [if_pos hgoes]
  exact strands_startNext (e := e.landed) (by simp [Live, landed, hrun]) hqueue hprepare x hx

/-- When the time of a wait is up, a tick completes it, and strands the executor if this does. -/
theorem strands_tick {e : Executor R} {f : Flight R} {time : R} {fault : Fault}
    (hrun : e.phase = .running) (hflight : e.flight = some f) (hwait : f.command.movement = .wait)
    (hpast : Scalar.ofNat 1 ≤ progressAt f time)
    (hcomplete : Strands (On (· = e)) (complete o f time) fault) :
    Strands (On (· = e)) (tick o (some time)) fault := by
  rintro x rfl
  have hsame : x.executor.isInFlight f = true := by simp [isInFlight, hflight]
  have htick : tick o (some time) x = complete o f time x := by
    simp only [tick, run_look_bind, hrun, hflight, run_now_bind, hwait, Movement.isMove,
      Movement.isTurn, Option.getD_some, Bool.false_eq_true, if_false, pure_bind, hpast, if_true,
      hsame]
  rw [htick]
  exact hcomplete x rfl

/-- Requests that give a command up and then fail. -/
inductive GivesUp (o : Observers R μ) (e : Executor R) : Request R → Fault → Prop
  /-- The first of the new commands cannot set out. -/
  | execute {c : Command R} {rest : List (Command R)} {fault : Fault}
    (hprepare : ∀ time, (e.loaded rest).prepare c time = .error fault) :
    GivesUp o e (.execute ((c :: rest).map .command)) fault
  /-- The next command cannot set out when the run is to go on, -/
  | resume {c : Command R} {rest : List (Command R)} {fault : Fault} (hphase : e.phase = .paused)
    (hflight : e.flight = none) (hqueue : e.queue = c :: rest)
    (hprepare : ∀ time,
      ({ e with phase := .running, queue := rest }).prepare c time = .error fault) :
    GivesUp o e .resume fault
  /-- or when the time of a wait is up. -/
  | next {f : Flight R} {c : Command R} {rest : List (Command R)} {time : R} {fault : Fault}
    (hrun : e.phase = .running) (hflight : e.flight = some f)
    (hwait : f.command.movement = .wait) (hpast : Scalar.ofNat 1 ≤ progressAt f time)
    (hcompleted : Triple (On (· = e.landed)) (o.completed f.command) (fun _ => On (· = e.landed))
      (On fun _ => False))
    (hqueue : e.queue = c :: rest)
    (hprepare : ({ e.landed with queue := rest }).prepare c time = .error fault) :
    GivesUp o e (.tick (some time)) fault
  /-- The observer that is told of a complete wait fails. -/
  | told {f : Flight R} {time : R} {fault : Fault} (hrun : e.phase = .running)
    (hflight : e.flight = some f) (hwait : f.command.movement = .wait)
    (hpast : Scalar.ofNat 1 ≤ progressAt f time)
    (hcompleted : ∀ h : Host R μ, h.executor = e.landed →
      ∃ h', o.completed f.command h = .error fault h' ∧ h'.executor = e.landed) :
    GivesUp o e (.tick (some time)) fault

theorem GivesUp.strands {e : Executor R} {r : Request R} {fault : Fault} (h : GivesUp o e r fault) :
    Strands (On (· = e)) (r.make o) fault := by
  cases h with
  | execute hprepare => exact (strands_execute hprepare).before _
  | resume hphase hflight hqueue hprepare =>
    exact (strands_resume hphase hflight hqueue hprepare).before _
  | next hrun hflight hwait hpast hcompleted hqueue hprepare =>
    have hcomplete := strands_complete_next hrun hcompleted hqueue hprepare
    exact (strands_tick hrun hflight hwait hpast hcomplete).before _
  | told hrun hflight hwait hpast hcompleted =>
    exact (strands_tick hrun hflight hwait hpast (strands_complete hrun hcompleted)).before _

/-! ## Main result -/

/-- **What failures leave behind.** Let the late faults be any that contain those with which commands
fail to set out and those with which observers fail when they are told of complete commands. Whenever
the host has control after requests of which none failed with a late fault, the executor is live, and
so it is after any request that finds it live and fails otherwise. But requests that give a command up
and then fail do strand it, and no tick goes on with a stranded run. -/
theorem live_unless_late {c : Config R} {obstacles : List (Obstacle R)} {e : Executor R} {memory : μ}
    {faults : List Fault} {host : Host R μ} (hstart : Executor.start c obstacles = .ok e)
    (hlate : ∀ fault, Unlaunchable R fault → late fault) (ho : o.React late)
    (h : Outlived o ⟨e, memory⟩ faults host) :
    ((∀ fault ∈ faults, ¬ late fault) → host.executor.Live) ∧
    (∀ r fault h', host.executor.Live → Request.make o r host = .error fault h' → ¬ late fault →
      h'.executor.Live) ∧
    (∀ r fault, GivesUp o host.executor r fault →
      ∃ h', Request.make o r host = .error fault h' ∧ ¬ h'.executor.Live) ∧
    (¬ host.executor.Live → ∀ time?, tick o time? host = .ok () host) := by
  have hkeep := ho.keepLive hlate
  refine ⟨live_of_forall_not_late hkeep hlate (live_start hstart) h, ?_, ?_, tick_of_not_live⟩
  · intro r fault h' hlive hrun hfault
    exact ((keepsLive_request hkeep hlate r).error hlive hrun).resolve_left hfault
  · intro r fault hgives
    exact hgives.strands host rfl

/-- Observers that make the robot faster when they see it and then fail. -/
def panicking : Observers Float Unit where
  clock _ := 0.0
  note _ m := m
  stateChanged _ := do
    let _ ← (Request.setSpeed 2.0).make
      ⟨fun _ => 0.0, fun _ m => m, fun _ => pure (), fun _ => pure ()⟩
    throw (.raised "no screen")
  completed _ := pure ()

/-- Shown a robot that has set out and one that is on its way, the observers fail each time. The
robot is moving afterwards, and its turn is in flight. -/
theorem live_unless_late_panicking :
    ∃ e h', Executor.start (Config.robot : Config Float) [] = .ok e ∧
      panicking.React (Unlaunchable Float) ∧
      Outlived panicking ⟨e, ()⟩ [.raised "no screen", .raised "no screen"] h' ∧
      h'.executor.phase = .running ∧ h'.executor.flight.isSome := by
  obtain ⟨e, hstart⟩ : ∃ e, Executor.start (Config.robot : Config Float) [] = .ok e := ⟨_, rfl⟩
  have hreact : panicking.React (Unlaunchable Float) :=
    { stateChanged := fun _ => .bind (.request (fun _ => .quiet fun _ _ hx => hx)
        fun _ _ _ _ h => nomatch h) fun _ => .quiet fun _ _ hx => hx
      completed := fun _ _ _ _ h => nomatch h }
  have hfails : Outcome.failed
      (Request.make panicking (.execute [.command ⟨.turnRight, 90.0, 800.0, none⟩]) ⟨e, ()⟩)
      fun fault h => decide (fault = .raised "no screen") &&
        Outcome.failed (Request.make panicking (.tick (some 100.0)) h) fun fault h' =>
          decide (fault = .raised "no screen" ∧ h'.executor.phase = .running) := by
    cases hstart
    decide +kernel
  obtain ⟨fault, h, hexecute, hfails⟩ := Outcome.failed_eq_true.1 hfails
  rw [Bool.and_eq_true, decide_eq_true_eq] at hfails
  obtain ⟨rfl, hfails⟩ := hfails
  obtain ⟨fault, h', htick, hfault⟩ := Outcome.failed_eq_true.1 hfails
  obtain ⟨rfl, hrunning⟩ := of_decide_eq_true hfault
  have houtlived : Outlived panicking ⟨e, ()⟩ [.raised "no screen", .raised "no screen"] h' :=
    .failure (.failure .start hexecute) htick
  have hlive := (live_unless_late hstart (fun _ h => h) hreact houtlived).1
  have hraised : ∀ fault ∈ [Fault.raised "no screen", .raised "no screen"],
      ¬ Unlaunchable Float fault := by
    simp [not_unlaunchable_raised]
  exact ⟨e, h', hstart, hreact, houtlived, hrunning, hlive hraised hrunning⟩

/-- Observers that fail as soon as a command is complete. -/
def failing : Observers Float (Journal Float) :=
  Call.observers Journal.clock [⟨.complete, 1, [.fail (.raised "no log")]⟩]

/-- Not every failure leaves a live executor: when the first of two waits is over and its observer
fails, the robot goes on moving with nothing in flight. -/
theorem not_live_of_outlived :
    ¬ ∀ (c : Config Float) (obstacles : List (Obstacle Float)) (e : Executor Float)
      (o : Observers Float (Journal Float)) (faults : List Fault) (host : Host Float (Journal Float)),
      Executor.start c obstacles = .ok e → Outlived o ⟨e, .empty 0.0⟩ faults host →
        (host.executor.phase = .running → host.executor.flight.isSome) := by
  intro h
  obtain ⟨e, hstart⟩ : ∃ e, Executor.start (Config.robot : Config Float) [] = .ok e := ⟨_, rfl⟩
  let waiting : Submission Float := .command ⟨.wait, 1.0, 1000.0, none⟩
  have hfails : Outcome.returned
      (Request.make failing (.execute [waiting, waiting]) ⟨e, .empty 0.0⟩) fun _ host =>
        Outcome.failed (Request.make failing (.tick (some 1000.0)) host) fun _ host' =>
          decide (host'.executor.phase = .running ∧ host'.executor.flight.isSome = false) := by
    cases hstart
    decide +kernel
  obtain ⟨_, host, hexecute, hfails⟩ := Outcome.returned_eq_true.1 hfails
  obtain ⟨_, host', htick, hfails⟩ := Outcome.failed_eq_true.1 hfails
  obtain ⟨hrunning, hnone⟩ := of_decide_eq_true hfails
  have hlive := h _ _ e failing _ host' hstart (.failure (.request .start hexecute) htick) hrunning
  exact absurd (hnone.symm.trans hlive) Bool.false_ne_true

end Executor

end RobotBlocks
