import RobotBlocks.Proofs.Outcome
import RobotBlocks.Proofs.Simulation.Stability

/-!
# Phases, flights and motion

Whenever the host has control, the executor is running exactly if a command is in flight and exactly
if the robot is marked as moving; at rest its queue is empty (`phases_agree`).

While an observer is told that a command is complete, the executor is still running and the robot
still marked as moving, but nothing is in flight. Requests made from there must not be assumed to
find the executor settled, so the invariant has two grades (`Settled strict`): the strict one, for the
host and for observers of the state, and one that allows for this gap. Every request keeps both
grades (`stable_settled`).
-/

namespace RobotBlocks

namespace Executor

variable {R μ : Type} {e : Executor R} {strict : Prop}

/-- Phase, flight and motion agree, but for the gap after a command is complete: there the executor
runs without a flight. The strict grade rules the gap out. -/
structure Settled (strict : Prop) (e : Executor R) : Prop where
  idle : e.phase = .idle → e.queue = [] ∧ e.robot.moving = false
  paused : e.phase = .paused → e.robot.moving = false
  flight : e.flight.isSome → e.phase = .running ∧ e.robot.moving = true
  initial : e.initial.moving = false
  running : strict → e.phase = .running → e.flight.isSome

/-- Ready for the next command of the queue: running, and nothing in flight. -/
structure Ready (e : Executor R) : Prop where
  phase : e.phase = .running
  flight : e.flight = none
  initial : e.initial.moving = false

/-- Nothing is in flight unless the executor runs. -/
theorem Settled.flight_eq_none (h : e.Settled strict) (hphase : e.phase ≠ .running) :
    e.flight = none := by
  rcases hflight : e.flight with _ | f
  · rfl
  · exact absurd (h.flight (by simp [hflight])).1 hphase

/-- **What the strict grade says**: running, having a flight and moving are the same; at rest nothing
is left to do, and neither pausing nor resting leaves a flight. -/
theorem Settled.iff_running (h : e.Settled True) :
    (e.phase = .running ↔ e.flight.isSome) ∧ (e.flight.isSome ↔ e.robot.moving = true) ∧
      (e.phase = .idle → e.queue = [] ∧ e.flight = none) ∧
      (e.phase = .paused → e.flight = none) := by
  refine ⟨⟨h.running trivial, fun hf => (h.flight hf).1⟩, ⟨fun hf => (h.flight hf).2, fun hm => ?_⟩,
    fun hphase => ⟨(h.idle hphase).1, h.flight_eq_none (by simp [hphase])⟩,
    fun hphase => h.flight_eq_none (by simp [hphase])⟩
  rcases hphase : e.phase
  · simp [(h.idle hphase).2] at hm
  · exact h.running trivial hphase
  · simp [h.paused hphase] at hm

/-! ## Changes -/

/-- Changes that leave phase, queue, flight and motion alone keep both grades. -/
theorem Settled.congr {e' : Executor R} (h : e.Settled strict) (hphase : e'.phase = e.phase)
    (hqueue : e'.queue = e.queue) (hflight : e'.flight = e.flight)
    (hmoving : e'.robot.moving = e.robot.moving) (hinitial : e'.initial.moving = e.initial.moving) :
    e'.Settled strict where
  idle := by rw [hphase, hqueue, hmoving]; exact h.idle
  paused := by rw [hphase, hmoving]; exact h.paused
  flight := by rw [hphase, hflight, hmoving]; exact h.flight
  initial := hinitial.trans h.initial
  running := by rw [hphase, hflight]; exact h.running

/-- An executor that stands still and does not run is settled, if nothing is left to do at rest. -/
theorem settled_of_still (hphase : e.phase ≠ .running) (hflight : e.flight = none)
    (hmoving : e.robot.moving = false) (hinitial : e.initial.moving = false)
    (hqueue : e.phase = .idle → e.queue = []) : e.Settled strict where
  idle h := ⟨hqueue h, hmoving⟩
  paused _ := hmoving
  flight h := by simp [hflight] at h
  initial := hinitial
  running _ h := absurd h hphase

/-- The gap: a flight has been taken away. -/
theorem Settled.land (h : e.Settled strict) : { e with flight := none }.Settled False where
  idle := h.idle
  paused := h.paused
  flight h' := by simp at h'
  initial := h.initial
  running h' := h'.elim

/-- What has been settled but for the gap is settled if it is not in the gap. -/
theorem Settled.of_not_gap (h : e.Settled False) (hgap : e.phase = .running → e.flight ≠ none) :
    e.Settled strict where
  idle := h.idle
  paused := h.paused
  flight := h.flight
  initial := h.initial
  running _ hphase := Option.isSome_iff_ne_none.2 (hgap hphase)

/-- Failures are left open. -/
def Anything (_ : Executor R) : Prop := True

variable [Scalar R]

/-- **Every request keeps both grades.** -/
theorem stable_settled :
    Stable (R := R) (fun _ => True) (Settled strict) (Settled False) Ready Anything where
  fails _ _ := trivial
  load _ _ h := ⟨rfl, rfl, h.initial⟩
  resume _ h hphase := ⟨rfl, h.flight_eq_none (by simp [hphase]), h.initial⟩
  rest _ h hqueue := settled_of_still (by simp) rfl rfl h.initial fun _ => hqueue
  launch _ _ _ _ _ h _ _ :=
    { idle := by simp [h.phase], paused := by simp [h.phase], flight := by simp [h.phase],
      initial := h.initial, running := by simp }
  lost _ _ _ _ _ := trivial
  arrive _ _ _ h _ _ := h.congr rfl rfl rfl rfl rfl
  halt _ _ _ _ h _ _ := h.congr rfl rfl rfl rfl rfl
  rotate _ _ _ h _ := h.congr rfl rfl rfl rfl rfl
  land _ h := h.land
  proceed _ h hphase hflight := ⟨hphase, hflight, h.initial⟩
  yield _ h hgap := h.of_not_gap hgap
  pause _ h _ := settled_of_still (by simp) rfl rfl h.initial (by simp)
  stop _ h := settled_of_still (by simp [idle, still]) rfl rfl h.initial fun _ => rfl
  setSpeed _ _ h _ := h.congr rfl rfl rfl rfl rfl
  reset _ _ h := settled_of_still (by simp [restored, idle]) rfl h.initial h.initial fun _ => rfl
  setInitial _ _ _ _ h :=
    settled_of_still (by simp [restored, idle]) rfl h.initial h.initial fun _ => rfl
  setObstacles _ _ _ h := h.congr rfl rfl rfl rfl rfl
  setAgentSize _ _ _ h := h.congr rfl rfl rfl rfl rfl

/-! ## Hosts -/

variable {o : Observers R μ}

/-- An executor at rest is settled. -/
theorem settled_start {c : Config R} {obstacles : List (Obstacle R)}
    (h : Executor.start c obstacles = .ok e) : e.Settled strict := by
  unfold Executor.start at h
  rcases hagent : AgentSize.ofList c.agentSize with fault | agent
  · rw [hagent] at h
    cases h
  · rw [hagent] at h
    cases h
    exact settled_of_still (by simp) rfl rfl rfl fun _ => rfl

/-- **Whenever the host has control** after requests that all succeeded, running, having a command in
flight and moving are the same, at rest nothing is left to do, and pausing leaves nothing in flight;
whatever requests the observers made from inside these requests. -/
theorem phases_agree {c : Config R} {obstacles : List (Obstacle R)} {memory : μ} {host : Host R μ}
    (hstart : Executor.start c obstacles = .ok e) (ho : o.Reenter fun _ => True)
    (h : Served (fun _ => True) False o ⟨e, memory⟩ host) :
    (host.executor.phase = .running ↔ host.executor.flight.isSome) ∧
      (host.executor.flight.isSome ↔ host.executor.robot.moving = true) ∧
      (host.executor.phase = .idle → host.executor.queue = [] ∧ host.executor.flight = none) ∧
      (host.executor.phase = .paused → host.executor.flight = none) := by
  have hsettled : host.executor.Settled True :=
    Stable.of_served stable_settled stable_settled ho h (settled_start hstart) False.elim
  exact hsettled.iff_running

/-- Observers that stop the executor as soon as a command is complete. -/
def stopping : Observers Float (Journal Float) :=
  Call.observers Journal.clock [⟨.complete, 1, [.stop]⟩]

/-- A robot that is to wait twice and is stopped by its observer after the first time. -/
theorem phases_agree_stopped :
    ∃ e host, Executor.start (Config.robot : Config Float) [] = .ok e ∧
      Served (fun _ => True) False stopping ⟨e, .empty 0.0⟩ host ∧
      host.executor.phase = .idle ∧ (host.executor.phase = .running ↔ host.executor.flight.isSome) ∧
      (host.executor.flight.isSome ↔ host.executor.robot.moving = true) ∧
      (host.executor.phase = .idle → host.executor.queue = [] ∧ host.executor.flight = none) ∧
      (host.executor.phase = .paused → host.executor.flight = none) := by
  let waiting : Submission Float := .command ⟨.wait, 1.0, 1000.0, none⟩
  obtain ⟨e, hstart⟩ : ∃ e, Executor.start (Config.robot : Config Float) [] = .ok e := ⟨_, rfl⟩
  have hreenter : stopping.Reenter fun _ => True := Call.observers_reenter _ _
  have hok : Outcome.returned
      (Request.make stopping (.execute [waiting, waiting]) ⟨e, .empty 0.0⟩) fun _ h =>
        Outcome.returned (Request.make stopping (.tick (some 5000.0)) h) fun _ h' =>
          decide (h'.executor.phase = .idle) := by
    cases hstart
    decide +kernel
  obtain ⟨_, h, hexecute, hok⟩ := Outcome.returned_eq_true.1 hok
  obtain ⟨_, h', htick, hidle⟩ := Outcome.returned_eq_true.1 hok
  have hserved : Served (fun _ => True) False stopping ⟨e, .empty 0.0⟩ h' :=
    .request (.request .start trivial hexecute) trivial htick
  exact ⟨e, h', hstart, hserved, of_decide_eq_true hidle, phases_agree hstart hreenter hserved⟩

end Executor

end RobotBlocks
