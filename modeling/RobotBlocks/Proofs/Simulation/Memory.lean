import RobotBlocks.Proofs.Program.Retiming
import RobotBlocks.Proofs.Simulation.Composition
import RobotBlocks.Simulation.Controller

/-!
# What becomes of the memory

An executor has no access to the memory of its observers but through them: the log is taken down, and
observers do what they do when they are called. So whatever these keep of the memory every operation
of the executor keeps (`minds_execute`, `minds_tick` and so on), also if it fails.

For a controller the memory is the desk, and it counts complete commands there before it tells its
listeners (`Observers.Mind.observing`).
-/

namespace RobotBlocks

variable {R μ α : Type}

/-- What holds of the memory of a host. -/
def Of (J : μ → Prop) (h : Host R μ) : Prop := J h.memory

/-- The operation keeps an invariant of the memory, whether it succeeds or fails. -/
abbrev Minds (J : μ → Prop) (m : Operation R μ α) : Prop :=
  Triple (Of J) m (fun _ => Of J) (Of J)

/-- What observers do keeps an invariant of the memory. -/
structure Observers.Mind (o : Observers R μ) (J : μ → Prop) : Prop where
  note : ∀ entry x, J x → J (o.note entry x)
  stateChanged : ∀ s, Minds J (o.stateChanged s)
  completed : ∀ c, Minds J (o.completed c)

namespace Executor

/-- Taking diagnostics down never fails, and leaves the executor alone. -/
theorem exists_noteAll (o : Observers R μ) (ds : List Diagnostic) (h : Host R μ) :
    ∃ memory, (ds.forM fun d => note o .warning d.text) h = .ok () ⟨h.executor, memory⟩ := by
  induction ds generalizing h with
  | nil => exact ⟨h.memory, rfl⟩
  | cons d ds ih =>
    obtain ⟨memory, hrun⟩ := ih { h with memory := o.note ⟨.warning, d.text⟩ h.memory }
    exact ⟨memory, (run_bind_of_ok rfl).trans hrun⟩

variable {J : μ → Prop}

/-! ## Parts of operations -/

theorem minds_pure (a : α) : Minds (R := R) J (pure a : Operation R μ α) := fun _ h => h

theorem minds_look : Minds J (look : Operation R μ (Executor R)) := fun _ h => h

theorem minds_change (f : Executor R → Executor R) : Minds J (change f : Operation R μ Unit) :=
  fun _ h => h

theorem minds_orFail (value : Except Fault α) : Minds (R := R) J (orFail value) :=
  .orFail (fun _ _ _ h => h) fun _ h => h

section Observed

variable {o : Observers R μ} (ho : o.Mind J)
include ho

theorem minds_note (level : Log.Level) (message : Text) : Minds J (note o level message) :=
  fun _ h => ho.note _ _ h

/-- Whatever is composed of parts of operations keeps what the observers keep. -/
theorem minds_composed {m : Operation R μ α} (h : Composed o (fun _ => True) m) : Minds J m :=
  h.keeps (fun _ _ _ hx => hx) (fun entry _ hx => ho.note entry _ hx) ho.stateChanged ho.completed

/-! ## Operations -/

theorem minds_pause : Minds J (pause o) := minds_composed ho (composed_pause fun _ _ => trivial)

theorem minds_stop : Minds J (stop o) := minds_composed ho (composed_stop fun _ _ => trivial)

theorem minds_reset : Minds J (reset o) := minds_composed ho (composed_reset trivial)

theorem minds_setInitial (height heading : Option R) : Minds J (setInitial o height heading) :=
  .bind (minds_change _) fun _ => minds_reset ho

variable [Scalar R]

theorem minds_tick (time? : Option R) : Minds J (tick o time?) :=
  minds_composed ho (composed_tick (fun _ _ => trivial) time?)

theorem minds_execute (items : List (Submission R)) : Minds J (execute o items) :=
  minds_composed ho (composed_execute (fun _ _ => trivial) items)

theorem minds_resume : Minds J (resume o) := minds_composed ho (composed_resume fun _ _ => trivial)

theorem minds_setSpeed (value : R) : Minds J (setSpeed o value) :=
  minds_composed ho (composed_setSpeed (fun _ => trivial) value)

end Observed

theorem minds_setAgentSize (size : Except Fault (AgentSize R)) :
    Minds J (setAgentSize size : Operation R μ Unit) :=
  .bind (minds_orFail _) fun _ => minds_change _

end Executor

/-! ## The desk of a controller -/

namespace Controller

open Executor

/-- **Compiling** succeeds if the program compiles, and leaves the executor alone. -/
theorem compile_of_outcome [Scalar R] (l : Listeners R μ) {h : Host R (Desk R μ)}
    {commands : List (Command R)}
    (houtcome : (Compilation.ofBlocks h.memory.config h.memory.blocks).outcome = .ok commands) :
    ∃ d, compile l h = .ok commands ⟨h.executor, d⟩ := by
  obtain ⟨ds, hrun⟩ := (Compilation.outcome_ofBlocks_eq_ok h.memory.diagnostics).1 houtcome
  obtain ⟨d, hnotes⟩ := exists_noteAll l ds.sorted
    { h with memory := { h.memory with diagnostics := ds } }
  refine ⟨d, (run_bind_of_ok rfl).trans ?_⟩
  rw [hrun]
  exact (run_bind_of_ok rfl).trans (run_bind_of_ok hnotes)

variable {J : Desk R μ → Prop}

theorem minds_desk : Minds J (desk : Operation R (Desk R μ) (Desk R μ)) := fun _ h => h

theorem minds_change {f : Desk R μ → Desk R μ} (hf : ∀ d, J d → J (f d)) :
    Minds (R := R) J (change f) := fun _ h => hf _ h

end Controller

/-- What listeners keep of a desk a controller keeps that counts commands, if the count does not
matter. -/
theorem Observers.Mind.observing {l : Listeners R μ} {J : Desk R μ → Prop} (h : l.Mind J)
    (hcount : ∀ d count, J d → J { d with executedSteps := count }) :
    (Controller.observing l).Mind J where
  note := h.note
  stateChanged := h.stateChanged
  completed c := .bind (Controller.minds_change fun d hd => hcount d _ hd) fun _ => h.completed c

end RobotBlocks
