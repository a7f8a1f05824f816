import RobotBlocks.Proofs.Simulation.Destination
import RobotBlocks.Proofs.Simulation.Memory

/-!
# What a request completes

The commands that observers are told to be complete while a request is made (`Request.completions`)
are those that have left the executor when it returns: none is dropped behind their backs
(`mind_recorded`), and each one that leaves is accounted for. So a tick completes what is no longer
ahead then (`ahead_tick`). `Ticked o log h h'` says what each of many ticks completes.
-/

namespace RobotBlocks

variable {R μ : Type} [Scalar R] {o : Observers R μ} {x x' : Host R μ}

/-- The commands that are reported as complete while a request is made. -/
def Request.completions (o : Observers R μ) (r : Request R) (h : Host R μ) : List (Command R) :=
  (r.told o h).filterMap Entry.reported?

/-! ## Reports and commands that leave -/

/-- Nothing in the chronicle beside a memory is about dropped commands. -/
def Undropped (memory : μ × List (Entry R)) : Prop := ∀ c, Entry.dropped c ∉ memory.2

omit [Scalar R] in
/-- Observers are not told of dropped commands. -/
theorem mind_recorded (o : Observers R μ) : o.recorded.Mind Undropped := by
  have henter : ∀ entry : Entry R, (∀ c, .dropped c ≠ entry) →
      Minds (Undropped (μ := μ)) (enter entry) := by
    intro entry hentry x hx c hc
    rcases List.mem_append.1 hc with hc | hc
    · exact hx c hc
    · exact hentry c (List.mem_singleton.1 hc)
  have hseen : Minds (Undropped (R := R) (μ := μ)) enterSeen :=
    .bind Executor.minds_look fun _ => henter _ (by simp)
  have hbeside : ∀ m : Operation R μ Unit, Minds Undropped (beside m) := by
    intro m x hx
    unfold beside
    rcases m ⟨x.executor, x.memory.1⟩ with ⟨_, x'⟩ | ⟨_, x'⟩
    · exact hx
    · exact hx
  refine ⟨fun _ _ hx => hx, fun s => hseen.bind fun _ => hbeside _, fun c => ?_⟩
  exact (henter (.reported c) (by simp)).bind fun _ => hseen.bind fun _ => hbeside _

namespace Executor

/-- Commands that are accounted for without any being dropped are those that were completed, and the
rest. -/
theorem completions_eq {r : Request R} {commands rest : List (Command R)}
    (hminds : Minds Undropped (r.make o.recorded)) (haccounts : Accounts commands (r.told o x) rest) :
    commands = r.completions o x ++ rest := by
  have hdropped : ∀ c, Entry.dropped c ∉ r.told o x := by
    have hmade := hminds (x.withChronicle []) (by simp [Of, Undropped, Host.withChronicle])
    unfold Request.told
    split at hmade <;> simp_all [Of, Undropped]
  rw [Request.completions, ← filterMap_left?_eq hdropped]
  exact haccounts.eq_append

/-! ## Requests -/

/-- **What a tick completes** is what is then no longer ahead. -/
theorem ahead_tick (ho : o.Passive) {time? : Option R} (h : x.executor.Orderly)
    (htick : tick o time? x = .ok () x') :
    x.executor.ahead = (Request.tick time?).completions o x ++ x'.executor.ahead := by
  have hmake : (Request.tick time?).make o x = .ok none x' := run_bind_of_ok htick
  have hrecorded := make_recorded o (.tick time?) x
  rw [hmake] at hrecorded
  have haccounted : Accounted x.executor.ahead x'.executor ((Request.tick time?).told o x) :=
    (accounted_request ho (r := .tick time?) trivial).ok (x := x.withChronicle [])
      ⟨h, x.executor.ahead, rfl, rfl⟩ hrecorded
  exact completions_eq (.bind (minds_tick (mind_recorded o) time?) fun _ => minds_pure _)
    haccounted.2

/-- Handing in commands completes those that are not ahead then. -/
theorem ahead_execute (ho : o.Passive) {commands : List (Command R)}
    (hexecute : execute o (commands.map .command) x = .ok () x') :
    commands = (Request.execute (commands.map .command)).completions o x ++ x'.executor.ahead := by
  have hmake : (Request.execute (commands.map .command)).make o x = .ok none x' :=
    run_bind_of_ok hexecute
  have hrecorded := make_recorded o (.execute (commands.map .command)) x
  rw [hmake] at hrecorded
  have haccounted : Triple (Upon fun _ entries => entries = [])
      ((Request.execute (commands.map .command)).make o.recorded)
      (fun _ => Upon (Accounted commands)) (fun _ => True) :=
    .bind (accounted_execute ho) fun _ _ hx => hx
  exact completions_eq (.bind (minds_execute (mind_recorded o) _) fun _ => minds_pure _)
    (haccounted.ok (x := x.withChronicle []) rfl hrecorded).2

/-! ## Ticks with their completions -/

/-- From one host to another ticks are made at the times of a log. They return, and each completes the
commands that the log has for it. -/
inductive Ticked (o : Observers R μ) : List (R × List (Command R)) → Host R μ → Host R μ → Prop
  | done {x : Host R μ} : Ticked o [] x x
  | tick {time : R} {log : List (R × List (Command R))} {x x' x'' : Host R μ}
    (htick : tick o (some time) x = .ok () x') (hrest : Ticked o log x' x'') :
    Ticked o ((time, (Request.tick (some time)).completions o x) :: log) x x''

theorem Ticked.append {log log' : List (R × List (Command R))} {x'' : Host R μ}
    (h : Ticked o log x x') (h' : Ticked o log' x' x'') : Ticked o (log ++ log') x x'' := by
  induction h with
  | done => exact h'
  | tick htick _ ih => exact .tick htick (ih h')

/-- Ticks are part of a run. -/
theorem Ticked.served {log : List (R × List (Command R))} {start : Host R μ}
    (h : Ticked o log x x') (before : Served Request.Times True o start x) :
    Served Request.Times True o start x' := by
  induction h with
  | done => exact before
  | @tick time _ _ _ _ htick _ ih =>
    exact ih (.request (r := .tick (some time)) before trivial (run_bind_of_ok htick))

end Executor

end RobotBlocks
