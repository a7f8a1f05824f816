import RobotBlocks.Proofs.Simulation.Transcript

/-!
# Each flight is reported at most once

A command that is taken from the queue sets out on a flight with a number of its own. Observers that
are told that a command is complete are not told of which flight; but they can know, since each
flight has been shown to them before: it is the one that was in flight when the last line was
written (`reports`).

`FlightHistory t x n` is the history of flights: behind the transcript `t`, the flight `x` is in
flight and can still be reported, and there have been `n` flights. It says what may follow on what:
a request that drops the flight leaves nothing to be reported, only the flight in the air is
reported, and that ends it. Every request keeps such a history (`recounted_flown`). From it, no
flight is reported twice, and none that has been dropped (`flights_reported_at_most_once`).
-/

namespace RobotBlocks

variable {R μ : Type}

namespace Line

/-- The executor as it stood when the line was written. -/
def executor : Line R → Executor R
  | asked _ e | told _ e => e

/-- The command that a line reports as complete. -/
def completed? : Line R → Option (Command R)
  | told (.complete c) _ => some c
  | told (.state _) _ | asked .. => none

end Line

namespace Transcript

/-- The commands that observers were told to be complete. -/
def completions (t : Transcript R) : List (Command R) := t.filterMap Line.completed?

/-- The flight in flight at the end of a transcript, in front of which the given one was. -/
def flightAfter (x : Option (Flight R)) : Transcript R → Option (Flight R)
  | [] => x
  | line :: t => flightAfter line.executor.flight t

/-- The flights that a transcript reports as complete, in front of which the given one was in
flight. A report is about what was in flight when the line before it was written. -/
def reportsFrom (x : Option (Flight R)) : Transcript R → List (Flight R)
  | [] => []
  | .told (.complete _) e :: t => x.toList ++ reportsFrom e.flight t
  | .told (.state _) e :: t | .asked _ e :: t => reportsFrom e.flight t

/-- The flights that a transcript reports as complete. -/
def reports (t : Transcript R) : List (Flight R) := reportsFrom none t

/-- The flight that a line reports as complete, if the given one was in flight before. -/
def reportOf (x : Option (Flight R)) (line : Line R) : List (Flight R) :=
  if line.completed?.isSome then x.toList else []

@[simp] theorem flightAfter_append (x : Option (Flight R)) (t : Transcript R) (line : Line R)
    (t' : Transcript R) :
    flightAfter x (t ++ line :: t') = flightAfter line.executor.flight t' := by
  induction t generalizing x with
  | nil => rfl
  | cons first t ih => exact ih _

theorem reportsFrom_append (x : Option (Flight R)) (t : Transcript R) (line : Line R) :
    reportsFrom x (t ++ [line]) = reportsFrom x t ++ reportOf (flightAfter x t) line := by
  induction t generalizing x with
  | nil =>
    rcases line with _ | ⟨_ | _, _⟩ <;>
      simp [reportsFrom, reportOf, flightAfter, Line.completed?]
  | cons first t ih =>
    rcases first with _ | ⟨_ | _, _⟩ <;>
      simp [reportsFrom, flightAfter, Line.executor, ih, List.append_assoc]

/-- A line that reports nothing leaves the reports as they are. -/
theorem reportsFrom_of_none {line : Line R} (h : line.completed? = none) (x : Option (Flight R))
    (t : Transcript R) : reportsFrom x (t ++ [line]) = reportsFrom x t := by
  simp [reportsFrom_append, reportOf, h]

/-- A report is about the flight that was in flight. -/
theorem reportsFrom_of_some {x : Option (Flight R)} {t : Transcript R} {f : Flight R}
    (h : flightAfter x t = some f) (c : Command R) (e : Executor R) :
    reportsFrom x (t ++ [.told (.complete c) e]) = reportsFrom x t ++ [f] := by
  simp [reportsFrom_append, reportOf, h, Line.completed?]

/-- **The history of flights.** Behind the transcript, the flight can still be reported, and there
have been so many flights. -/
inductive FlightHistory : Transcript R → Option (Flight R) → ℕ → Prop
  | nil : FlightHistory [] none 0
  /-- A request that drops nothing. -/
  | asked {t : Transcript R} {e : Executor R} {r : Request R}
    (h : FlightHistory t e.flight e.flights) (hr : ¬ r.Drops) :
    FlightHistory (t ++ [.asked r e]) e.flight e.flights
  /-- A request that drops what is in flight. -/
  | dropped {t : Transcript R} {e : Executor R} {r : Request R}
    (h : FlightHistory t e.flight e.flights) (hr : r.Drops) :
    FlightHistory (t ++ [.asked r e]) none e.flights
  | shown {t : Transcript R} {e : Executor R} {s : Robot R}
    (h : FlightHistory t e.flight e.flights) :
    FlightHistory (t ++ [.told (.state s) e]) e.flight e.flights
  /-- A command has set out on a flight of its own. -/
  | launched {t : Transcript R} {e : Executor R} {s : Robot R} {f : Flight R} {n : ℕ}
    (h : FlightHistory t none n) (hflight : e.flight = some f) (hnumber : f.number = n)
    (hflights : e.flights = n + 1) : FlightHistory (t ++ [.told (.state s) e]) (some f) (n + 1)
  | completed {t : Transcript R} {e : Executor R} {f : Flight R}
    (h : FlightHistory t (some f) e.flights) (hflight : e.flight = none) :
    FlightHistory (t ++ [.told (.complete f.command) e]) none e.flights

namespace FlightHistory

variable {t : Transcript R} {x : Option (Flight R)} {n : ℕ}

/-- What can be reported is in flight at the end. -/
theorem flightAfter_eq (h : FlightHistory t x n) :
    x = none ∨ ∀ before, flightAfter before t = x := by
  cases h with
  | nil | dropped | completed => exact .inl rfl
  | asked | shown => exact .inr fun before => flightAfter_append _ _ _ _
  | launched _ hflight => exact .inr fun before => (flightAfter_append _ _ _ _).trans hflight

/-- **Every report is about the flight in flight**, and observers are told its command. -/
theorem map_command_reports (h : FlightHistory t x n) :
    (reports t).map (·.command) = completions t := by
  induction h with
  | nil => rfl
  | asked _ _ ih | dropped _ _ ih | shown _ ih | launched _ _ _ _ ih =>
    rw [reports, reportsFrom_of_none rfl, ← reports, ih]
    simp [completions, Line.completed?]
  | completed h _ ih =>
    rw [reports, reportsFrom_of_some ((flightAfter_eq h).resolve_left (by simp) none), ← reports,
      List.map_append, ih]
    simp [completions, Line.completed?]

/-- The flights reported and the one that can be reported come in the order of their numbers. -/
structure Ordered (flights : List (Flight R)) (x : Option (Flight R)) (n : ℕ) : Prop where
  pairwise : flights.Pairwise fun f g => f.number < g.number
  reported : ∀ f ∈ flights, f.number < n
  current : ∀ g, x = some g → g.number < n ∧ ∀ f ∈ flights, f.number < g.number

/-- **Flights are reported in the order of their numbers.** -/
theorem ordered (h : FlightHistory t x n) : Ordered (reports t) x n := by
  induction h with
  | nil => exact ⟨.nil, by simp [reports, reportsFrom], by simp⟩
  | asked _ _ ih | shown _ ih =>
    rw [reports, reportsFrom_of_none rfl]
    exact ih
  | dropped _ _ ih =>
    rw [reports, reportsFrom_of_none rfl]
    exact ⟨ih.pairwise, ih.reported, by simp⟩
  | launched _ _ hnumber _ ih =>
    rw [reports, reportsFrom_of_none rfl]
    refine ⟨ih.pairwise, fun f hf => (ih.reported f hf).trans (Nat.lt_succ_self _), ?_⟩
    rintro g ⟨⟩
    rw [hnumber]
    exact ⟨Nat.lt_succ_self _, ih.reported⟩
  | @completed _ _ f h _ ih =>
    obtain ⟨hf, hbefore⟩ := ih.current f rfl
    rw [reports, reportsFrom_of_some ((flightAfter_eq h).resolve_left (by simp) none)]
    refine ⟨List.pairwise_append.2 ⟨ih.pairwise, List.pairwise_singleton _ _, ?_⟩, ?_, by simp⟩
    · exact fun g hg => by simpa using hbefore g hg
    · exact fun g hg => (List.mem_append.1 hg).elim (ih.reported g) fun hg => by
        rwa [List.mem_singleton.1 hg]

/-- The flights reported and the one that can be reported have numbers from the given one on. -/
structure Since (k : ℕ) (flights : List (Flight R)) (x : Option (Flight R)) (n : ℕ) : Prop where
  reported : ∀ f ∈ flights, k ≤ f.number
  current : ∀ f, x = some f → k ≤ f.number
  count : k ≤ n

/-- **What has been dropped is not reported**: after a request that drops what is in flight, only
flights are reported that have set out since. -/
theorem since (h : FlightHistory t x n) {before after : Transcript R} {r : Request R} {e : Executor R}
    (ht : t = before ++ .asked r e :: after) (hr : r.Drops) :
    Since e.flights (reportsFrom e.flight after) x n := by
  induction h generalizing after with
  | nil => simp at ht
  | asked _ hkeeps ih =>
    rcases line_cases ht with ⟨rfl, hline, rfl⟩ | ⟨after', rfl, rfl⟩
    · cases hline
      exact absurd hr hkeeps
    · rw [reportsFrom_of_none rfl]
      exact ih rfl
  | dropped _ _ ih =>
    rcases line_cases ht with ⟨rfl, hline, rfl⟩ | ⟨after', rfl, rfl⟩
    · cases hline
      exact ⟨by simp [reportsFrom], by simp, le_rfl⟩
    · rw [reportsFrom_of_none rfl]
      exact ⟨(ih rfl).reported, by simp, (ih rfl).count⟩
  | shown _ ih =>
    obtain ⟨-, hline, -⟩ | ⟨after', rfl, rfl⟩ := line_cases ht
    · cases hline
    · rw [reportsFrom_of_none rfl]
      exact ih rfl
  | launched _ _ hnumber _ ih =>
    obtain ⟨-, hline, -⟩ | ⟨after', rfl, rfl⟩ := line_cases ht
    · cases hline
    · rw [reportsFrom_of_none rfl]
      refine ⟨(ih rfl).reported, ?_, (ih rfl).count.trans (Nat.le_succ _)⟩
      rintro g ⟨⟩
      rw [hnumber]
      exact (ih rfl).count
  | @completed _ e' f h _ ih =>
    obtain ⟨-, hline, -⟩ | ⟨after', rfl, rfl⟩ := line_cases ht
    · cases hline
    · have hflight : flightAfter e.flight after' = some f :=
        (flightAfter_append none before _ after').symm.trans
          ((flightAfter_eq h).resolve_left (by simp) none)
      rw [reportsFrom_of_some hflight]
      refine ⟨fun g hg => ?_, by simp, (ih rfl).count⟩
      rcases List.mem_append.1 hg with hg | hg
      · exact (ih rfl).reported g hg
      · rw [List.mem_singleton.1 hg]
        exact (ih rfl).current f rfl

end FlightHistory

end Transcript

namespace Executor

open Transcript

/-- The transcript is a history of flights that ends with the executor as it is, and only what runs
has a flight. -/
structure Logged (e : Executor R) (t : Transcript R) : Prop where
  flown : FlightHistory t e.flight e.flights
  running : e.flight.isSome → e.phase = .running

/-- The executor runs, and the transcript is a history of flights behind which nothing can be
reported. -/
structure Cleared (e : Executor R) (t : Transcript R) : Prop where
  flown : FlightHistory t none e.flights
  running : e.phase = .running

/-- Only what runs has a flight. -/
theorem Logged.flight_eq_none {e : Executor R} {t : Transcript R} (h : e.Logged t)
    (hphase : e.phase ≠ .running) : e.flight = none := by
  rcases hflight : e.flight with _ | f
  · rfl
  · exact absurd (h.running (by simp [hflight])) hphase

variable [Scalar R]

/-- **Every request keeps the history of flights.** -/
theorem recounted_flown : Recounted (R := R) Logged Cleared where
  been e t f h hf := ((hf ▸ h.flown).ordered.current f rfl).1
  ask _ _ _ hr h := ⟨.asked h.flown hr, h.running⟩
  load _ _ _ _ h := ⟨.dropped h.flown trivial, rfl⟩
  resume e t h hphase := by
    have hflown := h.flown
    rw [h.flight_eq_none (by simp [hphase])] at hflown
    exact ⟨hflown, rfl⟩
  rest e t h _ := ⟨.shown (e := e.finished) h.flown, by simp [finished]⟩
  launch e t c rest time f h _ hf :=
    ⟨.launched h.flown rfl (setsOut_of_prepare hf).number_eq rfl, fun _ => h.running⟩
  move _ _ _ _ h _ := ⟨.shown h.flown, h.running⟩
  turn _ _ _ _ h _ := ⟨.shown h.flown, h.running⟩
  land e t f h hf := ⟨.completed (e := e.landed) (hf ▸ h.flown) rfl, by simp [landed]⟩
  proceed e t h hphase hflight := by
    have hflown := h.flown
    rw [hflight] at hflown
    exact ⟨hflown, hphase⟩
  pause e t h _ := ⟨.shown (e := e.suspended) (.dropped h.flown trivial), by simp [suspended]⟩
  passOver e t h hphase := by
    have hnone := h.flight_eq_none hphase
    refine ⟨?_, h.running⟩
    rw [hnone]
    exact .dropped h.flown trivial
  stop e t h := ⟨.shown (e := e.idle.still) (.dropped h.flown trivial), by simp [idle, still]⟩
  reset e t h := ⟨.shown (e := e.restored) (.dropped h.flown trivial), by simp [restored, idle]⟩
  setInitial height heading e t h :=
    ⟨.shown (e := (e.withInitial height heading).restored) (.dropped h.flown trivial),
      by simp [restored, idle]⟩
  setSpeed _ _ _ h := ⟨.shown h.flown, h.running⟩
  setScene _ _ _ h := ⟨h.flown, h.running⟩

/-! ## Main result -/

/-- **Each flight is reported at most once.** Whenever the host has control after requests that all
succeeded, the commands of which observers were told that they are complete are those of flights
that were in flight when they were told; these flights are different, and in the order in which they
set out; and after a request that replaces or drops the command in flight, only flights are reported
that have set out since. This holds whatever requests observers made from inside these requests. -/
theorem flights_reported_at_most_once {c : Config R} {obstacles : List (Obstacle R)} {e : Executor R}
    {o : Observers R (μ × Transcript R)} {memory : μ} {host : Host R (μ × Transcript R)}
    (hstart : Executor.start c obstacles = .ok e) (ho : o.Transcribe)
    (h : Attended o ⟨e, memory, []⟩ host) :
    (reports host.memory.2).map (·.command) = completions host.memory.2 ∧
      ((reports host.memory.2).Pairwise fun f g => f.number < g.number) ∧
      (∀ f ∈ reports host.memory.2, f.number < host.executor.flights) ∧
      ∀ before r e' after, host.memory.2 = before ++ .asked r e' :: after → r.Drops →
        ∀ f ∈ reportsFrom e'.flight after, e'.flights ≤ f.number := by
  have hflown : FlightHistory host.memory.2 host.executor.flight host.executor.flights := by
    refine (h.recounts ho recounted_flown ⟨?_, ?_⟩).flown
    · rw [(flight_start hstart).1, (flight_start hstart).2]
      exact .nil
    · simp [(flight_start hstart).1]
  exact ⟨hflown.map_command_reports, hflown.ordered.pairwise, hflown.ordered.reported,
    fun _ _ _ _ ht hr => (hflown.since ht hr).reported⟩

/-- Observers that tick from inside the tick in which they are shown the robot turned: the turn is
complete in the inner tick, and the outer one finds another flight. -/
theorem flights_reported_at_most_once_nested :
    ∃ e host, Executor.start (Config.robot : Config ℚ) [] = .ok e ∧
      (interrupting 4 (.tick (some 1000))).Transcribe ∧
      Attended (interrupting 4 (.tick (some 1000))) ⟨e, (), []⟩ host ∧
      completions host.memory.2 = [⟨.turnRight, 90, 800, none⟩] ∧ host.executor.flights = 2 ∧
      (reports host.memory.2).map (·.command) = completions host.memory.2 ∧
      ((reports host.memory.2).Pairwise fun f g => f.number < g.number) ∧
      (∀ f ∈ reports host.memory.2, f.number < host.executor.flights) ∧
      ∀ before r e' after, host.memory.2 = before ++ .asked r e' :: after → r.Drops →
        ∀ f ∈ reportsFrom e'.flight after, e'.flights ≤ f.number := by
  let turn : Command ℚ := ⟨.turnRight, 90, 800, none⟩
  obtain ⟨e, hstart⟩ : ∃ e, Executor.start (Config.robot : Config ℚ) [] = .ok e := ⟨_, rfl⟩
  have ho := transcribe_interrupting 4 (.tick (some 1000))
  have hok : Outcome.returned ((Request.execute [.command turn, .command turn]).ask
      (interrupting 4 (.tick (some 1000))) ⟨e, (), []⟩) fun _ h =>
        Outcome.returned ((Request.tick (some 1000)).ask
          (interrupting 4 (.tick (some 1000))) h) fun _ h' =>
            decide (completions h'.memory.2 = [turn] ∧ h'.executor.flights = 2) := by
    cases hstart
    decide +kernel
  obtain ⟨_, h, hexecute, hok⟩ := Outcome.returned_eq_true.1 hok
  obtain ⟨_, h', htick, hok⟩ := Outcome.returned_eq_true.1 hok
  obtain ⟨hcompletions, hflights⟩ := of_decide_eq_true hok
  have hattended : Attended (interrupting 4 (.tick (some 1000))) ⟨e, (), []⟩ h' :=
    .request (.request .start hexecute) htick
  exact ⟨e, h', hstart, ho, hattended, hcompletions, hflights,
    flights_reported_at_most_once hstart ho hattended⟩

end Executor

end RobotBlocks
