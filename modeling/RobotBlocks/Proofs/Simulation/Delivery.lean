import Mathlib.Data.List.Basic
import RobotBlocks.Proofs.Number.Exact
import RobotBlocks.Proofs.Outcome
import RobotBlocks.Proofs.Simulation.Chronicle

/-!
# No command is lost, repeated or moved

Commands that an executor is to carry out leave it one after the other, in the order in which they
were handed in. Between leaving and waiting there is at most the command in flight. So at every
moment the commands handed in are those that have left, the one in flight and the queue
(`commands_accounted`); who stands at such a moment may be the host or an observer.

* `Performance o commands entries host` is a run: the commands are handed in, and then the host
  makes requests that neither replace nor abandon them. The chronicle of the run is `entries`.
* `Accounts ahead entries rest` says that the chronicle leads from the commands that were ahead to
  those that are left: whatever leaves was the first of them, and whoever looks sees those that are
  left.
* Each part of a request keeps the account (`accounted_startNext`, `accounted_tick` and so on). A
  pause is entered by the host, since no observer is told what it drops.
-/

namespace RobotBlocks

namespace Executor

variable {R μ : Type}

/-- The commands that the executor has still to complete: the one in flight and those behind it. -/
def ahead (e : Executor R) : List (Command R) := e.current?.toList ++ e.queue

theorem ahead_of_some {e : Executor R} {f : Flight R} (h : e.flight = some f) :
    e.ahead = f.command :: e.queue := by
  simp [ahead, current?, h]

theorem ahead_of_none {e : Executor R} (h : e.flight = none) : e.ahead = e.queue := by
  simp [ahead, current?, h]

/-- The entries lead from the commands that are ahead to the rest of them: each command that leaves
is the first one, and the executor is seen with those that are left. -/
def Accounts : (ahead : List (Command R)) → List (Entry R) → (rest : List (Command R)) → Prop
  | commands, [], rest => commands = rest
  | commands, .seen e :: entries, rest => e.ahead = commands ∧ Accounts commands entries rest
  | commands, .reported c :: entries, rest | commands, .dropped c :: entries, rest =>
    ∃ others, commands = c :: others ∧ Accounts others entries rest

theorem accounts_append {commands rest : List (Command R)} {entries more : List (Entry R)} :
    Accounts commands (entries ++ more) rest ↔
      ∃ between, Accounts commands entries between ∧ Accounts between more rest := by
  induction entries generalizing commands with
  | nil => simp [Accounts]
  | cons entry entries ih =>
    cases entry with
    | seen e => simp [Accounts, ih, and_assoc]
    | reported c | dropped c =>
      simp only [List.cons_append, Accounts, ih]
      constructor
      · rintro ⟨others, hothers, between, hentries, hmore⟩
        exact ⟨between, ⟨others, hothers, hentries⟩, hmore⟩
      · rintro ⟨between, ⟨others, hothers, hentries⟩, hmore⟩
        exact ⟨others, hothers, between, hentries, hmore⟩

/-- **What an account says**: the commands ahead are those that have left, in the order in which
they left, and the rest. -/
theorem Accounts.eq_append {commands rest : List (Command R)} {entries : List (Entry R)}
    (h : Accounts commands entries rest) : commands = entries.filterMap Entry.left? ++ rest := by
  induction entries generalizing commands with
  | nil => simpa [Accounts] using h
  | cons entry entries ih =>
    cases entry with
    | seen e =>
      rw [List.filterMap_cons_none rfl]
      exact ih h.2
    | reported c | dropped c =>
      obtain ⟨others, rfl, h⟩ := h
      simp [Entry.left?, ← ih h]

/-- The commands ahead of an executor that is seen are those that have not left before. -/
theorem Accounts.seen {commands rest : List (Command R)} {before after : List (Entry R)}
    {e : Executor R} (h : Accounts commands (before ++ .seen e :: after) rest) :
    commands = before.filterMap Entry.left? ++ e.ahead := by
  obtain ⟨between, hbefore, hseen, -⟩ := accounts_append.1 h
  rw [hseen]
  exact hbefore.eq_append

/-- If nothing is dropped, whatever has left was reported. -/
theorem filterMap_left?_eq {entries : List (Entry R)} (h : ∀ c, .dropped c ∉ entries) :
    entries.filterMap Entry.left? = entries.filterMap Entry.reported? := by
  apply List.filterMap_congr
  intro entry hentry
  cases entry with
  | seen e => rfl
  | reported c => rfl
  | dropped c => exact absurd hentry (h c)

/-- A flight is for the command that it was prepared for. -/
theorem command_of_prepare [Scalar R] {e : Executor R} {c : Command R} {time : R} {f : Flight R}
    (h : e.prepare c time = .ok f) : f.command = c := by
  simp only [prepare, bind, Except.bind, throw, throwThe, MonadExceptOf.throw, pure, Except.pure]
    at h
  split at h
  · cases h
  · split at h
    case h_1 | h_2 =>
      split at h
      · cases h
      · split at h
        · cases h
        · cases h
          rfl
    all_goals
      cases h
      rfl

/-- What is handed in as commands is taken as those commands. -/
theorem commandsOf_map (commands : List (Command R)) :
    commandsOf (commands.map .command) = .ok commands := by
  induction commands with
  | nil => rfl
  | cons c commands ih => rw [List.map_cons, commandsOf, ih, Except.map]

/-! ## Accounts of operations -/

/-- A command is in flight only while the executor runs, and at rest no command is left. -/
structure Orderly (e : Executor R) : Prop where
  running : e.flight.isSome → e.phase = .running
  idle : e.phase = .idle → e.queue = []

/-- What holds of the executor and the chronicle of a host. -/
def Upon (P : Executor R → List (Entry R) → Prop) (h : Host R (μ × List (Entry R))) : Prop :=
  P h.executor h.memory.2

/-- The chronicle leads from the given commands to those that are ahead. -/
def Accounted (commands : List (Command R)) (e : Executor R) (entries : List (Entry R)) : Prop :=
  e.Orderly ∧ Accounts commands entries e.ahead

/-- The executor runs with nothing in flight, and the chronicle leads to its queue. -/
def Prepared (commands : List (Command R)) (e : Executor R) (entries : List (Entry R)) : Prop :=
  e.phase = .running ∧ e.flight = none ∧ Accounts commands entries e.queue

/-- A command has left the executor and has still to be entered as reported. -/
def Landed (commands : List (Command R)) (c : Command R) (e : Executor R)
    (entries : List (Entry R)) : Prop :=
  e.phase = .running ∧ e.flight = none ∧ Accounts commands entries (c :: e.queue)

/-- The command in flight, of which an account is kept. -/
def InFlight (commands : List (Command R)) (f : Flight R) (e : Executor R)
    (entries : List (Entry R)) : Prop :=
  e.flight = some f ∧ Accounted commands e entries

theorem Accounted.enterSeen {commands : List (Command R)} {e : Executor R}
    {entries : List (Entry R)} (h : Accounted commands e entries) :
    Accounted commands e (entries ++ [.seen e]) :=
  ⟨h.1, accounts_append.2 ⟨e.ahead, h.2, rfl, rfl⟩⟩

/-- Reporting a command that has landed makes the executor ready for the next one. -/
theorem Landed.enter {commands : List (Command R)} {c : Command R} {e : Executor R}
    {entries : List (Entry R)} (h : Landed commands c e entries) :
    Prepared commands e (entries ++ [.reported c] ++ [.seen e]) := by
  refine ⟨h.1, h.2.1, accounts_append.2 ⟨e.queue, accounts_append.2 ⟨_, h.2.2, _, rfl, rfl⟩, ?_, rfl⟩⟩
  exact ahead_of_none h.2.1

/-- Changes that leave phase, flight and queue alone keep the account. -/
theorem Accounted.congr {commands : List (Command R)} {e e' : Executor R} {entries : List (Entry R)}
    (h : Accounted commands e entries) (hphase : e'.phase = e.phase) (hflight : e'.flight = e.flight)
    (hqueue : e'.queue = e.queue) : Accounted commands e' entries := by
  have hahead : e'.ahead = e.ahead := by rw [ahead, ahead, current?, current?, hflight, hqueue]
  refine ⟨⟨?_, ?_⟩, ?_⟩
  · rw [hflight, hphase]
    exact h.1.running
  · rw [hphase, hqueue]
    exact h.1.idle
  · rw [hahead]
    exact h.2

end Executor

/-- What observers do leaves the executor alone. -/
structure Observers.Passive {R μ : Type} (o : Observers R μ) : Prop where
  stateChanged : ∀ s, Quiet (o.stateChanged s)
  completed : ∀ c, Quiet (o.completed c)

namespace Executor

variable {R μ α : Type} {P Q : Executor R → List (Entry R) → Prop}
  {E : Host R (μ × List (Entry R)) → Prop}

/-- Operations that leave the executor alone leave executor and chronicle alone. -/
theorem upon_beside {m : Operation R μ α} (h : Quiet m) :
    Triple (Upon P) (beside m) (fun _ => Upon P) (fun _ => True) := by
  refine .of_cases (fun x a x' hx hm => ?_) fun _ _ _ _ _ => trivial
  unfold beside at hm
  rcases hrun : m ⟨x.executor, x.memory.1⟩ with ⟨b, h'⟩ | ⟨fault, h'⟩
  · rw [hrun] at hm
    obtain ⟨rfl, rfl⟩ : b = a ∧ h'.withChronicle x.memory.2 = x' := by
      simpa [withChronicle] using hm
    have hsame : h'.executor = x.executor :=
      (h x.executor).ok (x := ⟨x.executor, x.memory.1⟩) rfl hrun
    change P h'.executor x.memory.2
    rw [hsame]
    exact hx
  · rw [hrun] at hm
    cases hm

theorem upon_note (o : Observers R μ) (level : Log.Level) (message : Text) :
    Triple (Upon P) (note o.recorded level message) (fun _ => Upon P) E := fun _ hx => hx

theorem upon_now (o : Observers R μ) : Triple (Upon P) (now o.recorded) (fun _ => Upon P) E :=
  fun _ hx => hx

/-- Looking keeps what holds. -/
theorem upon_peek : Triple (Upon P) (look : Operation R (μ × List (Entry R)) (Executor R))
    (fun _ => Upon P) E := fun _ hx => hx

/-- The executor that is looked at is the one that stands. -/
theorem upon_look : Triple (Upon P) (look : Operation R (μ × List (Entry R)) (Executor R))
    (fun e => Upon fun e' entries => e' = e ∧ P e' entries) E := fun _ hx => ⟨rfl, hx⟩

variable {o : Observers R μ} (ho : o.Passive)
include ho

/-- The executor that observers are shown is entered. -/
theorem upon_emitState (h : ∀ e entries, P e entries → Q e (entries ++ [.seen e])) :
    Triple (Upon P) (emitState o.recorded) (fun _ => Upon Q) (fun _ => True) := by
  refine .bind upon_look fun e => .bind (Q := fun _ => Upon Q) ?_ fun _ =>
    upon_beside (ho.stateChanged _)
  rintro x ⟨rfl, hx⟩
  exact h _ _ hx

/-- A command that is reported is entered, and then the executor as it is. -/
theorem upon_completed {c : Command R}
    (h : ∀ e entries, P e entries → Q e (entries ++ [.reported c] ++ [.seen e])) :
    Triple (Upon P) (o.recorded.completed c) (fun _ => Upon Q) (fun _ => True) := by
  refine .bind (Q := fun _ => Upon fun e entries => Q e (entries ++ [.seen e])) ?_ fun _ =>
    .bind (Q := fun _ => Upon Q) ?_ fun _ => upon_beside (ho.completed c)
  · exact fun x hx => h _ _ hx
  · exact fun x hx => hx

variable {commands : List (Command R)}

/-- Showing the executor keeps the account. -/
theorem accounted_emitState : Triple (Upon (Accounted commands)) (emitState o.recorded)
    (fun _ => Upon (Accounted commands)) (fun _ => True) :=
  upon_emitState ho fun _ _ h => h.enterSeen

/-- Showing the executor leaves the command in flight. -/
theorem inFlight_emitState (f : Flight R) : Triple (Upon (InFlight commands f))
    (emitState o.recorded) (fun _ => Upon (InFlight commands f)) (fun _ => True) :=
  upon_emitState ho fun _ _ h => ⟨h.1, h.2.enterSeen⟩

/-- Once the command in flight is entered as dropped, pausing leaves the queue. -/
theorem accounted_pause :
    Triple (Upon fun e entries => e.Orderly ∧ Accounts commands entries e.queue) (pause o.recorded)
      (fun _ => Upon (Accounted commands)) (fun _ => True) := by
  refine .bind upon_look fun e => .ite (fun _ => ?_) fun hrun => .pure fun x hx => ?_
  · refine .bind (Q := fun _ => Upon (Accounted commands)) (.change fun x hx => ?_) fun _ =>
      .bind upon_peek fun _ =>
        .bind (upon_note o _ _) fun _ => accounted_emitState ho
    exact ⟨⟨by simp, by simp⟩, hx.2.2⟩
  · obtain ⟨rfl, horderly, haccounts⟩ := hx
    have hflight : x.executor.flight = none := by
      by_contra h
      exact hrun (by simp [isRunning, horderly.running (Option.isSome_iff_ne_none.2 h)])
    exact ⟨horderly, by rwa [ahead_of_none hflight]⟩

variable [Scalar R]

/-! ### Parts of requests -/

/-- Starting the next command puts the first one of the queue in flight. -/
theorem accounted_startNext (time : R) :
    Triple (Upon (Prepared commands)) (startNext o.recorded time)
      (fun _ => Upon (Accounted commands)) (fun _ => True) := by
  refine .bind upon_look fun e => ?_
  split
  next hqueue =>
    refine .bind (Q := fun _ => Upon (Accounted commands)) (.change fun x hx => ?_) fun _ =>
      .bind (upon_note o _ _) fun _ => accounted_emitState ho
    obtain ⟨rfl, hx⟩ := hx
    exact ⟨⟨by simp, fun _ => hqueue⟩, hx.2.2⟩
  next c rest hqueue =>
    have hpop : Triple (Upon fun e' entries => e' = e ∧ Prepared commands e' entries)
        (change fun e => { e with queue := rest } : Operation R (μ × List (Entry R)) Unit)
        (fun _ => Upon fun e' entries => e'.phase = .running ∧ e'.queue = rest ∧
          Accounts commands entries (c :: rest)) (fun _ => True) :=
      .change fun x ⟨hsame, hphase, _, haccounts⟩ => ⟨hphase, rfl, by
        rw [hsame, hqueue] at haccounts
        exact haccounts⟩
    refine .bind hpop fun _ => .bind upon_look fun e' => ?_
    refine .bind (Q := fun f => Upon fun e'' entries => f.command = c ∧ e''.phase = .running ∧
        e''.queue = rest ∧ Accounts commands entries (c :: rest))
      (.orFail (fun f hf x hx => ⟨?_, hx.2⟩) fun _ _ => trivial) fun f => ?_
    · exact command_of_prepare hf
    refine .bind (Q := fun _ => Upon (Accounted commands)) (.change fun x hx => ?_) fun _ =>
      accounted_emitState ho
    obtain ⟨rfl, hphase, rfl, haccounts⟩ := hx
    exact ⟨⟨fun _ => hphase, fun hidle => by simp [hphase] at hidle⟩, haccounts⟩

/-- Completing the command in flight reports it and starts the next one. -/
theorem accounted_complete (f : Flight R) (time : R) :
    Triple (Upon (InFlight commands f)) (complete o.recorded f time)
      (fun _ => Upon (Accounted commands)) (fun _ => True) := by
  refine .bind (Q := fun _ => Upon (Landed commands f.command)) (.change fun x hx => ?_) fun _ =>
    .bind (upon_completed ho fun _ _ h => h.enter) fun _ => .bind upon_look fun e => ?_
  · obtain ⟨hflight, horderly, haccounts⟩ := hx
    rw [ahead_of_some hflight] at haccounts
    exact ⟨horderly.running (by simp [hflight]), rfl, haccounts⟩
  · refine .ite (fun _ => ?_) fun hgap => .pure fun x hx => ?_
    · exact (accounted_startNext ho time).mono (fun _ hx => hx.2) fun _ _ hx => hx
    · obtain ⟨rfl, hphase, hflight, -⟩ := hx
      simp [isRunning, hphase, hflight] at hgap

/-- Moving along a flight leaves the command in flight, also if an obstacle ends the move. -/
theorem inFlight_advance (f : Flight R) (progress : R) :
    Triple (Upon (InFlight commands f)) (advance o.recorded f progress)
      (fun _ => Upon (InFlight commands f)) (fun _ => True) := by
  have hmove : ∀ change' : Executor R → Executor R,
      (∀ e, (change' e).phase = e.phase ∧ (change' e).flight = e.flight ∧
        (change' e).queue = e.queue) →
      Triple (Upon (InFlight commands f))
        (change change' : Operation R (μ × List (Entry R)) Unit)
        (fun _ => Upon (InFlight commands f)) (fun _ => True) := fun change' h =>
    .change fun x hx =>
      ⟨(h _).2.1.trans hx.1, hx.2.congr (h _).1 (h _).2.1 (h _).2.2⟩
  refine .bind upon_peek fun _ =>
    .bind (Q := fun _ => Upon (InFlight commands f)) (.orFail (fun _ _ _ hx => hx) fun _ _ => trivial)
      fun contact? => ?_
  cases contact? with
  | none =>
    exact .bind (hmove _ fun _ => ⟨rfl, rfl, rfl⟩) fun _ => .bind (inFlight_emitState ho f) fun _ =>
      .pure fun _ hx => hx
  | some contact =>
    exact .bind (hmove _ fun _ => ⟨rfl, rfl, rfl⟩) fun _ => .bind (upon_note o _ _) fun _ =>
      .bind (inFlight_emitState ho f) fun _ => .pure fun _ hx => hx

/-- Turning along a flight leaves the command in flight. -/
theorem inFlight_rotate (f : Flight R) (progress : R) :
    Triple (Upon (InFlight commands f)) (rotate o.recorded f progress)
      (fun _ => Upon (InFlight commands f)) (fun _ => True) :=
  .bind (Q := fun _ => Upon (InFlight commands f))
    (.change fun _ hx => ⟨hx.1, hx.2.congr rfl rfl rfl⟩) fun _ => inFlight_emitState ho f

/-! ### Requests -/

theorem accounted_tick (time? : Option R) : Triple (Upon (Accounted commands))
    (tick o.recorded time?) (fun _ => Upon (Accounted commands)) (fun _ => True) := by
  refine .bind upon_look fun e => ?_
  split
  next f _ hflight =>
    have hseen : Triple (Upon fun e' entries => e' = e ∧ Accounted commands e' entries)
        (now o.recorded) (fun _ => Upon (InFlight commands f)) (fun _ => True) :=
      fun x ⟨hsame, hx⟩ => ⟨by rw [hsame, hflight], hx⟩
    have hend : ∀ time progress : R, Triple (Upon (InFlight commands f))
        (if Scalar.ofNat 1 ≤ progress then
          (look >>= fun e => if e.isInFlight f then complete o.recorded f time else pure ())
          else pure ()) (fun _ => Upon (Accounted commands)) (fun _ => True) := fun time progress =>
      .ite (fun _ => .bind upon_peek fun _ =>
          .ite (fun _ => accounted_complete ho f time) fun _ => .pure fun _ hx => hx.2)
        fun _ => .pure fun _ hx => hx.2
    refine .bind hseen fun _ => .ite (fun _ => ?_) fun _ => .ite (fun _ => ?_) fun _ => ?_
    · exact .bind (inFlight_advance ho f _) fun _ => hend _ _
    · exact .bind (inFlight_rotate ho f _) fun _ =>
        .bind (Q := fun _ => Upon (InFlight commands f)) (.pure fun _ hx => hx) fun _ => hend _ _
    · exact .bind (Q := fun _ => Upon (InFlight commands f)) (.pure fun _ hx => hx) fun _ =>
        hend _ _
  · exact .pure fun _ hx => hx.2

theorem accounted_resume : Triple (Upon (Accounted commands)) (resume o.recorded)
    (fun _ => Upon (Accounted commands)) (fun _ => True) := by
  refine .bind upon_look fun e => .ite (fun hpaused => ?_) fun _ => .pure fun _ hx => hx.2
  refine .bind (Q := fun _ => Upon (Prepared commands)) (.change fun x hx => ?_) fun _ =>
    .bind (upon_note o _ _) fun _ => .bind (upon_now o) fun time => accounted_startNext ho time
  obtain ⟨rfl, horderly, haccounts⟩ := hx
  have hflight : x.executor.flight = none := by
    by_contra h
    simp [horderly.running (Option.isSome_iff_ne_none.2 h)] at hpaused
  exact ⟨rfl, hflight, by rwa [ahead_of_none hflight] at haccounts⟩

theorem accounted_setSpeed (value : R) : Triple (Upon (Accounted commands))
    (setSpeed o.recorded value) (fun _ => Upon (Accounted commands)) (fun _ => True) := by
  refine .ite (fun _ => ?_) fun _ => ?_
  · exact .bind (upon_note o _ _) fun _ => .bind upon_peek fun _ => .pure fun _ hx => hx
  · exact .bind upon_peek fun _ =>
      .bind (Q := fun _ => Upon (Accounted commands)) (.change fun _ hx => hx.congr rfl rfl rfl)
        fun _ => .bind (accounted_emitState ho) fun _ => .bind upon_peek fun _ => .pure fun _ hx => hx

theorem accounted_setSpeedData (value : Data) : Triple (Upon (Accounted commands))
    (setSpeedData o.recorded value) (fun _ => Upon (Accounted commands)) (fun _ => True) := by
  unfold setSpeedData
  split
  · exact accounted_setSpeed ho _
  · exact .throw fun _ _ => trivial
  · exact .bind (upon_note o _ _) fun _ =>
      .bind upon_peek fun _ => .pure fun _ hx => hx

/-- Handing in commands opens the account. -/
theorem accounted_execute :
    Triple (Upon fun _ entries => entries = []) (execute o.recorded (commands.map .command))
      (fun _ => Upon (Accounted commands)) (fun _ => True) := by
  have hrest : Triple (Upon fun _ entries => entries = [])
      (do
        change fun e => { e with queue := commands, flight := none, phase := .running }
        Executor.note o.recorded .info ("Executing " ++ natText commands.length ++
          " commands at speed " ++ Float.generalText (Scalar.toFloat (← look).speed))
        startNext o.recorded (← now o.recorded))
      (fun _ => Upon (Accounted commands)) (fun _ => True) := by
    refine .bind (Q := fun _ => Upon (Prepared commands)) (.change fun x hx => ?_) fun _ =>
      .bind upon_peek fun _ =>
        .bind (upon_note o _ _) fun _ => .bind (upon_now o) fun time => accounted_startNext ho time
    have hentries : x.memory.2 = [] := hx
    exact ⟨rfl, rfl, by rw [hentries]; rfl⟩
  unfold execute
  rw [commandsOf_map]
  simp only [orFail, pure_bind]
  exact .bind upon_peek fun _ => .ite (fun _ => .bind (upon_note o _ _) fun _ => hrest) fun _ => hrest

end Executor

/-! ## Performances -/

namespace Request

variable {R : Type}

/-- The requests that neither replace nor abandon the commands of an executor. -/
def Animates : Request R → Prop
  | .tick _ | .pause | .resume | .setSpeed _ | .setSpeedData _ | .setObstacles _ | .setAgentSize _ =>
    True
  | .execute _ | .stop | .reset | .setInitial .. => False

/-- The command in flight that a request drops without telling an observer: a pause does. -/
def dropped (r : Request R) (e : Executor R) : List (Entry R) :=
  match r with
  | .pause => e.current?.toList.map .dropped
  | _ => []

end Request

open Executor

variable {R μ : Type} [Scalar R] {o : Observers R μ} {commands : List (Command R)}

/-- The hosts that have control after commands were handed in and requests were made that animate
them, each with the chronicle until then. Between requests they may remember whatever they like. -/
inductive Performance (o : Observers R μ) (commands : List (Command R)) :
    List (Entry R) → Host R μ → Prop
  | launch {h h' : Host R μ} {a : Option R}
    (hrun : (Request.execute (commands.map .command)).make o h = .ok a h') :
    Performance o commands
      ((Request.execute (commands.map .command)).told o h ++ [.seen h'.executor]) h'
  | request {entries : List (Entry R)} {h h' : Host R μ} {r : Request R} {a : Option R}
    (before : Performance o commands entries h) (hr : r.Animates) (hrun : r.make o h = .ok a h') :
    Performance o commands
      (entries ++ (r.dropped h.executor ++ r.told o h) ++ [.seen h'.executor]) h'
  | remember {entries : List (Entry R)} {h : Host R μ} (before : Performance o commands entries h)
    (memory : μ) : Performance o commands entries { h with memory }

namespace Executor

/-- **Each request keeps the account**, once the command that it drops is entered. -/
theorem accounted_request (ho : o.Passive) {r : Request R} (hr : r.Animates) :
    Triple (Upon fun e entries => e.Orderly ∧
        ∃ rest, Accounts e.ahead (r.dropped e) rest ∧ Accounts commands entries rest)
      (r.make o.recorded) (fun _ => Upon (Accounted commands)) (fun _ => True) := by
  -- Requests other than a pause drop nothing.
  have hnothing : ∀ {e : Executor R} {entries : List (Entry R)}, (e.Orderly ∧
      ∃ rest, Accounts e.ahead [] rest ∧ Accounts commands entries rest) →
        Accounted commands e entries := by
    rintro e entries ⟨horderly, _, rfl, haccounts⟩
    exact ⟨horderly, haccounts⟩
  have hkeep : ∀ {m : Operation R (μ × List (Entry R)) (Option R)},
      Triple (Upon (Accounted commands)) m (fun _ => Upon (Accounted commands)) (fun _ => True) →
      Triple (Upon fun e entries => e.Orderly ∧
        ∃ rest, Accounts e.ahead [] rest ∧ Accounts commands entries rest) m
        (fun _ => Upon (Accounted commands)) (fun _ => True) := fun h =>
    h.mono (fun _ hx => hnothing hx) fun _ _ hx => hx
  have hpure : ∀ a : Option R, Triple (Upon (Accounted commands))
      (pure a : Operation R (μ × List (Entry R)) (Option R)) (fun _ => Upon (Accounted commands))
      (fun _ => True) := fun _ _ hx => hx
  cases r with
  | tick time? => exact hkeep (.bind (accounted_tick ho time?) fun _ => hpure _)
  | resume => exact hkeep (.bind (accounted_resume ho) fun _ => hpure _)
  | setSpeed value => exact hkeep (.bind (accounted_setSpeed ho value) fun _ => hpure _)
  | setSpeedData value => exact hkeep (.bind (accounted_setSpeedData ho value) fun _ => hpure _)
  | setObstacles obstacles =>
    exact hkeep (.bind (Q := fun _ => Upon (Accounted commands))
      (.change fun _ hx => hx.congr rfl rfl rfl) fun _ => hpure _)
  | setAgentSize size =>
    exact hkeep (.bind (Q := fun _ => Upon (Accounted commands))
      (.bind (Q := fun _ => Upon (Accounted commands)) (.orFail (fun _ _ _ hx => hx) fun _ _ => trivial)
        fun _ => .change fun _ hx => hx.congr rfl rfl rfl) fun _ => hpure _)
  | pause =>
    refine (Triple.bind (accounted_pause ho) fun _ => hpure _).mono (fun x hx => ?_) fun _ _ hx => hx
    obtain ⟨horderly, rest, hdropped, haccounts⟩ := hx
    suffices rest = x.executor.queue by
      subst this
      exact ⟨horderly, haccounts⟩
    rcases hflight : x.executor.flight with _ | f
    · simpa [Request.dropped, ahead, current?, hflight, Accounts, eq_comm] using hdropped
    · simpa [Request.dropped, ahead, current?, hflight, Accounts, eq_comm] using hdropped
  | execute | stop | reset | setInitial => exact hr.elim

omit [Scalar R] in
/-- What a pause drops is the command in flight, and no other request drops one. -/
theorem exists_accounts_dropped (r : Request R) (e : Executor R) :
    ∃ rest, Accounts e.ahead (r.dropped e) rest := by
  cases r with
  | pause =>
    rcases hflight : e.flight with _ | f
    · exact ⟨e.queue, by simp [Request.dropped, ahead, current?, hflight, Accounts]⟩
    · exact ⟨e.queue, by simp [Request.dropped, ahead, current?, hflight, Accounts]⟩
  | _ => exact ⟨e.ahead, rfl⟩

/-- **The account of a performance**: its chronicle leads from the commands handed in to those that
are ahead of the executor. -/
theorem accounted_performance (ho : o.Passive) {entries : List (Entry R)} {host : Host R μ}
    (h : Performance o commands entries host) : Accounted commands host.executor entries := by
  induction h with
  | @launch h h' a hrun =>
    have hrecorded := make_recorded o (.execute (commands.map .command)) h
    rw [hrun] at hrecorded
    have hexecute : Triple (Upon fun _ entries => entries = [])
        ((Request.execute (commands.map .command)).make o.recorded)
        (fun _ => Upon (Accounted commands)) (fun _ => True) :=
      .bind (accounted_execute ho) fun _ => fun _ hx => hx
    exact Accounted.enterSeen (hexecute.ok (x := h.withChronicle []) rfl hrecorded)
  | @request entries h h' r a before hr hrun ih =>
    have hrecorded := make_recorded o r h
    rw [hrun] at hrecorded
    obtain ⟨horderly, haccounts⟩ := ih
    obtain ⟨rest, hdropped⟩ := exists_accounts_dropped r h.executor
    have htold : Accounted rest h'.executor (r.told o h) :=
      (accounted_request ho hr).ok (x := h.withChronicle []) ⟨horderly, rest, hdropped, rfl⟩ hrecorded
    refine Accounted.enterSeen ⟨htold.1, accounts_append.2 ⟨_, haccounts, ?_⟩⟩
    exact accounts_append.2 ⟨rest, hdropped, htold.2⟩
  | remember _ _ ih => exact ih

/-- **No command is lost, repeated or moved.** Whenever an executor is seen, by its host or by an
observer, the commands that were handed in are those that have left it, reported or dropped in
flight, then the one in flight, then the queue, in this order. If none was dropped, an executor that
has come to rest has reported all of them in the order in which they were handed in. -/
theorem commands_accounted (ho : o.Passive) {entries : List (Entry R)} {host : Host R μ}
    (h : Performance o commands entries host) :
    (∀ before e after, entries = before ++ .seen e :: after →
      commands = before.filterMap Entry.left? ++ e.current?.toList ++ e.queue) ∧
    commands = entries.filterMap Entry.left? ++ host.executor.current?.toList ++
      host.executor.queue ∧
    ((∀ c, .dropped c ∉ entries) → host.executor.phase = .idle →
      entries.filterMap Entry.reported? = commands) := by
  obtain ⟨horderly, haccounts⟩ := accounted_performance ho h
  refine ⟨fun before e after hentries => ?_, ?_, fun hdropped hidle => ?_⟩
  · rw [hentries] at haccounts
    rw [List.append_assoc]
    exact haccounts.seen
  · rw [List.append_assoc]
    exact haccounts.eq_append
  · have hflight : host.executor.flight = none := by
      by_contra hflight
      have := horderly.running (Option.isSome_iff_ne_none.2 hflight)
      simp [hidle] at this
    have hall := haccounts.eq_append
    rw [ahead_of_none hflight, horderly.idle hidle, List.append_nil] at hall
    rw [hall, filterMap_left?_eq hdropped]

/-- Observers that look on. -/
def onlookers : Observers ℚ Unit :=
  ⟨fun _ => 0, fun _ memory => memory, fun _ => pure (), fun _ => pure ()⟩

/-- A command to wait so many seconds. -/
def waitFor (seconds : ℚ) : Command ℚ := ⟨.wait, seconds, 1000 * seconds, none⟩

/-- Of three commands the first is completed, the second dropped by a pause and the third still
waiting. -/
theorem commands_accounted_paused :
    ∃ entries host, Performance onlookers [waitFor 1, waitFor 2, waitFor 3] entries host ∧
      host.executor.queue = [waitFor 3] ∧ onlookers.Passive ∧
      (∀ before e after, entries = before ++ .seen e :: after →
        [waitFor 1, waitFor 2, waitFor 3] =
          before.filterMap Entry.left? ++ e.current?.toList ++ e.queue) ∧
      [waitFor 1, waitFor 2, waitFor 3] = entries.filterMap Entry.left? ++
        host.executor.current?.toList ++ host.executor.queue ∧
      ((∀ c, .dropped c ∉ entries) → host.executor.phase = .idle →
        entries.filterMap Entry.reported? = [waitFor 1, waitFor 2, waitFor 3]) := by
  have hpassive : onlookers.Passive := ⟨fun _ _ _ hx => hx, fun _ _ _ hx => hx⟩
  obtain ⟨e, hstart⟩ : ∃ e, Executor.start (Config.robot : Config ℚ) [] = .ok e := ⟨_, rfl⟩
  let commands := [waitFor 1, waitFor 2, waitFor 3]
  have hok : Outcome.returned
      ((Request.execute (commands.map .command)).make onlookers ⟨e, ()⟩) fun _ h =>
        Outcome.returned ((Request.tick (some 1000)).make onlookers h) fun _ h' =>
          Outcome.returned (Request.pause.make onlookers h') fun _ h'' =>
            decide (h''.executor.queue = [waitFor 3]) := by
    cases hstart
    decide +kernel
  obtain ⟨_, h, hexecute, hok⟩ := Outcome.returned_eq_true.1 hok
  obtain ⟨_, h', htick, hok⟩ := Outcome.returned_eq_true.1 hok
  obtain ⟨_, h'', hpause, hqueue⟩ := Outcome.returned_eq_true.1 hok
  have hperformance : Performance onlookers commands _ h'' :=
    .request (r := .pause) (.request (r := .tick _) (.launch hexecute) trivial htick) trivial hpause
  exact ⟨_, h'', hperformance, of_decide_eq_true hqueue, hpassive,
    commands_accounted hpassive hperformance⟩

end Executor

end RobotBlocks
