import RobotBlocks.Proofs.Simulation.Stability
import RobotBlocks.Proofs.Simulation.Ticks

/-!
# Transcripts

A transcript has a line for every request that is made of an executor and for every time its
observers are told something, in the order in which it happened, each with the executor as it stood.
Requests that observers make from inside a request have their lines, too, whatever the depth; so the
lines of nested requests stand among those of the request around them.

* `Request.ask o r` writes the line of a request and makes it with observers that write down what
  they are told before they do anything about it (`Observers.transcribed`).
* `Transcribing` is the class of operations that are built from such requests, whose observers are
  again of this kind, and of operations that touch neither the executor nor the transcript.
* `Attended o start host`: `host` has control after such requests of its, made from `start` on.

What holds of executor and transcript together is said once, as for executors alone: `Recounted I
Ready` lists every change that a request makes, with the line that it is shown in, and
`Attended.recounts` carries `I` along whatever requests there are.
-/

namespace RobotBlocks

variable {R μ α β : Type}

/-- A line of a transcript. -/
inductive Line (R : Type)
  /-- A request is made of the executor. -/
  | asked (r : Request R) (e : Executor R)
  /-- Observers are told something, and find the executor so. -/
  | told (event : Event R) (e : Executor R)

/-- What has happened, in the order in which it did. -/
abbrev Transcript (R : Type) := List (Line R)

/-- Observers are shown the robot. -/
def Line.shown (e : Executor R) : Line R := .told (.state e.robot) e

/-- A line in a transcript with one more line is that line, or stood there before. -/
theorem Transcript.line_cases {t before after : Transcript R} {line last : Line R}
    (h : t ++ [last] = before ++ line :: after) :
    (t = before ∧ last = line ∧ after = []) ∨
      ∃ after', after = after' ++ [last] ∧ t = before ++ line :: after' := by
  rcases List.eq_nil_or_concat after with rfl | ⟨after', final, rfl⟩
  · obtain ⟨rfl, hlast⟩ := List.append_inj' h rfl
    exact .inl ⟨rfl, List.singleton_injective hlast, rfl⟩
  · rw [List.concat_eq_append, ← List.cons_append, ← List.append_assoc] at h
    obtain ⟨rfl, hlast⟩ := List.append_inj' h rfl
    obtain rfl := List.singleton_injective hlast
    exact .inr ⟨after', List.concat_eq_append, rfl⟩

/-! ## Writing transcripts -/

/-- Writes a line about the executor as it is. -/
def writeDown (line : Executor R → Line R) : Operation R (μ × Transcript R) Unit :=
  modify fun h => { h with memory := (h.memory.1, h.memory.2 ++ [line h.executor]) }

/-- The observers that write down what they are told before they do anything about it. -/
def Observers.transcribed (o : Observers R (μ × Transcript R)) : Observers R (μ × Transcript R) where
  clock := o.clock
  note entry memory := ((o.note entry memory).1, memory.2)
  stateChanged s := do
    writeDown (.told (.state s))
    o.stateChanged s
  completed c := do
    writeDown (.told (.complete c))
    o.completed c

/-- Writes the line of a request and makes it. -/
def Request.ask [Scalar R] (o : Observers R (μ × Transcript R)) (r : Request R) :
    Operation R (μ × Transcript R) (Option R) := do
  writeDown (.asked r)
  r.make o.transcribed

/-- The host has the given executor and transcript. -/
def Standing (e : Executor R) (t : Transcript R) (h : Host R (μ × Transcript R)) : Prop :=
  h.executor = e ∧ h.memory.2 = t

/-- What holds of the executor and the transcript of a host. -/
def Noted (P : Executor R → Transcript R → Prop) (h : Host R (μ × Transcript R)) : Prop :=
  P h.executor h.memory.2

/-- Failures are left open. -/
def Anywhere (_ : Host R μ) : Prop := True

/-- The operation keeps what holds of executor and transcript. -/
def Recounts (I : Executor R → Transcript R → Prop) (m : Operation R (μ × Transcript R) α) : Prop :=
  Triple (Noted I) m (fun _ => Noted I) Anywhere

/-- The operation leaves executor and transcript as they are. -/
def Silent (m : Operation R (μ × Transcript R) α) : Prop :=
  ∀ e t, Triple (Standing e t) m (fun _ => Standing e t) (Standing e t)

section Classes

variable [Scalar R]

/-- The operation is built from requests that have their lines, whose observers are again of this
kind, and from operations that leave executor and transcript as they are. -/
inductive Transcribing : {α : Type} → Operation R (μ × Transcript R) α → Prop
  | silent {α : Type} {m : Operation R (μ × Transcript R) α} (h : Silent m) : Transcribing m
  | bind {α β : Type} {m : Operation R (μ × Transcript R) α}
    {f : α → Operation R (μ × Transcript R) β} (hm : Transcribing m)
    (hf : ∀ a, Transcribing (f a)) : Transcribing (m >>= f)
  | request {o : Observers R (μ × Transcript R)} {r : Request R}
    (hstate : ∀ s, Transcribing (o.stateChanged s))
    (hcompleted : ∀ c, Transcribing (o.completed c)) : Transcribing (r.ask o)

/-- What observers do is built from requests that have their lines. -/
structure Observers.Transcribe (o : Observers R (μ × Transcript R)) : Prop where
  stateChanged : ∀ s, Transcribing (o.stateChanged s)
  completed : ∀ c, Transcribing (o.completed c)

/-- The hosts that have control after requests of theirs, made from a start on, that all succeeded.
Between requests they may remember whatever they like, but leave the transcript alone. -/
inductive Attended (o : Observers R (μ × Transcript R)) (start : Host R (μ × Transcript R)) :
    Host R (μ × Transcript R) → Prop
  | start : Attended o start start
  | request {h h' : Host R (μ × Transcript R)} {r : Request R} {a : Option R}
    (before : Attended o start h) (hrun : r.ask o h = .ok a h') : Attended o start h'
  | remember {h : Host R (μ × Transcript R)} (before : Attended o start h) (memory : μ) :
    Attended o start { h with memory := (memory, h.memory.2) }

end Classes

/-! ## Operations at a known executor and transcript -/

namespace Transcript

open Executor (look change note now orFail emitState)

variable {e : Executor R} {t : Transcript R} {Q : α → Host R (μ × Transcript R) → Prop}
  {I : Executor R → Transcript R → Prop}

theorem look_at {k : Executor R → Operation R (μ × Transcript R) α}
    (h : Triple (Standing e t) (k e) Q Anywhere) :
    Triple (Standing e t) (look >>= k) Q Anywhere := by
  rintro x ⟨rfl, rfl⟩
  exact h x ⟨rfl, rfl⟩

theorem change_at {g : Executor R → Executor R} {k : Unit → Operation R (μ × Transcript R) α}
    (h : Triple (Standing (g e) t) (k ()) Q Anywhere) :
    Triple (Standing e t) (change g >>= k) Q Anywhere := by
  rintro x ⟨rfl, rfl⟩
  exact h _ ⟨rfl, rfl⟩

theorem changed_at {g : Executor R → Executor R} (h : I (g e) t) :
    Triple (Standing e t) (change g : Operation R (μ × Transcript R) Unit) (fun _ => Noted I)
      Anywhere := by
  rintro x ⟨rfl, rfl⟩
  exact h

theorem note_at {o : Observers R (μ × Transcript R)} {level : Log.Level} {message : Text}
    {k : Unit → Operation R (μ × Transcript R) α} (h : Triple (Standing e t) (k ()) Q Anywhere) :
    Triple (Standing e t) (note o.transcribed level message >>= k) Q Anywhere := by
  rintro x ⟨rfl, rfl⟩
  exact h _ ⟨rfl, rfl⟩

theorem now_at {o : Observers R (μ × Transcript R)} {k : R → Operation R (μ × Transcript R) α}
    (h : ∀ time, Triple (Standing e t) (k time) Q Anywhere) :
    Triple (Standing e t) (now o.transcribed >>= k) Q Anywhere := by
  rintro x ⟨rfl, rfl⟩
  exact h _ x ⟨rfl, rfl⟩

theorem orFail_at {γ : Type} {value : Except Fault γ} {k : γ → Operation R (μ × Transcript R) α}
    (h : ∀ c, value = .ok c → Triple (Standing e t) (k c) Q Anywhere) :
    Triple (Standing e t) (orFail value >>= k) Q Anywhere := by
  rcases value with fault | c
  · exact fun _ _ => trivial
  · exact h c rfl

theorem write_at {line : Executor R → Line R} {k : Unit → Operation R (μ × Transcript R) α}
    (h : Triple (Standing e (t ++ [line e])) (k ()) Q Anywhere) :
    Triple (Standing e t) (writeDown line >>= k) Q Anywhere := by
  rintro x ⟨rfl, rfl⟩
  exact h _ ⟨rfl, rfl⟩

theorem pure_at {a : α} (h : I e t) :
    Triple (Standing e t) (pure a : Operation R (μ × Transcript R) α) (fun _ => Noted I) Anywhere := by
  rintro x ⟨rfl, rfl⟩
  exact h

/-- What keeps an invariant keeps it from any executor and transcript on that have it. -/
theorem Recounts.at {m : Operation R (μ × Transcript R) α} (hm : Recounts I m) (h : I e t) :
    Triple (Standing e t) m (fun _ => Noted I) Anywhere := by
  rintro x ⟨rfl, rfl⟩
  exact hm x h

end Transcript

/-! ## Flights keep their numbers -/

namespace Executor

/-- The flight has been, and if the one in flight has its number it is that flight. -/
structure Remembers (f : Flight R) (e : Executor R) : Prop where
  been : f.number < e.flights
  same : ∀ g, e.flight = some g → g.number = f.number → g = f

theorem Remembers.congr {f : Flight R} {e e' : Executor R} (h : e.Remembers f)
    (hflights : e'.flights = e.flights) (hflight : e'.flight = e.flight ∨ e'.flight = none) :
    e'.Remembers f where
  been := hflights ▸ h.been
  same g hg := by
    rcases hflight with hsame | hnone
    · exact h.same g (hsame ▸ hg)
    · rw [hnone] at hg
      cases hg

variable [Scalar R]

/-- A new flight gets a number that no flight has had, so **every request remembers a flight**. -/
theorem stable_remembers (f : Flight R) :
    Stable (fun _ => True) (Remembers f) (Remembers f) (Remembers f) (fun _ => True) where
  fails _ _ := trivial
  load _ _ h := h.congr rfl (.inr rfl)
  resume _ h _ := h.congr rfl (.inl rfl)
  rest _ h _ := h.congr rfl (.inr rfl)
  launch e _ _ _ g h _ hg :=
    { been := h.been.trans (Nat.lt_succ_self _)
      same := by
        intro g' hg' hnumber
        cases hg'
        have hnew : g.number = e.flights := (setsOut_of_prepare hg).number_eq
        exact absurd h.been (by omega) }
  lost _ _ _ _ _ := trivial
  arrive _ _ _ h _ _ := h.congr rfl (.inl rfl)
  halt _ _ _ _ h _ _ := h.congr rfl (.inl rfl)
  rotate _ _ _ h _ := h.congr rfl (.inl rfl)
  land _ h := h.congr rfl (.inr rfl)
  proceed _ h _ _ := h
  yield _ h _ := h
  pause _ h _ := h.congr rfl (.inr rfl)
  stop _ h := h.congr rfl (.inr rfl)
  setSpeed _ _ h _ := h.congr rfl (.inl rfl)
  reset _ _ h := h.congr rfl (.inr rfl)
  setInitial _ _ _ _ h := h.congr rfl (.inr rfl)
  setObstacles _ _ _ h := h.congr rfl (.inl rfl)
  setAgentSize _ _ _ h := h.congr rfl (.inl rfl)

/-- There has been no flight of a new executor. -/
theorem flight_start {c : Config R} {obstacles : List (Obstacle R)} {e : Executor R}
    (h : Executor.start c obstacles = .ok e) : e.flight = none ∧ e.flights = 0 := by
  obtain ⟨agent, -, rfl⟩ := Outcome.map_eq_ok.1 h
  exact ⟨rfl, rfl⟩

end Executor

section Remembering

open Executor

/-- Writing a line leaves the executor alone. -/
theorem quiet_writeDown (line : Executor R → Line R) :
    Quiet (writeDown line : Operation R (μ × Transcript R) Unit) := fun _ _ h => h

variable [Scalar R]

/-- Operations that write transcripts are built from requests. -/
theorem Transcribing.calling {m : Operation R (μ × Transcript R) α} (h : Transcribing m) :
    Calling (fun _ => True) m := by
  induction h with
  | silent h =>
    refine .quiet fun e x hx => ?_
    have := h e x.memory.2 x ⟨hx, rfl⟩
    split at this
    · exact this.1
    · exact this.1
  | bind _ _ ihm ihf => exact .bind ihm ihf
  | request _ _ ihstate ihcompleted =>
    exact .bind (.quiet (quiet_writeDown _)) fun _ => .request trivial
      (fun s => .bind (.quiet (quiet_writeDown _)) fun _ => ihstate s)
      fun c => .bind (.quiet (quiet_writeDown _)) fun _ => ihcompleted c

/-- Whatever is built from requests remembers a flight. -/
theorem Transcribing.remembers {m : Operation R (μ × Transcript R) α} (h : Transcribing m)
    (f : Flight R) : Keeps (Remembers f) (fun _ => True) m :=
  h.calling.keeps (fun _ _ => trivial) fun _ _ _ _ ho =>
    (stable_remembers f).keeps_request ho ho.completed trivial

end Remembering

/-! ## Invariants of executor and transcript -/

/-- The requests that drop the command in flight, if there is one. -/
def Request.Drops : Request R → Prop
  | .execute _ | .pause | .stop | .reset | .setInitial .. => True
  | .tick _ | .resume | .setSpeed _ | .setSpeedData _ | .setObstacles _ | .setAgentSize _ => False

/-- The executor halted in place. -/
def Executor.suspended (e : Executor R) : Executor R :=
  { e.still with phase := .paused, flight := none }

/-- The executor that goes on after a pause. -/
def Executor.resumed (e : Executor R) : Executor R := { e with phase := .running }

/-- **The changes that requests make, with the lines that they are written in**, and what they keep:
`I` holds whenever somebody has control, and `Ready` when the next command is about to be started.
-/
structure Recounted [Scalar R] (I Ready : Executor R → Transcript R → Prop) : Prop where
  been : ∀ e t f, I e t → e.flight = some f → f.number < e.flights
  ask : ∀ r e t, ¬ r.Drops → I e t → I e (t ++ [.asked r e])
  load : ∀ items commands e t, I e t → Ready (e.loaded commands) (t ++ [.asked (.execute items) e])
  resume : ∀ e t, I e t → e.phase = .paused → Ready e.resumed t
  rest : ∀ e t, Ready e t → e.queue = [] → I e.finished (t ++ [.shown e.finished])
  launch : ∀ e t c rest time f, Ready e t → e.queue = c :: rest →
    ({ e with queue := rest }).prepare c time = .ok f →
    I (e.launched rest f) (t ++ [.shown (e.launched rest f)])
  move : ∀ e t f p, I e t → e.flight = some f → I (e.moved p) (t ++ [.shown (e.moved p)])
  turn : ∀ e t f heading, I e t → e.flight = some f →
    I (e.turned heading) (t ++ [.shown (e.turned heading)])
  land : ∀ e t f, I e t → e.flight = some f →
    I e.landed (t ++ [.told (.complete f.command) e.landed])
  proceed : ∀ e t, I e t → e.phase = .running → e.flight = none → Ready e t
  pause : ∀ e t, I e t → e.phase = .running →
    I e.suspended (t ++ [.asked .pause e] ++ [.shown e.suspended])
  /-- Only what runs can be halted. -/
  passOver : ∀ e t, I e t → e.phase ≠ .running → I e (t ++ [.asked .pause e])
  stop : ∀ e t, I e t → I e.idle.still (t ++ [.asked .stop e] ++ [.shown e.idle.still])
  reset : ∀ e t, I e t → I e.restored (t ++ [.asked .reset e] ++ [.shown e.restored])
  setInitial : ∀ height heading e t, I e t →
    I (e.withInitial height heading).restored
      (t ++ [.asked (.setInitial height heading) e] ++ [.shown (e.withInitial height heading).restored])
  setSpeed : ∀ e t speed, I e t → I (e.paced speed) (t ++ [.shown (e.paced speed)])
  setScene : ∀ e t scene, I e t → I { e with scene } t

/-- What observers do keeps an invariant, and remembers flights. -/
structure Observers.Recount (o : Observers R (μ × Transcript R))
    (I : Executor R → Transcript R → Prop) : Prop where
  stateChanged : ∀ s, Recounts I (o.stateChanged s)
  completed : ∀ c, Recounts I (o.completed c)
  remembers : ∀ f s, Keeps (Executor.Remembers f) (fun _ => True) (o.stateChanged s)

namespace Recounted

open Executor (look change note now orFail emitState startNext advance rotate complete tick positionAt
  progressAt stopBefore commandsOf)

open Transcript

variable [Scalar R] {I Ready : Executor R → Transcript R → Prop} (h : Recounted I Ready)
  {o : Observers R (μ × Transcript R)} (ho : o.Recount I) {e : Executor R} {t : Transcript R}

/-! ### Parts of requests -/

section Showing

include ho

omit [Scalar R] in
/-- Showing the robot keeps the invariant, if it holds behind the line for it. -/
theorem shown_at (hI : I e (t ++ [.shown e])) :
    Triple (Standing e t) (emitState o.transcribed) (fun _ => Noted I) Anywhere :=
  look_at (write_at (Recounts.at (ho.stateChanged _) hI))

omit [Scalar R] in
theorem shown_bind_at {Q : α → Host R (μ × Transcript R) → Prop}
    {k : Unit → Operation R (μ × Transcript R) α} (hI : I e (t ++ [.shown e]))
    (hk : ∀ e t, I e t → Triple (Standing e t) (k ()) Q Anywhere) :
    Triple (Standing e t) (emitState o.transcribed >>= k) Q Anywhere :=
  .bind (shown_at ho hI) fun _ x hx => hk _ _ hx x ⟨rfl, rfl⟩

omit [Scalar R] in
/-- Showing the robot remembers the flight as well. -/
theorem shown_remembers_at {f : Flight R} (hI : I e (t ++ [.shown e])) (hf : e.Remembers f) :
    Triple (Standing e t) (emitState o.transcribed)
      (fun _ => Noted fun e' t' => I e' t' ∧ e'.Remembers f) Anywhere := by
  have hremembers : Keeps (Executor.Remembers f) (fun _ => True) (emitState o.transcribed) :=
    .emitState fun s => .bind ((quiet_writeDown _).keeps fun _ _ => trivial) fun _ =>
      ho.remembers f s
  refine .of_cases (fun x a x' hx hm => ⟨(shown_at ho hI).ok hx hm, ?_⟩) fun _ _ _ _ _ => trivial
  obtain ⟨rfl, rfl⟩ := hx
  exact hremembers.ok hf hm

end Showing

include h ho

/-- Starting the next command leads to the invariant, whether there is one or not. -/
theorem startNext_at (hready : Ready e t) (time : R) :
    Triple (Standing e t) (startNext o.transcribed time) (fun _ => Noted I) Anywhere := by
  refine look_at ?_
  split
  next hqueue => exact change_at (note_at (shown_at ho (h.rest e t hready hqueue)))
  next c rest hqueue =>
    exact change_at (look_at (orFail_at fun f hf =>
      change_at (shown_at ho (h.launch e t c rest time f hready hqueue hf))))

/-- Completing a flight keeps the invariant. -/
theorem complete_at {f : Flight R} (hI : I e t) (hf : e.flight = some f) (time : R) :
    Triple (Standing e t) (complete o.transcribed f time) (fun _ => Noted I) Anywhere := by
  have htold : Triple (Standing e.landed t) (o.transcribed.completed f.command) (fun _ => Noted I)
      Anywhere := write_at (Recounts.at (ho.completed _) (h.land e t f hI hf))
  refine change_at (.bind htold fun _ x hx => ?_)
  refine look_at (.ite (fun hrun => ?_) fun _ => pure_at hx) x ⟨rfl, rfl⟩
  simp only [Executor.isRunning, Bool.and_eq_true, beq_iff_eq, Option.isNone_iff_eq_none] at hrun
  exact startNext_at h ho (h.proceed _ _ hx hrun.1 hrun.2) time

/-- Moving along a flight keeps the invariant and remembers the flight. -/
theorem advance_at {f : Flight R} (hI : I e t) (hf : e.flight = some f) (hknown : e.Remembers f)
    (progress : R) :
    Triple (Standing e t) (advance o.transcribed f progress)
      (fun _ => Noted fun e' t' => I e' t' ∧ e'.Remembers f) Anywhere := by
  refine look_at (orFail_at fun contact? _ => ?_)
  cases contact? with
  | none =>
    exact change_at (.bind
      (shown_remembers_at ho (h.move e t f _ hI hf) (hknown.congr rfl (.inl rfl)))
      fun _ => .pure fun _ hx => hx)
  | some contact =>
    exact change_at (note_at (.bind
      (shown_remembers_at ho (h.move e t f _ hI hf) (hknown.congr rfl (.inl rfl)))
      fun _ => .pure fun _ hx => hx))

/-! ### Requests -/

/-- A tick keeps the invariant. What it completes is what is in flight then: the number of the
flight that it has followed is not given to another one. -/
theorem tick_at (hI : I e t) (time? : Option R) :
    Triple (Standing e t) (tick o.transcribed time?) (fun _ => Noted I) Anywhere := by
  refine look_at ?_
  split
  next f _ hf =>
    refine now_at fun now => ?_
    have hend : ∀ progress : R,
        Triple (Noted fun e' t' => I e' t' ∧ e'.Remembers f)
          (if Scalar.ofNat 1 ≤ progress then
            (look >>= fun e =>
              if e.isInFlight f then complete o.transcribed f (time?.getD now) else pure ())
            else pure ()) (fun _ => Noted I) Anywhere := by
      rintro progress x ⟨hx, hsame⟩
      refine (Triple.ite (fun _ => look_at (.ite (fun hflies => ?_) fun _ => pure_at hx)) fun _ =>
        pure_at hx : Triple (Standing x.executor x.memory.2) _ _ _) x ⟨rfl, rfl⟩
      rcases hflight : x.executor.flight with _ | g
      · simp [Executor.isInFlight, hflight] at hflies
      · simp only [Executor.isInFlight, hflight, beq_iff_eq] at hflies
        obtain rfl := hsame.same g hflight hflies
        exact complete_at h ho hx hflight _
    have hremembers : e.Remembers f :=
      ⟨h.been e t f hI hf, fun g hg _ => Option.some.inj (hg.symm.trans hf)⟩
    refine .ite (fun _ => .bind (advance_at h ho hI hf hremembers _) hend) fun _ =>
      .ite (fun _ => ?_) fun _ => .bind (.pure fun x hx => ?_) hend
    · exact .bind (change_at (shown_remembers_at ho (h.turn e t f _ hI hf)
        (hremembers.congr rfl (.inl rfl)))) fun _ => .bind (.pure fun _ hx => hx) hend
    · obtain ⟨rfl, rfl⟩ := hx
      exact ⟨hI, hremembers⟩
  · exact pure_at hI

theorem execute_at {items : List (Submission R)}
    (hready : ∀ commands, Ready (e.loaded commands) t) :
    Triple (Standing e t) (Executor.execute o.transcribed items) (fun _ => Noted I) Anywhere := by
  refine orFail_at fun commands _ => look_at ?_
  have hrun : Triple (Standing e t)
      (do
        change fun e => { e with queue := commands, flight := none, phase := .running }
        note o.transcribed .info ("Executing " ++ natText commands.length ++ " commands at speed " ++
          Float.generalText (Scalar.toFloat (← look).speed))
        startNext o.transcribed (← now o.transcribed)) (fun _ => Noted I) Anywhere :=
    change_at (look_at (note_at (now_at fun time => startNext_at h ho (hready commands) time)))
  exact .ite (fun _ => note_at hrun) fun _ => hrun

theorem resume_at (hI : I e t) :
    Triple (Standing e t) (Executor.resume o.transcribed) (fun _ => Noted I) Anywhere := by
  refine look_at (.ite (fun hpaused => ?_) fun _ => pure_at hI)
  exact change_at (note_at (now_at fun time =>
    startNext_at h ho (h.resume e t hI (by simpa using hpaused)) time))

theorem setSpeed_at (hI : I e t) (value : R) :
    Triple (Standing e t) (Executor.setSpeed o.transcribed value) (fun _ => Noted I) Anywhere := by
  refine .ite (fun _ => note_at (look_at (pure_at hI))) fun _ => look_at (change_at ?_)
  exact shown_bind_at ho (h.setSpeed e t _ hI) fun _ _ hx => look_at (pure_at hx)

theorem setSpeedData_at (hI : I e t) (value : Data) :
    Triple (Standing e t) (Executor.setSpeedData o.transcribed value) (fun _ => Noted I)
      Anywhere := by
  unfold Executor.setSpeedData
  split
  · exact setSpeed_at h ho hI _
  · exact fun _ _ => trivial
  · exact note_at (look_at (pure_at hI))

/-- **Every request keeps the invariant**, if its observers keep it. -/
theorem recounts_ask (r : Request R) : Recounts I (r.ask o) := by
  suffices hall : ∀ e t, I e t → Triple (Standing e t) (r.ask o) (fun _ => Noted I) Anywhere from
    fun x hx => hall _ _ hx x ⟨rfl, rfl⟩
  intro e t hI
  refine write_at ?_
  have hpure : ∀ {γ δ : Type} {m : Operation R (μ × Transcript R) γ} {e t} {f : γ → δ},
      Triple (Standing e t) m (fun _ => Noted I) Anywhere →
      Triple (Standing e t) (m >>= fun c => pure (f c)) (fun _ => Noted I) Anywhere := fun hm =>
    .bind hm fun _ => .pure fun _ hx => hx
  cases r with
  | execute items =>
    exact hpure (f := fun _ => none) (execute_at h ho fun commands => h.load items commands e t hI)
  | tick time? =>
    exact hpure (f := fun _ => none) (tick_at h ho (h.ask _ e t id hI) time?)
  | pause =>
    refine hpure (f := fun _ => none) (look_at (.ite (fun hrun => ?_) fun hrun => ?_))
    · exact change_at (look_at (note_at (shown_at ho
        (h.pause e t hI (by simpa [Executor.isRunning] using hrun)))))
    · exact pure_at (h.passOver e t hI (by simpa [Executor.isRunning] using hrun))
  | resume => exact hpure (f := fun _ => none) (resume_at h ho (h.ask _ e t id hI))
  | stop => exact hpure (f := fun _ => none) (change_at (shown_at ho (h.stop e t hI)))
  | reset => exact hpure (f := fun _ => none) (change_at (shown_at ho (h.reset e t hI)))
  | setInitial height heading =>
    exact hpure (f := fun _ => none)
      (change_at (change_at (shown_at ho (h.setInitial height heading e t hI))))
  | setSpeed value => exact hpure (f := some) (setSpeed_at h ho (h.ask _ e t id hI) value)
  | setSpeedData value => exact hpure (f := some) (setSpeedData_at h ho (h.ask _ e t id hI) value)
  | setObstacles obstacles =>
    exact hpure (f := fun _ => none) (changed_at (h.setScene _ _ _ (h.ask _ e t id hI)))
  | setAgentSize size =>
    exact hpure (f := fun _ => none)
      (orFail_at fun agent _ => changed_at (h.setScene _ _ _ (h.ask _ e t id hI)))

end Recounted

/-! ## Whatever requests there are -/

section Invariants

variable [Scalar R] {I Ready : Executor R → Transcript R → Prop}

/-- **An invariant that requests keep** is kept by whatever is built from requests. -/
theorem Transcribing.recounts {m : Operation R (μ × Transcript R) α} (hm : Transcribing m)
    (h : Recounted I Ready) : Recounts I m := by
  induction hm with
  | silent hsilent =>
    refine .of_cases (fun x a x' hx hrun => ?_) fun _ _ _ _ _ => trivial
    obtain ⟨hsame, htranscript⟩ := (hsilent x.executor x.memory.2).ok ⟨rfl, rfl⟩ hrun
    rw [Noted, hsame, htranscript]
    exact hx
  | bind _ _ ihm ihf => exact .bind ihm ihf
  | request hstate hcompleted ihstate ihcompleted =>
    exact h.recounts_ask ⟨ihstate, ihcompleted, fun f s => (hstate s).remembers f⟩ _

/-- **An invariant of executor and transcript holds whenever the host has control.** -/
theorem Attended.recounts {o : Observers R (μ × Transcript R)} {start host : Host R (μ × Transcript R)}
    (hhost : Attended o start host) (ho : o.Transcribe) (h : Recounted I Ready)
    (hstart : I start.executor start.memory.2) : I host.executor host.memory.2 := by
  induction hhost with
  | start => exact hstart
  | request _ hrun ih =>
    exact ((Transcribing.request ho.stateChanged ho.completed).recounts h).ok ih hrun
  | remember _ _ ih => exact ih

end Invariants

/-! ## An observer that interrupts -/

section Interrupting

/-- Observers that do nothing. -/
def bystanders : Observers ℚ (Unit × Transcript ℚ) :=
  ⟨fun _ => 0, fun _ memory => memory, fun _ => pure (), fun _ => pure ()⟩

/-- Makes a request if the transcript has the given length. -/
def interrupt (length : ℕ) (r : Request ℚ) : Operation ℚ (Unit × Transcript ℚ) Unit := do
  if (← get).memory.2.length = length then
    let _ ← r.ask bystanders

/-- Observers that make a request when they have written the line of the given number. -/
def interrupting (length : ℕ) (r : Request ℚ) : Observers ℚ (Unit × Transcript ℚ) :=
  { bystanders with
    stateChanged := fun _ => interrupt length r
    completed := fun _ => interrupt length r }

theorem transcribe_interrupting (length : ℕ) (r : Request ℚ) :
    (interrupting length r).Transcribe := by
  have hpure : ∀ {γ : Type} {a : γ},
      Transcribing (pure a : Operation ℚ (Unit × Transcript ℚ) γ) := .silent fun _ _ _ hx => hx
  have hinterrupt : Transcribing (interrupt length r) := by
    refine .bind (.silent fun _ _ _ hx => hx) fun h => ?_
    split
    · exact .bind (.request (fun _ => hpure) fun _ => hpure) fun _ => hpure
    · exact hpure
  exact ⟨fun _ => hinterrupt, fun _ => hinterrupt⟩

end Interrupting

end RobotBlocks
