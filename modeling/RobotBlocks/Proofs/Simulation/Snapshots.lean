import RobotBlocks.Proofs.Simulation.Transcript

/-!
# What observers were shown last

Every request that changes the robot shows it to the observers behind the last change; so whoever
has control finds the robot as it was shown last (`shown_robot_is_current`), whatever requests
observers make in between: their requests show the robot, too.

The invariant is `Current`. It holds for the host and for the observers, also when they are told
that a command is complete; only while the next command is being started is it about to be renewed.
-/

namespace RobotBlocks

variable {R μ : Type}

/-- The state of the robot that a line shows. -/
def Line.shown? : Line R → Option (Robot R)
  | told (.state s) _ => some s
  | told (.complete _) _ | asked .. => none

namespace Transcript

/-- The state of the robot that was shown last, if any was. -/
def lastShown? (t : Transcript R) : Option (Robot R) := (t.filterMap Line.shown?).getLast?

@[simp] theorem lastShown?_shown (t : Transcript R) (e : Executor R) :
    lastShown? (t ++ [.shown e]) = some e.robot := by
  simp [lastShown?, List.filterMap_append, Line.shown?, Line.shown]

/-- A line that shows nothing leaves what was shown last. -/
theorem lastShown?_append {line : Line R} (h : line.shown? = none) (t : Transcript R) :
    lastShown? (t ++ [line]) = lastShown? t := by
  simp [lastShown?, List.filterMap_append, h]

/-- Whenever observers are told something, they find the robot as it was shown last. -/
def Truthful (t : Transcript R) : Prop :=
  ∀ before event e after, t = before ++ .told event e :: after →
    ∀ s, lastShown? (before ++ [.told event e]) = some s → s = e.robot

theorem Truthful.append {t : Transcript R} {line : Line R} (h : Truthful t)
    (hline : ∀ event e, line = .told event e → ∀ s, lastShown? (t ++ [line]) = some s →
      s = e.robot) :
    Truthful (t ++ [line]) := by
  intro before event e after hsplit
  rcases line_cases hsplit with ⟨rfl, rfl, rfl⟩ | ⟨after', rfl, rfl⟩
  · exact hline event e rfl
  · exact h before event e after' rfl

end Transcript

namespace Executor

open Transcript

/-- The robot is as it was shown last, and has been whenever observers were told something. -/
structure Current (e : Executor R) (t : Transcript R) : Prop where
  been : ∀ f, e.flight = some f → f.number < e.flights
  robot : ∀ s, lastShown? t = some s → s = e.robot
  truthful : Truthful t

namespace Current

variable {e e' : Executor R} {t : Transcript R}

/-- Showing the robot makes up for any change. -/
theorem shown (h : e.Current t) (hbeen : ∀ f, e'.flight = some f → f.number < e'.flights) :
    e'.Current (t ++ [.shown e']) where
  been := hbeen
  robot s hs := by
    exact Option.some.inj (hs.symm.trans (lastShown?_shown t e'))
  truthful := h.truthful.append fun event e hline s hs => by
    cases hline
    exact Option.some.inj (hs.symm.trans (lastShown?_shown t e'))

/-- A request changes nothing by being made. -/
theorem asked (h : e.Current t) (r : Request R) : e.Current (t ++ [.asked r e]) where
  been := h.been
  robot s hs := h.robot s (by rwa [lastShown?_append rfl] at hs)
  truthful := h.truthful.append fun _ _ hline => by cases hline

/-- Changes that leave the robot alone need not be shown. -/
theorem congr (h : e.Current t) (hrobot : e'.robot = e.robot)
    (hbeen : ∀ f, e'.flight = some f → f.number < e'.flights) : e'.Current t where
  been := hbeen
  robot := by
    rw [hrobot]
    exact h.robot
  truthful := h.truthful

theorem completed (h : e.Current t) (c : Command R) : e.Current (t ++ [.told (.complete c) e]) where
  been := h.been
  robot s hs := h.robot s (by rwa [lastShown?_append rfl] at hs)
  truthful := h.truthful.append fun event e' hline s hs => by
    cases hline
    exact h.robot s (by rwa [lastShown?_append rfl] at hs)

end Current

variable [Scalar R]

/-- **Every request keeps the robot as it was shown last.** -/
theorem recounted_current : Recounted (R := R) Current Current where
  been _ _ _ h := h.been _
  ask _ _ _ _ h := h.asked _
  load _ _ _ _ h := (h.asked _).congr rfl (by simp [loaded])
  resume _ _ h _ := h.congr rfl h.been
  rest _ _ h _ := h.shown (by simp [finished])
  launch e _ _ _ _ f h _ hf := h.shown fun g hg => by
    obtain rfl : f = g := Option.some.inj hg
    rw [(setsOut_of_prepare hf).number_eq]
    exact Nat.lt_succ_self _
  move _ _ _ _ h _ := h.shown h.been
  turn _ _ _ _ h _ := h.shown h.been
  land e _ f h _ := by
    have hlanded : e.landed.Current _ := h.congr rfl (by simp [landed])
    exact hlanded.completed _
  proceed _ _ h _ _ := h
  pause _ _ h _ := (h.asked _).shown (by simp [suspended])
  passOver _ _ h _ := h.asked _
  stop _ _ h := (h.asked _).shown (by simp [idle, still])
  reset _ _ h := (h.asked _).shown (by simp [restored, idle])
  setInitial _ _ _ _ h := (h.asked _).shown (by simp [restored, idle])
  setSpeed _ _ _ h := h.shown h.been
  setScene _ _ _ h := h.congr rfl h.been

/-! ## Main result -/

/-- **Observers are never stale.** Whenever the host has control after requests that all succeeded,
the robot is as it was shown last, if it has been shown at all; and so it was whenever observers
were told something. This holds whatever requests observers made from inside these requests. -/
theorem shown_robot_is_current {c : Config R} {obstacles : List (Obstacle R)} {e : Executor R}
    {o : Observers R (μ × Transcript R)} {memory : μ} {host : Host R (μ × Transcript R)}
    (hstart : Executor.start c obstacles = .ok e) (ho : o.Transcribe)
    (h : Attended o ⟨e, memory, []⟩ host) :
    (∀ s, lastShown? host.memory.2 = some s → s = host.executor.robot) ∧
      ∀ before event e' after, host.memory.2 = before ++ .told event e' :: after →
        ∀ s, lastShown? (before ++ [.told event e']) = some s → s = e'.robot := by
  have hcurrent : host.executor.Current host.memory.2 := by
    refine h.recounts ho recounted_current ⟨?_, by simp [lastShown?], by simp [Truthful]⟩
    simp [(flight_start hstart).1]
  exact ⟨hcurrent.robot, hcurrent.truthful⟩

/-- A command to turn to the right. -/
def rightAngle : Command ℚ := ⟨.turnRight, 90, 800, none⟩

/-- A robot is halted by its observer from inside the tick that shows it half turned. -/
theorem shown_robot_is_current_halted :
    ∃ e host s, Executor.start (Config.robot : Config ℚ) [] = .ok e ∧
      (interrupting 4 .pause).Transcribe ∧
      Attended (interrupting 4 .pause) ⟨e, (), []⟩ host ∧ host.executor.phase = .paused ∧
      lastShown? host.memory.2 = some s ∧ s.moving = false ∧ s = host.executor.robot := by
  obtain ⟨e, hstart⟩ : ∃ e, Executor.start (Config.robot : Config ℚ) [] = .ok e := ⟨_, rfl⟩
  have ho := transcribe_interrupting 4 .pause
  have hok : Outcome.returned
      ((Request.execute [.command rightAngle]).ask (interrupting 4 .pause) ⟨e, (), []⟩) fun _ h =>
        Outcome.returned ((Request.tick (some 400)).ask (interrupting 4 .pause) h) fun _ h' =>
          (lastShown? h'.memory.2).any fun s =>
            decide (h'.executor.phase = .paused ∧ s.moving = false) := by
    cases hstart
    decide +kernel
  obtain ⟨_, h, hexecute, hok⟩ := Outcome.returned_eq_true.1 hok
  obtain ⟨_, h', htick, hok⟩ := Outcome.returned_eq_true.1 hok
  obtain ⟨s, hs, hok⟩ := (Option.any_eq_true _ _).1 hok
  obtain ⟨hpaused, hstill⟩ := of_decide_eq_true hok
  have hattended : Attended (interrupting 4 .pause) ⟨e, (), []⟩ h' :=
    .request (.request .start hexecute) htick
  exact ⟨e, h', s, hstart, ho, hattended, hpaused, hs, hstill,
    (shown_robot_is_current hstart ho hattended).1 s hs⟩

end Executor

end RobotBlocks
