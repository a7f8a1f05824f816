import Mathlib.Data.List.Basic
import RobotBlocks.Proofs.Simulation.Requests

/-!
# Executors that count differently

An executor numbers its flights and tags its obstacles, and it counts on from what has been before.
Which numbers it uses does not show: an executor whose numbers and tags are shifted
(`Executor.renumbered`) does what the other one does, with shifted numbers.

* `Abreast P m m' Q E`: from hosts that are related by `P` the two operations come to the same, a
  result or a fault; the hosts behind them are related by `Q` or by `E`.
* `Paired k d T`: one executor is the other with its numbers shifted by `k` and its tags by `d`, and
  the memories are related by `T`.
* `Observers.Heed o T`: observers with memories so related do the same and leave the executor alone.

Each operation keeps such a pair in step (`abreast_tick`, `abreast_execute` and so on).
-/

namespace RobotBlocks

variable {R μ α β : Type}

/-! ## Shifted numbers -/

/-- The flight with its number and the tags that it ignores shifted. -/
def Flight.renumbered (k d : ℕ) (f : Flight R) : Flight R :=
  { f with number := k + f.number, ignored := f.ignored.map (· + d) }

/-- The scene with its tags shifted. -/
def Scene.retagged (d : ℕ) (s : Scene R) : Scene R := { s with firstTag := d + s.firstTag }

/-- The executor with the numbers of its flights and the tags of its obstacles shifted. -/
def Executor.renumbered (k d : ℕ) (e : Executor R) : Executor R :=
  { e with
    scene := e.scene.retagged d
    flight := e.flight.map (Flight.renumbered k d)
    flights := k + e.flights }

namespace Scene

variable (s : Scene R) (d : ℕ)

theorem tagged_retagged :
    (s.retagged d).tagged = s.tagged.map (Prod.map id (· + d)) := by
  rw [tagged, tagged, List.map_snd_add_zipIdx_eq_zipIdx]
  rfl

variable [Scalar R]

/-- Shifted tags are found where the tags themselves are. -/
theorem overlapping_retagged (p : Point R) :
    (s.retagged d).overlapping p = (s.overlapping p).map (List.map (· + d)) := by
  unfold overlapping
  rw [tagged_retagged]
  change (if s.obstacles.isEmpty then _ else s.agent.footprint "-" >>= _) = _
  split
  · rfl
  · rcases s.agent.footprint "-" with fault | f
    · rfl
    · change Except.ok _ = Except.ok _
      rw [List.filter_map, List.map_map, List.map_map]
      rfl

/-- A sweep with shifted tags to ignore is a sweep with those themselves. -/
theorem sweep_retagged (start finish : Point R) (ignored : List ℕ) :
    (s.retagged d).sweep start finish (ignored.map (· + d)) = s.sweep start finish ignored := by
  have hothers :
      ((s.retagged d).tagged.filter fun o => !(ignored.map (· + d)).contains o.2).map (·.1) =
      (s.tagged.filter fun o => !ignored.contains o.2).map (·.1) := by
    rw [tagged_retagged, List.filter_map, List.map_map]
    have hsame : ((fun o : Obstacle R × ℕ => !(ignored.map (· + d)).contains o.2) ∘
        Prod.map id (· + d)) = fun o => !ignored.contains o.2 := by
      funext o
      simp
    rw [hsame]
    rfl
  unfold sweep
  rw [hothers]
  rfl

end Scene

namespace Executor

variable {k d : ℕ} {e : Executor R} {f : Flight R}

/-- A flight is in flight if it is so under its shifted number. -/
theorem isInFlight_renumbered :
    (e.renumbered k d).isInFlight (f.renumbered k d) = e.isInFlight f := by
  unfold isInFlight
  rcases hflight : e.flight with _ | g
  · simp [renumbered, hflight]
  · simp [renumbered, hflight, Flight.renumbered]

/-- Under shifted numbers a command sets out on the flight on which it would set out, under its
shifted number. -/
theorem prepare_renumbered [Scalar R] (c : Command R) (time : R) :
    (e.renumbered k d).prepare c time = (e.prepare c time).map (Flight.renumbered k d) := by
  obtain ⟨movement, value, duration, source⟩ := c
  unfold prepare
  change (if e.speed == Scalar.ofNat 0 then _ else _ : Except Fault (Flight R)) = _
  split
  · rfl
  cases movement with
  | forward | backward =>
    dsimp only
    change (forwardOffset e.robot.heading _ >>= fun offset =>
      (e.scene.retagged d).overlapping e.robot.position >>= _ : Except Fault (Flight R)) = _
    have hconfig : (e.renumbered k d).config = e.config := rfl
    simp only [Scene.overlapping_retagged, hconfig]
    rcases forwardOffset e.robot.heading _ with fault | offset
    · rfl
    · rcases e.scene.overlapping e.robot.position with fault | ignored <;> rfl
  | turnRight | turnLeft | wait => rfl

end Executor

/-! ## Operations side by side -/

/-- The outcomes are the same: either the same result, with `Q` of the hosts behind it, or the same
fault, with `E` of the hosts. -/
inductive SameOutcome (Q : α → Host R μ → Host R μ → Prop) (E : Host R μ → Host R μ → Prop) :
    EStateM.Result Fault (Host R μ) α → EStateM.Result Fault (Host R μ) α → Prop
  | ok {a : α} {x x' : Host R μ} (h : Q a x x') : SameOutcome Q E (.ok a x) (.ok a x')
  | error {fault : Fault} {x x' : Host R μ} (h : E x x') :
    SameOutcome Q E (.error fault x) (.error fault x')

/-- From hosts that are related by `P` the operations come to the same. -/
def Abreast (P : Host R μ → Host R μ → Prop) (m m' : Operation R μ α)
    (Q : α → Host R μ → Host R μ → Prop) (E : Host R μ → Host R μ → Prop) : Prop :=
  ∀ h h', P h h' → SameOutcome Q E (m h) (m' h')

/-- One executor is the other under shifted numbers, and the memories are related. -/
def Paired (k d : ℕ) (T : μ → μ → Prop) (h h' : Host R μ) : Prop :=
  h'.executor = h.executor.renumbered k d ∧ T h.memory h'.memory

/-- The executor that is not shifted is the given one. -/
def PairedAt (k d : ℕ) (T : μ → μ → Prop) (e : Executor R) (h h' : Host R μ) : Prop :=
  h.executor = e ∧ Paired k d T h h'

namespace Abreast

variable {P P' : Host R μ → Host R μ → Prop} {m m' : Operation R μ α}
  {Q Q' : α → Host R μ → Host R μ → Prop} {E E' : Host R μ → Host R μ → Prop}

theorem mono (h : Abreast P m m' Q E) (hP : ∀ x x', P' x x' → P x x')
    (hQ : ∀ a x x', Q a x x' → Q' a x x') (hE : ∀ x x', E x x' → E' x x') :
    Abreast P' m m' Q' E' := by
  intro x x' hx
  have hm := h x x' (hP x x' hx)
  generalize m x = r, m' x' = r' at hm
  cases hm with
  | ok hQa => exact .ok (hQ _ _ _ hQa)
  | error hEx => exact .error (hE _ _ hEx)

theorem mono_error (h : Abreast P m m' Q E) (hE : ∀ x x', E x x' → E' x x') :
    Abreast P m m' Q E' := h.mono (fun _ _ hx => hx) (fun _ _ _ hx => hx) hE

theorem pure {a : α} (h : ∀ x x', P x x' → Q a x x') :
    Abreast P (Pure.pure a) (Pure.pure a) Q E := fun x x' hx => .ok (h x x' hx)

theorem throw {fault : Fault} (h : ∀ x x', P x x' → E x x') :
    Abreast P (MonadExcept.throw fault : Operation R μ α) (MonadExcept.throw fault) Q E :=
  fun x x' hx => .error (h x x' hx)

/-- Sequences that are abreast in their parts are abreast. -/
theorem bind {f f' : α → Operation R μ β} {S : β → Host R μ → Host R μ → Prop}
    (hm : Abreast P m m' Q E) (hf : ∀ a, Abreast (Q a) (f a) (f' a) S E) :
    Abreast P (m >>= f) (m' >>= f') S E := by
  intro x x' hx
  have hparts := hm x x' hx
  simp only [Bind.bind, EStateM.bind]
  generalize m x = r, m' x' = r' at hparts
  cases hparts with
  | ok hQa => exact hf _ _ _ hQa
  | error hEx => exact .error hEx

theorem ite {c : Prop} [Decidable c] {n n' : Operation R μ α} (hm : c → Abreast P m m' Q E)
    (hn : ¬ c → Abreast P n n' Q E) :
    Abreast P (if c then m else n) (if c then m' else n') Q E := by
  split
  · exact hm ‹_›
  · exact hn ‹_›

variable {k d : ℕ} {T : μ → μ → Prop}

/-- What is abreast from every pair of known executors is abreast. -/
theorem of_at (h : ∀ e, Abreast (PairedAt k d T e) m m' Q E) : Abreast (Paired k d T) m m' Q E :=
  fun x x' hx => h x.executor x x' ⟨rfl, hx⟩

theorem known {e : Executor R} (h : Abreast (Paired k d T) m m' Q E) :
    Abreast (PairedAt k d T e) m m' Q E := fun x x' hx => h x x' hx.2

end Abreast

/-- Observers with related memories read the same time and take the same down, and what they do
keeps the executors in step. -/
structure Observers.Heed (o : Observers R μ) (k d : ℕ) (T : μ → μ → Prop) : Prop where
  clock : ∀ x x', T x x' → o.clock x = o.clock x'
  note : ∀ entry x x', T x x' → T (o.note entry x) (o.note entry x')
  stateChanged : ∀ s, Abreast (Paired k d T) (o.stateChanged s) (o.stateChanged s)
    (fun _ => Paired k d T) (Paired k d T)
  completed : ∀ c, Abreast (Paired k d T) (o.completed c) (o.completed c)
    (fun _ => Paired k d T) (Paired k d T)

namespace Executor

variable {k d : ℕ} {T : μ → μ → Prop} {e : Executor R} {Q : α → Host R μ → Host R μ → Prop}
  {E : Host R μ → Host R μ → Prop}

/-! ### Parts of operations -/

theorem abreast_look {f f' : Executor R → Operation R μ α}
    (h : Abreast (PairedAt k d T e) (f e) (f' (e.renumbered k d)) Q E) :
    Abreast (PairedAt k d T e) (look >>= f) (look >>= f') Q E := by
  rintro x x' ⟨rfl, hexecutor, hmemory⟩
  rw [run_look_bind, run_look_bind, hexecutor]
  exact h x x' ⟨rfl, hexecutor, hmemory⟩

theorem abreast_change {g g' : Executor R → Executor R} {f f' : Unit → Operation R μ α}
    (hg : g' (e.renumbered k d) = (g e).renumbered k d)
    (h : Abreast (PairedAt k d T (g e)) (f ()) (f' ()) Q E) :
    Abreast (PairedAt k d T e) (change g >>= f) (change g' >>= f') Q E := by
  rintro x x' ⟨rfl, hexecutor, hmemory⟩
  exact h _ _ ⟨rfl, (congrArg g' hexecutor).trans hg, hmemory⟩

/-- What can fail is abreast of what fails with the same fault. -/
theorem abreast_orFail {γ : Type} {g : γ → γ} {value value' : Except Fault γ}
    {f f' : γ → Operation R μ α} (hvalue : value' = value.map g)
    (hE : ∀ x x', PairedAt k d T e x x' → E x x')
    (h : ∀ c, value = .ok c → Abreast (PairedAt k d T e) (f c) (f' (g c)) Q E) :
    Abreast (PairedAt k d T e) (orFail value >>= f) (orFail value' >>= f') Q E := by
  subst hvalue
  rcases value with fault | c
  · exact fun x x' hx => .error (hE x x' hx)
  · exact h c rfl

section Observed

variable {o : Observers R μ} (ho : o.Heed k d T)
include ho

theorem abreast_note {level : Log.Level} {message : Text} {f f' : Unit → Operation R μ α}
    (h : Abreast (PairedAt k d T e) (f ()) (f' ()) Q E) :
    Abreast (PairedAt k d T e) (note o level message >>= f) (note o level message >>= f') Q E := by
  rintro x x' ⟨rfl, hexecutor, hmemory⟩
  exact h _ _ ⟨rfl, hexecutor, ho.note _ _ _ hmemory⟩

theorem abreast_now {f f' : R → Operation R μ α}
    (h : ∀ time, Abreast (PairedAt k d T e) (f time) (f' time) Q E) :
    Abreast (PairedAt k d T e) (now o >>= f) (now o >>= f') Q E := by
  rintro x x' ⟨rfl, hexecutor, hmemory⟩
  rw [run_now_bind, run_now_bind, ho.clock _ _ hmemory]
  exact h _ x x' ⟨rfl, hexecutor, hmemory⟩

/-- Both are shown the same robot. -/
theorem abreast_emitState : Abreast (PairedAt k d T e) (emitState o) (emitState o)
    (fun _ => Paired k d T) (Paired k d T) :=
  abreast_look (ho.stateChanged e.robot).known

/-! ### Operations -/

variable [Scalar R]

theorem abreast_startNext (time : R) : Abreast (PairedAt k d T e) (startNext o time)
    (startNext o time) (fun _ => Paired k d T) (Paired k d T) := by
  refine abreast_look ?_
  have hsame : (e.renumbered k d).queue = e.queue := rfl
  rw [hsame]
  split
  · exact abreast_change rfl (abreast_note ho (abreast_emitState ho))
  · exact abreast_change rfl (abreast_look (abreast_orFail (prepare_renumbered _ _)
      (fun _ _ hx => hx.2) fun f _ => abreast_change rfl (abreast_emitState ho)))

theorem abreast_complete (f : Flight R) (time : R) : Abreast (PairedAt k d T e) (complete o f time)
    (complete o (f.renumbered k d) time) (fun _ => Paired k d T) (Paired k d T) := by
  refine abreast_change rfl (.bind (ho.completed _).known fun _ => .of_at fun e => abreast_look ?_)
  have hgap : ((e.renumbered k d).isRunning && (e.renumbered k d).flight.isNone) =
      (e.isRunning && e.flight.isNone) := by simp [renumbered, isRunning]
  rw [hgap]
  exact .ite (fun _ => abreast_startNext ho time) fun _ => .pure fun _ _ hx => hx.2

/-- Moving along a flight. -/
theorem abreast_advance (f : Flight R) (progress : R) :
    Abreast (PairedAt k d T e) (advance o f progress) (advance o (f.renumbered k d) progress)
      (fun _ => Paired k d T) (Paired k d T) := by
  have hsweep : (e.renumbered k d).scene.sweep (e.renumbered k d).robot.position
      (positionAt (f.renumbered k d) (ease progress)) (f.renumbered k d).ignored =
      (e.scene.sweep e.robot.position (positionAt f (ease progress)) f.ignored).map id := by
    rw [Except.map_id]
    exact Scene.sweep_retagged e.scene d _ _ _
  refine abreast_look (abreast_orFail hsweep (fun _ _ hx => hx.2) fun contact? _ => ?_)
  cases contact? with
  | none =>
    exact abreast_change rfl (.bind (abreast_emitState ho) fun _ => .pure fun _ _ hx => hx)
  | some contact =>
    exact abreast_change rfl (abreast_note ho (.bind (abreast_emitState ho) fun _ =>
      .pure fun _ _ hx => hx))

theorem abreast_tick (time? : Option R) : Abreast (PairedAt k d T e) (tick o time?) (tick o time?)
    (fun _ => Paired k d T) (Paired k d T) := by
  refine abreast_look ?_
  have hphase : (e.renumbered k d).phase = e.phase := rfl
  have hflight : (e.renumbered k d).flight = e.flight.map (Flight.renumbered k d) := rfl
  rw [hphase, hflight]
  split
  next f hrun hf =>
    rw [hrun, hf, Option.map_some]
    refine abreast_now ho fun now => ?_
    have hend : ∀ progress : R, Abreast (Paired k d T)
        (if Scalar.ofNat 1 ≤ progress then
          (look >>= fun e => if e.isInFlight f then complete o f (time?.getD now) else pure ())
          else pure ())
        (if Scalar.ofNat 1 ≤ progress then
          (look >>= fun e => if e.isInFlight (f.renumbered k d) then
            complete o (f.renumbered k d) (time?.getD now) else pure ())
          else pure ()) (fun _ => Paired k d T) (Paired k d T) := by
      refine fun progress => .of_at fun e => .ite (fun _ => abreast_look ?_) fun _ =>
        .pure fun _ _ hx => hx.2
      rw [isInFlight_renumbered]
      exact .ite (fun _ => abreast_complete ho f _) fun _ => .pure fun _ _ hx => hx.2
    refine .ite (fun _ => .bind (abreast_advance ho f _) hend) fun _ =>
      .ite (fun _ => ?_) fun _ => ?_
    · exact .bind (abreast_change rfl (abreast_emitState ho)) fun _ =>
        .bind (.pure fun _ _ hx => hx) hend
    · exact .bind (.pure fun _ _ hx => hx.2) hend
  next hidle =>
    split
    next g hrun hg =>
      obtain ⟨f, hf, -⟩ := Option.map_eq_some_iff.1 hg
      exact (hidle f hrun hf).elim
    · exact .pure fun _ _ hx => hx.2

theorem abreast_execute (items : List (Submission R)) : Abreast (PairedAt k d T e) (execute o items)
    (execute o items) (fun _ => Paired k d T) (Paired k d T) := by
  refine abreast_orFail (congrFun Except.map_id.symm _) (fun _ _ hx => hx.2) fun commands _ =>
    abreast_look ?_
  have hrun : Abreast (PairedAt k d T e)
      (do
        change fun e => { e with queue := commands, flight := none, phase := .running }
        note o .info ("Executing " ++ natText commands.length ++ " commands at speed " ++
          Float.generalText (Scalar.toFloat (← look).speed))
        startNext o (← now o))
      (do
        change fun e => { e with queue := commands, flight := none, phase := .running }
        note o .info ("Executing " ++ natText commands.length ++ " commands at speed " ++
          Float.generalText (Scalar.toFloat (← look).speed))
        startNext o (← now o)) (fun _ => Paired k d T) (Paired k d T) :=
    abreast_change rfl (abreast_look (abreast_note ho (abreast_now ho fun time =>
      abreast_startNext ho time)))
  exact .ite (fun _ => abreast_note ho hrun) fun _ => hrun

theorem abreast_resume : Abreast (PairedAt k d T e) (resume o) (resume o)
    (fun _ => Paired k d T) (Paired k d T) :=
  abreast_look (.ite (fun _ => abreast_change rfl (abreast_note ho (abreast_now ho fun time =>
    abreast_startNext ho time))) fun _ => .pure fun _ _ hx => hx.2)

theorem abreast_setSpeed (value : R) : Abreast (PairedAt k d T e) (setSpeed o value)
    (setSpeed o value) (fun _ => Paired k d T) (Paired k d T) := by
  refine .ite (fun _ => abreast_note ho (abreast_look (.pure fun _ _ hx => hx.2))) fun _ =>
    abreast_look (abreast_change rfl (.bind (abreast_emitState ho) fun _ => .of_at fun _ =>
      abreast_look (.pure fun _ _ hx => hx.2)))

theorem abreast_setSpeedData (value : Data) : Abreast (PairedAt k d T e) (setSpeedData o value)
    (setSpeedData o value) (fun _ => Paired k d T) (Paired k d T) := by
  unfold setSpeedData
  split
  · exact abreast_setSpeed ho _
  · exact .throw fun _ _ hx => hx.2
  · exact abreast_note ho (abreast_look (.pure fun _ _ hx => hx.2))

omit [Scalar R]

theorem abreast_pause : Abreast (PairedAt k d T e) (pause o) (pause o)
    (fun _ => Paired k d T) (Paired k d T) :=
  abreast_look (.ite (fun _ => abreast_change rfl (abreast_look (abreast_note ho
    (abreast_emitState ho)))) fun _ => .pure fun _ _ hx => hx.2)

theorem abreast_stop : Abreast (PairedAt k d T e) (stop o) (stop o)
    (fun _ => Paired k d T) (Paired k d T) := abreast_change rfl (abreast_emitState ho)

theorem abreast_reset : Abreast (PairedAt k d T e) (reset o) (reset o)
    (fun _ => Paired k d T) (Paired k d T) := abreast_change rfl (abreast_emitState ho)

end Observed

end Executor

end RobotBlocks
