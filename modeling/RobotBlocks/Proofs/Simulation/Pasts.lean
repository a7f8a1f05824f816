import RobotBlocks.Proofs.Simulation.Directives
import RobotBlocks.Proofs.Simulation.Renumbering

/-!
# Controllers with different pasts

Two controllers may have the same agent, program and obstacles, and still remember different things:
what they compiled last, how many commands were complete, and how their executors count. Given the
same directives, they do the same, and forget the difference bit by bit: a run renews what was
compiled, and a run or a reset starts the count anew.

* `Alongside compiled counted` relates their desks, where `compiled` says that the commands compiled
  last are the same, and `counted` that the numbers of complete commands are.
* `Conferring` is the class of operations that are built from directives, from operations on the
  memory of the listeners and from looks at the executor that do not see how it counts. They cannot
  tell the two controllers apart.
* `alongside_attemptAll` carries the relation along whatever directives there are.
-/

namespace RobotBlocks

variable {R μ α : Type}

namespace Directive

/-- The directive is a run, and it succeeds. -/
def Compiles (i : Directive R μ) (outcome : Except Fault (ControllerReply R)) : Prop :=
  ∃ program reply, i = .run program ∧ outcome = .ok reply

/-- The directive starts the count of complete commands anew: a reset, or a run that succeeds. -/
def Recounts (i : Directive R μ) (outcome : Except Fault (ControllerReply R)) : Prop :=
  i = .reset ∨ i.Compiles outcome

end Directive

namespace Controller

/-- An operation on the memory of the listeners. -/
def privately (m : EStateM Fault μ α) : Operation R (Desk R μ) α := fun h =>
  match m h.memory.memory with
  | .ok a memory => .ok a { h with memory := { h.memory with memory } }
  | .error fault memory => .error fault { h with memory := { h.memory with memory } }

end Controller

/-- The time that listeners read and what they take down is a matter of their memory. -/
structure Listeners.Discreet (l : Listeners R μ) : Prop where
  clock : ∃ clock : μ → R, ∀ d, l.clock d = clock d.memory
  note : ∃ note : Log.Entry → μ → μ, ∀ entry d,
    l.note entry d = { d with memory := note entry d.memory }

/-- The operation is built from directives, whose listeners are again of this kind, from operations
on the memory of the listeners, and from looks at the executor that do not see how it counts. -/
inductive Conferring [Scalar R] : {α : Type} → Operation R (Desk R μ) α → Prop
  | privately {α : Type} (m : EStateM Fault μ α) : Conferring (Controller.privately m)
  | watch {α : Type} (g : Executor R → α) (hg : ∀ k n e, g (e.renumbered k n) = g e) :
    Conferring (do return g (← Executor.look))
  | bind {α β : Type} {m : Operation R (Desk R μ) α} {f : α → Operation R (Desk R μ) β}
    (hm : Conferring m) (hf : ∀ a, Conferring (f a)) : Conferring (m >>= f)
  | direct {l : Listeners R μ} {i : Directive R μ} (hl : l.Discreet)
    (hstate : ∀ s, Conferring (l.stateChanged s)) (hcompleted : ∀ c, Conferring (l.completed c)) :
    Conferring (i.make l)

namespace Controller

open Executor (orFail)

/-- The desks of two controllers with the same agent, program, obstacles and listeners. -/
structure Alongside (compiled counted : Prop) (d d' : Desk R μ) : Prop where
  config : d'.config = d.config
  blocks : d'.blocks = d.blocks
  obstacles : d'.obstacles = d.obstacles
  memory : d'.memory = d.memory
  commands : compiled → d'.commands = d.commands
  diagnostics : compiled → d'.diagnostics = d.diagnostics
  executedSteps : counted → d'.executedSteps = d.executedSteps

section Alongside

variable {p p' q q' : Prop} {d d' : Desk R μ}

theorem Alongside.mono (h : Alongside p q d d') (hp : p' → p) (hq : q' → q) :
    Alongside p' q' d d' :=
  ⟨h.config, h.blocks, h.obstacles, h.memory, fun hp' => h.commands (hp hp'),
    fun hp' => h.diagnostics (hp hp'), fun hq' => h.executedSteps (hq hq')⟩

/-- Listeners that are told the same remember the same. -/
theorem Alongside.remember (h : Alongside p q d d') (memory : μ) :
    Alongside p q { d with memory } { d' with memory } :=
  ⟨h.config, h.blocks, h.obstacles, rfl, h.commands, h.diagnostics, h.executedSteps⟩

/-- Both get the same program. -/
theorem Alongside.withBlocks (h : Alongside p q d d') (blocks : List Block) :
    Alongside p q { d with blocks } { d' with blocks } :=
  ⟨h.config, rfl, h.obstacles, h.memory, h.commands, h.diagnostics, h.executedSteps⟩

/-- A program that has been compiled for both. -/
theorem Alongside.load (h : Alongside p q d d') (hdiagnostics : d'.diagnostics = d.diagnostics)
    (commands : List (Command R)) :
    Alongside True True { d with commands, executedSteps := 0 }
      { d' with commands, executedSteps := 0 } :=
  ⟨h.config, h.blocks, h.obstacles, h.memory, fun _ => rfl, fun _ => hdiagnostics, fun _ => rfl⟩

end Alongside

/-- The operation does the same with two controllers that differ in their pasts only. -/
def Impartial (k n : ℕ) (m : Operation R (Desk R μ) α) : Prop :=
  ∀ p q, Abreast (Paired k n (Alongside p q)) m m (fun _ => Paired k n (Alongside p q))
    (Paired k n (Alongside p q))

/-- The listeners do the same with two controllers that differ in their pasts only. -/
structure Fair (k n : ℕ) (l : Listeners R μ) : Prop extends l.Discreet where
  stateChanged : ∀ s, Impartial k n (l.stateChanged s)
  completed : ∀ c, Impartial k n (l.completed c)

/-! ## Parts of directives -/

section Parts

variable {k n : ℕ} {T U : Desk R μ → Desk R μ → Prop}
  {P E : Host R (Desk R μ) → Host R (Desk R μ) → Prop}

theorem abreast_deskChange {f f' : Desk R μ → Desk R μ} (h : ∀ d d', T d d' → U (f d) (f' d')) :
    Abreast (Paired k n T) (change f) (change f') (fun _ => Paired k n U) E := fun _ _ hx =>
  .ok ⟨hx.1, h _ _ hx.2⟩

theorem abreast_shift {g : Executor R → Executor R}
    (h : ∀ e, g (e.renumbered k n) = (g e).renumbered k n) :
    Abreast (Paired k n T) (Executor.change g) (Executor.change g) (fun _ => Paired k n T) E :=
  fun x _ hx => .ok ⟨(congrArg g hx.1).trans (h x.executor), hx.2⟩

theorem abreast_desk {f f' : Desk R μ → Operation R (Desk R μ) α}
    {Q : α → Host R (Desk R μ) → Host R (Desk R μ) → Prop}
    (h : ∀ d d', T d d' → Abreast (Paired k n T) (f d) (f' d') Q E) :
    Abreast (Paired k n T) (desk >>= f) (desk >>= f') Q E := fun x x' hx => h _ _ hx.2 x x' hx

theorem abreast_fallible (value : Except Fault α) (h : ∀ x x', P x x' → E x x') :
    Abreast P (orFail value) (orFail value) (fun _ => P) E := by
  rcases value with fault | a
  · exact .throw h
  · exact .pure fun _ _ hx => hx

/-- Taking diagnostics down keeps what taking one down keeps. -/
theorem abreast_noteAll {l : Listeners R μ}
    (h : ∀ entry d d', T d d' → T (l.note entry d) (l.note entry d')) (ds : List Diagnostic) :
    Abreast (Paired k n T) (ds.forM fun d => Executor.note l .warning d.text)
      (ds.forM fun d => Executor.note l .warning d.text) (fun _ => Paired k n T)
      (Paired k n T) := by
  induction ds with
  | nil => exact .pure fun _ _ hx => hx
  | cons d ds ih =>
    exact .bind (fun _ _ hx => .ok ⟨hx.1, h ⟨.warning, d.text⟩ _ _ hx.2⟩) fun _ => ih

/-- Operations on the memory of the listeners come to the same where it is the same. -/
theorem impartial_privately (m : EStateM Fault μ α) : Impartial (R := R) k n (privately m) := by
  rintro p q x x' ⟨hexecutor, hdesk⟩
  unfold privately
  rw [hdesk.memory]
  split
  · exact .ok ⟨hexecutor, hdesk.remember _⟩
  · exact .error ⟨hexecutor, hdesk.remember _⟩

end Parts

section Listening

variable {k n : ℕ} {l : Listeners R μ} (hl : Fair k n l) {p q : Prop}
include hl

/-- A controller that has fair listeners counts complete commands, and is fair. -/
theorem Fair.heed : (observing l).Heed k n (Alongside p q) where
  clock d d' h := by
    obtain ⟨clock, hclock⟩ := hl.clock
    change l.clock d = l.clock d'
    rw [hclock, hclock, h.memory]
  note entry d d' h := by
    obtain ⟨note, hnote⟩ := hl.note
    change Alongside p q (l.note entry d) (l.note entry d')
    rw [hnote, hnote, h.memory]
    exact h.remember _
  stateChanged s := hl.stateChanged s p q
  completed c := by
    refine .bind (abreast_deskChange fun d d' h => ?_) fun _ => hl.completed c p q
    exact ⟨h.config, h.blocks, h.obstacles, h.memory, h.commands, h.diagnostics,
      fun hq => congrArg (· + 1) (h.executedSteps hq)⟩

variable [Scalar R]

/-- **Compiling** comes to the same, whatever was compiled last. -/
theorem abreast_compile :
    Abreast (Paired k n (Alongside p q)) (compile l) (compile l)
      (fun _ => Paired k n fun d d' => Alongside p q d d' ∧ d'.diagnostics = d.diagnostics)
      (Paired k n (Alongside p q)) := by
  refine abreast_desk fun d d' hd => ?_
  -- Compiling starts without diagnostics, so it does not matter what those of the last time are.
  have hcompile : (Compilation.ofBlocks d'.config d'.blocks).run d'.diagnostics =
      (Compilation.ofBlocks d.config d.blocks).run d.diagnostics := by
    rw [hd.config, hd.blocks]
    rfl
  have hrenew : ∀ (diagnostics : Diagnostics) (x x' : Desk R μ), Alongside p q x x' →
      Alongside p q { x with diagnostics } { x' with diagnostics } := fun _ _ _ h =>
    ⟨h.config, h.blocks, h.obstacles, h.memory, h.commands, fun _ => rfl, h.executedSteps⟩
  have hnote : ∀ entry x x', Alongside p q x x' ∧ x'.diagnostics = x.diagnostics →
      Alongside p q (l.note entry x) (l.note entry x') ∧
        (l.note entry x').diagnostics = (l.note entry x).diagnostics := by
    obtain ⟨note, hnote⟩ := hl.note
    rintro entry x x' ⟨hx, hdiagnostics⟩
    rw [hnote, hnote, hx.memory]
    exact ⟨hx.remember _, hdiagnostics⟩
  rw [hcompile]
  split
  · exact .bind (abreast_deskChange (hrenew _)) fun _ => .throw fun _ _ hx => hx
  next commands diagnostics _ =>
    exact .bind (abreast_deskChange fun x x' h => ⟨hrenew diagnostics x x' h, rfl⟩) fun _ =>
      .bind ((abreast_noteAll hnote _).mono_error fun _ _ hx => ⟨hx.1, hx.2.1⟩) fun _ =>
        .pure fun _ _ hx => hx

/-- **A run** renews what was compiled last, and starts the count of complete commands anew. -/
theorem abreast_run (program : Option Data) :
    Abreast (Paired k n (Alongside p q)) (run l program) (run l program)
      (fun _ => Paired k n (Alongside True True)) (Paired k n (Alongside p q)) := by
  have hexecute : ∀ items : List (Submission R), Abreast (Paired k n (Alongside True True))
      (Executor.execute (observing l) items) (Executor.execute (observing l) items)
      (fun _ => Paired k n (Alongside True True)) (Paired k n (Alongside p q)) := fun items =>
    (Abreast.of_at fun _ => Executor.abreast_execute hl.heed items).mono_error fun _ _ hx =>
      ⟨hx.1, hx.2.mono (fun _ => trivial) fun _ => trivial⟩
  have hcompiled : Abreast (Paired k n (Alongside p q))
      (do
        let commands ← compile l
        change fun d => { d with commands, executedSteps := 0 }
        Executor.execute (observing l) (commands.map .command)
        return (← desk).commands)
      (do
        let commands ← compile l
        change fun d => { d with commands, executedSteps := 0 }
        Executor.execute (observing l) (commands.map .command)
        return (← desk).commands)
      (fun _ => Paired k n (Alongside True True)) (Paired k n (Alongside p q)) := by
    refine .bind (abreast_compile hl) fun commands =>
      .bind (abreast_deskChange fun _ _ h => h.1.load h.2 commands) fun _ =>
        .bind (hexecute _) fun _ => abreast_desk fun d d' hd => ?_
    -- The run returns the commands on the desk, which it has put there itself.
    rw [hd.commands trivial]
    exact .pure fun _ _ hx => hx
  cases program with
  | none => exact hcompiled
  | some program =>
    exact .bind (abreast_fallible _ fun _ _ hx => hx) fun blocks =>
      .bind (abreast_deskChange fun _ _ h => h.withBlocks blocks) fun _ => hcompiled

theorem impartial_switchTo (preset : Config R) : Impartial k n (switchTo l preset) := by
  intro p q
  have hheed := hl.heed (p := p) (q := q)
  have hsize : Impartial k n
      (Executor.setAgentSize (AgentSize.ofList preset.agentSize) : Operation R (Desk R μ) Unit) :=
    fun _ _ => .bind (abreast_fallible _ fun _ _ hx => hx) fun _ => abreast_shift fun _ => rfl
  have hinitial : ∀ height heading,
      Impartial k n (Executor.setInitial (observing l) height heading) := fun _ _ _ _ =>
    .bind (abreast_shift fun _ => rfl) fun _ => .of_at fun _ =>
      Executor.abreast_reset hl.heed
  -- Both look at an executor first, and read the same speed: shifted numbers leave it alone.
  refine .of_at fun e => Executor.abreast_look
    (.bind (Q := fun _ => Paired k n (Alongside p q)) ?_ fun _ =>
      .bind (abreast_shift fun _ => rfl) fun _ => .bind (hsize p q) fun _ =>
        .bind (hinitial _ _ p q) fun _ =>
          .bind (.of_at fun _ => Executor.abreast_setSpeed hheed _) fun _ => fun _ _ hx =>
            .ok ⟨hx.1, hheed.note _ _ _ hx.2⟩)
  refine (abreast_deskChange fun _ _ h => ?_).known
  exact ⟨rfl, h.blocks, h.obstacles, h.memory, h.commands, h.diagnostics, h.executedSteps⟩

omit hl [Scalar R] in
theorem impartial_setObstacles (obstacles : List (Obstacle R)) :
    Impartial k n (setObstacles obstacles : Operation R (Desk R μ) Unit) := by
  refine fun p q => .bind (abreast_deskChange (U := Alongside p q) fun _ _ h =>
    ⟨h.config, h.blocks, rfl, h.memory, h.commands, h.diagnostics, h.executedSteps⟩) fun _ =>
      abreast_shift fun e => ?_
  simp [Executor.renumbered, Scene.setObstacles, Scene.retagged, add_assoc]

theorem impartial_loadProject (project : Data) : Impartial k n (loadProject l project) := by
  intro p q
  have hagent : ∀ agent? : Option (Config R), Impartial k n (agent?.forM (switchTo l)) := by
    rintro (_ | preset)
    · exact fun _ _ => .pure fun _ _ hx => hx
    · exact impartial_switchTo hl preset
  rw [loadProject_eq]
  refine .bind (abreast_fallible _ fun _ _ hx => hx) fun blocks =>
    .bind (abreast_deskChange fun _ _ h => h.withBlocks blocks) fun _ =>
      .bind (abreast_fallible _ fun _ _ hx => hx) fun s => .bind (hagent s.agent p q) fun _ =>
        .bind (impartial_setObstacles s.obstacles p q) fun _ => abreast_desk fun d d' hd => ?_
  rw [hd.blocks]
  exact fun _ _ hx => .ok ⟨hx.1, hl.heed.note _ _ _ hx.2⟩

/-- **Every directive** comes to the same for controllers with different pasts. -/
theorem abreast_make (i : Directive R μ) :
    Abreast (Paired k n (Alongside p q)) (i.make l) (i.make l)
      (fun reply =>
        Paired k n (Alongside (p ∨ i.Compiles (.ok reply)) (q ∨ i.Recounts (.ok reply))))
      (Paired k n (Alongside p (q ∨ i = .reset))) := by
  -- All directives but a run and a reset keep what has been related so far.
  have hkeep : ∀ {α : Type} {m : Operation R (Desk R μ) α} (reply : α → ControllerReply R),
      (∀ program, i ≠ .run program) → i ≠ .reset → Impartial k n m →
      Abreast (Paired k n (Alongside p q)) (m >>= fun a => pure (reply a))
        (m >>= fun a => pure (reply a))
        (fun reply =>
          Paired k n (Alongside (p ∨ i.Compiles (.ok reply)) (q ∨ i.Recounts (.ok reply))))
        (Paired k n (Alongside p (q ∨ i = .reset))) := by
    intro α m reply hrun hreset hm
    have hcompiles : ∀ outcome, ¬ i.Compiles outcome := fun _ ⟨program, _, h, _⟩ => hrun program h
    refine .bind ((hm p q).mono_error fun _ _ hx =>
      ⟨hx.1, hx.2.mono id fun h => h.resolve_right hreset⟩) fun _ => .pure fun _ _ hx => ⟨hx.1, ?_⟩
    exact hx.2.mono (fun h => h.resolve_right (hcompiles _)) fun h =>
      h.resolve_right fun h => h.elim hreset (hcompiles _)
  cases i with
  | loadProject project => exact hkeep _ nofun nofun (impartial_loadProject hl project)
  | setObstacles obstacles => exact hkeep _ nofun nofun (impartial_setObstacles obstacles)
  | setAgent name =>
    refine hkeep _ nofun nofun fun p q => ?_
    rw [setAgent_eq]
    exact .bind (abreast_fallible _ fun _ _ hx => hx) fun preset => impartial_switchTo hl preset p q
  | run program =>
    exact .bind ((abreast_run hl program).mono_error fun _ _ hx =>
      ⟨hx.1, hx.2.mono id fun h => h.resolve_right nofun⟩) fun _ =>
        .pure fun _ _ hx => ⟨hx.1, hx.2.mono (fun _ => trivial) fun _ => trivial⟩
  | tick time? =>
    exact hkeep _ nofun nofun fun _ _ => .of_at fun _ => Executor.abreast_tick hl.heed time?
  | pause => exact hkeep _ nofun nofun fun _ _ => .of_at fun _ => Executor.abreast_pause hl.heed
  | resume => exact hkeep _ nofun nofun fun _ _ => .of_at fun _ => Executor.abreast_resume hl.heed
  | togglePause =>
    exact hkeep _ nofun nofun fun _ _ => .of_at fun _ => Executor.abreast_look (.ite
      (fun _ => Executor.abreast_resume hl.heed) fun _ => Executor.abreast_pause hl.heed)
  | stop => exact hkeep _ nofun nofun fun _ _ => .of_at fun _ => Executor.abreast_stop hl.heed
  | reset =>
    have hreset : Abreast (Paired k n (Alongside p True)) (Executor.reset (observing l))
        (Executor.reset (observing l)) (fun _ => Paired k n (Alongside p True))
        (Paired k n (Alongside p True)) := .of_at fun _ => Executor.abreast_reset hl.heed
    refine .bind (.bind (abreast_deskChange fun _ _ h => ?_) fun _ =>
      hreset.mono_error fun _ _ hx => ⟨hx.1, hx.2.mono id fun _ => trivial⟩) fun _ =>
        .pure fun _ _ hx => ⟨hx.1, hx.2.mono (fun h => h.resolve_right nofun) fun _ => trivial⟩
    exact ⟨h.config, h.blocks, h.obstacles, h.memory, h.commands, h.diagnostics, fun _ => rfl⟩
  | setSpeed value =>
    exact hkeep _ nofun nofun fun _ _ => .of_at fun _ => Executor.abreast_setSpeedData hl.heed value
  | meanwhile f =>
    refine hkeep _ nofun nofun fun p q x x' hx => .ok ⟨hx.1, ?_⟩
    change Alongside p q { x.memory with memory := f x.memory.memory }
      { x'.memory with memory := f x'.memory.memory }
    rw [hx.2.memory]
    exact hx.2.remember _

end Listening

/-! ## Whatever directives there are -/

variable [Scalar R]

/-- **What is built from directives** does the same with controllers that differ in their pasts
only. -/
theorem impartial_of_conferring {k n : ℕ} {m : Operation R (Desk R μ) α} (h : Conferring m) :
    Impartial k n m := by
  induction h with
  | privately m => exact impartial_privately m
  | watch g hg =>
    refine fun p q => .of_at fun e => Executor.abreast_look ?_
    rw [hg]
    exact .pure fun _ _ hx => hx.2
  | bind _ _ ihm ihf => exact fun p q => .bind (ihm p q) fun a => ihf a p q
  | direct hl _ _ ihstate ihcompleted =>
    exact fun p q => (abreast_make ⟨hl, ihstate, ihcompleted⟩ _).mono (fun _ _ hx => hx)
      (fun _ _ _ hx => ⟨hx.1, hx.2.mono .inl .inl⟩) fun _ _ hx => ⟨hx.1, hx.2.mono id .inl⟩

end Controller

/-- What listeners do cannot tell controllers apart that differ in their pasts only. -/
structure Listeners.Confer [Scalar R] (l : Listeners R μ) : Prop extends l.Discreet where
  stateChanged : ∀ s, Conferring (l.stateChanged s)
  completed : ∀ c, Conferring (l.completed c)

namespace Controller

variable [Scalar R]

/-- What listeners do that confer with a controller is built from directives. -/
theorem directing_of_conferring {m : Operation R (Desk R μ) α} (h : Conferring m) :
    Directing m := by
  induction h with
  | privately m =>
    refine .aside fun e d => ?_
    rintro _ ⟨memory, rfl⟩
    unfold privately
    dsimp only
    rcases m memory with ⟨_, memory'⟩ | ⟨_, memory'⟩ <;> exact ⟨memory', rfl⟩
  | watch g _ => exact .aside fun _ _ _ hx => hx
  | bind _ _ ihm ihf => exact .bind ihm ihf
  | direct hl _ _ ihstate ihcompleted =>
    obtain ⟨note, hnote⟩ := hl.note
    exact .direct (fun entry d => ⟨_, hnote entry d⟩) ihstate ihcompleted

variable {l : Listeners R μ} (hl : l.Confer) {k n : ℕ} {p q : Prop} {x x' : Host R (Desk R μ)}
include hl

theorem direct_of_confer : l.Direct := by
  obtain ⟨note, hnote⟩ := hl.note
  exact ⟨fun entry d => ⟨_, hnote entry d⟩, fun s => directing_of_conferring (hl.stateChanged s),
    fun c => directing_of_conferring (hl.completed c)⟩

theorem alongside_attempt (i : Directive R μ) (hx : Paired k n (Alongside p q) x x') :
    (i.attempt l x').1 = (i.attempt l x).1 ∧
      Paired k n
        (Alongside (p ∨ i.Compiles (i.attempt l x).1) (q ∨ i.Recounts (i.attempt l x).1))
        (i.attempt l x).2 (i.attempt l x').2 := by
  have hfair : Fair k n l := ⟨hl.toDiscreet, fun s => impartial_of_conferring (hl.stateChanged s),
    fun c => impartial_of_conferring (hl.completed c)⟩
  have hmake := abreast_make hfair i x x' hx
  unfold Directive.attempt
  generalize i.make l x = r, i.make l x' = r' at hmake
  cases hmake with
  | ok h => exact ⟨rfl, h⟩
  | error h =>
    exact ⟨rfl, h.1, h.2.mono (fun h => h.resolve_right nofun) fun h => h.imp_right fun h =>
      h.resolve_right nofun⟩

/-- **Controllers with different pasts** that are given the same directives return the same. What
was compiled last is the same for both behind a run that succeeds, and the number of complete
commands behind such a run or a reset. -/
theorem alongside_attemptAll (is : List (Directive R μ)) (hx : Paired k n (Alongside p q) x x') :
    (Directive.attemptAll l is x').1 = (Directive.attemptAll l is x).1 ∧
      Paired k n
        (Alongside (p ∨ ∃ j ∈ is.zip (Directive.attemptAll l is x).1, j.1.Compiles j.2)
          (q ∨ ∃ j ∈ is.zip (Directive.attemptAll l is x).1, j.1.Recounts j.2))
        (Directive.attemptAll l is x).2 (Directive.attemptAll l is x').2 := by
  induction is generalizing p q x x' with
  | nil => exact ⟨rfl, hx.1, hx.2.mono (by simp) (by simp)⟩
  | cons i is ih =>
    obtain ⟨houtcome, hbehind⟩ := alongside_attempt hl i hx
    obtain ⟨houtcomes, hlast⟩ := ih hbehind
    refine ⟨congrArg₂ _ houtcome houtcomes, hlast.1, hlast.2.mono ?_ ?_⟩
    · simp [Directive.attemptAll, or_assoc]
    · simp [Directive.attemptAll, or_assoc]

end Controller

end RobotBlocks
