import RobotBlocks.Proofs.Simulation.Loading
import RobotBlocks.Proofs.Simulation.Ticks

/-!
# Directives to a controller

A `Directive` is a call of the interface of a controller. Listeners may give directives from inside
the one that they are told about, with listeners of their own; `Directing` is the class of
operations that are built from directives in this way, to any finite depth, and of operations that
change nothing but the memory of the listeners.

A host gives its directives one after the other and goes on when one of them fails:
`Directive.attemptAll` returns what came of each, and the host behind the last.

`Lasting J` lists every change that directives make to the settings of the executor, together with
the agent and the obstacles that the controller holds, and what must hold for `J` to be an invariant
of them; `Lasting.attemptAll` carries it along whatever directives there are.
-/

namespace RobotBlocks

/-- A call of the interface of a controller. -/
inductive Directive (R μ : Type)
  | loadProject (project : Data)
  | setObstacles (obstacles : List (Obstacle R))
  | setAgent (name : Data)
  | run (program : Option Data)
  | tick (time? : Option R)
  | pause
  | resume
  | togglePause
  | stop
  | reset
  | setSpeed (value : Data)
  /-- The controller is not called: the listeners' memory changes, as when time passes. -/
  | meanwhile (f : μ → μ)

variable {R μ α : Type} [Scalar R]

namespace Directive

/-- Gives a directive. -/
def make (l : Listeners R μ) : Directive R μ → Operation R (Desk R μ) (ControllerReply R)
  | .loadProject project => do Controller.loadProject l project; return .nothing
  | .setObstacles obstacles => do Controller.setObstacles obstacles; return .nothing
  | .setAgent name => do Controller.setAgent l name; return .nothing
  | .run program => return .commands (← Controller.run l program)
  | .tick time? => do Controller.tick l time?; return .nothing
  | .pause => do Controller.pause l; return .nothing
  | .resume => do Controller.resume l; return .nothing
  | .togglePause => do Controller.togglePause l; return .nothing
  | .stop => do Controller.stop l; return .nothing
  | .reset => do Controller.reset l; return .nothing
  | .setSpeed value => return .speed (← Controller.setSpeed l value)
  | .meanwhile f => do
    Controller.change fun d => { d with memory := f d.memory }
    return .nothing

/-- What comes of a directive, a reply or a fault, and the host behind it. -/
def attempt (l : Listeners R μ) (i : Directive R μ) (h : Host R (Desk R μ)) :
    Except Fault (ControllerReply R) × Host R (Desk R μ) :=
  match i.make l h with
  | .ok reply h' => (.ok reply, h')
  | .error fault h' => (.error fault, h')

/-- What comes of directives that are given one after the other, whether they fail or not. -/
def attemptAll (l : Listeners R μ) : List (Directive R μ) → Host R (Desk R μ) →
    List (Except Fault (ControllerReply R)) × Host R (Desk R μ)
  | [], h => ([], h)
  | i :: is, h =>
    let (outcome, h') := i.attempt l h
    let (outcomes, h'') := attemptAll l is h'
    (outcome :: outcomes, h'')

end Directive

/-- The operation is built from directives, whose listeners are again of this kind, and from
operations that leave the executor as it is, and the desk but for the memory of the listeners. -/
inductive Directing : {α : Type} → Operation R (Desk R μ) α → Prop
  | aside {α : Type} {m : Operation R (Desk R μ) α}
    (h : ∀ e d, Triple (Controller.Beside e d) m (fun _ => Controller.Beside e d)
      (Controller.Beside e d)) : Directing m
  | bind {α β : Type} {m : Operation R (Desk R μ) α} {f : α → Operation R (Desk R μ) β}
    (hm : Directing m) (hf : ∀ a, Directing (f a)) : Directing (m >>= f)
  | direct {l : Listeners R μ} {i : Directive R μ}
    (hnote : ∀ entry d, ∃ memory, l.note entry d = { d with memory })
    (hstate : ∀ s, Directing (l.stateChanged s))
    (hcompleted : ∀ c, Directing (l.completed c)) : Directing (i.make l)

/-- What listeners do is built from directives; taking records down changes nothing but their
memory. -/
structure Listeners.Direct (l : Listeners R μ) : Prop where
  note : ∀ entry d, ∃ memory, l.note entry d = { d with memory }
  stateChanged : ∀ s, Directing (l.stateChanged s)
  completed : ∀ c, Directing (l.completed c)

namespace Controller

open Executor (look orFail Composed Spares)

variable {J : RunSettings R → Config R → List (Obstacle R) → Prop}

/-- What holds of the settings of the executor and of the agent and the obstacles on the desk. -/
def Upholds (J : RunSettings R → Config R → List (Obstacle R) → Prop)
    (h : Host R (Desk R μ)) : Prop :=
  J h.executor.settings h.memory.config h.memory.obstacles

/-- The operation keeps what holds of them, whether it succeeds or fails. -/
abbrev Lasts (J : RunSettings R → Config R → List (Obstacle R) → Prop)
    (m : Operation R (Desk R μ) α) : Prop :=
  Triple (Upholds J) m (fun _ => Upholds J) (Upholds J)

/-- **The changes that directives make** to the settings of the executor and to the agent and the
obstacles on the desk, and what they keep. -/
structure Lasting (J : RunSettings R → Config R → List (Obstacle R) → Prop) : Prop where
  reset : ∀ (e : Executor R) c obstacles, J e.settings c obstacles →
    J e.restored.settings c obstacles
  setSpeed : ∀ (e : Executor R) value c obstacles, J e.settings c obstacles →
    Scalar.isUndefined value = false → J (e.paced (e.config.clampSpeed value)).settings c obstacles
  setObstacles : ∀ (e : Executor R) obstacles' c obstacles, J e.settings c obstacles →
    J { e with scene := e.scene.setObstacles obstacles' }.settings c obstacles'
  switch : ∀ (e : Executor R) preset c obstacles, preset ∈ Config.presets →
    J e.settings c obstacles → J (e.switched preset).settings preset obstacles

omit [Scalar R] in
/-- What leaves executor and desk alone, but for the memory of the listeners, keeps what holds. -/
theorem lasts_aside {m : Operation R (Desk R μ) α}
    (h : ∀ e d, Triple (Beside e d) m (fun _ => Beside e d) (Beside e d)) : Lasts J m := by
  have hkeep : ∀ {x x' : Host R (Desk R μ)}, Beside x.executor x.memory x' → Upholds J x →
      Upholds J x' := by
    rintro x _ ⟨memory, rfl⟩ hx
    exact hx
  exact .of_cases (fun x _ _ hx hm => hkeep ((h _ _).ok ⟨x.memory.memory, rfl⟩ hm) hx)
    fun x _ _ hx hm => hkeep ((h _ _).error ⟨x.memory.memory, rfl⟩ hm) hx

omit [Scalar R] in
/-- Changes of the desk that leave the agent and the obstacles alone keep what holds. -/
theorem lasts_change {f : Desk R μ → Desk R μ}
    (hf : ∀ d, (f d).config = d.config ∧ (f d).obstacles = d.obstacles) :
    Lasts (R := R) J (change f) := by
  intro x hx
  obtain ⟨hconfig, hobstacles⟩ := hf x.memory
  change J _ (f x.memory).config (f x.memory).obstacles
  rw [hconfig, hobstacles]
  exact hx

omit [Scalar R] in
theorem lasts_pure (a : α) : Lasts (R := R) (μ := μ) J (pure a) := .pure fun _ hx => hx

omit [Scalar R] in
theorem lasts_orFail (value : Except Fault α) : Lasts (R := R) (μ := μ) J (orFail value) :=
  .orFail (fun _ _ _ hx => hx) fun _ hx => hx

omit [Scalar R] in
theorem lasts_look : Lasts (μ := μ) J (look : Operation R (Desk R μ) (Executor R)) := fun _ hx => hx

omit [Scalar R] in
theorem lasts_desk : Lasts (μ := μ) J (desk : Operation R (Desk R μ) (Desk R μ)) := fun _ hx => hx

/-- What listeners do keeps what holds. -/
structure Upholding (l : Listeners R μ) (J : RunSettings R → Config R → List (Obstacle R) → Prop) :
    Prop where
  note : ∀ entry d, ∃ memory, l.note entry d = { d with memory }
  stateChanged : ∀ s, Lasts J (l.stateChanged s)
  completed : ∀ c, Lasts J (l.completed c)

/-! ## Parts of directives -/

section Listening

variable {l : Listeners R μ} (hl : Upholding l J)
include hl

omit [Scalar R] in
theorem lasts_note (level : Log.Level) (message : Text) : Lasts J (Executor.note l level message) :=
  lasts_aside fun e d => by
    rintro x ⟨memory, rfl⟩
    obtain ⟨memory', hmemory⟩ := hl.note ⟨level, message⟩ { d with memory }
    exact ⟨memory', congrArg (Host.mk e) hmemory⟩

omit [Scalar R] in
theorem lasts_emitState : Lasts J (Executor.emitState (observing l)) := fun x hx =>
  hl.stateChanged _ x hx

omit [Scalar R] in
/-- An operation of the executor that leaves its settings alone keeps what holds of them. -/
theorem lasts_composed {m : Operation R (Desk R μ) α} (hm : Composed (observing l) Spares m) :
    Lasts J m := by
  refine hm.keeps (fun f hf x hx => ?_) (fun entry x hx => ?_) hl.stateChanged fun c =>
    .bind (lasts_change fun _ => ⟨rfl, rfl⟩) fun _ => hl.completed c
  · rw [Upholds, hf]
    exact hx
  · exact lasts_note hl entry.level entry.message x hx

theorem lasts_compile : Lasts J (compile l) := by
  refine .bind lasts_desk fun d => ?_
  split
  · exact .bind (lasts_change fun _ => ⟨rfl, rfl⟩) fun _ => .throw fun _ hx => hx
  next commands ds _ =>
    refine .bind (lasts_change fun _ => ⟨rfl, rfl⟩) fun _ => .bind ?_ fun _ => lasts_pure _
    induction ds.sorted with
    | nil => exact lasts_pure _
    | cons d ds ih => exact .bind (lasts_note hl _ _) fun _ => ih

theorem lasts_run (program : Option Data) : Lasts J (run l program) := by
  have hcompiled : Lasts J (do
      let commands ← compile l
      change fun d => { d with commands, executedSteps := 0 }
      Executor.execute (observing l) (commands.map .command)
      return (← desk).commands) :=
    .bind (lasts_compile hl) fun _ => .bind (lasts_change fun _ => ⟨rfl, rfl⟩) fun _ =>
      .bind (lasts_composed hl (Executor.composed_execute (fun _ hf => hf) _)) fun _ =>
        .bind lasts_desk fun _ => lasts_pure _
  cases program with
  | none => exact hcompiled
  | some program =>
    exact .bind (lasts_orFail _) fun _ => .bind (lasts_change fun _ => ⟨rfl, rfl⟩) fun _ =>
      hcompiled

variable (h : Lasting J)
include h

theorem lasts_reset : Lasts J (Executor.reset (observing l)) :=
  .bind (Q := fun _ => Upholds J) (fun x hx => h.reset x.executor _ _ hx) fun _ =>
    lasts_emitState hl

theorem lasts_setSpeed (value : R) : Lasts J (Executor.setSpeed (observing l) value) := by
  refine .ite (fun _ => ?_) fun hdefined => ?_
  · exact .bind (lasts_note hl _ _) fun _ => .bind lasts_look fun _ => lasts_pure _
  · refine .bind (Q := fun e x => x.executor = e ∧ Upholds J x) (fun _ hx => ⟨rfl, hx⟩) fun e =>
      .bind (Q := fun _ => Upholds J) ?_ fun _ => .bind (lasts_emitState hl) fun _ =>
        .bind lasts_look fun _ => lasts_pure _
    rintro x ⟨rfl, hx⟩
    exact h.setSpeed x.executor value _ _ hx (by simpa using hdefined)

theorem lasts_setSpeedData (value : Data) :
    Lasts J (Executor.setSpeedData (observing l) value) := by
  unfold Executor.setSpeedData
  split
  · exact lasts_setSpeed hl h _
  · exact .throw fun _ hx => hx
  · exact .bind (lasts_note hl _ _) fun _ => .bind lasts_look fun _ => lasts_pure _

/-- Switching to a preset shows the robot for the first time when it stands in its new resting
place. -/
theorem lasts_switchTo {preset : Config R} (hpreset : preset ∈ Config.presets) :
    Lasts J (switchTo l preset) := by
  intro x hx
  obtain ⟨size, hsize⟩ := Config.exists_agentSize hpreset
  have hshow : Triple (Beside (x.executor.switched preset) { x.memory with config := preset })
      (Executor.emitState (observing l)) (fun _ => Upholds J) (Upholds J) := by
    rintro _ ⟨memory, rfl⟩
    exact lasts_emitState hl _ (h.switch x.executor preset _ _ hpreset hx)
  rw [Executor.switched, hsize] at hshow
  refine look_at (desk_at (g := fun d => { d with config := preset }) (fun _ => rfl)
    (executor_at ?_)) x ⟨x.memory.memory, rfl⟩
  rw [hsize]
  simp only [Executor.setAgentSize, orFail, pure_bind]
  exact executor_at (.bind (Q := fun _ => Upholds J) (executor_at (executor_at hshow)) fun _ =>
    .bind (lasts_setSpeed hl h _) fun _ => lasts_note hl _ _)

omit hl in
theorem lasts_setObstacles (obstacles : List (Obstacle R)) :
    Lasts (μ := μ) J (setObstacles obstacles) := fun x hx =>
  h.setObstacles x.executor obstacles _ _ hx

theorem lasts_loadProject (project : Data) : Lasts J (loadProject l project) := by
  rw [loadProject_eq]
  refine .bind (lasts_orFail _) fun blocks => .bind (lasts_change fun _ => ⟨rfl, rfl⟩) fun _ =>
    .bind (Q := fun s x => surroundingsOf (R := R) project = .ok s ∧ Upholds J x)
      (.orFail (fun _ hs _ hx => ⟨hs, hx⟩) fun _ hx => hx) fun s => ?_
  rintro x ⟨hs, hx⟩
  refine (Triple.bind ?_ fun _ => .bind (lasts_setObstacles h _) fun _ => .bind lasts_desk fun _ =>
    lasts_note hl _ _ : Lasts J (install l s)) x hx
  rcases hagent : s.agent with _ | preset
  · exact lasts_pure _
  · exact lasts_switchTo hl h (mem_presets_of_surroundingsOf hs preset hagent)

/-- **Every directive keeps a lasting invariant**, if its listeners keep it. -/
theorem lasts_make (i : Directive R μ) : Lasts J (i.make l) := by
  have hresume : Lasts J (resume l) := lasts_composed hl (Executor.composed_resume fun _ hf => hf)
  have hpause : Lasts J (pause l) := lasts_composed hl (Executor.composed_pause fun _ hf => hf)
  cases i with
  | loadProject project => exact .bind (lasts_loadProject hl h project) fun _ => lasts_pure _
  | setObstacles obstacles => exact .bind (lasts_setObstacles h obstacles) fun _ => lasts_pure _
  | setAgent name =>
    refine .bind ?_ fun _ => lasts_pure _
    rw [setAgent_eq]
    refine .bind (Q := fun preset x => Config.ofData name = .ok preset ∧ Upholds J x)
      (.orFail (fun _ hs _ hx => ⟨hs, hx⟩) fun _ hx => hx) fun preset => ?_
    rintro x ⟨hpreset, hx⟩
    exact lasts_switchTo hl h (Config.mem_presets_of_ofData hpreset) x hx
  | run program => exact .bind (lasts_run hl program) fun _ => lasts_pure _
  | tick time? =>
    exact .bind (lasts_composed hl (Executor.composed_tick (fun _ hf => hf) time?)) fun _ =>
      lasts_pure _
  | pause => exact .bind hpause fun _ => lasts_pure _
  | resume => exact .bind hresume fun _ => lasts_pure _
  | togglePause =>
    exact .bind (.bind lasts_look fun _ => .ite (fun _ => hresume) fun _ => hpause) fun _ =>
      lasts_pure _
  | stop =>
    exact .bind (lasts_composed hl (Executor.composed_stop fun _ hf => hf)) fun _ => lasts_pure _
  | reset =>
    exact .bind (.bind (lasts_change fun _ => ⟨rfl, rfl⟩) fun _ => lasts_reset hl h) fun _ =>
      lasts_pure _
  | setSpeed value => exact .bind (lasts_setSpeedData hl h value) fun _ => lasts_pure _
  | meanwhile f => exact .bind (lasts_change fun _ => ⟨rfl, rfl⟩) fun _ => lasts_pure _

end Listening

/-! ## Whatever directives there are -/

/-- What is built from directives keeps a lasting invariant. -/
theorem lasts_directing {m : Operation R (Desk R μ) α} (hm : Directing m) (h : Lasting J) :
    Lasts J m := by
  induction hm with
  | aside haside => exact lasts_aside haside
  | bind _ _ ihm ihf => exact .bind ihm ihf
  | direct hnote _ _ ihstate ihcompleted => exact lasts_make ⟨hnote, ihstate, ihcompleted⟩ h _

/-- **A lasting invariant** holds behind all directives, whether they fail or not. -/
theorem Lasting.attemptAll (h : Lasting J) {l : Listeners R μ} (hl : l.Direct)
    (is : List (Directive R μ)) {x : Host R (Desk R μ)} (hx : Upholds J x) :
    Upholds J (Directive.attemptAll l is x).2 := by
  have hkeep : Upholding l J := ⟨hl.note, fun s => lasts_directing (hl.stateChanged s) h,
    fun c => lasts_directing (hl.completed c) h⟩
  induction is generalizing x with
  | nil => exact hx
  | cons i is ih =>
    refine ih ?_
    have hmake := lasts_make hkeep h i x hx
    split at hmake
    · next hrun => rwa [hrun]
    · next hrun => rwa [hrun]

end Controller

end RobotBlocks
