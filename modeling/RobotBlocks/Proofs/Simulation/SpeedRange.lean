import RobotBlocks.Proofs.Number.Order
import RobotBlocks.Proofs.Simulation.Directives

/-!
# The speed and the bounds of the agent

Whoever sets the speed of a controller gets a speed within the bounds of its agent, and switching to
another agent sets the speed anew. A reset does not: it goes back to the default speed of the
configuration that the controller was built from, whatever agent there is by then. So at any time
the speed is within the bounds of the agent or it is that default speed (`Restorable`).

Hence the bounds are kept by all controllers that are built from a configuration exactly if its
default speed is within the bounds that the presets share (`admits_speed_iff`).
-/

namespace RobotBlocks

/-- The speed is within the bounds of the configuration. -/
def Config.Admits (c : Config Float) (speed : Float) : Prop :=
  c.minSpeed ≤ speed ∧ speed ≤ c.maxSpeed

namespace Config

variable {c c' : Config Float} {speed : Float}

instance instDecidableAdmits (c : Config Float) (speed : Float) : Decidable (c.Admits speed) :=
  inferInstanceAs (Decidable (_ ∧ _))

theorem EquallyFast.admits_iff (h : c.EquallyFast c') : c'.Admits speed ↔ c.Admits speed := by
  rw [Admits, Admits, h.minSpeed, h.maxSpeed]

/-- **Bringing a number between the bounds** makes it a speed within them, if there is any. -/
theorem admits_clampSpeed (h : c.minSpeed ≤ c.maxSpeed)
    (hspeed : Scalar.isUndefined speed = false) :
    c.Admits (c.clampSpeed speed) := by
  obtain ⟨hmin, hmax⟩ := Float.isNaN_of_le h
  obtain ⟨hnumber, -⟩ := Float.isNaN_of_beq (x := speed) (y := speed) (by
    simpa [Scalar.isUndefined] using hspeed)
  have hbetween : ∀ x : Float, x.isNaN = false → x ≤ c.maxSpeed →
      c.Admits (Scalar.max c.minSpeed x) := by
    intro x hx hle
    unfold Scalar.max
    split
    next hlt => exact ⟨Float.le_of_lt hmin hx hlt, hle⟩
    next => exact ⟨Float.le_refl hmin, h⟩
  rw [clampSpeed, hspeed, if_neg Bool.false_ne_true]
  unfold Scalar.min
  split
  next hlt => exact hbetween speed hnumber (Float.le_of_lt hnumber hmax hlt)
  next => exact hbetween c.maxSpeed hmax (Float.le_refl hmax)

theorem le_of_mem_presets (h : c ∈ presets) : c.minSpeed ≤ c.maxSpeed := by
  have hfast := equallyFast_of_mem_presets h
  rw [hfast.minSpeed, hfast.maxSpeed]
  decide

end Config

namespace Controller

/-- The agent of a controller is the one that it was built for or a preset, and its executor has
that agent. A reset goes back to the default speed of the configuration that the controller was
built from, and unless the speed is that one, it is within the bounds of the agent. -/
structure Restorable (built : Config Float) (s : RunSettings Float) (c : Config Float)
    (_obstacles : List (Obstacle Float)) : Prop where
  config : s.config = c
  known : c = built ∨ c ∈ Config.presets
  initial : s.initial.speed = built.defaultSpeed
  speed : c.Admits s.speed ∨ s.speed = built.defaultSpeed

/-- **Every directive** leaves a controller restorable. -/
theorem lasting_restorable {built : Config Float} (h : built.minSpeed ≤ built.maxSpeed) :
    Lasting (Restorable built) where
  reset _ _ _ hr := ⟨hr.config, hr.known, hr.initial, .inr hr.initial⟩
  setSpeed e value c _ hr hvalue := by
    refine ⟨hr.config, hr.known, hr.initial, .inl ?_⟩
    have hconfig : e.config = c := hr.config
    change c.Admits (e.config.clampSpeed value)
    rw [hconfig]
    rcases hr.known with rfl | hpreset
    · exact Config.admits_clampSpeed h hvalue
    · exact Config.admits_clampSpeed (Config.le_of_mem_presets hpreset) hvalue
  setObstacles _ _ _ _ hr := ⟨hr.config, hr.known, hr.initial, hr.speed⟩
  switch _ _ _ _ hpreset hr := ⟨rfl, .inr hpreset, hr.initial, .inr hr.initial⟩

variable {μ : Type} {c : Config Float} {h₀ : Host Float (Desk Float μ)}

/-- A new controller is restorable if the default speed of its configuration is within the bounds.
-/
theorem restorable_start {memory : μ} (hstart : start c memory = .ok h₀)
    (hdefault : c.Admits c.defaultSpeed) : Upholds (Restorable c) h₀ := by
  obtain ⟨e, he, rfl⟩ := Outcome.map_eq_ok.1 hstart
  obtain ⟨agent, -, rfl⟩ := Outcome.map_eq_ok.1 he
  exact ⟨rfl, .inl rfl, rfl, .inl hdefault⟩

/-! ## A reset behind a switch -/

/-- Nobody listens. -/
def nobody : Listeners Float μ := ⟨fun _ => 0.0, fun _ d => d, fun _ => pure (), fun _ => pure ()⟩

theorem direct_nobody : (nobody : Listeners Float μ).Direct where
  note _ d := ⟨d.memory, rfl⟩
  stateChanged _ := .aside fun _ _ _ hx => hx
  completed _ := .aside fun _ _ _ hx => hx

/-- **A reset behind a switch** to an agent goes back to the speed from before all switches. -/
theorem attemptAll_switch_reset {name : Data} {preset : Config Float}
    (hname : Config.ofData name = .ok preset) (h : Host Float (Desk Float μ)) :
    ∃ h', Directive.attemptAll nobody [.setAgent name, .reset] h =
        ([.ok .nothing, .ok .nothing], h') ∧
      h'.memory.config = preset ∧ h'.executor.speed = h.executor.initial.speed := by
  have hapart : Apart False (nobody : Listeners Float μ) :=
    ⟨fun _ d => ⟨d.memory, rfl⟩, fun _ _ _ _ hx => hx⟩
  have hswitch := beside_setAgent hapart hname h ⟨h.memory.memory, rfl⟩
  split at hswitch
  next _ h₁ hrun =>
    obtain ⟨memory, rfl⟩ := hswitch
    let e := (h.executor.switched preset).atSpeed h.executor.speed
    have hinitial : e.initial.speed = h.executor.initial.speed := by
      change ((h.executor.switched preset).atSpeed h.executor.speed).initial.speed = _
      unfold Executor.atSpeed
      split <;> rfl
    have hset : (Directive.setAgent name).make nobody h =
        .ok .nothing ⟨e, { h.memory with config := preset, memory }⟩ := run_bind_of_ok hrun
    refine ⟨⟨e.restored, { h.memory with config := preset, memory, executedSteps := 0 }⟩, ?_, rfl,
      hinitial⟩
    simp only [Directive.attemptAll, Directive.attempt, hset]
    rfl
  · exact hswitch.1.elim

/-! ## Main result -/

/-- **Which controllers keep the bounds of their agents.** Let a controller be built from a
configuration whose default speed is within its bounds. Whatever directives it is given, by its host
or by its listeners, its speed is within the bounds of its agent or the default speed of that
configuration. It is within the bounds behind all directives that succeed, for all listeners,
exactly if that default speed is within the bounds that the presets share. -/
theorem admits_speed_iff {memory : μ} (hdefault : c.Admits c.defaultSpeed)
    (hstart : start c memory = .ok h₀) :
    (∀ l : Listeners Float μ, l.Direct → ∀ is,
      let h := (Directive.attemptAll l is h₀).2
      h.memory.config.Admits h.executor.speed ∨ h.executor.speed = c.defaultSpeed) ∧
    ((∀ l : Listeners Float μ, l.Direct → ∀ is,
      let (outcomes, h) := Directive.attemptAll l is h₀
      (∀ outcome ∈ outcomes, outcome.isOk) → h.memory.config.Admits h.executor.speed) ↔
      (Config.robot : Config Float).Admits c.defaultSpeed) := by
  have hbounds : c.minSpeed ≤ c.maxSpeed := Float.le_trans hdefault.1 hdefault.2
  have hrestorable : ∀ l : Listeners Float μ, l.Direct → ∀ is,
      Upholds (Restorable c) (Directive.attemptAll l is h₀).2 := fun l hl is =>
    (lasting_restorable hbounds).attemptAll hl is (restorable_start hstart hdefault)
  refine ⟨fun l hl is => (hrestorable l hl is).speed, fun hall => ?_, fun hrobot l hl is _ => ?_⟩
  · have hname : Config.ofData (.text "") = .ok (Config.ofName "" : Config Float) := rfl
    obtain ⟨h', hruns, hconfig, hspeed⟩ := attemptAll_switch_reset hname h₀
    have hadmits := hall nobody direct_nobody [.setAgent (.text ""), .reset]
    rw [hruns] at hadmits
    have hinitial : h₀.executor.initial.speed = c.defaultSpeed :=
      (restorable_start hstart hdefault).initial
    rw [← (Config.equallyFast_of_mem_presets (Config.ofName_mem_presets "")).admits_iff, ← hconfig,
      ← hinitial, ← hspeed]
    exact hadmits (by simp [Except.isOk, Except.toBool])
  · obtain ⟨-, hknown, -, hadmits | hspeed⟩ := hrestorable l hl is
    · exact hadmits
    · have hsame : (Directive.attemptAll l is h₀).2.executor.speed = c.defaultSpeed := hspeed
      rw [hsame]
      rcases hknown with hbuilt | hpreset
      · rw [hbuilt]
        exact hdefault
      · rwa [(Config.equallyFast_of_mem_presets hpreset).admits_iff]

theorem admits_speed_robot :
    (Config.robot : Config Float).Admits (Config.robot : Config Float).defaultSpeed ∧
      ∃ h₀ : Host Float (Desk Float Unit), start Config.robot () = .ok h₀ ∧
        ∀ l : Listeners Float Unit, l.Direct → ∀ is,
          let (outcomes, h) := Directive.attemptAll l is h₀
          (∀ outcome ∈ outcomes, outcome.isOk) → h.memory.config.Admits h.executor.speed := by
  have hdefault :
      (Config.robot : Config Float).Admits (Config.robot : Config Float).defaultSpeed := by
    decide +kernel
  obtain ⟨h₀, hstart⟩ : ∃ h, start (Config.robot : Config Float) () = .ok h := ⟨_, rfl⟩
  exact ⟨hdefault, h₀, hstart, (admits_speed_iff hdefault hstart).2.2 hdefault⟩

/-- An agent that is faster than all presets. -/
def swift : Config Float :=
  { (Config.robot : Config Float) with minSpeed := 4.0, maxSpeed := 6.0, defaultSpeed := 5.0 }

/-- Not all controllers keep the bounds: one that is built for the swift agent and is then switched
to the fish has the speed of the swift agent after a reset. -/
theorem not_admits_speed :
    ¬ ∀ (c : Config Float) (l : Listeners Float Unit) (h₀ : Host Float (Desk Float Unit))
      (is : List (Directive Float Unit)), c.Admits c.defaultSpeed → l.Direct →
        start c () = .ok h₀ → (∀ outcome ∈ (Directive.attemptAll l is h₀).1, outcome.isOk) →
        (Directive.attemptAll l is h₀).2.memory.config.Admits
          (Directive.attemptAll l is h₀).2.executor.speed := by
  intro hall
  obtain ⟨h₀, hstart⟩ : ∃ h, start swift () = .ok h := ⟨_, rfl⟩
  have hspeed : h₀.executor.initial.speed = 5.0 := by
    cases hstart
    rfl
  have hname : Config.ofData (.text "Fish") = .ok (Config.ofName "Fish" : Config Float) := rfl
  obtain ⟨h, hruns, hconfig, hreset⟩ := attemptAll_switch_reset hname h₀
  have hadmits := hall swift nobody h₀ [.setAgent (.text "Fish"), .reset] (by decide +kernel)
    direct_nobody hstart (by simp [hruns, Except.isOk, Except.toBool])
  rw [hruns] at hadmits
  rw [hconfig, hreset, hspeed,
    (Config.equallyFast_of_mem_presets (Config.ofName_mem_presets "Fish")).admits_iff] at hadmits
  exact absurd hadmits (by decide +kernel)

end Controller

end RobotBlocks
