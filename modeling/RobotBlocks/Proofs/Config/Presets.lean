import RobotBlocks.Scene.Agent
import RobotBlocks.Config.Basic

/-!
# What presets have in common

Whatever names an agent names a preset (`mem_presets_of_ofData`). Presets have a size that is a size
(`exists_agentSize`), and they set the same defaults and limits (`alike_of_mem_presets`) and the same
speeds (`equallyFast_of_mem_presets`). All of them but the golem have the timing of the box robot, too
(`synchronous_of_mem_presets`).
-/

namespace RobotBlocks

namespace Config

variable {R : Type} [Scalar R] {c : Config R}

theorem ofName_mem_presets (name : Text) : (ofName name : Config R) ∈ presets := by
  unfold ofName
  rcases hfind : (presets : List (Config R)).find? _ with _ | c
  · simp [presets]
  · exact List.mem_of_find?_eq_some hfind

/-- **Whatever names an agent names a preset.** -/
theorem mem_presets_of_ofData {name : Data} (h : ofData name = .ok c) : c ∈ presets := by
  unfold ofData at h
  split at h
  · cases h
    exact ofName_mem_presets _
  · split at h
    · cases h
    · cases h
      exact ofName_mem_presets _

theorem exists_agentSize (h : c ∈ presets) : ∃ size, AgentSize.ofList c.agentSize = .ok size := by
  simp only [presets, List.mem_cons, List.not_mem_nil, or_false] at h
  rcases h with rfl | rfl | rfl | rfl | rfl | rfl <;> exact ⟨_, rfl⟩

/-- The configurations set the same defaults and limits. -/
structure Alike (c c' : Config R) : Prop where
  defaultInputs : c'.defaultInputs = c.defaultInputs
  maxRepeat : c'.maxRepeat = c.maxRepeat
  maxVisits : c'.maxVisits = c.maxVisits

theorem alike_of_mem_presets (h : c ∈ presets) : (robot : Config R).Alike c := by
  simp only [presets, List.mem_cons, List.not_mem_nil, or_false] at h
  rcases h with rfl | rfl | rfl | rfl | rfl | rfl <;> exact ⟨rfl, rfl, rfl⟩

/-- The configurations set the same bounds to the speed, and the same default. -/
structure EquallyFast (c c' : Config R) : Prop where
  minSpeed : c'.minSpeed = c.minSpeed
  maxSpeed : c'.maxSpeed = c.maxSpeed
  defaultSpeed : c'.defaultSpeed = c.defaultSpeed

theorem equallyFast_of_mem_presets (h : c ∈ presets) : (robot : Config R).EquallyFast c := by
  simp only [presets, List.mem_cons, List.not_mem_nil, or_false] at h
  rcases h with rfl | rfl | rfl | rfl | rfl | rfl <;> exact ⟨rfl, rfl, rfl⟩

/-- The configurations have the same timing. -/
structure Synchronous (c c' : Config R) : Prop where
  moveDuration : c'.moveDuration = c.moveDuration
  turnDuration : c'.turnDuration = c.turnDuration
  waitPerSecond : c'.waitPerSecond = c.waitPerSecond

theorem synchronous_of_mem_presets (h : c ∈ presets) (hname : c.name ≠ "Lava Golem") :
    (robot : Config R).Synchronous c := by
  simp only [presets, List.mem_cons, List.not_mem_nil, or_false] at h
  rcases h with rfl | rfl | rfl | rfl | rfl | rfl
  case inr.inr.inr.inr.inl => exact absurd rfl hname
  all_goals exact ⟨rfl, rfl, rfl⟩

end Config

end RobotBlocks
