import RobotBlocks.Proofs.Outcome
import RobotBlocks.Proofs.Scene.Contact

/-!
# Contact by boxes

Whether the agent touches an obstacle can be asked in two ways: whether its position lies in the
obstacle grown by its footprint (`Footprint.touches`), and whether its own box meets the box of the
obstacle (`Box.intersects`). In exact numbers the two agree (`touches_eq_intersects`), also for
extents that are zero or negative: each of the six comparisons of one test is one of the other with
a summand brought to the other side. So a scene can be judged by the boxes that are shown of it
(`overlapping_eq_boxes`).
-/

namespace RobotBlocks

/-- Whether two boxes meet does not depend on their order, for numbers of any kind. -/
theorem Box.intersects_comm {R : Type} [Scalar R] (a b : Box R) :
    a.intersects b = b.intersects a := by
  simp only [intersects]
  ac_rfl

variable {K : Type} [Field K] [LinearOrder K] [IsStrictOrderedRing K] [Measures K]

/-- **The two tests agree** on every obstacle. -/
theorem Footprint.touches_eq_intersects (f : Footprint K) (p : Point K) (o : Obstacle K) :
    f.touches p o = (f.bounds p).intersects o.bounds := by
  rw [Bool.eq_iff_iff]
  simp only [touches, Box.contains, grow, Box.intersects, bounds, Bool.and_eq_true]
  simp only [sub_le_iff_le_add]
  tauto

/-- A height is a number for one operation if it is for another, and the same one. -/
theorem AgentSize.heightFor_eq_ok {R : Type} [Scalar R] {s : AgentSize R} {operation : String}
    {height : R} (h : s.heightFor operation = .ok height) (operation' : String) :
    s.heightFor operation' = .ok height := by
  unfold heightFor at h ⊢
  split at h
  · exact h
  · exact h
  next raw _ =>
    split at h
    next n hn => simpa [hn] using h
    · cases h

namespace Scene

variable {s : Scene K} {p : Point K} {box : Box K}

omit [Field K] [LinearOrder K] [IsStrictOrderedRing K] [Measures K] in
/-- Each obstacle has a tag. -/
theorem mem_obstacles_iff {o : Obstacle K} : o ∈ s.obstacles ↔ ∃ tag, (o, tag) ∈ s.tagged := by
  have htags : s.tagged.map (·.1) = s.obstacles := List.zipIdx_map_fst s.firstTag s.obstacles
  simp [← htags]

omit [IsStrictOrderedRing K] in
/-- The box of the agent is that of its footprint. -/
theorem footprint_of_agentBounds (h : s.agentBounds p = .ok box) :
    ∃ f, s.agent.footprint "-" = .ok f ∧ f.bounds p = box := by
  obtain ⟨f, hf, hbox⟩ := Outcome.map_eq_ok.1 h
  obtain ⟨height, hheight, rfl⟩ := Outcome.map_eq_ok.1 hf
  refine ⟨_, ?_, hbox⟩
  rw [AgentSize.footprint, AgentSize.heightFor_eq_ok hheight]
  rfl

/-- **The obstacles that the agent touches** are those whose boxes meet the box of the agent, and it
collides exactly if there is one. The box of an agent whose size is given in numbers is always
there, and it does not matter which box is asked about the other. -/
theorem overlapping_eq_boxes (s : Scene K) (p : Point K) :
    (∀ box, s.agentBounds p = .ok box →
      s.overlapping p =
        .ok ((s.tagged.filter fun o => box.intersects o.1.bounds).map (·.2)) ∧
      ∃ collides, s.collides p = .ok collides ∧
        (collides = true ↔ ∃ o ∈ s.obstacles, box.intersects o.bounds = true)) ∧
    (∀ width height depth, s.agent = .ofNumbers width height depth →
      ∃ box, s.agentBounds p = .ok box) ∧
    ∀ a b : Box K, a.intersects b = b.intersects a := by
  refine ⟨fun box hbox => ?_, fun width height depth hagent => ?_, Box.intersects_comm⟩
  · obtain ⟨f, hf, rfl⟩ := footprint_of_agentBounds hbox
    have htests : (fun o : Obstacle K × ℕ => f.touches p o.1) =
        fun o => (f.bounds p).intersects o.1.bounds :=
      funext fun o => f.touches_eq_intersects p o.1
    have hoverlapping : s.overlapping p =
        .ok ((s.tagged.filter fun o => (f.bounds p).intersects o.1.bounds).map (·.2)) := by
      unfold overlapping
      split
      next hnone => simp [tagged, List.isEmpty_iff.1 hnone]
      · rw [hf, ← htests]
        rfl
    refine ⟨hoverlapping, _, by rw [collides, hoverlapping]; rfl, ?_⟩
    simp [mem_obstacles_iff]
  · rw [agentBounds, hagent]
    exact ⟨_, rfl⟩

/-- A scene with a step, whose height is negative, and a pillar out of reach. -/
def invertedStep : Scene ℚ :=
  .of [⟨⟨1, 1 / 2, 0⟩, ⟨1, -1 / 2, 1⟩⟩, ⟨⟨5, 0, 5⟩, ⟨1, 4, 1⟩⟩] (.ofNumbers 1 1 (3 / 2))

/-- The agent beside the step touches it and nothing else, as their boxes do, upside down as one of
them is. -/
theorem overlapping_eq_boxes_invertedStep :
    ∃ box, invertedStep.agentBounds ⟨0, 0, 0⟩ = .ok box ∧
      invertedStep.overlapping ⟨0, 0, 0⟩ =
        .ok ((invertedStep.tagged.filter fun o => box.intersects o.1.bounds).map (·.2)) ∧
      invertedStep.overlapping ⟨0, 0, 0⟩ = .ok [0] ∧
      ∃ o ∈ invertedStep.obstacles, box.intersects o.bounds = true := by
  obtain ⟨hboxes, hbounds, -⟩ := overlapping_eq_boxes invertedStep ⟨0, 0, 0⟩
  obtain ⟨box, hbox⟩ := hbounds 1 1 (3 / 2) rfl
  obtain ⟨hoverlapping, collides, hcollides, hiff⟩ := hboxes box hbox
  have htrue : invertedStep.collides ⟨0, 0, 0⟩ = .ok true := by decide +kernel
  obtain rfl : collides = true := by
    rw [hcollides] at htrue
    cases htrue
    rfl
  exact ⟨box, hbox, hoverlapping, by decide +kernel, hiff.1 rfl⟩

end Scene

end RobotBlocks
