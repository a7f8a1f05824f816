import RobotBlocks.Proofs.Number.Exact
import RobotBlocks.Motion.Geometry

/-!
# Easing in exact numbers

In exact numbers the covered part of a movement grows with its time (`ease_mono`): nothing is
covered before the movement begins, all of it from its end on, and between them the two cubic pieces
meet in the middle. The second piece mirrors the first (`ease_add_ease_one_sub`), and something is
covered as soon as the movement has begun (`ease_pos`), so it is not over before its time
(`ease_lt_one`). `ease_is_symmetric_step` has all of this together.
-/

namespace RobotBlocks

variable {K : Type} [Field K] [LinearOrder K] [Measures K]

theorem clamp_eq (t low high : K) : clamp t low high = max low (min high t) := by
  rw [clamp, Scalar.max_eq, Scalar.min_eq]

/-- Easing is one of two cubics, of the time brought between zero and one. -/
theorem ease_eq (t : K) : ease t =
    if max 0 (min 1 t) < 1 / 2 then 4 * max 0 (min 1 t) * max 0 (min 1 t) * max 0 (min 1 t)
    else 1 - (-2 * max 0 (min 1 t) + 2) ^ 3 / 2 := by
  have hclamp : clamp t (Scalar.ofNat 0) (Scalar.ofNat 1) = max 0 (min 1 t) := by
    rw [clamp_eq, Scalar.ofNat_eq_cast, Scalar.ofNat_eq_cast, Nat.cast_zero, Nat.cast_one]
  unfold ease
  simp only [hclamp]
  simp only [Scalar.ratio, Scalar.ofNat_eq_cast, Nat.cast_one, Nat.cast_ofNat]
  rfl

variable [IsStrictOrderedRing K]

/-- Nothing is covered before the movement begins. -/
theorem ease_of_nonpos {t : K} (h : t ≤ 0) : ease t = 0 := by
  rw [ease_eq, min_eq_right (h.trans zero_le_one), max_eq_left h, if_pos one_half_pos]
  ring

/-- All is covered when the movement ends. -/
theorem ease_of_one_le {t : K} (h : 1 ≤ t) : ease t = 1 := by
  rw [ease_eq, min_eq_left h, max_eq_right zero_le_one, if_neg (not_lt.2 one_half_lt_one.le)]
  ring

/-- The slow beginning. -/
theorem ease_of_lt_half {t : K} (h0 : 0 ≤ t) (h : t < 1 / 2) : ease t = 4 * t ^ 3 := by
  rw [ease_eq, min_eq_right (h.le.trans one_half_lt_one.le), max_eq_right h0, if_pos h]
  ring

/-- The slow end, which mirrors the beginning. -/
theorem ease_of_half_le {t : K} (h : 1 / 2 ≤ t) (h1 : t ≤ 1) : ease t = 1 - 4 * (1 - t) ^ 3 := by
  rw [ease_eq, min_eq_right h1, max_eq_right (one_half_pos.le.trans h), if_neg (not_lt.2 h)]
  ring

/-- The two pieces meet in the middle. -/
theorem ease_le_half {t : K} (h0 : 0 ≤ t) (h : t < 1 / 2) : ease t ≤ 1 / 2 := by
  have hcube : t ^ 3 ≤ (1 / 2) ^ 3 := pow_le_pow_left₀ h0 h.le 3
  rw [ease_of_lt_half h0 h]
  linarith

theorem half_le_ease {t : K} (h : 1 / 2 ≤ t) (h1 : t ≤ 1) : 1 / 2 ≤ ease t := by
  have hcube : (1 - t) ^ 3 ≤ (1 / 2) ^ 3 := pow_le_pow_left₀ (by linarith) (by linarith) 3
  rw [ease_of_half_le h h1]
  linarith

/-- Easing within the time of the movement does not go back. -/
theorem ease_le_ease {s t : K} (h0 : 0 ≤ s) (h : s ≤ t) (h1 : t ≤ 1) : ease s ≤ ease t := by
  rcases lt_or_ge t (1 / 2) with ht | ht
  · rw [ease_of_lt_half h0 (h.trans_lt ht), ease_of_lt_half (h0.trans h) ht]
    have := pow_le_pow_left₀ h0 h 3
    linarith
  · rcases lt_or_ge s (1 / 2) with hs | hs
    · exact (ease_le_half h0 hs).trans (half_le_ease ht h1)
    · rw [ease_of_half_le hs (h.trans h1), ease_of_half_le ht h1]
      have := pow_le_pow_left₀ (sub_nonneg.2 h1) (sub_le_sub_left h 1) 3
      linarith

theorem ease_nonneg (t : K) : 0 ≤ ease t := by
  rcases le_total t 0 with h | h0
  · exact (ease_of_nonpos h).ge
  · rcases le_total t 1 with h1 | h1
    · exact (ease_of_nonpos le_rfl).ge.trans (ease_le_ease le_rfl h0 h1)
    · exact zero_le_one.trans (ease_of_one_le h1).ge

theorem ease_le_one (t : K) : ease t ≤ 1 := by
  rcases le_total t 1 with h1 | h1
  · rcases le_total t 0 with h | h0
    · exact (ease_of_nonpos h).le.trans zero_le_one
    · exact (ease_le_ease h0 h1 le_rfl).trans (ease_of_one_le le_rfl).le
  · exact (ease_of_one_le h1).le

/-- **The covered part never goes back**, whatever the times. -/
theorem ease_mono {s t : K} (h : s ≤ t) : ease s ≤ ease t := by
  rcases le_total s 0 with hs | h0
  · exact (ease_of_nonpos hs).le.trans (ease_nonneg t)
  · rcases le_total t 1 with h1 | ht
    · exact ease_le_ease h0 h h1
    · exact (ease_le_one s).trans (ease_of_one_le ht).ge

/-- The slow end mirrors the slow beginning. -/
theorem ease_add_ease_one_sub_of_lt_half {t : K} (h : t < 1 / 2) : ease t + ease (1 - t) = 1 := by
  rcases le_total t 0 with h0 | h0
  · rw [ease_of_nonpos h0, ease_of_one_le (by linarith), zero_add]
  · rw [ease_of_lt_half h0 h, ease_of_half_le (by linarith) (by linarith)]
    ring

/-- **Easing is symmetric** about the middle, whatever the time. -/
theorem ease_add_ease_one_sub (t : K) : ease t + ease (1 - t) = 1 := by
  rcases lt_trichotomy t (1 / 2) with h | rfl | h
  · exact ease_add_ease_one_sub_of_lt_half h
  · rw [ease_of_half_le le_rfl one_half_lt_one.le, ease_of_half_le (by linarith) (by linarith)]
    ring
  · have hmirror := ease_add_ease_one_sub_of_lt_half (t := 1 - t) (by linarith)
    rwa [sub_sub_cancel, add_comm] at hmirror

/-- Something is covered as soon as the movement has begun. -/
theorem ease_pos {t : K} (h : 0 < t) : 0 < ease t := by
  rcases lt_or_ge t (1 / 2) with ht | ht
  · rw [ease_of_lt_half h.le ht]
    positivity
  · exact one_half_pos.trans_le ((half_le_ease le_rfl one_half_lt_one.le).trans (ease_mono ht))

/-- Something is left as long as the movement lasts. -/
theorem ease_lt_one {t : K} (h : t < 1) : ease t < 1 := by
  have hrest : 0 < ease (1 - t) := ease_pos (sub_pos.2 h)
  have hsum := ease_add_ease_one_sub t
  linarith

/-- **Easing is a clamped symmetric step.** The covered part stays between none and all and never
goes back, the part that is left at a time is covered at the mirrored time, nothing is covered
exactly up to the beginning of the movement, and all of it exactly from the end on. -/
theorem ease_is_symmetric_step {s t : K} (h : s ≤ t) :
    0 ≤ ease s ∧ ease s ≤ ease t ∧ ease t ≤ 1 ∧ ease t + ease (1 - t) = 1 ∧
      (ease t = 0 ↔ t ≤ 0) ∧ (ease t = 1 ↔ 1 ≤ t) := by
  refine ⟨ease_nonneg s, ease_mono h, ease_le_one t, ease_add_ease_one_sub t, ⟨?_, ease_of_nonpos⟩,
    ⟨?_, ease_of_one_le⟩⟩
  · intro hzero
    by_contra hpos
    exact (ease_pos (not_le.1 hpos)).ne' hzero
  · intro hone
    by_contra hlt
    exact (ease_lt_one (not_le.1 hlt)).ne hone

theorem ease_is_symmetric_step_quarters :
    (1 / 4 : ℚ) ≤ 3 / 4 ∧ 0 ≤ ease (1 / 4 : ℚ) ∧ ease (1 / 4 : ℚ) ≤ ease (3 / 4) ∧
      ease (3 / 4 : ℚ) ≤ 1 ∧ ease (3 / 4 : ℚ) + ease (1 - 3 / 4) = 1 ∧
      (ease (3 / 4 : ℚ) = 0 ↔ (3 / 4 : ℚ) ≤ 0) ∧ (ease (3 / 4 : ℚ) = 1 ↔ 1 ≤ (3 / 4 : ℚ)) :=
  have h : (1 / 4 : ℚ) ≤ 3 / 4 := by norm_num
  ⟨h, ease_is_symmetric_step h⟩

end RobotBlocks
