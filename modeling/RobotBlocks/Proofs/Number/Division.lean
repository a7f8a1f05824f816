import RobotBlocks.Proofs.Number.Order
import RobotBlocks.Proofs.Number.Value

/-!
# Quotients of at least one

A double that is at least as great as its positive divisor has a quotient of at least one
(`Float.one_le_div`), although the quotient is rounded. The mantissas of both have full precision, or
the least exponent (`Float.Canonical`); so before it is rounded the quotient has full precision or one
bit more (`Float.exists_divCore_eq`), and rounding may raise the exponent of such a number, but does not
lower it (`Float.exists_roundWithAccuracy_eq`).
-/

namespace RobotBlocks

open Float.Model Binary

namespace Float

/-! ## Taking doubles apart and putting them together -/

/-- The mantissa has full precision, or the exponent is the least one. -/
def Canonical (mantissa : ℕ) (exponent : ℤ) : Prop :=
  (mantissa.log2 = 52 ∧ -1074 ≤ exponent) ∨ (mantissa.log2 < 52 ∧ exponent = -1074)

theorem canonical_of_unpack {x : Float} {s : UnpackedFloat.Sign} {m : ℕ} {e : ℤ} {h : 0 < m}
    (hx : x.toModel.unpack = .finite s m e h) : Canonical m e := by
  change UnpackedFloat.unpack Format.binary64 x.toModel.toBits.toBitVec = _ at hx
  generalize x.toModel.toBits.toBitVec = b at hx
  unfold UnpackedFloat.unpack at hx
  have hmantissa := (mantissaOf b).isLt
  dsimp only at hx
  split at hx
  · split at hx <;> cases hx
  · split at hx
    next hexponent =>
      split at hx
      · cases hx
      · cases hx
        refine .inr ⟨(Nat.log2_lt (by omega)).2 hmantissa, ?_⟩
        rw [hexponent]
        decide
    next hexponent =>
      cases hx
      have hleading := toNat_leading_append (mantissaOf b)
      refine .inl ⟨?_, ?_⟩
      · have hbit : leadingBit = 2 ^ 52 := rfl
        change (1#1 ++ mantissaOf b).toNat.log2 = 52
        rw [hleading, Nat.log2_eq_iff (by omega), hbit]
        omega
      · have hpos : 0 < (exponentOf b).toNat := by
          rw [Nat.pos_iff_ne_zero]
          exact fun hzero => hexponent (BitVec.eq_of_toNat_eq hzero)
        change -1074 ≤ ((exponentOf b).toNat : ℤ) - 1075
        omega

/-- **A number of full precision** is packed as it is, unless it is too large. -/
theorem unpack_pack {s : UnpackedFloat.Sign} {m : ℕ} {e : ℤ} {h : 0 < m} (hm : m.log2 = 52)
    (he : -1074 ≤ e) :
    (Float.Model.pack (.finite s m e h)).unpack =
      if 971 < e then .infinity s else .finite s m e h := by
  change UnpackedFloat.unpack Format.binary64 (UnpackedFloat.pack Format.binary64 _) = _
  unfold UnpackedFloat.pack
  change UnpackedFloat.unpack Format.binary64 (if 2048 ≤ (e + 1023 + 52).toNat + 1 then
      UnpackedFloat.packedInfinity Format.binary64 s else
    if m.log2 + 1 = 53 then UnpackedFloat.packComponents Format.binary64 s
      (BitVec.ofNat 11 (e + 1023 + 52).toNat) (BitVec.ofNat 52 m) else _) = _
  by_cases hlarge : 971 < e
  · rw [if_pos (by omega), if_pos hlarge]
    cases s <;> rfl
  · rw [if_neg (by omega), if_pos (by omega), if_neg hlarge]
    have hbounds := (Nat.log2_eq_iff (by omega)).1 hm
    have hexponent : (BitVec.ofNat 11 (e + 1023 + 52).toNat).toNat = (e + 1075).toNat := by
      rw [BitVec.toNat_ofNat]
      omega
    unfold UnpackedFloat.unpack
    simp only [UnpackedFloat.unpackExponent_packComponents,
      UnpackedFloat.unpackMantissa_packComponents, UnpackedFloat.unpackSign_packComponents,
      UnpackedFloat.Sign.ofBitVec_toBitVec]
    rw [if_neg, if_neg]
    · congr 1
      · have hbit : leadingBit = 2 ^ 52 := rfl
        have hleading := toNat_leading_append (BitVec.ofNat 52 m)
        rw [BitVec.toNat_ofNat, hbit] at hleading
        refine hleading.trans ?_
        omega
      · rw [hexponent]
        change ((e + 1075).toNat : ℤ) - 1075 = e
        omega
    · intro hzero
      rw [hzero] at hexponent
      change 0 = _ at hexponent
      omega
    · intro hones
      rw [hones] at hexponent
      change 2047 = _ at hexponent
      omega

/-! ## Rounding -/

section Rounding

open UnpackedFloat

/-- Bits beyond full precision are shifted out. -/
theorem shiftToTargetExponent_eq {m k : ℕ} {e : ℤ} (hm : m.log2 = 52 + k) (he : -1074 ≤ e)
    (accuracy : Accuracy) :
    shiftToTargetExponent Format.binary64 m e accuracy =
      (ExtendedMantissa.ofMantissaAndAccuracy m accuracy >>> k, e + k) := by
  have htarget : Format.binary64.targetExponent (totalExponent m e) = e + k := by
    change max ((m.log2 : ℤ) + 1 + e - 53) (-1074) = e + k
    rw [hm]
    omega
  have hshift : (e + (k : ℤ) - e).toNat = k := by omega
  rw [shiftToTargetExponent, htarget, shiftToExponent, hshift]

theorem mantissa_ofMantissaAndAccuracy (m : ℕ) (accuracy : Accuracy) :
    (ExtendedMantissa.ofMantissaAndAccuracy m accuracy).mantissa = m := by
  rcases accuracy with _ | (_ | _ | _) <;> rfl

/-- Rounding leaves the mantissa as it is, or takes the next one. -/
theorem le_roundedMantissa (em : ExtendedMantissa) :
    em.mantissa ≤ em.roundedMantissa ∧ em.roundedMantissa ≤ em.mantissa + 1 := by
  obtain ⟨m, round, sticky⟩ := em
  cases round <;> cases sticky <;>
    simp only [ExtendedMantissa.roundedMantissa, ExtendedMantissa.accuracy,
      Accuracy.roundToNearestEven] <;> omega

theorem log2_mantissa_shift {em : ExtendedMantissa} {k : ℕ} (hk : k ≤ 1)
    (hem : em.mantissa.log2 = 52 + k) : (em >>> k).mantissa.log2 = 52 := by
  interval_cases k
  · exact hem
  · have hpos : em.mantissa ≠ 0 := fun hzero => by simp [hzero] at hem
    have hbounds := (Nat.log2_eq_iff hpos).1 hem
    change (em.mantissa / 2).log2 = 52
    exact (Nat.log2_eq_iff (by omega)).2 (by omega)

/-- **Rounding** a number that has full precision, or one bit more, gives one of full precision whose
exponent is no lower. -/
theorem exists_roundWithAccuracy_eq (s : Sign) {m k : ℕ} {e : ℤ} (hk : k ≤ 1)
    (hm : m.log2 = 52 + k) (he : -1074 ≤ e) (accuracy : Accuracy) :
    ∃ m' e' h, roundWithAccuracy Format.binary64 s m e accuracy = .finite s m' e' h ∧
      m'.log2 = 52 ∧ e + k ≤ e' := by
  let em := ExtendedMantissa.ofMantissaAndAccuracy m accuracy >>> k
  have hem : em.mantissa.log2 = 52 :=
    log2_mantissa_shift hk (by rwa [mantissa_ofMantissaAndAccuracy])
  obtain ⟨hlow, hhigh⟩ := le_roundedMantissa em
  -- Rounding up can carry into one bit more; that is shifted out again.
  obtain ⟨k', hk', hrounded⟩ : ∃ k', k' ≤ 1 ∧ em.roundedMantissa.log2 = 52 + k' := by
    have hpos : em.mantissa ≠ 0 := fun hzero => by simp [hzero] at hem
    have hbounds := (Nat.log2_eq_iff hpos).1 hem
    by_cases hcarry : em.roundedMantissa = 2 ^ 53
    · exact ⟨1, le_rfl, by rw [hcarry]; decide⟩
    · exact ⟨0, by omega, (Nat.log2_eq_iff (by omega)).2 (by omega)⟩
  let em' := ExtendedMantissa.ofMantissaAndAccuracy em.roundedMantissa .exact >>> k'
  have hem' : em'.mantissa.log2 = 52 :=
    log2_mantissa_shift hk' (by rwa [mantissa_ofMantissaAndAccuracy])
  have hpos : em'.mantissa ≠ 0 := fun hzero => by simp [hzero] at hem'
  refine ⟨em'.mantissa, e + k + k', Nat.pos_of_ne_zero hpos, ?_, hem', by omega⟩
  rw [roundWithAccuracy, shiftToTargetExponent_eq hm he]
  dsimp only
  rw [shiftToTargetExponent_eq hrounded (by omega)]
  exact dif_neg hpos

end Rounding

/-! ## Comparing positive numbers -/

/-- A positive double that is finite. -/
theorem exists_unpack_of_pos {d : Float} (hpos : 0.0 < d) (hfinite : d.isFinite = true) :
    ∃ m e h, d.toModel.unpack = .finite .positive m e h := by
  change d.toModel.unpack.isFinite = true at hfinite
  rw [lt_iff_compare] at hpos
  generalize d.toModel.unpack = a at hpos hfinite
  rcases a with _ | _ | _ | ⟨_ | _, m, e, hm⟩
  case finite.positive => exact ⟨m, e, hm, rfl⟩
  case finite.negative | zero => cases hpos
  all_goals cases hfinite

/-- A double that is no less is infinite, or its exponent and then its mantissa are no less. -/
theorem unpack_cases_of_le {x d : Float} {m : ℕ} {e : ℤ} {hm : 0 < m}
    (hd : d.toModel.unpack = .finite .positive m e hm) (h : d ≤ x) :
    x.toModel.unpack = .infinity .positive ∨
      ∃ m' e' hm', x.toModel.unpack = .finite .positive m' e' hm' ∧ (e < e' ∨ e = e' ∧ m ≤ m') := by
  rw [le_iff_compare, hd] at h
  rcases hx : x.toModel.unpack with (_ | _) | _ | _ | ⟨_ | _, m', e', hm'⟩ <;> rw [hx] at h
  · cases h
  · exact .inl rfl
  · cases h
  · cases h
  · cases h
  · refine .inr ⟨m', e', hm', rfl, ?_⟩
    change ((compare e e').then (compare m m')).isLE = true at h
    rcases lt_trichotomy e e' with hlt | rfl | hgt
    · exact .inl hlt
    · rw [compare_eq_iff_eq.2 rfl, Ordering.eq_then, Nat.isLE_compare] at h
      exact .inr ⟨rfl, h⟩
    · rw [compare_gt_iff_gt.2 hgt] at h
      cases h

theorem unpack_one : (1.0 : Float).toModel.unpack = .finite .positive (2 ^ 52) (-52) (by decide) :=
  rfl

/-- A double of full precision is at least one if its exponent is at least that of one. -/
theorem one_le_of_unpack {x : Float} {m : ℕ} {e : ℤ} {h : 0 < m} (hm : m.log2 = 52) (he : -52 ≤ e)
    (hx : x.toModel.unpack = .finite .positive m e h) : 1.0 ≤ x := by
  have hbounds := (Nat.log2_eq_iff (by omega)).1 hm
  rw [le_iff_compare, hx, unpack_one]
  change ((compare (-52) e).then (compare (2 ^ 52) m)).isLE = true
  rcases he.lt_or_eq with hlt | rfl
  · rw [compare_lt_iff_lt.2 hlt]
    rfl
  · rw [compare_eq_iff_eq.2 rfl, Ordering.eq_then, Nat.isLE_compare]
    exact hbounds.1

theorem one_le_of_unpack_infinity {x : Float} (hx : x.toModel.unpack = .infinity .positive) :
    1.0 ≤ x := by
  rw [le_iff_compare, hx]
  rfl

/-! ## Division -/

/-- The quotient of the mantissas has full precision, or one bit more; its exponent is that of a number
that is at least one. -/
theorem exists_divCore_eq {m₁ m₂ : ℕ} {e₁ e₂ : ℤ} (hm₁ : 0 < m₁) (hm₂ : 0 < m₂)
    (h₁ : Canonical m₁ e₁) (h₂ : Canonical m₂ e₂) (hle : e₂ < e₁ ∨ e₂ = e₁ ∧ m₂ ≤ m₁) :
    ∃ q t accuracy k, UnpackedFloat.divCore Format.binary64 m₁ e₁ m₂ e₂ = (q, t, accuracy) ∧
      k ≤ 1 ∧ q.log2 = 52 + k ∧ -52 ≤ t + k := by
  obtain ⟨hlow₁, hhigh₁⟩ := (Nat.log2_eq_iff hm₁.ne').1 rfl
  obtain ⟨hlow₂, hhigh₂⟩ := (Nat.log2_eq_iff hm₂.ne').1 rfl
  have hmono : m₂ ≤ m₁ → m₂.log2 ≤ m₁.log2 := fun hm =>
    (Nat.le_log2 hm₁.ne').2 (hlow₂.trans hm)
  unfold Canonical at h₁ h₂
  let s := 53 + m₂.log2 - m₁.log2
  let q := m₁ * 2 ^ s / m₂
  have hs : s + m₁.log2 = 53 + m₂.log2 := by omega
  have hcore : UnpackedFloat.divCore Format.binary64 m₁ e₁ m₂ e₂ =
      (q, e₁ - e₂ - s, UnpackedFloat.accuracyOfFraction (m₁ * 2 ^ s % m₂) m₂) := by
    have htarget : min (e₁ - e₂) (Format.binary64.targetExponent
        (totalExponent m₁ e₁ - totalExponent m₂ e₂)) = e₁ - e₂ - s := by
      change min (e₁ - e₂) (max ((m₁.log2 + 1 + e₁ : ℤ) - (m₂.log2 + 1 + e₂) - 53) (-1074)) = _
      omega
    have hshift : (e₁ - e₂ - (e₁ - e₂ - (s : ℤ))).toNat = s := by omega
    rw [UnpackedFloat.divCore, htarget, hshift, Nat.shiftLeft_eq]
  have hqlow : 2 ^ 52 ≤ q := by
    rw [Nat.le_div_iff_mul_le hm₂]
    calc 2 ^ 52 * m₂ ≤ 2 ^ 52 * 2 ^ (m₂.log2 + 1) := Nat.mul_le_mul_left _ hhigh₂.le
      _ = 2 ^ m₁.log2 * 2 ^ s := by
        rw [← pow_add, ← pow_add]
        congr 1
        omega
      _ ≤ m₁ * 2 ^ s := Nat.mul_le_mul_right _ hlow₁
  have hqhigh : q < 2 ^ 54 := by
    rw [Nat.div_lt_iff_lt_mul hm₂]
    calc m₁ * 2 ^ s < 2 ^ (m₁.log2 + 1) * 2 ^ s :=
          Nat.mul_lt_mul_of_pos_right hhigh₁ (Nat.two_pow_pos s)
      _ = 2 ^ 54 * 2 ^ m₂.log2 := by
        rw [← pow_add, ← pow_add]
        congr 1
        omega
      _ ≤ 2 ^ 54 * m₂ := Nat.mul_le_mul_left _ hlow₂
  by_cases hbit : q < 2 ^ 53
  · refine ⟨q, _, _, 0, hcore, by omega, (Nat.log2_eq_iff (by omega)).2 (by omega), ?_⟩
    -- With equal exponents the quotient of the mantissas would have the bit.
    have hne : ¬ (e₁ = e₂ ∧ m₁.log2 = m₂.log2) := by
      rintro ⟨rfl, hlog⟩
      have hs' : s = 53 := by omega
      have hm : m₂ ≤ m₁ := by omega
      have hq : 2 ^ 53 ≤ q := by
        rw [Nat.le_div_iff_mul_le hm₂, hs', Nat.mul_comm]
        exact Nat.mul_le_mul_right _ hm
      omega
    omega
  · exact ⟨q, _, _, 1, hcore, le_rfl, (Nat.log2_eq_iff (by omega)).2 (by omega), by omega⟩

/-- **A double that is at least as great as its divisor** has a quotient of at least one. -/
theorem one_le_div {x d : Float} (hpos : 0.0 < d) (hfinite : d.isFinite = true) (h : d ≤ x) :
    1.0 ≤ x / d := by
  obtain ⟨m₂, e₂, hm₂, hd⟩ := exists_unpack_of_pos hpos hfinite
  have hquotient : (x / d).toModel =
    .pack (UnpackedFloat.div Format.binary64 x.toModel.unpack d.toModel.unpack) := rfl
  rcases unpack_cases_of_le hd h with hx | ⟨m₁, e₁, hm₁, hx, hle⟩
  · apply one_le_of_unpack_infinity
    rw [hquotient, hd, hx]
    change (Float.Model.pack (.infinity .positive)).unpack = _
    rfl
  · obtain ⟨q, t, accuracy, k, hcore, hk, hq, hexponent⟩ :=
      exists_divCore_eq hm₁ hm₂ (canonical_of_unpack hx) (canonical_of_unpack hd) hle
    obtain ⟨m, e, hm, hround, hlog, hle⟩ :=
      exists_roundWithAccuracy_eq .positive hk hq (show -1074 ≤ t by omega) accuracy
    have hdiv : UnpackedFloat.div Format.binary64 x.toModel.unpack d.toModel.unpack =
        .finite .positive m e hm := by
      rw [hx, hd, ← hround]
      change (match UnpackedFloat.divCore Format.binary64 m₁ e₁ m₂ e₂ with
        | (m, e, accuracy) =>
          UnpackedFloat.roundWithAccuracy Format.binary64 .positive m e accuracy) = _
      rw [hcore]
    rw [hdiv] at hquotient
    by_cases hlarge : 971 < e
    · apply one_le_of_unpack_infinity
      rw [hquotient, unpack_pack hlog (by omega), if_pos hlarge]
    · apply one_le_of_unpack hlog (show -52 ≤ e by omega)
      rw [hquotient, unpack_pack hlog (by omega), if_neg hlarge]

end Float

end RobotBlocks
