import Mathlib
import RobotBlocks.Fault

/-!
# The exact value of a double

A double is taken apart into sign, mantissa and exponent by its bits. This is how the logic takes it
apart (`Binary.ofFloat_eq`): the fields of the bits are the same, a mantissa of full precision has
its leading bit added, and exponents count from the same bias. So what is known of a double by
comparing it with others is known of its exact value: a finite one that is not negative has an
integer part, and that is a natural number (`Float.exists_toInteger_eq`).

Of the doubles that are not finite there are three: two infinities (`Float.eq_infinity_of_isInf`)
and one undefined number (`Float.eq_undefined_of_isNaN`).
-/

namespace RobotBlocks

open Float.Model

namespace Binary

/-- The exact value of a double that has been taken apart. -/
def ofUnpacked : UnpackedFloat → Binary
  | .notANumber => .nan
  | .infinity sign => .infinite (sign == .negative)
  | .zero sign => .finite (sign == .negative) 0 leastExponent
  | .finite sign mantissa exponent _ => .finite (sign == .negative) mantissa exponent

/-! ## The fields of the bits -/

section Fields

variable (b : BitVec 64)

/-- The bits behind the point. -/
abbrev mantissaOf : BitVec 52 := @UnpackedFloat.unpackMantissa Format.binary64 b

/-- The bits of the exponent. -/
abbrev exponentOf : BitVec 11 := @UnpackedFloat.unpackExponent Format.binary64 b

/-- The bit of the sign. -/
abbrev signOf : BitVec 1 := @UnpackedFloat.unpackSign Format.binary64 b

theorem toNat_mantissaOf : (mantissaOf b).toNat = b.toNat % leadingBit := by
  simp [UnpackedFloat.unpackMantissa_def, leadingBit, powerOfTwo]

theorem toNat_exponentOf : (exponentOf b).toNat = b.toNat / leadingBit % 2048 := by
  simp [UnpackedFloat.unpackExponent_def, Nat.shiftRight_eq_div_pow, leadingBit, powerOfTwo]

theorem toNat_signOf : (signOf b).toNat = b.toNat / signBit % 2 := by
  simp [UnpackedFloat.unpackSign_def, Nat.shiftRight_eq_div_pow, signBit, powerOfTwo]

theorem ofBitVec_signOf :
    (UnpackedFloat.Sign.ofBitVec (signOf b) == .negative) = (b.toNat / signBit % 2 == 1) := by
  rw [← toNat_signOf]
  generalize signOf b = sign
  revert sign
  decide

/-- The leading bit is put in front of the others. -/
theorem toNat_leading_append (mantissa : BitVec 52) :
    (1#1 ++ mantissa).toNat = leadingBit + mantissa.toNat := by
  rw [BitVec.toNat_append, ← Nat.shiftLeft_add_eq_or_of_lt mantissa.isLt]
  rfl

end Fields

/-- **The exact value of a double is that of its parts.** -/
theorem ofFloat_eq (x : Float) : ofFloat x = ofUnpacked x.toModel.unpack := by
  change ofFloat x = ofUnpacked (UnpackedFloat.unpack Format.binary64 x.toModel.toBits.toBitVec)
  have hbits : x.toBits.toNat = x.toModel.toBits.toBitVec.toNat := rfl
  generalize x.toModel.toBits.toBitVec = b at hbits
  unfold ofFloat UnpackedFloat.unpack
  simp only [hbits, ← toNat_mantissaOf, ← toNat_exponentOf, ← ofBitVec_signOf, beq_iff_eq]
  -- The tests of a field are the tests of its number.
  have hmax : exponentOf b = -1#_ ↔ (exponentOf b).toNat = 2047 := BitVec.toNat_inj.symm
  have hleast : exponentOf b = 0#_ ↔ (exponentOf b).toNat = 0 := BitVec.toNat_inj.symm
  have hzero : mantissaOf b = 0#_ ↔ (mantissaOf b).toNat = 0 := BitVec.toNat_inj.symm
  by_cases hexponent : (exponentOf b).toNat = 2047
  · rw [if_pos hexponent, if_pos (hmax.2 hexponent)]
    by_cases hmantissa : (mantissaOf b).toNat = 0
    · rw [if_pos hmantissa, if_pos (hzero.2 hmantissa), ofUnpacked]
    · rw [if_neg hmantissa, if_neg (mt hzero.1 hmantissa), ofUnpacked]
  · rw [if_neg hexponent, if_neg (mt hmax.1 hexponent)]
    by_cases hsubnormal : (exponentOf b).toNat = 0
    · rw [if_pos hsubnormal, if_pos (hleast.2 hsubnormal)]
      by_cases hmantissa : (mantissaOf b).toNat = 0
      · rw [dif_pos (hzero.2 hmantissa), ofUnpacked, hmantissa]
      · rw [dif_neg (mt hzero.1 hmantissa), ofUnpacked, hsubnormal]
        rfl
    · rw [if_neg hsubnormal, if_neg (mt hleast.1 hsubnormal), ofUnpacked, toNat_leading_append]
      rfl

end Binary

namespace Float

theorem unpack_zero : (0.0 : Float).toModel.unpack = .zero .positive := rfl

/-- A double with a negative sign is less than zero, unless it is zero. -/
theorem lt_zero_of_unpack {x : Float} {mantissa : ℕ} {exponent : Int} {h : 0 < mantissa}
    (hx : x.toModel.unpack = .finite .negative mantissa exponent h) : x < 0.0 := by
  change decide (x.toModel < (0.0 : Float).toModel) = true
  rw [decide_eq_true_iff]
  change (x.toModel.unpack.compare (0.0 : Float).toModel.unpack == some .lt) = true
  rw [hx, unpack_zero]
  rfl

/-- **The integer part of a finite double that is not negative** is a natural number. -/
theorem exists_toInteger_eq {x : Float} (hfinite : x.isFinite = true) (hneg : ¬ x < 0.0) :
    ∃ n : ℕ, Float.toInteger x = .ok n := by
  change x.toModel.unpack.isFinite = true at hfinite
  rw [toInteger, Binary.ofFloat_eq]
  rcases hunpack : x.toModel.unpack with sign | _ | sign | ⟨sign, mantissa, exponent, hpos⟩
  · rw [hunpack] at hfinite
    cases hfinite
  · rw [hunpack] at hfinite
    cases hfinite
  · refine ⟨0, ?_⟩
    cases sign <;> simp [Binary.ofUnpacked, Binary.truncate?]
  · cases sign
    · exact absurd (lt_zero_of_unpack hunpack) hneg
    · exact ⟨_, rfl⟩

/-- A double with a positive integer part is not less than zero. -/
theorem not_lt_zero_of_toInteger {x : Float} {n : ℤ} (h : toInteger x = .ok n) (hn : 0 < n) :
    ¬ x < 0.0 := by
  intro hneg
  replace hneg : decide (x.toModel < (0.0 : Float).toModel) = true := hneg
  rw [decide_eq_true_iff] at hneg
  replace hneg : (x.toModel.unpack.compare (0.0 : Float).toModel.unpack == some .lt) = true := hneg
  rw [unpack_zero] at hneg
  rw [toInteger, Binary.ofFloat_eq] at h
  rcases hunpack : x.toModel.unpack with sign | _ | sign | ⟨sign, mantissa, exponent, hpos⟩ <;>
    rw [hunpack] at h hneg
  · cases h
  · cases h
  · cases hneg
  · cases sign
    · cases h
      exact absurd hn (not_lt.2 (neg_nonpos.2 (Int.natCast_nonneg _)))
    · cases hneg

/-! ## Numbers that are not finite -/

/-- A double is known by its bits. -/
theorem eq_of_toBits {x y : Float} (h : x.toBits.toNat = y.toBits.toNat) : x = y := by
  obtain ⟨⟨a, ha⟩⟩ := x
  obtain ⟨⟨b, hb⟩⟩ := y
  have hbits : a = b := UInt64.toNat_inj.1 h
  subst hbits
  rfl

theorem isInf_of_not_isFinite {x : Float} (hfinite : x.isFinite = false)
    (hnan : x.isNaN = false) : x.isInf = true := by
  change x.toModel.unpack.isFinite = false at hfinite
  change x.toModel.unpack.isNaN = false at hnan
  change x.toModel.unpack.isInf = true
  rcases hunpack : x.toModel.unpack with _ | _ | _ | _ <;> rw [hunpack] at hfinite hnan
  · rfl
  · cases hnan
  · cases hfinite
  · cases hfinite

theorem not_isNaN_of_isFinite {x : Float} (h : x.isFinite = true) :
    x.isNaN = false ∧ x.isInf = false := by
  change x.toModel.unpack.isFinite = true at h
  change x.toModel.unpack.isNaN = false ∧ x.toModel.unpack.isInf = false
  rcases hunpack : x.toModel.unpack with _ | _ | _ | _ <;> rw [hunpack] at h
  · cases h
  · cases h
  · exact ⟨rfl, rfl⟩
  · exact ⟨rfl, rfl⟩

/-- **There is one undefined number.** -/
theorem eq_undefined_of_isNaN {x : Float} (h : x.isNaN = true) : x = Float.undefined := by
  rw [Float.isNaN_eq_decide_eq_nan, decide_eq_true_iff] at h
  have hnan : Float.nan = Float.undefined := by decide
  exact h.trans hnan

theorem toBits_of_infinite {x : Float} {negative : Bool}
    (h : Binary.ofFloat x = .infinite negative) :
    x.toBits.toNat = (if negative then Binary.signBit else 0) + 2047 * Binary.leadingBit := by
  have hlt := x.toBits.toNat_lt
  unfold Binary.ofFloat at h
  dsimp only at h
  generalize x.toBits.toNat = bits at h hlt ⊢
  by_cases hfield : (bits / Binary.leadingBit % 2048 == 2047) = true
  · rw [if_pos hfield] at h
    by_cases hfraction : (bits % Binary.leadingBit == 0) = true
    · rw [if_pos hfraction] at h
      obtain rfl := Binary.infinite.inj h
      simp only [beq_iff_eq, Binary.signBit, Binary.leadingBit, powerOfTwo, Nat.pow_eq]
        at hfield hfraction ⊢
      split <;> omega
    · rw [if_neg hfraction] at h
      cases h
  · rw [if_neg hfield] at h
    by_cases hleast : (bits / Binary.leadingBit % 2048 == 0) = true
    · rw [if_pos hleast] at h
      cases h
    · rw [if_neg hleast] at h
      cases h

theorem eq_of_infinite {x y : Float} {negative : Bool}
    (hx : Binary.ofFloat x = .infinite negative) (hy : Binary.ofFloat y = .infinite negative) :
    x = y :=
  eq_of_toBits ((toBits_of_infinite hx).trans (toBits_of_infinite hy).symm)

theorem ofFloat_infinity : Binary.ofFloat Float.infinity = .infinite false := by decide

theorem ofFloat_neg_infinity : Binary.ofFloat (-Float.infinity) = .infinite true := by
  decide

/-- **There are two infinities**, and one of them is less than zero. -/
theorem eq_infinity_of_isInf {x : Float} (h : x.isInf = true) :
    x = if x < 0.0 then -Float.infinity else Float.infinity := by
  change x.toModel.unpack.isInf = true at h
  have hlt : x < 0.0 ↔
      (x.toModel.unpack.compare (0.0 : Float).toModel.unpack == some .lt) = true := by
    change decide (x.toModel < (0.0 : Float).toModel) = true ↔ _
    rw [decide_eq_true_iff]
    rfl
  rw [unpack_zero] at hlt
  have hvalue := Binary.ofFloat_eq x
  rcases hunpack : x.toModel.unpack with sign | _ | _ | _
  · rw [hunpack] at hlt hvalue
    cases sign with
    | positive =>
      rw [if_neg (fun hneg => absurd (hlt.1 hneg) (by decide))]
      exact eq_of_infinite hvalue ofFloat_infinity
    | negative =>
      rw [if_pos (hlt.2 rfl)]
      exact eq_of_infinite hvalue ofFloat_neg_infinity
  all_goals
    rw [hunpack] at h
    cases h

end Float

end RobotBlocks
