import Mathlib.Data.Prod.Lex
import Mathlib.Order.Compare

/-!
# The order of doubles

Every double that is a number has a rank in a linear order, by which doubles are compared: first the
infinities, the signs and zero, then the exponents, then the mantissas, the last two the other way
round below zero. Both zeros have one rank.
-/

namespace RobotBlocks

open Float.Model

/-- The place of a double in the order of doubles: its class, its exponent and its mantissa. What is
no number has a rank as well, which says nothing. -/
def Float.rankOf : UnpackedFloat → ℤ ×ₗ ℤ ×ₗ ℤ
  | .infinity .negative => toLex (-2, toLex (0, 0))
  | .finite .negative mantissa exponent _ => toLex (-1, toLex (-exponent, -mantissa))
  | .zero _ | .notANumber => toLex (0, toLex (0, 0))
  | .finite .positive mantissa exponent _ => toLex (1, toLex (exponent, mantissa))
  | .infinity .positive => toLex (2, toLex (0, 0))

/-- The rank of a double. -/
def Float.rank (x : Float) : ℤ ×ₗ ℤ ×ₗ ℤ := Float.rankOf x.toModel.unpack

theorem compare_neg (a b : ℤ) : compare (-a) (-b) = (compare a b).swap := by
  rcases lt_trichotomy a b with h | rfl | h
  · rw [compare_lt_iff_lt.2 h, compare_gt_iff_gt.2 (Int.neg_lt_neg h)]
    rfl
  · simp
  · rw [compare_gt_iff_gt.2 h, compare_lt_iff_lt.2 (Int.neg_lt_neg h)]
    rfl

theorem compare_natCast (a b : ℕ) : compare (a : ℤ) (b : ℤ) = compare a b := by
  rcases lt_trichotomy a b with h | rfl | h
  · rw [compare_lt_iff_lt.2 h, compare_lt_iff_lt.2 (Int.ofNat_lt.2 h)]
  · simp
  · rw [compare_gt_iff_gt.2 h, compare_gt_iff_gt.2 (Int.ofNat_lt.2 h)]

/-- **Numbers are compared by their ranks.** -/
theorem Float.compare_eq {a b : UnpackedFloat} (ha : a.isNaN = false) (hb : b.isNaN = false) :
    a.compare b = some (compare (Float.rankOf a) (Float.rankOf b)) := by
  rcases a with (_ | _) | _ | s | ⟨_ | _, m, e, hm⟩ <;>
    rcases b with (_ | _) | _ | s' | ⟨_ | _, m', e', hm'⟩ <;> cases ha <;> cases hb <;>
    dsimp only [UnpackedFloat.compare, Float.rankOf, Prod.Lex.compare_def, compareLex, compareOn,
      ofLex_toLex]
  case finite.negative.finite.negative.refl.refl =>
    rw [compare_neg e e', compare_neg m m', compare_natCast, Ordering.swap_then]
    rfl
  case finite.positive.finite.positive.refl.refl =>
    rw [compare_natCast]
    rfl
  all_goals rfl

theorem Float.lt_iff_compare {x y : Float} :
    x < y ↔ (x.toModel.unpack.compare y.toModel.unpack == some .lt) = true := by
  change decide (x.toModel < y.toModel) = true ↔ _
  rw [decide_eq_true_iff]
  rfl

theorem Float.le_iff_compare {x y : Float} :
    x ≤ y ↔ (x.toModel.unpack.compare y.toModel.unpack).any (·.isLE) = true := by
  change decide (x.toModel ≤ y.toModel) = true ↔ _
  rw [decide_eq_true_iff]
  rfl

/-- What can be compared is a number. -/
theorem Float.isNaN_of_le {x y : Float} (h : x ≤ y) : x.isNaN = false ∧ y.isNaN = false := by
  rw [le_iff_compare] at h
  change x.toModel.unpack.isNaN = false ∧ y.toModel.unpack.isNaN = false
  generalize x.toModel.unpack = a, y.toModel.unpack = b at h
  cases a <;> cases b <;> first | exact ⟨rfl, rfl⟩ | cases h

/-- What equals anything is a number. -/
theorem Float.isNaN_of_beq {x y : Float} (h : (x == y) = true) :
    x.isNaN = false ∧ y.isNaN = false := by
  change (x.toModel.unpack.compare y.toModel.unpack == some .eq) = true at h
  change x.toModel.unpack.isNaN = false ∧ y.toModel.unpack.isNaN = false
  generalize x.toModel.unpack = a, y.toModel.unpack = b at h
  cases a <;> cases b <;> first | exact ⟨rfl, rfl⟩ | cases h

section

variable {x y : Float} (hx : x.isNaN = false) (hy : y.isNaN = false)

include hx hy

theorem Float.lt_iff_rank_lt : x < y ↔ Float.rank x < Float.rank y := by
  rw [lt_iff_compare, Float.compare_eq hx hy, beq_iff_eq, Option.some_inj]
  exact compare_lt_iff_lt

theorem Float.le_iff_rank_le : x ≤ y ↔ Float.rank x ≤ Float.rank y := by
  rw [le_iff_compare, Float.compare_eq hx hy, Option.any_some, Ordering.isLE_iff_ne_gt,
    compare_gt_iff_gt]
  exact not_lt

omit hy in
theorem Float.le_refl : x ≤ x := (le_iff_rank_le hx hx).2 le_rfl

theorem Float.le_of_lt (h : x < y) : x ≤ y :=
  (le_iff_rank_le hx hy).2 ((lt_iff_rank_lt hx hy).1 h).le

theorem Float.lt_of_not_le (h : ¬ x ≤ y) : y < x := by
  rw [le_iff_rank_le hx hy, not_le] at h
  exact (lt_iff_rank_lt hy hx).2 h

theorem Float.beq_iff_rank_eq : (x == y) = true ↔ Float.rank x = Float.rank y := by
  change (x.toModel.unpack.compare y.toModel.unpack == some .eq) = true ↔ _
  rw [Float.compare_eq hx hy, beq_iff_eq, Option.some_inj]
  exact compare_eq_iff_eq

end

theorem Float.le_trans {x y z : Float} (h : x ≤ y) (h' : y ≤ z) : x ≤ z := by
  obtain ⟨hx, hy⟩ := isNaN_of_le h
  obtain ⟨-, hz⟩ := isNaN_of_le h'
  exact (le_iff_rank_le hx hz).2 (((le_iff_rank_le hx hy).1 h).trans ((le_iff_rank_le hy hz).1 h'))

theorem Float.not_lt_of_le {x y : Float} (h : x ≤ y) : ¬ y < x := by
  obtain ⟨hx, hy⟩ := isNaN_of_le h
  rw [lt_iff_rank_lt hy hx]
  exact not_lt.2 ((le_iff_rank_le hx hy).1 h)

end RobotBlocks
