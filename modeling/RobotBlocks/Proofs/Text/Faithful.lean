import Mathlib.Data.List.Basic
import RobotBlocks.Number.Decimal
import RobotBlocks.Text.Basic

/-!
# Texts tell apart what they stand for

Different strings are different texts, and different numbers have different texts.
-/

namespace RobotBlocks

theorem Text.ofString_injective : Function.Injective Text.ofString := by
  intro s t h
  have hchars : s.toList = t.toList :=
    List.map_injective_iff.2 (fun a b hab => Piece.char.inj hab) h
  exact String.toList_inj.1 hchars

/-- The digits of a number are read back as the number. -/
theorem natText_injective : Function.Injective natText := by
  intro m n h
  have hdigits : Nat.toDigits 10 m = Nat.toDigits 10 n := String.ofList_injective h
  calc m = Nat.ofDigitChars 10 (Nat.toDigits 10 m) 0 :=
        Nat.ofDigitChars_ten_toDigits.symm
    _ = Nat.ofDigitChars 10 (Nat.toDigits 10 n) 0 := by rw [hdigits]
    _ = n := Nat.ofDigitChars_ten_toDigits

end RobotBlocks
