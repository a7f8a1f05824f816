import Mathlib.Data.List.Basic
import RobotBlocks.Json.Reader
import RobotBlocks.Json.Writer

/-!
# Strings are read back

Every character of a text is written in a way of its own: as it is, behind a backslash, as a code
unit, or as a pair of them. A character of any of these kinds is read back as itself
(`string_charChars`), so a text of characters is (`string_flatMap_charChars`).

What is read stands in front of something, be it the closing quote: the reader sees a code unit only
if a character follows its digits.
-/

namespace RobotBlocks

namespace Json

variable {start position n : ℕ} {a b c d : Char} {rest : List Char}

/-! ## Code units -/

/-- The value of a hexadecimal digit is read from it. -/
theorem hexDigit?_digitChar : ∀ d < 16, hexDigit? (Nat.digitChar d) = some d := by decide

theorem hexChars_four (h : n < 0x10000) :
    hexChars 4 n = [Nat.digitChar (n / 4096), Nat.digitChar (n / 256 % 16),
      Nat.digitChar (n / 16 % 16), Nat.digitChar (n % 16)] := by
  have hlast : ∀ n < 16, Nat.toDigits 16 n = [Nat.digitChar n] := fun n hn =>
    Nat.toDigits_of_lt_base hn
  have hmore : ∀ n, 16 ≤ n →
      Nat.toDigits 16 n = Nat.toDigits 16 (n / 16) ++ [Nat.digitChar (n % 16)] := fun n hn =>
    Nat.toDigits_of_base_le (by decide) hn
  have hdiv : n / 16 / 16 = n / 256 ∧ n / 256 / 16 = n / 4096 := by omega
  have hzero : Nat.digitChar 0 = '0' := rfl
  unfold hexChars
  by_cases hone : n < 16
  · have hdigits : n / 4096 = 0 ∧ n / 256 % 16 = 0 ∧ n / 16 % 16 = 0 ∧ n % 16 = n := by omega
    simp [hlast n hone, hdigits, hzero, List.replicate]
  rw [hmore n (by omega)]
  by_cases htwo : n / 16 < 16
  · have hdigits : n / 4096 = 0 ∧ n / 256 % 16 = 0 ∧ n / 16 % 16 = n / 16 := by omega
    simp [hlast _ htwo, hdigits, hzero, List.replicate]
  rw [hmore (n / 16) (by omega), hdiv.1]
  by_cases hthree : n / 256 < 16
  · have hdigits : n / 4096 = 0 ∧ n / 256 % 16 = n / 256 := by omega
    simp [hlast _ hthree, hdigits, hzero]
  · rw [hmore (n / 256) (by omega), hdiv.2, hlast _ (by omega)]
    simp

/-- **A code unit is read from its digits.** -/
theorem codeUnit?_hexChars (h : n < 0x10000) :
    ∃ a b c d, hexChars 4 n = [a, b, c, d] ∧ codeUnit? a b c d = some n := by
  refine ⟨_, _, _, _, hexChars_four h, ?_⟩
  rw [codeUnit?, hexDigit?_digitChar _ (by omega), hexDigit?_digitChar _ (by omega),
    hexDigit?_digitChar _ (by omega), hexDigit?_digitChar _ (by omega)]
  simp only [Option.bind_eq_bind, Option.bind_some, Option.pure_def, Option.some.injEq]
  omega

theorem pairChar_units (h : 0x10000 ≤ c.toNat) :
    pairChar (0xD800 + (c.toNat - 0x10000) / 0x400) (0xDC00 + (c.toNat - 0x10000) % 0x400) = c := by
  have hsum : 0x10000 + (0xD800 + (c.toNat - 0x10000) / 0x400 - 0xD800) * 0x400 +
      (0xDC00 + (c.toNat - 0x10000) % 0x400 - 0xDC00) = c.toNat := by omega
  rw [pairChar, hsum, Char.ofNat_toNat]

/-- No character lies among the halves of pairs. -/
theorem toNat_bounds (c : Char) :
    c.toNat < 0xD800 ∨ 0xDFFF < c.toNat ∧ c.toNat < 0x110000 := c.valid

theorem ofUnit_toNat (c : Char) : Piece.ofUnit c.toNat = .char c := by
  have hbounds := toNat_bounds c
  rw [Piece.ofUnit, dif_neg (by omega), Char.ofNat_toNat]

/-! ## Steps of the reader -/

theorem string_unit (hunit : codeUnit? a b c d = some n) (hhigh : isHighUnit n = false)
    (hne : rest ≠ []) : string start position ('\\' :: 'u' :: a :: b :: c :: d :: rest) =
      (string start (position + 6) rest).map (.push (.ofUnit n)) := by
  obtain ⟨next, more, rfl⟩ := List.exists_cons_of_ne_nil hne
  by_cases hpair : ∃ e f g h i rest, next = '\\' ∧ more = 'u' :: e :: f :: g :: h :: i :: rest
  · obtain ⟨e, f, g, h, i, rest, rfl, rfl⟩ := hpair
    rw [string.eq_6 _ _ _ _ _ _ _ _ _ _ _ _ _ hunit, if_neg (by simp [hhigh])]
  · exact string.eq_7 _ _ _ _ _ _ _ _ _
      (fun e f g h i rest hnext hmore => hpair ⟨e, f, g, h, i, rest, hnext, hmore⟩) hunit

theorem string_pair {e f g h : Char} {m : ℕ} (hunit : codeUnit? a b c d = some n)
    (hhigh : isHighUnit n = true) (hunit' : codeUnit? e f g h = some m)
    (hlow : isLowUnit m = true) (hne : rest ≠ []) :
    string start position
        ('\\' :: 'u' :: a :: b :: c :: d :: '\\' :: 'u' :: e :: f :: g :: h :: rest) =
      (string start (position + 12) rest).map (.push (.char (pairChar n m))) := by
  obtain ⟨i, more, rfl⟩ := List.exists_cons_of_ne_nil hne
  rw [string.eq_6 _ _ _ _ _ _ _ _ _ _ _ _ _ hunit, if_pos hhigh, hunit']
  exact if_pos hlow

theorem string_escaped {e : Char} (hc : c ≠ 'u') (h : escaped? c = some e) :
    string start position ('\\' :: c :: rest) =
      (string start (position + 2) rest).map (.push (.char e)) := by
  rw [string.eq_9 _ _ _ _ (fun _ _ _ _ _ hu => absurd hu hc) hc, h]

theorem string_plain (hquote : c ≠ '"') (hbackslash : c ≠ '\\') (h : 32 ≤ c.toNat) :
    string start position (c :: rest) =
      (string start (position + 1) rest).map (.push (.char c)) := by
  rw [string, if_neg (by omega)]
  all_goals simp_all

/-! ## Texts -/

/-- **A character is read back**, in front of something. -/
theorem string_charChars (start position : ℕ) (c : Char) (hne : rest ≠ []) : ∃ behind,
    string start position (charChars c ++ rest) =
      (string start behind rest).map (.push (.char c)) := by
  unfold charChars
  split
  next h =>
    refine ⟨position + 2, string_escaped ?_ ?_⟩ <;> rcases Bool.or_eq_true_iff.1 h with h | h <;>
      obtain rfl := eq_of_beq h <;> decide
  split
  next h => exact ⟨position + 2, eq_of_beq h ▸ string_escaped (by decide) rfl⟩
  split
  next h => exact ⟨position + 2, eq_of_beq h ▸ string_escaped (by decide) rfl⟩
  split
  next h => exact ⟨position + 2, eq_of_beq h ▸ string_escaped (by decide) rfl⟩
  split
  next h => exact ⟨position + 2, eq_of_beq h ▸ string_escaped (by decide) rfl⟩
  split
  next h => exact ⟨position + 2, eq_of_beq h ▸ string_escaped (by decide) rfl⟩
  have hbounds := toNat_bounds c
  dsimp only
  split
  next hspecial _ _ _ _ _ h =>
    simp only [Bool.or_eq_true, beq_iff_eq, not_or] at hspecial
    refine ⟨position + 1, string_plain hspecial.1 hspecial.2 ?_⟩
    simp only [Bool.and_eq_true, decide_eq_true_eq] at h
    exact h.1
  split
  next h =>
    obtain ⟨a, b, c', d, hdigits, hunit⟩ := codeUnit?_hexChars h
    refine ⟨position + 6, ?_⟩
    rw [unitChars, hdigits, ← ofUnit_toNat c]
    exact string_unit hunit (by simp only [isHighUnit]; simp; omega) hne
  next h =>
    obtain ⟨a, b, c', d, hdigits, hunit⟩ :=
      codeUnit?_hexChars (n := 0xD800 + (c.toNat - 0x10000) / 0x400) (by omega)
    obtain ⟨e, f, g, i, hdigits', hunit'⟩ :=
      codeUnit?_hexChars (n := 0xDC00 + (c.toNat - 0x10000) % 0x400) (by omega)
    refine ⟨position + 12, ?_⟩
    rw [unitChars, unitChars, hdigits, hdigits']
    rw [show Piece.char c = .char (pairChar _ _) from congrArg _ (pairChar_units (by omega)).symm]
    exact string_pair hunit (by simp [isHighUnit]; omega) hunit' (by simp [isLowUnit]; omega) hne

/-- **A text of characters is read back** from between its quotes. -/
theorem string_flatMap_charChars (start position : ℕ) (cs rest : List Char) : ∃ behind,
    string start position (cs.flatMap charChars ++ '"' :: rest) =
      .ok ⟨.ofChars cs, behind, rest⟩ := by
  induction cs generalizing position with
  | nil => exact ⟨position + 1, rfl⟩
  | cons c cs ih =>
    have hne : cs.flatMap charChars ++ '"' :: rest ≠ [] := by simp
    obtain ⟨next, hnext⟩ := string_charChars start position c hne
    obtain ⟨behind, hbehind⟩ := ih next
    refine ⟨behind, ?_⟩
    rw [List.flatMap_cons, List.append_assoc, hnext, hbehind]
    rfl

end Json

end RobotBlocks
