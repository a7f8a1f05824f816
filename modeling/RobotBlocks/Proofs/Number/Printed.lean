import Mathlib.Data.List.TakeDrop
import Mathlib.Tactic.Common
import RobotBlocks.Number.Decimal
import RobotBlocks.Proofs.Number.Value

/-!
# How numbers are written

A number is written with an optional minus sign, digits without a needless zero in front, digits
behind a point and a power of ten (`PrintedNumber`). The text of an integer has neither point nor
power (`PrintedNumber.ofInt`), and that of a finite double has one of them
(`Float.exists_printedNumber`).
-/

namespace RobotBlocks

/-! ## Digits -/

/-- The characters are digits, and there is one. -/
def AreDigits (cs : List Char) : Prop := cs ≠ [] ∧ ∀ c ∈ cs, c.isDigit = true

/-- The digits are those of a natural number: none of them is a needless zero in front. -/
def AreWhole (cs : List Char) : Prop := AreDigits cs ∧ (cs.head? = some '0' → cs = ['0'])

theorem areDigits_digitChars (n : ℕ) : AreDigits (digitChars n) :=
  ⟨Nat.toDigits_ne_nil, fun _ hc => Nat.isDigit_of_mem_toDigits (by decide) (by decide) hc⟩

theorem AreDigits.append_zeros {cs : List Char} (h : AreDigits cs) (count : ℕ) :
    AreDigits (cs ++ List.replicate count '0') := by
  refine ⟨List.append_ne_nil_of_left_ne_nil h.1 _, fun c hc => ?_⟩
  rcases List.mem_append.1 hc with hc | hc
  · exact h.2 c hc
  · obtain rfl := List.eq_of_mem_replicate hc
    rfl

/-- The first digit of a positive number is not zero. -/
theorem head?_digitChars {n : ℕ} (h : 0 < n) : (digitChars n).head? ≠ some '0' := by
  induction n using Nat.strongRecOn with
  | _ n ih =>
    unfold digitChars
    by_cases hn : n < 10
    · rw [Nat.toDigits_of_lt_base hn]
      have hdigits : ∀ n < 10, 0 < n → ¬ [Nat.digitChar n].head? = some '0' := by decide
      exact hdigits n hn h
    · rw [Nat.toDigits_of_base_le (by decide) (by omega),
        List.head?_append_of_ne_nil _ Nat.toDigits_ne_nil]
      exact ih (n / 10) (by omega) (by omega)

theorem areWhole_digitChars (n : ℕ) : AreWhole (digitChars n) := by
  refine ⟨areDigits_digitChars n, fun hzero => ?_⟩
  rcases Nat.eq_zero_or_pos n with rfl | hn
  · rfl
  · exact absurd hzero (head?_digitChars hn)

/-- A positive number stays without needless zeros if zeros are put behind it. -/
theorem areWhole_append_zeros {n : ℕ} (h : 0 < n) (count : ℕ) :
    AreWhole (digitChars n ++ List.replicate count '0') := by
  have hdigits := areDigits_digitChars n
  refine ⟨hdigits.append_zeros count, fun hzero => ?_⟩
  rw [List.head?_append_of_ne_nil _ hdigits.1] at hzero
  exact absurd hzero (head?_digitChars h)

theorem areWhole_digit {c : Char} (h : c.isDigit = true) : AreWhole [c] :=
  ⟨⟨by simp, by simpa using h⟩, fun hzero => by simpa using hzero⟩

/-! ## Numerals -/

/-- What stands behind the point, point included. -/
def ArePlaces (cs : List Char) : Prop := cs = [] ∨ ∃ ds, AreDigits ds ∧ cs = '.' :: ds

/-- A power of ten: its mark, a sign and digits. -/
def ArePower (cs : List Char) : Prop :=
  cs = [] ∨ ∃ sign ds, AreDigits ds ∧ (sign = '-' ∨ sign = '+') ∧ cs = 'e' :: sign :: ds

/-- What stands behind the sign of a number that has a point or a power of ten. -/
def IsReal (cs : List Char) : Prop :=
  ∃ whole places power, AreWhole whole ∧ ArePlaces places ∧ ArePower power ∧
    places ++ power ≠ [] ∧ cs = whole ++ places ++ power

/-- Digits with others behind a point. -/
theorem isReal_of_places {whole ds : List Char} (hwhole : AreWhole whole) (hds : AreDigits ds) :
    IsReal (whole ++ '.' :: ds) :=
  ⟨whole, '.' :: ds, [], hwhole, .inr ⟨ds, hds, rfl⟩, .inl rfl, by simp, by simp⟩

/-- A number as it is written. -/
structure PrintedNumber where
  negative : Bool
  whole : List Char
  places : List Char
  power : List Char
  areWhole : AreWhole whole
  arePlaces : ArePlaces places
  arePower : ArePower power

namespace PrintedNumber

/-- The sign of a numeral, if it has one. -/
def signChars (negative : Bool) : List Char := if negative then ['-'] else []

/-- The text of a numeral. -/
def chars (n : PrintedNumber) : List Char := signChars n.negative ++ n.whole ++ n.places ++ n.power

/-- Whether the numeral has a point or a power. -/
def isReal (n : PrintedNumber) : Bool := !(n.places.isEmpty && n.power.isEmpty)

/-- The numeral of an integer. -/
def ofInt (n : ℤ) : PrintedNumber where
  negative := decide (n < 0)
  whole := digitChars n.natAbs
  places := []
  power := []
  areWhole := areWhole_digitChars _
  arePlaces := .inl rfl
  arePower := .inl rfl

theorem toList_intText (n : ℤ) : (intText n).toList = (ofInt n).chars := by
  unfold intText natText chars ofInt signChars
  by_cases h : n < 0
  · simp [h]
  · simp [h]

theorem toList_withSign (negative : Bool) (text : String) :
    (withSign negative text).toList = signChars negative ++ text.toList := by
  cases negative <;> simp [withSign, signChars]

end PrintedNumber

/-! ## Shortest decimals -/

namespace Decimal

variable {mantissa : ℕ} {exponent e : ℤ} {d : Decimal}

theorem powerOfTen_pos (n : ℕ) : 0 < powerOfTen n := Nat.pow_pos (by decide)

theorem powerOfTwo_pos (n : ℕ) : 0 < powerOfTwo n := Nat.pow_pos (by decide)

/-- No positive number is read from zeros. -/
theorem digits_ne_zero_of_readsBackTo (hm : 0 < mantissa)
    (h : readsBackTo mantissa exponent d = true) : d.digits ≠ 0 := by
  intro hzero
  obtain ⟨below, hbelow, hle⟩ : ∃ below, (if (mantissa == Binary.leadingBit &&
      decide (Binary.leastExponent < exponent)) = true then 1 else 2) = below ∧ below ≤ 2 :=
    ⟨_, rfl, by split <;> decide⟩
  have hlow : 0 < (4 * mantissa - below) * powerOfTwo exponent.toNat *
      powerOfTen (-d.exponent).toNat :=
    Nat.mul_pos (Nat.mul_pos (by omega) (powerOfTwo_pos _)) (powerOfTen_pos _)
  simp only [readsBackTo, fraction, hzero, Nat.zero_mul, Nat.one_mul, hbelow] at h
  split at h <;> simp only [Bool.and_eq_true, decide_eq_true_eq] at h <;> omega

theorem quotient_le_roundQuotient (numerator denominator : ℕ) :
    numerator / denominator ≤ roundQuotient numerator denominator := by
  unfold roundQuotient
  dsimp only
  split
  · exact Nat.le_refl _
  split
  · exact Nat.le_succ _
  · exact Nat.le_add_right _ _

theorem digits_ne_zero_of_onGrid? (hm : 0 < mantissa) (h : onGrid? mantissa exponent e = some d) :
    d.digits ≠ 0 := by
  unfold onGrid? at h
  dsimp only at h
  split at h
  next hlower _ =>
    cases h
    have hquotient := digits_ne_zero_of_readsBackTo hm hlower
    exact ((Nat.pos_of_ne_zero hquotient).trans_le (quotient_le_roundQuotient _ _)).ne'
  next hlower _ =>
    cases h
    exact digits_ne_zero_of_readsBackTo hm hlower
  next =>
    cases h
    exact Nat.succ_ne_zero _
  next => cases h

theorem digits_dropZeros_ne_zero (h : d.digits ≠ 0) (fuel : ℕ) : (dropZeros fuel d).digits ≠ 0 := by
  induction fuel generalizing d with
  | zero => exact h
  | succ fuel ih =>
    rw [dropZeros]
    split
    next hzero =>
      simp only [Bool.and_eq_true, beq_iff_eq] at hzero
      exact ih (by dsimp only; omega)
    next => exact h

/-- **The shortest decimal of a positive double has a digit that is not zero.** -/
theorem digits_shortest_ne_zero (hm : 0 < mantissa) (exponent : ℤ) :
    (shortest mantissa exponent).digits ≠ 0 := by
  unfold shortest
  dsimp only
  split
  next hfound =>
    obtain ⟨n, -, hgrid⟩ := List.exists_of_findSome?_eq_some hfound
    exact digits_dropZeros_ne_zero (digits_ne_zero_of_onGrid? hm hgrid) 20
  next => exact hm.ne'

/-! ## Positional and scientific notation -/

/-- Zeros reach up to the point. -/
theorem isReal_positional_of_nonneg (hdigits : d.digits ≠ 0) (h : 0 ≤ d.exponent) :
    IsReal (d.positional ++ ".0").toList := by
  have htext : (d.positional ++ ".0").toList =
      (digitChars d.digits ++ List.replicate d.exponent.toNat '0') ++ ['.', '0'] := by
    simp [positional, h]
  have hnought : AreWhole ['0'] := areWhole_digit rfl
  rw [htext]
  exact isReal_of_places (areWhole_append_zeros (Nat.pos_of_ne_zero hdigits) _) hnought.1

/-- Digits with zeros in front, of which more are there than places behind the point. -/
def padded (places : ℕ) (digits : List Char) : List Char :=
  List.replicate (places + 1 - digits.length) '0' ++ digits

theorem length_padded (places : ℕ) (digits : List Char) :
    (padded places digits).length = max (places + 1) digits.length := by
  simp only [padded, List.length_append, List.length_replicate]
  omega

theorem areDigits_padded {digits : List Char} (h : AreDigits digits) (places : ℕ) :
    AreDigits (padded places digits) := by
  refine ⟨List.append_ne_nil_of_right_ne_nil _ h.1, fun c hc => ?_⟩
  rcases List.mem_append.1 hc with hc | hc
  · obtain rfl := List.eq_of_mem_replicate hc
    rfl
  · exact h.2 c hc

/-- What is left of the places is a natural number. -/
theorem areWhole_take_padded {digits : List Char} (h : AreWhole digits) (places : ℕ) :
    AreWhole ((padded places digits).take ((padded places digits).length - places)) := by
  have hlength := length_padded places digits
  refine ⟨⟨?_, fun c hc => (areDigits_padded h.1 places).2 c (List.mem_of_mem_take hc)⟩, ?_⟩
  · rw [← List.length_pos_iff, List.length_take]
    omega
  · intro hzero
    by_cases hshort : digits.length ≤ places
    · have hone : (padded places digits).length - places = 1 := by omega
      rw [hone] at hzero ⊢
      match padded places digits, hzero with
      | c :: _, hzero => simpa using hzero
    · have hpadded : padded places digits = digits := by
        rw [padded, Nat.sub_eq_zero_of_le (by omega)]
        rfl
      rw [hpadded] at hzero ⊢
      rw [List.head?_take, if_neg (by omega)] at hzero
      rw [h.2 hzero] at hshort ⊢
      obtain rfl : places = 0 := by simpa using hshort
      rfl

/-- Digits that reach behind the point. -/
theorem isReal_positional_of_neg (h : d.exponent < 0) : IsReal d.positional.toList := by
  obtain ⟨places, hplaces, hpos⟩ : ∃ places, (-d.exponent).toNat = places ∧ 0 < places :=
    ⟨_, rfl, by omega⟩
  have htext : d.positional.toList =
      (padded places (digitChars d.digits)).take
        ((padded places (digitChars d.digits)).length - places) ++
      '.' :: (padded places (digitChars d.digits)).drop
        ((padded places (digitChars d.digits)).length - places) := by
    rw [positional, if_neg (by omega)]
    simp only [hplaces, String.toList_ofList, padded]
  have hlength := length_padded places (digitChars d.digits)
  have hdigits := areDigits_padded (areDigits_digitChars d.digits) places
  rw [htext]
  refine isReal_of_places (areWhole_take_padded (areWhole_digitChars d.digits) places)
    ⟨?_, fun c hc => hdigits.2 c (List.mem_of_mem_drop hc)⟩
  rw [← List.length_pos_iff, List.length_drop]
  omega

theorem isReal_scientific (d : Decimal) : IsReal d.scientific.toList := by
  obtain ⟨sign, hmark, hsign⟩ : ∃ sign, (if d.leading < 0 then ['e', '-'] else ['e', '+']) =
      ['e', sign] ∧ (sign = '-' ∨ sign = '+') := by
    by_cases hneg : d.leading < 0
    · exact ⟨'-', if_pos hneg, .inl rfl⟩
    · exact ⟨'+', if_neg hneg, .inr rfl⟩
  have hpower : ∀ ds, AreDigits ds → AreDigits (if ds.length < 2 then '0' :: ds else ds) := by
    intro ds hds
    split
    · exact ⟨by simp, List.forall_mem_cons.2 ⟨rfl, hds.2⟩⟩
    · exact hds
  have hpower := hpower _ (areDigits_digitChars d.leading.natAbs)
  obtain ⟨hne, hdigits⟩ := areDigits_digitChars d.digits
  unfold scientific
  simp only [hmark]
  split
  next hnone => exact absurd hnone hne
  next c hone =>
    have hc := hdigits c (by simp [hone])
    exact ⟨[c], [], _, areWhole_digit hc, .inl rfl, .inr ⟨sign, _, hpower, hsign, rfl⟩,
      by simp, by simp⟩
  next c rest hrest hmany =>
    rw [hmany] at hdigits
    obtain ⟨hc, hdigits⟩ := List.forall_mem_cons.1 hdigits
    have hrest : rest ≠ [] := by
      rintro rfl
      exact hrest rfl
    exact ⟨[c], '.' :: rest, _, areWhole_digit hc, .inr ⟨rest, ⟨hrest, hdigits⟩, rfl⟩,
      .inr ⟨sign, _, hpower, hsign, rfl⟩, by simp, by simp⟩

end Decimal

/-- **The text of a finite double has a point or a power of ten.** -/
theorem Float.exists_printedNumber {x : Float} (hx : x.isFinite = true) :
    ∃ n : PrintedNumber, n.isReal = true ∧ (Float.shortestText x).toList = n.chars := by
  obtain ⟨negative, mantissa, exponent, hvalue⟩ :
      ∃ negative mantissa exponent, Binary.ofFloat x = .finite negative mantissa exponent := by
    change x.toModel.unpack.isFinite = true at hx
    rw [Binary.ofFloat_eq]
    rcases hunpack : x.toModel.unpack with _ | _ | _ | _
    · rw [hunpack] at hx
      cases hx
    · rw [hunpack] at hx
      cases hx
    · exact ⟨_, _, _, rfl⟩
    · exact ⟨_, _, _, rfl⟩
  have hsigned : ∀ {text : String}, IsReal text.toList →
      ∃ n : PrintedNumber, n.isReal = true ∧ (withSign negative text).toList = n.chars := by
    rintro text ⟨whole, places, power, hwhole, hplaces, hpower, hreal, htext⟩
    refine ⟨⟨negative, whole, places, power, hwhole, hplaces, hpower⟩, ?_, ?_⟩
    · rw [PrintedNumber.isReal]
      simpa [← not_and_or] using hreal
    · rw [PrintedNumber.toList_withSign, htext, PrintedNumber.chars]
      simp only [List.append_assoc]
  unfold Float.shortestText
  simp only [hvalue]
  refine hsigned ?_
  split
  next =>
    have hnought : AreWhole ['0'] := areWhole_digit rfl
    exact isReal_of_places hnought hnought.1
  next hmantissa =>
    have hm : 0 < mantissa := Nat.pos_of_ne_zero (by simpa using hmantissa)
    split
    next =>
      split
      next hexponent =>
        exact Decimal.isReal_positional_of_nonneg
          (Decimal.digits_shortest_ne_zero hm exponent) hexponent
      next hexponent => exact Decimal.isReal_positional_of_neg (not_le.1 hexponent)
    next => exact Decimal.isReal_scientific _

end RobotBlocks
