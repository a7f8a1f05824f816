import RobotBlocks.Json.Writer
import RobotBlocks.Proofs.Json.Nesting
import RobotBlocks.Proofs.Number.Printed

/-!
# Numbers are read back

A numeral is read to its end: part by part its digits are taken as far as they go, and what follows
goes on with none of them (`number_chars`). So the text of an integer is read as this integer
(`number_intText`), that of a finite double as what the text stands for (`number_shortestText`), and
numbers that are not finite are words (`word?_realText`).
-/

namespace RobotBlocks

namespace Json

variable {position : ℕ} {cs rest : List Char}

/-- No number goes on here. -/
def Stops (rest : List Char) : Prop :=
  ∀ c ∈ rest.head?, c.isDigit = false ∧ c ≠ '.' ∧ c ≠ 'e' ∧ c ≠ 'E'

theorem stops_cons {c : Char} (h : c.isDigit = false ∧ c ≠ '.' ∧ c ≠ 'e' ∧ c ≠ 'E')
    (rest : List Char) : Stops (c :: rest) := by
  intro d hd
  obtain rfl : c = d := by simpa using hd
  exact h

/-! ## The parts of a numeral -/

/-- Digits are taken as far as they go. -/
theorem digits_append {ds : List Char} (h : ∀ c ∈ ds, c.isDigit = true)
    (hrest : ∀ c ∈ rest.head?, c.isDigit = false) : digits (ds ++ rest) = (ds, rest) := by
  have hnone : rest.takeWhile Char.isDigit = [] ∧ rest.dropWhile Char.isDigit = rest := by
    cases rest with
    | nil => exact ⟨rfl, rfl⟩
    | cons c rest =>
      have hc := hrest c rfl
      simp [hc]
  rw [digits, List.takeWhile_append_of_pos h, List.dropWhile_append_of_pos h, hnone.1, hnone.2,
    List.append_nil]

/-- The part before the point, its sign included. -/
theorem whole?_append (negative : Bool) {whole : List Char} (h : AreWhole whole)
    (hrest : ∀ c ∈ rest.head?, c.isDigit = false) :
    whole? (PrintedNumber.signChars negative ++ whole ++ rest) =
      some (PrintedNumber.signChars negative ++ whole, rest) := by
  obtain ⟨⟨hne, hdigits⟩, hzero⟩ := h
  obtain ⟨c, more, rfl⟩ := List.exists_cons_of_ne_nil hne
  have hunsigned : ∀ sign : List Char,
      unsigned? sign (c :: more ++ rest) = some (sign ++ c :: more, rest) := by
    intro sign
    by_cases hc : c = '0'
    · subst hc
      obtain rfl : more = [] := by simpa using hzero rfl
      rfl
    · unfold unsigned?
      split
      next hcons => exact absurd (List.cons.inj hcons).1 hc
      next =>
        rw [digits_append hdigits hrest]
        rfl
  cases negative with
  | true => exact hunsigned ['-']
  | false =>
    have hminus : ∀ behind, c :: more ++ rest ≠ '-' :: behind := by
      intro behind hcons
      obtain ⟨rfl, -⟩ := List.cons.inj hcons
      exact absurd (hdigits '-' List.mem_cons_self) (by decide)
    exact (whole?_of_ne_minus hminus).trans (hunsigned [])

theorem places_append (h : ArePlaces cs) (hrest : ∀ c ∈ rest.head?, c.isDigit = false ∧ c ≠ '.') :
    places (cs ++ rest) = (cs, rest) := by
  rcases h with rfl | ⟨ds, ⟨hne, hdigits⟩, rfl⟩
  · rw [List.nil_append]
    unfold places
    split
    next more hmore => exact absurd rfl (hrest '.' rfl).2
    next => rfl
  · simp [places, digits_append hdigits fun c hc => (hrest c hc).1, hne]

theorem exponent_append (h : ArePower cs) (hrest : Stops rest) :
    exponent (cs ++ rest) = (cs, rest) := by
  rcases h with rfl | ⟨sign, ds, ⟨hne, hdigits⟩, hsign, rfl⟩
  · rw [List.nil_append]
    unfold exponent
    split
    next e more =>
      obtain ⟨-, -, he, he'⟩ := hrest e rfl
      rw [if_neg (by simp [he, he'])]
    next => rfl
  · have hmark : (sign == '-' || sign == '+') = true := by
      rcases hsign with rfl | rfl <;> rfl
    simp only [List.cons_append, exponent, hmark, if_true,
      digits_append hdigits fun c hc => (hrest c hc).1]
    simp [hne]

/-! ## Numerals -/

theorem stops_power {power : List Char} (h : ArePower power) (hrest : Stops rest) :
    ∀ c ∈ (power ++ rest).head?, c.isDigit = false ∧ c ≠ '.' := by
  intro c hc
  rcases h with rfl | ⟨sign, ds, -, -, rfl⟩
  · exact ⟨(hrest c hc).1, (hrest c hc).2.1⟩
  · obtain rfl : 'e' = c := by simpa using hc
    exact ⟨rfl, by decide⟩

theorem stops_places {places : List Char} (h : ArePlaces places)
    (hrest : ∀ c ∈ rest.head?, c.isDigit = false ∧ c ≠ '.') :
    ∀ c ∈ (places ++ rest).head?, c.isDigit = false := by
  intro c hc
  rcases h with rfl | ⟨ds, -, rfl⟩
  · exact (hrest c hc).1
  · obtain rfl : '.' = c := by simpa using hc
    rfl

theorem filter_isDigit_whole (n : PrintedNumber) :
    (PrintedNumber.signChars n.negative ++ n.whole).filter Char.isDigit = n.whole := by
  rw [List.filter_append, List.filter_eq_self.2 n.areWhole.1.2]
  cases n.negative <;> rfl

/-- **A numeral is read to its end**: as a double if it has a point or a power of ten, and as an
integer if it has neither, unless it has too many digits. -/
theorem number_chars (n : PrintedNumber) (position : ℕ) (hrest : Stops rest) :
    number position (n.chars ++ rest) =
      if n.isReal then
        .ok ⟨.real ((Float.ofText? (.ofChars n.chars)).getD 0.0), position + n.chars.length, rest⟩
      else if maxDigits < n.whole.length then .error (.digits n.whole.length)
      else .ok ⟨.integer (integerOf (PrintedNumber.signChars n.negative ++ n.whole)),
        position + n.chars.length, rest⟩ := by
  have hpower := exponent_append n.arePower hrest
  have hplaces := places_append n.arePlaces (stops_power n.arePower hrest)
  have hwhole := whole?_append n.negative n.areWhole
    (stops_places n.arePlaces (stops_power n.arePower hrest))
  have hchars : n.chars ++ rest =
      PrintedNumber.signChars n.negative ++ n.whole ++ (n.places ++ (n.power ++ rest)) := by
    simp only [PrintedNumber.chars, List.append_assoc]
  rw [hchars, number, hwhole]
  simp only [hplaces, hpower, filter_isDigit_whole]
  have hreal : n.isReal = !(n.places.isEmpty && n.power.isEmpty) := rfl
  cases hempty : n.places.isEmpty && n.power.isEmpty with
  | true =>
    simp only [hreal, hempty]
    rfl
  | false =>
    simp only [hreal, hempty]
    rfl

/-! ## Integers -/

theorem digitsValue_digitChars (n : ℕ) : Reading.digitsValue (digitChars n) = n :=
  Nat.ofDigitChars_ten_toDigits

theorem integerOf_digits {ds : List Char} (h : AreDigits ds) :
    integerOf ds = Reading.digitsValue ds := by
  unfold integerOf
  split
  next => exact absurd (h.2 '-' List.mem_cons_self) (by decide)
  next => rfl

theorem integerOf_ofInt (n : ℤ) :
    integerOf (PrintedNumber.signChars (PrintedNumber.ofInt n).negative ++
      (PrintedNumber.ofInt n).whole) = n := by
  change integerOf (PrintedNumber.signChars (decide (n < 0)) ++ digitChars n.natAbs) = n
  by_cases h : n < 0
  · have hminus : PrintedNumber.signChars (decide (n < 0)) ++ digitChars n.natAbs =
        '-' :: digitChars n.natAbs := by simp [PrintedNumber.signChars, h]
    rw [hminus, integerOf, digitsValue_digitChars]
    exact (Int.eq_neg_natAbs_of_nonpos h.le).symm
  · have hplain : PrintedNumber.signChars (decide (n < 0)) ++ digitChars n.natAbs =
        digitChars n.natAbs := by simp [PrintedNumber.signChars, h]
    rw [hplain, integerOf_digits (areDigits_digitChars _), digitsValue_digitChars]
    exact Int.natAbs_of_nonneg (not_lt.1 h)

/-- **The text of an integer is read as the integer**, if it has not too many digits. -/
theorem number_intText {n : ℤ} (hdigits : (digitChars n.natAbs).length ≤ maxDigits)
    (position : ℕ) (hrest : Stops rest) : ∃ behind,
    number position ((intText n).toList ++ rest) = .ok ⟨.integer n, behind, rest⟩ := by
  have hreal : ¬ (PrintedNumber.ofInt n).isReal = true := by
    simp [PrintedNumber.isReal, PrintedNumber.ofInt]
  have hfew : ¬ maxDigits < (PrintedNumber.ofInt n).whole.length := Nat.not_lt.2 hdigits
  rw [PrintedNumber.toList_intText, number_chars _ position hrest, if_neg hreal, if_neg hfew,
    integerOf_ofInt]
  exact ⟨_, rfl⟩

/-! ## Doubles -/

/-- **The text of a finite double is read as the double that the text stands for.** -/
theorem number_shortestText {x : Float} (hx : x.isFinite = true)
    (hback : Float.ofText? (Float.shortestText x) = some x) (position : ℕ) (hrest : Stops rest) :
    ∃ behind, number position ((Float.shortestText x).toList ++ rest) =
      .ok ⟨.real x, behind, rest⟩ := by
  obtain ⟨n, hreal, htext⟩ := Float.exists_printedNumber hx
  rw [Text.ofString, htext] at hback
  rw [htext, number_chars n position hrest, if_pos hreal, hback]
  exact ⟨_, rfl⟩

/-- A word begins with a letter, or with a letter behind a minus sign. -/
theorem word?_chars (n : PrintedNumber) (position : ℕ) (rest : List Char) :
    word? position (n.chars ++ rest) = none := by
  obtain ⟨⟨hne, hdigits⟩, -⟩ := n.areWhole
  obtain ⟨d, more, hwhole⟩ := List.exists_cons_of_ne_nil hne
  have hd : d.isDigit = true := hdigits d (by simp [hwhole])
  have hletter : ∀ c : Char, c.isDigit = false → c ≠ d := by
    rintro c hc rfl
    rw [hd] at hc
    cases hc
  have hchars : n.chars =
      PrintedNumber.signChars n.negative ++ d :: (more ++ n.places ++ n.power) := by
    simp [PrintedNumber.chars, hwhole]
  rw [word?, Option.map_eq_none_iff, List.find?_eq_none, hchars]
  cases n.negative <;>
    simp [words, PrintedNumber.signChars, hletter 'n' rfl, hletter 't' rfl, hletter 'f' rfl,
      hletter 'N' rfl, hletter 'I' rfl, hletter '-' rfl]

theorem realText_of_isFinite {x : Float} (hx : x.isFinite = true) :
    realText x = Float.shortestText x := by
  obtain ⟨hnan, hinf⟩ := Float.not_isNaN_of_isFinite hx
  rw [realText, if_neg (Bool.eq_false_iff.1 hnan), if_neg (Bool.eq_false_iff.1 hinf)]

/-- **A number that is not finite is read as itself.** -/
theorem word?_realText {x : Float} (hx : x.isFinite = false) (position : ℕ) (rest : List Char) :
    ∃ behind, word? position ((realText x).toList ++ rest) = some ⟨.real x, behind, rest⟩ := by
  unfold realText
  by_cases hnan : x.isNaN = true
  · rw [if_pos hnan, Float.eq_undefined_of_isNaN hnan]
    exact ⟨_, rfl⟩
  · have hinf := Float.isInf_of_not_isFinite hx (Bool.eq_false_iff.2 hnan)
    rw [if_neg hnan, if_pos hinf]
    have hvalue := Float.eq_infinity_of_isInf hinf
    by_cases hneg : x < 0.0
    · rw [if_pos hneg] at hvalue ⊢
      rw [hvalue]
      exact ⟨_, rfl⟩
    · rw [if_neg hneg] at hvalue ⊢
      rw [hvalue]
      exact ⟨_, rfl⟩

end Json

end RobotBlocks
