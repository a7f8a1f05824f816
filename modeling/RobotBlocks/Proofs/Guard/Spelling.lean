import Mathlib.Data.List.TakeWhile
import RobotBlocks.Guard.Token
import RobotBlocks.Proofs.Outcome

/-!
# Spellings of numbers in guards

A number in a guard is cut out of the text without reading its value, and read when its place in the
guard is known. The lemmas say that what is cut out can always be read: digits of any script, with a
point or without, are the text of a number once they stand for ASCII digits, and they hold nothing
that the reading of numbers drops, neither white space nor underscores.

* `Numeral` is the form of a number without its sign; `unsigned?_numeral`, `Numeral.plain` and
  `Numeral.decimal?_isSome` follow it from the text of the guard to the value.
* `isSome_ofText?_of_tokenize`: every number among the tokens of a guard has a value.
-/

namespace RobotBlocks

/-! ## Digits -/

/-- The digit of value `d` stands `d` places behind the first digit of its script. -/
theorem digitValue?_eq_some {c : Char} {d : Nat} (h : digitValue? c = some d) :
    d < 10 ∧ ∃ first ∈ digitZeros, c = Char.ofNat (first + d) ∧ (c.toNat < 128 → first = 48) := by
  simp only [digitValue?] at h
  split at h
  · split at h
    · rename_i hrange
      simp only [Bool.and_eq_true, decide_eq_true_eq] at hrange
      obtain rfl := Option.some.inj h
      have hplace : 48 + (c.toNat - 48) = c.toNat := by omega
      refine ⟨by omega, 48, by decide, ?_, fun _ => rfl⟩
      rw [hplace, Char.ofNat_toNat]
    · cases h
  · obtain ⟨first, hfirst, rfl⟩ := Option.map_eq_some_iff.1 h
    have hrange := List.find?_some hfirst
    simp only [Bool.and_eq_true, decide_eq_true_eq] at hrange
    have hplace : first + (c.toNat - first) = c.toNat := by omega
    refine ⟨by omega, first, List.mem_of_find?_eq_some hfirst, ?_, fun hascii => by contradiction⟩
    rw [hplace, Char.ofNat_toNat]

theorem isBlank_digit :
    ∀ first ∈ digitZeros, ∀ d < 10, isBlank (Char.ofNat (first + d)) = false := by
  decide +kernel

theorem isBlank_of_isDigit {c : Char} (h : isDigit c = true) : isBlank c = false := by
  obtain ⟨d, hd⟩ := Option.isSome_iff_exists.1 h
  obtain ⟨hlt, first, hfirst, rfl, -⟩ := digitValue?_eq_some hd
  exact isBlank_digit first hfirst d hlt

theorem isDigit_ofNat : ∀ d < 10, (Char.ofNat (48 + d)).isDigit = true := by decide

/-- Digits are no letters. -/
theorem toLower_of_isDigit {c : Char} (h : c.isDigit = true) : c.toLower = c := by
  obtain ⟨hfrom, hto⟩ : 48 ≤ c.toNat ∧ c.toNat ≤ 57 := by
    simpa [Char.isDigit, UInt32.le_iff_toNat_le] using h
  have hplace : 48 + (c.toNat - 48) = c.toNat := by omega
  have hkeep : ∀ d < 10, (Char.ofNat (48 + d)).toLower = Char.ofNat (48 + d) := by decide
  rw [← Char.ofNat_toNat c, ← hplace]
  exact hkeep _ (by omega)

theorem plain_char (c : Char) : Reading.plain (.char c) =
    if c.toNat < 128 then c
    else match digitValue? c with
      | some d => Char.ofNat (48 + d)
      | none => '?' := rfl

/-- Digits of any script are read as ASCII digits. -/
theorem isDigit_plain {c : Char} (h : isDigit c = true) :
    (Reading.plain (.char c)).isDigit = true := by
  obtain ⟨d, hd⟩ := Option.isSome_iff_exists.1 h
  obtain ⟨hlt, first, -, hc, hascii⟩ := digitValue?_eq_some hd
  rw [plain_char]
  by_cases h128 : c.toNat < 128
  · rw [if_pos h128, hc, hascii h128]
    exact isDigit_ofNat d hlt
  · rw [if_neg h128, hd]
    exact isDigit_ofNat d hlt

/-! ## Numerals -/

/-- Digits, with a point or without, and at least one digit. -/
inductive Numeral (digit : Char → Bool) : List Char → Prop
  | whole {ws : List Char} (hne : ws ≠ []) (hws : ∀ c ∈ ws, digit c = true) : Numeral digit ws
  | point {ws ps : List Char} (hne : ws ≠ [] ∨ ps ≠ []) (hws : ∀ c ∈ ws, digit c = true)
    (hps : ∀ c ∈ ps, digit c = true) : Numeral digit (ws ++ '.' :: ps)

namespace Numeral

variable {digit : Char → Bool} {cs : List Char}

theorem digit_or_point (h : Numeral digit cs) : ∀ c ∈ cs, digit c = true ∨ c = '.' := by
  intro c hc
  cases h with
  | whole hne hws => exact .inl (hws c hc)
  | point hne hws hps =>
    rcases List.mem_append.1 hc with hc | hc
    · exact .inl (hws c hc)
    · rcases List.mem_cons.1 hc with rfl | hc
      · exact .inr rfl
      · exact .inl (hps c hc)

/-- A function that keeps the point and takes digits of one kind to digits of another takes numerals
to numerals. -/
theorem map {digit' : Char → Bool} {f : Char → Char} (h : Numeral digit cs) (hpoint : f '.' = '.')
    (hdigit : ∀ c, digit c = true → digit' (f c) = true) : Numeral digit' (cs.map f) := by
  have hall : ∀ {xs : List Char}, (∀ c ∈ xs, digit c = true) → ∀ c ∈ xs.map f, digit' c = true := by
    intro xs hxs c hc
    obtain ⟨x, hx, rfl⟩ := List.mem_map.1 hc
    exact hdigit x (hxs x hx)
  cases h with
  | whole hne hws => exact .whole (by simpa using hne) (hall hws)
  | point hne hws hps =>
    rw [List.map_append, List.map_cons, hpoint]
    exact .point (by simpa using hne) (hall hws) (hall hps)

end Numeral

theorem Guard.unsigned?_numeral {cs spelling rest : List Char}
    (h : Guard.unsigned? cs = some (spelling, rest)) : Numeral isDigit spelling := by
  have htake : ∀ xs : List Char, ∀ c ∈ xs.takeWhile isDigit, isDigit c = true :=
    fun xs => List.all_eq_true.1 List.all_takeWhile
  have hwhole := htake cs
  simp only [Guard.unsigned?] at h
  split at h
  · rename_i behind hnil hbehind
    split at h
    · cases h
    · rename_i hplaces
      cases h
      have hnone : ∀ c ∈ ([] : List Char), isDigit c = true := by simp
      exact .point (.inr (by simpa using hplaces)) hnone (htake behind)
  · cases h
  · rename_i behind hbehind hne
    cases h
    exact .point (.inl (by simpa using hne)) hwhole (htake behind)
  · rename_i hne _ _
    cases h
    exact .whole (by simpa using hne) hwhole

theorem Guard.number?_numeral {cs spelling rest : List Char}
    (h : Guard.number? cs = some (spelling, rest)) :
    Numeral isDigit spelling ∨ ∃ size, Numeral isDigit size ∧ spelling = '-' :: size := by
  unfold Guard.number? at h
  split at h
  · obtain ⟨⟨size, behind⟩, hsize, heq⟩ := Option.map_eq_some_iff.1 h
    cases heq
    exact .inr ⟨size, Guard.unsigned?_numeral hsize, rfl⟩
  · exact .inl (Guard.unsigned?_numeral h)

/-! ## Reading numerals -/

/-- A text without blanks of the class is left as it is. -/
theorem Text.trimWith_eq_self {p : Char → Bool} {t : Text}
    (h : ∀ piece ∈ t, Piece.isIn p piece = false) : t.trimWith p = t := by
  have hdrop : ∀ {t : Text}, (∀ piece ∈ t, Piece.isIn p piece = false) →
      t.dropWhile (Piece.isIn p) = t := by
    intro t ht
    cases t with
    | nil => rfl
    | cons piece t => rw [List.dropWhile_cons_of_neg (by simp [ht piece])]
  unfold Text.trimWith
  rw [hdrop h, hdrop (by simpa using h), List.reverse_reverse]

namespace Reading

/-- Without underscores there is nothing to drop. -/
theorem dropUnderscores_eq_some {cs : List Char} (h : ∀ c ∈ cs, c ≠ '_') (before : Bool) :
    dropUnderscores before cs = some cs := by
  induction cs generalizing before with
  | nil => rfl
  | cons c cs ih =>
    have hc : c ≠ '_' := h c (by simp)
    rw [dropUnderscores, ih (fun d hd => h d (by simp [hd]))]
    · rfl
    · exact hc

end Reading

namespace Numeral

variable {cs : List Char}

/-- A numeral in ASCII digits is a decimal number. -/
theorem decimal?_isSome (h : Numeral Char.isDigit cs) (negative : Bool) :
    (Reading.decimal? negative cs).isSome = true := by
  have hplaces : ∀ {xs : List Char}, (∀ c ∈ xs, c.isDigit = true) →
      xs.takeWhile Char.isDigit = xs ∧ xs.dropWhile Char.isDigit = [] := fun hxs =>
    ⟨List.takeWhile_eq_self_iff.2 hxs, List.dropWhile_eq_nil_iff.2 hxs⟩
  cases h with
  | whole hne hws =>
    simp [Reading.decimal?, hplaces hws, hne, Reading.exponent?]
  | @point ws ps hne hws hps =>
    have htake : (ws ++ '.' :: ps).takeWhile Char.isDigit = ws := by
      rw [List.takeWhile_append_of_pos hws]
      simp
    have hdrop : (ws ++ '.' :: ps).dropWhile Char.isDigit = '.' :: ps := by
      rw [List.dropWhile_append_of_pos hws]
      simp
    have hdigits : (ws.isEmpty && ps.isEmpty) = false := by
      rcases hne with hne | hne <;> simp [hne]
    simp [Reading.decimal?, htake, hdrop, hplaces hps, hdigits, Reading.exponent?]

/-- No numeral is one of the words for infinities and what is no number. -/
theorem number?_isSome (h : Numeral Char.isDigit cs) :
    (Reading.number? cs).isSome = true ∧ (Reading.number? ('-' :: cs)).isSome = true := by
  have hlower : cs.map Char.toLower = cs := by
    refine (List.map_congr_left fun c hc => ?_).trans (List.map_id cs)
    rcases h.digit_or_point c hc with hdigit | rfl
    · exact toLower_of_isDigit hdigit
    · rfl
  have hword : ∀ word : List Char, (∃ c ∈ word, c.isDigit = false ∧ c ≠ '.') →
      (cs.map Char.toLower == word) = false := by
    rintro word ⟨c, hc, hdigit, hpoint⟩
    rw [hlower, beq_eq_false_iff_ne]
    rintro rfl
    simpa [hdigit, hpoint] using h.digit_or_point c hc
  have hsign : Reading.sign cs = (false, cs) := by
    unfold Reading.sign
    split
    · exact absurd (h.digit_or_point '-' (by simp)) (by decide)
    · exact absurd (h.digit_or_point '+' (by simp)) (by decide)
    · rfl
  have hinf := hword "inf".toList ⟨'i', by simp, rfl, by decide⟩
  have hinfinity := hword "infinity".toList ⟨'i', by simp, rfl, by decide⟩
  have hnan := hword "nan".toList ⟨'n', by simp, rfl, by decide⟩
  constructor
  · simp only [Reading.number?, hsign, hinf, hinfinity, hnan]
    exact h.decimal?_isSome false
  · simp only [Reading.number?, Reading.sign, hinf, hinfinity, hnan]
    exact h.decimal?_isSome true

end Numeral

/-- What holds neither blanks nor underscores is read from its first character to its last. -/
theorem ofText?_ofList {cs : List Char}
    (h : ∀ c ∈ cs, isBlank c = false ∧ Reading.plain (.char c) ≠ '_') :
    Float.ofText? (String.ofList cs) = Reading.number? (cs.map fun c => Reading.plain (.char c)) := by
  have htrim : (Text.ofChars cs).trimWith isNumberBlank = Text.ofChars cs := by
    refine Text.trimWith_eq_self fun piece hpiece => ?_
    obtain ⟨c, hc, rfl⟩ := List.mem_map.1 hpiece
    simp [Piece.isIn, isNumberBlank, (h c hc).1]
  have hplain : (Text.ofChars cs).map Reading.plain = cs.map fun c => Reading.plain (.char c) := by
    simp [Text.ofChars]
  unfold Float.ofText?
  rw [Text.ofString, String.toList_ofList, htrim, hplain, Reading.dropUnderscores_eq_some]
  · rfl
  · intro c hc
    obtain ⟨d, hd, rfl⟩ := List.mem_map.1 hc
    exact (h d hd).2

/-- A numeral in the digits of any script has a value, with a minus sign in front or without. -/
theorem Numeral.ofText?_isSome {cs : List Char} (h : Numeral isDigit cs) :
    (Float.ofText? (String.ofList cs)).isSome = true ∧
      (Float.ofText? (String.ofList ('-' :: cs))).isSome = true := by
  have hchars : ∀ c ∈ cs, isBlank c = false ∧ Reading.plain (.char c) ≠ '_' := by
    intro c hc
    rcases h.digit_or_point c hc with hdigit | rfl
    · refine ⟨isBlank_of_isDigit hdigit, fun heq => ?_⟩
      have := isDigit_plain hdigit
      rw [heq] at this
      cases this
    · decide
  have hplain : Numeral Char.isDigit (cs.map fun c => Reading.plain (.char c)) :=
    h.map rfl fun c hc => isDigit_plain hc
  constructor
  · rw [ofText?_ofList hchars]
    exact hplain.number?_isSome.1
  · rw [ofText?_ofList (List.forall_mem_cons.2 ⟨by decide, hchars⟩)]
    exact hplain.number?_isSome.2

namespace Guard

theorem sign?_ne_number {cs rest : List Char} {token : Token} (h : sign? cs = some (token, rest))
    (spelling : String) : token ≠ .number spelling := by
  unfold sign? at h
  split at h <;> cases h <;> exact fun heq => nomatch heq

theorem word?_ne_number {word : String} {token : Token} (h : word? word = some token)
    (spelling : String) : token ≠ .number spelling := by
  unfold word? at h
  split_ifs at h <;> cases h <;> exact fun heq => nomatch heq

/-- A number at the front has a value. -/
theorem isSome_ofText?_of_lexeme {cs rest : List Char} {spelling : String}
    (h : lexeme? cs = some (.ok (.number spelling, rest))) :
    (Float.ofText? spelling).isSome = true := by
  unfold lexeme? at h
  split at h
  · rename_i size behind hnumber
    cases h
    rcases number?_numeral hnumber with hnumeral | ⟨size, hnumeral, rfl⟩
    · exact hnumeral.ofText?_isSome.1
    · exact hnumeral.ofText?_isSome.2
  · split at h
    · rename_i r hsign
      cases h
      exact absurd rfl (sign?_ne_number hsign spelling)
    · simp only at h
      split at h
      · cases h
      · split at h
        · rename_i token hword
          cases h
          exact absurd rfl (word?_ne_number hword spelling)
        · cases h

theorem isSome_ofText?_of_tokensFrom {text : Text} {fuel : Nat} {cs : List Char} {ts : List Token}
    {spelling : String} (h : tokensFrom text fuel cs = .ok ts) (hmem : .number spelling ∈ ts) :
    (Float.ofText? spelling).isSome = true := by
  fun_induction tokensFrom text fuel cs generalizing ts with
  | case1 =>
    cases h
    cases hmem
  | case2 => cases h
  | case3 => cases h
  | case4 => cases h
  | case5 fuel cs hne token rest hlexeme ih =>
    obtain ⟨others, hothers, rfl⟩ := Outcome.map_eq_ok.1 h
    rcases List.mem_cons.1 hmem with rfl | hmem
    · exact isSome_ofText?_of_lexeme hlexeme
    · exact ih hothers hmem

/-- **Numbers of guards have values.** -/
theorem isSome_ofText?_of_tokenize {text : Text} {ts : List Token} {spelling : String}
    (h : tokenize text = .ok ts) (hmem : .number spelling ∈ ts) :
    (Float.ofText? spelling).isSome = true :=
  isSome_ofText?_of_tokensFrom h hmem

end Guard

end RobotBlocks
