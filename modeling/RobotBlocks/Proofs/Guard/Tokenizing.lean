import RobotBlocks.Proofs.Guard.Lexemes

/-!
# Tokenizing undoes spelling

The tokens of a text are its lexemes in their order, and between them stands white space only:

* lexemes that stand apart are read one by one (`tokensFrom_chars`);
* what has been read are lexemes with white space before them (`exists_parts_of_tokensFrom`), also
  where reading fails behind them (`refused_of_tokensFrom`);
* every lexeme has a character, so reading ends before the fuel does (`tokensFrom_eq_of_length_le`);
* the white space at the end of a text is all that is trimmed from it (`exists_blanks_of_trimEnd`,
  `trimEnd_ofChars`).

`tokenize_undoes_spelling` states it for whole texts.
-/

namespace RobotBlocks

namespace Guard

/-! ## Layouts -/

/-- White space, maybe none. -/
abbrev Blanks : Type := {cs : List Char // ∀ c ∈ cs, isBlank c = true}

/-- Lexemes one behind the other, each with the white space before it. -/
abbrev Parts : Type := List (Blanks × Lexeme)

namespace Parts

/-- The characters of the lexemes and of the white space before them. -/
def chars (parts : Parts) : List Char := parts.flatMap fun p => p.1.val ++ p.2.spelling

@[simp] theorem chars_nil : chars [] = [] := rfl

@[simp] theorem chars_cons (p : Blanks × Lexeme) (parts : Parts) :
    chars (p :: parts) = p.1.val ++ (p.2.spelling ++ chars parts) := by
  simp [chars]

/-- The lexemes as they are told. -/
def told (parts : Parts) : List (String × String) := parts.map fun p => p.2.told

/-- No two lexemes stand without white space between them. -/
def Apart (parts : Parts) : Prop := ∀ p ∈ parts.tail, p.1.val ≠ []

theorem Apart.tail {p : Blanks × Lexeme} {parts : Parts} (h : Apart (p :: parts)) :
    Apart parts := fun q hq => h q (List.mem_of_mem_tail hq)

/-- Where lexemes stand apart, nothing or a blank follows each of them. -/
theorem Apart.head {p : Blanks × Lexeme} {parts : Parts} (h : Apart (p :: parts)) :
    ∀ c ∈ (chars parts).head?, isBlank c = true := by
  intro c hc
  rcases parts with _ | ⟨q, parts⟩
  · cases hc
  · obtain ⟨b, bs, hbs⟩ := List.exists_cons_of_ne_nil (h q List.mem_cons_self)
    rw [chars_cons, hbs, List.cons_append, List.head?_cons] at hc
    cases hc
    exact q.1.property c (by simp [hbs])

theorem chars_append (parts parts' : Parts) :
    chars (parts ++ parts') = parts.chars ++ parts'.chars := List.flatMap_append

theorem length_le (parts : Parts) : parts.length ≤ parts.chars.length := by
  induction parts with
  | nil => exact Nat.zero_le _
  | cons p parts ih =>
    have hpos := List.length_pos_iff.2 p.2.spelling_ne_nil
    simp only [chars_cons, List.length_append, List.length_cons]
    omega

theorem ne_replacement_of_mem (parts : Parts) {c : Char} (h : c ∈ parts.chars) :
    c ≠ '\uFFFD' := by
  obtain ⟨p, -, hc⟩ := List.mem_flatMap.1 h
  rcases List.mem_append.1 hc with hc | hc
  · rintro rfl
    exact absurd (p.1.property _ hc) (by decide)
  · exact Lexeme.ne_replacement_of_mem hc

/-- The last character of a row of lexemes is no blank. -/
theorem isBlank_of_getLast? (parts : Parts) {c : Char} (h : parts.chars.getLast? = some c) :
    isBlank c = false := by
  rcases List.eq_nil_or_concat parts with rfl | ⟨front, p, rfl⟩
  · cases h
  · rw [List.concat_eq_append, chars_append, chars_cons, chars_nil, List.append_nil,
      ← List.append_assoc, List.getLast?_append,
      List.getLast?_eq_some_getLast p.2.spelling_ne_nil, Option.some_or] at h
    cases h
    exact Lexeme.isBlank_of_mem (List.getLast_mem p.2.spelling_ne_nil)

end Parts

/-- Skipping white space before a lexeme leads to the lexeme. -/
theorem dropWhile_isBlank_append (bs : Blanks) (l : Lexeme) (rest : List Char) :
    (bs.val ++ (l.spelling ++ rest)).dropWhile isBlank = l.spelling ++ rest := by
  obtain ⟨c, cs, hcons⟩ := List.exists_cons_of_ne_nil l.spelling_ne_nil
  have hc : isBlank c = false := Lexeme.isBlank_of_mem (l := l) (by simp [hcons])
  rw [List.dropWhile_append_of_pos bs.property, hcons, List.cons_append,
    List.dropWhile_cons_of_neg (by simp [hc])]

theorem tokensFrom_of_ne_nil (text : Text) (fuel : ℕ) {cs : List Char} (h : cs ≠ []) :
    tokensFrom text (fuel + 1) cs =
      match lexeme? (cs.dropWhile isBlank) with
      | none => .error (misfit text cs)
      | some (.error fault) => .error fault
      | some (.ok (token, rest)) => (tokensFrom text fuel rest).map (token :: ·) := by
  obtain ⟨c, cs, rfl⟩ := List.exists_cons_of_ne_nil h
  rfl

/-- Reading a token takes the white space and the lexeme before the rest. -/
theorem exists_part_of_lexeme? {cs rest : List Char} {t : Token}
    (h : lexeme? (cs.dropWhile isBlank) = some (.ok (t, rest))) :
    ∃ p : Blanks × Lexeme, cs = p.1.val ++ (p.2.spelling ++ rest) ∧ p.2.told = t.told := by
  obtain ⟨l, hl, htold⟩ := exists_spelling_of_lexeme? h
  refine ⟨⟨⟨cs.takeWhile isBlank, List.all_eq_true.1 List.all_takeWhile⟩, l⟩, ?_, htold⟩
  rw [← hl, List.takeWhile_append_dropWhile]

theorem length_lt_of_lexeme? {cs rest : List Char} {t : Token}
    (h : lexeme? (cs.dropWhile isBlank) = some (.ok (t, rest))) : rest.length < cs.length := by
  obtain ⟨p, rfl, -⟩ := exists_part_of_lexeme? h
  have hpos := List.length_pos_iff.2 p.2.spelling_ne_nil
  simp only [List.length_append]
  omega

/-- **Lexemes that stand apart are read one by one.** -/
theorem tokensFrom_chars (text : Text) (parts : Parts) (h : parts.Apart) {fuel : ℕ}
    (hfuel : parts.length ≤ fuel) :
    ∃ ts, tokensFrom text fuel parts.chars = .ok ts ∧ ts.map Token.told = parts.told := by
  induction parts generalizing fuel with
  | nil => exact ⟨[], by simp [tokensFrom], rfl⟩
  | cons p parts ih =>
    obtain ⟨fuel, rfl⟩ : ∃ n, fuel = n + 1 := ⟨fuel - 1, by simp at hfuel; omega⟩
    obtain ⟨ts, hts, htold⟩ := ih h.tail (by simpa using hfuel)
    obtain ⟨t, ht, htold'⟩ := lexeme?_spelling p.2 h.head
    have hne : Parts.chars (p :: parts) ≠ [] := by simp [p.2.spelling_ne_nil]
    refine ⟨t :: ts, ?_, ?_⟩
    · rw [tokensFrom_of_ne_nil text fuel hne, Parts.chars_cons, dropWhile_isBlank_append, ht]
      simp only [hts, Except.map]
    · simp only [List.map_cons, htold, htold', Parts.told]

/-- **What has been read** are lexemes with white space before them. -/
theorem exists_parts_of_tokensFrom {text : Text} {fuel : ℕ} {cs : List Char} {ts : List Token}
    (h : tokensFrom text fuel cs = .ok ts) :
    ∃ parts : Parts, cs = parts.chars ∧ parts.told = ts.map Token.told := by
  fun_induction tokensFrom text fuel cs generalizing ts with
  | case1 =>
    cases h
    exact ⟨[], rfl, rfl⟩
  | case2 => cases h
  | case3 => cases h
  | case4 => cases h
  | case5 fuel cs hne token rest hlexeme ih =>
    obtain ⟨others, hothers, rfl⟩ := Outcome.map_eq_ok.1 h
    obtain ⟨parts, rfl, htold⟩ := ih hothers
    obtain ⟨p, hp, hptold⟩ := exists_part_of_lexeme? hlexeme
    refine ⟨p :: parts, by rw [hp, Parts.chars_cons], ?_⟩
    simp only [Parts.told, List.map_cons, hptold] at htold ⊢
    rw [htold]

/-- Why a text cannot be read on behind some characters, where others are left: either no lexeme
begins there behind the white space, or a run of letters begins there that is none of the words. -/
inductive Refused (text : Text) (front rest : List Char) : Fault → Prop
  | character (hnone : ∀ l : Lexeme, ¬ l.spelling <+: rest.dropWhile isBlank) :
    Refused text front rest (.character front.length (text.drop front.length))
  | name {letters behind : List Char} (hrest : rest.dropWhile isBlank = letters ++ behind)
    (hne : letters ≠ []) (hletters : ∀ c ∈ letters, isLetter c = true)
    (hbehind : ∀ c ∈ behind.head?, isLetter c = false)
    (hunknown : String.ofList (letters.map Char.toLower) ∉ words) :
    Refused text front rest (.name (String.ofList letters))

/-- **Where reading fails**, lexemes with white space before them have been read, and the rest is
refused for a reason. -/
theorem refused_of_tokensFrom {text : Text} {fuel : ℕ} {front cs : List Char} {fault : Fault}
    (htext : text.chars = front ++ cs) (h : tokensFrom text fuel cs = .error fault)
    (hfuel : cs.length ≤ fuel) :
    ∃ (parts : Parts) (rest : List Char),
      cs = parts.chars ++ rest ∧ Refused text (front ++ parts.chars) rest fault := by
  fun_induction tokensFrom text fuel cs generalizing front with
  | case1 => cases h
  | case2 cs hne => exact absurd (List.length_eq_zero_iff.1 (by omega)) hne
  | case3 fuel cs hne hlexeme =>
    cases h
    have hplace : text.length - cs.length = front.length := by
      have hlength := congrArg List.length htext
      simp only [Text.chars, List.length_map, List.length_append] at hlength
      omega
    refine ⟨[], cs, rfl, ?_⟩
    rw [misfit, hplace, Parts.chars_nil, List.append_nil]
    exact .character (lexeme?_eq_none hlexeme)
  | case4 fuel cs hne fault' hlexeme =>
    cases h
    obtain ⟨rfl, hletters, hunknown⟩ := lexeme?_eq_error hlexeme
    refine ⟨[], cs, rfl, .name List.takeWhile_append_dropWhile.symm hletters
      (List.all_eq_true.1 List.all_takeWhile) ?_ hunknown⟩
    intro c hc
    have hfront := List.head?_dropWhile_not isLetter (cs.dropWhile isBlank)
    rw [Option.mem_def.1 hc] at hfront
    exact hfront
  | case5 fuel cs hne token rest hlexeme ih =>
    have hlt := length_lt_of_lexeme? hlexeme
    have hothers : tokensFrom text fuel rest = .error fault := by
      rcases hothers : tokensFrom text fuel rest with fault' | ts <;> rw [hothers] at h <;> cases h
      rfl
    obtain ⟨p, rfl, -⟩ := exists_part_of_lexeme? hlexeme
    have htext' : text.chars = (front ++ (p.1.val ++ p.2.spelling)) ++ rest := by simpa using htext
    obtain ⟨parts, behind, rfl, hrefused⟩ := ih htext' hothers (by omega)
    refine ⟨p :: parts, behind, by simp, ?_⟩
    simpa using hrefused

/-- **Fuel is no limit.** -/
theorem tokensFrom_eq_of_length_le (text : Text) {cs : List Char} {fuel fuel' : ℕ}
    (h : cs.length ≤ fuel) (h' : cs.length ≤ fuel') :
    tokensFrom text fuel cs = tokensFrom text fuel' cs := by
  induction fuel generalizing fuel' cs with
  | zero =>
    obtain rfl : cs = [] := by simpa using h
    simp [tokensFrom]
  | succ fuel ih =>
    by_cases hne : cs = []
    · simp [hne, tokensFrom]
    · have hpos := List.length_pos_iff.2 hne
      obtain ⟨fuel', rfl⟩ : ∃ n, fuel' = n + 1 := ⟨fuel' - 1, by omega⟩
      rw [tokensFrom_of_ne_nil text fuel hne, tokensFrom_of_ne_nil text fuel' hne]
      rcases hlexeme : lexeme? (cs.dropWhile isBlank) with _ | _ | ⟨token, rest⟩
      · rfl
      · rfl
      · have hlt := length_lt_of_lexeme? hlexeme
        simp only
        have hrest : tokensFrom text fuel rest = tokensFrom text fuel' rest :=
          ih (by omega) (by omega)
        rw [hrest]

/-! ## Whole texts -/

theorem exists_char_of_isIn {p : Char → Bool} {piece : Piece} (h : piece.isIn p = true) :
    ∃ c, piece = .char c ∧ p c = true := by
  cases piece with
  | char c => exact ⟨c, rfl, h⟩
  | half index => cases h

theorem chars_ofChars (cs : List Char) : (Text.ofChars cs).chars = cs := by
  simp [Text.chars, Text.ofChars, Function.comp_def, Piece.shown]

/-- A text without halves of pairs is the text of its characters. -/
theorem ofChars_chars {text : Text} (h : ∀ piece ∈ text, ∃ c, piece = .char c) :
    Text.ofChars text.chars = text := by
  unfold Text.ofChars Text.chars
  rw [List.map_map]
  refine (List.map_congr_left fun piece hpiece => ?_).trans (List.map_id text)
  obtain ⟨c, rfl⟩ := h piece hpiece
  rfl

/-- Trimming a text takes white space from its end. -/
theorem exists_blanks_of_trimEnd (text : Text) :
    ∃ bs : Blanks, text = text.trimEnd ++ Text.ofChars bs.val := by
  set taken : Text := (text.reverse.takeWhile (Piece.isIn isBlank)).reverse with htaken
  have hblank : ∀ piece ∈ taken, ∃ c, piece = .char c ∧ isBlank c = true := by
    intro piece hpiece
    refine exists_char_of_isIn ?_
    exact List.all_eq_true.1 List.all_takeWhile piece (List.mem_reverse.1 hpiece)
  refine ⟨⟨taken.chars, fun c hc => ?_⟩, ?_⟩
  · obtain ⟨piece, hpiece, rfl⟩ := List.mem_map.1 hc
    obtain ⟨c, rfl, hblank⟩ := hblank piece hpiece
    exact hblank
  · rw [ofChars_chars fun piece hpiece => (hblank piece hpiece).imp fun c hc => hc.1, htaken,
      Text.trimEnd, ← List.reverse_append, List.takeWhile_append_dropWhile, List.reverse_reverse]

/-- White space behind lexemes is trimmed, and no more than that. -/
theorem trimEnd_ofChars (parts : Parts) (behind : Blanks) :
    (Text.ofChars (parts.chars ++ behind.val)).trimEnd = Text.ofChars parts.chars := by
  have hbehind : ∀ piece ∈ (Text.ofChars behind.val).reverse, Piece.isIn isBlank piece = true := by
    intro piece hpiece
    obtain ⟨c, hc, rfl⟩ := List.mem_map.1 (List.mem_reverse.1 hpiece)
    exact behind.property c hc
  have hlast : ∀ piece ∈ (Text.ofChars parts.chars).reverse.head?,
      Piece.isIn isBlank piece = false := by
    intro piece hpiece
    rw [List.head?_reverse, Text.ofChars, List.getLast?_map] at hpiece
    obtain ⟨c, hc, rfl⟩ := Option.map_eq_some_iff.1 hpiece
    exact parts.isBlank_of_getLast? hc
  rw [Text.trimEnd, Text.ofChars, List.map_append, List.reverse_append]
  change ((Text.ofChars behind.val).reverse ++ (Text.ofChars parts.chars).reverse |>.dropWhile
    (Piece.isIn isBlank)).reverse = _
  rw [(takeWhile_dropWhile_append hbehind hlast).2, List.reverse_reverse]

/-- **Tokenizing undoes spelling.** Lexemes with white space between them, before them and behind
them have tokens of their sorts and texts. Conversely, a text that has tokens consists of lexemes of
their sorts and texts, in their order, and of white space. Any other text is refused for a reason
behind some of its lexemes, and no fuel beyond the length of the text is used. -/
theorem tokenize_undoes_spelling :
    (∀ (parts : Parts) (behind : Blanks), parts.Apart →
      (tokenize (Text.ofChars (parts.chars ++ behind.val))).map (List.map Token.told) =
        .ok parts.told) ∧
    (∀ text ts, tokenize text = .ok ts →
      ∃ (parts : Parts) (behind : Blanks),
        text = Text.ofChars (parts.chars ++ behind.val) ∧ parts.told = ts.map Token.told) ∧
    (∀ text fault, tokenize text = .error fault →
      ∃ (parts : Parts) (rest : List Char), text.trimEnd.chars = parts.chars ++ rest ∧
        Refused text.trimEnd parts.chars rest fault) ∧
    ∀ (text : Text) fuel, text.trimEnd.length ≤ fuel →
      tokensFrom text.trimEnd fuel text.trimEnd.chars = tokenize text := by
  refine ⟨?_, ?_, ?_, ?_⟩
  · intro parts behind hapart
    have hlength : parts.length ≤ (Text.ofChars parts.chars).length := by
      simpa [Text.ofChars] using parts.length_le
    obtain ⟨ts, hts, htold⟩ := tokensFrom_chars (Text.ofChars parts.chars) parts hapart hlength
    rw [tokenize, trimEnd_ofChars, chars_ofChars, hts, ← htold]
    rfl
  · intro text ts h
    obtain ⟨parts, hparts, htold⟩ := exists_parts_of_tokensFrom h
    obtain ⟨behind, hbehind⟩ := exists_blanks_of_trimEnd text
    refine ⟨parts, behind, ?_, htold⟩
    have htrimmed : Text.ofChars parts.chars = text.trimEnd := by
      rw [← hparts]
      refine ofChars_chars fun piece hpiece => ?_
      cases piece with
      | char c => exact ⟨c, rfl⟩
      | half index =>
        have hmem : '\uFFFD' ∈ parts.chars := hparts ▸ List.mem_map_of_mem hpiece
        exact absurd rfl (parts.ne_replacement_of_mem hmem)
    rw [Text.ofChars, List.map_append]
    exact hbehind.trans (congrArg (· ++ _) htrimmed.symm)
  · intro text fault h
    have htext : text.trimEnd.chars = [] ++ text.trimEnd.chars := rfl
    exact refused_of_tokensFrom htext h (by simp [Text.chars])
  · intro text fuel hfuel
    exact tokensFrom_eq_of_length_le _ (by simpa [Text.chars] using hfuel) (by simp [Text.chars])

/-- A guard with more white space than it needs. -/
def spaced : Parts :=
  [(⟨[' ', ' '], List.all_eq_true.1 rfl⟩, .word ['N', 'O', 'T'] (by decide)),
   (⟨[' '], List.all_eq_true.1 rfl⟩, .number true (['1'] ++ '.' :: ['5'])
     (.point (.inl (by decide)) (List.all_eq_true.1 rfl) (List.all_eq_true.1 rfl))),
   (⟨['\t'], List.all_eq_true.1 rfl⟩, .sign "<=" (by decide)),
   (⟨[' '], List.all_eq_true.1 rfl⟩, .number false ['2'] (.whole (by decide)
     (List.all_eq_true.1 rfl)))]

theorem tokenize_spaced :
    (tokenize (Text.ofString "  NOT -1.5\t<= 2 ")).map (List.map Token.told) =
      .ok [("word", "not"), ("number", "-1.5"), ("op", "<="), ("number", "2")] ∧
    (∃ (parts : Parts) (behind : Blanks),
      Text.ofString "1<2" = Text.ofChars (parts.chars ++ behind.val) ∧
        parts.told = [("number", "1"), ("op", "<"), ("number", "2")]) ∧
    ∃ (parts : Parts) (rest : List Char),
      (Text.ofString "1 = 2").trimEnd.chars = parts.chars ++ rest ∧
        Refused (Text.ofString "1 = 2").trimEnd parts.chars rest
          (.character 1 (Text.ofString " = 2")) := by
  obtain ⟨hspaced, hread, hrefused, -⟩ := tokenize_undoes_spelling
  refine ⟨hspaced spaced ⟨[' '], List.all_eq_true.1 rfl⟩ ?_, ?_, ?_⟩
  · unfold Parts.Apart
    decide
  · exact hread _ [.number "1", .compare .lt, .number "2"] (by decide)
  · exact hrefused _ _ (by decide)

end Guard

end RobotBlocks
