import RobotBlocks.Proofs.Guard.Spelling

/-!
# Lexemes of guards

A lexeme is what is spelled for one token: a number, one of eleven signs or one of five words in any
letter case. Reading the front of a text and lexemes belong together:

* a lexeme with nothing or white space behind it is read up to its end, though `<` is the beginning
  of `<=`, a number may go on with a point, and a word with any letter (`lexeme?_spelling`);
* what is read is a lexeme, with the sort and the text of the token (`exists_spelling_of_lexeme?`);
* where nothing is read no lexeme begins (`lexeme?_eq_none`), and what is refused as a word is none
  (`lexeme?_eq_error`).

Blanks, digits, letters and the other `marks` of lexemes are classes of characters that exclude each
other, in all of Unicode; this is why white space can be skipped before a lexeme and stops it.
-/

namespace RobotBlocks

theorem Numeral.ne_nil {digit : Char → Bool} {cs : List Char} (h : Numeral digit cs) :
    cs ≠ [] := by
  cases h with
  | whole hne _ => exact hne
  | point _ _ _ => simp

namespace Guard

/-! ## Lexemes -/

/-- The signs of guards: operators and parentheses. -/
def signs : List String := ["==", "!=", "<=", ">=", "<", ">", "&&", "||", "!", "(", ")"]

/-- The words of guards. -/
def words : List String := ["true", "false", "and", "or", "not"]

/-- A lexeme as it is spelled: a number with a minus sign or without, a sign, or a word in any letter
case. -/
inductive Lexeme
  | number (negative : Bool) (size : List Char) (form : Numeral isDigit size)
  | sign (text : String) (known : text ∈ signs)
  | word (letters : List Char) (known : String.ofList (letters.map Char.toLower) ∈ words)

namespace Lexeme

/-- The characters of a lexeme. -/
def spelling : Lexeme → List Char
  | number negative size _ => if negative then '-' :: size else size
  | sign text _ => text.toList
  | word letters _ => letters

/-- The sort of a lexeme and its text, words in lower case. -/
def told : Lexeme → String × String
  | number negative size _ => ("number", String.ofList (if negative then '-' :: size else size))
  | sign text _ => ("op", text)
  | word letters _ => ("word", String.ofList (letters.map Char.toLower))

end Lexeme

/-- The sort of a token and its text. -/
def Token.told (t : Token) : String × String := (t.sort, t.text)

/-! ## The characters of lexemes -/

theorem isLetter_of_toLower {c : Char} (h : c.toLower.isAlpha = true) : isLetter c = true := by
  suffices halpha : c.isAlpha = true by simp [isLetter, halpha]
  unfold Char.toLower at h
  split at h
  next hrange => exact Bool.or_eq_true_iff.2 (.inl (decide_eq_true hrange))
  · exact h

theorem isAlpha_of_mem_words {w : String} (hw : w ∈ words) : ∀ c ∈ w.toList, c.isAlpha = true := by
  have hwords : words.all (fun w => w.toList.all Char.isAlpha) = true := by decide
  exact List.all_eq_true.1 (List.all_eq_true.1 hwords w hw)

theorem isLetter_of_word {letters : List Char}
    (known : String.ofList (letters.map Char.toLower) ∈ words) :
    ∀ c ∈ letters, isLetter c = true := by
  intro c hc
  refine isLetter_of_toLower (isAlpha_of_mem_words known _ ?_)
  rw [String.toList_ofList]
  exact List.mem_map_of_mem hc

theorem ne_nil_of_word {letters : List Char}
    (known : String.ofList (letters.map Char.toLower) ∈ words) : letters ≠ [] := by
  rintro rfl
  revert known
  decide

/-- The characters that are neither digits nor letters and yet stand in lexemes. -/
def marks : List Char := ['-', '.', '=', '!', '<', '>', '&', '|', '(', ')']

theorem subset_marks_of_sign : ∀ text ∈ signs, text.toList ⊆ marks := by decide

theorem Lexeme.mem_spelling {l : Lexeme} {c : Char} (h : c ∈ l.spelling) :
    isDigit c = true ∨ isLetter c = true ∨ c ∈ marks := by
  cases l with
  | number negative size form =>
    have hsize : c ∈ size → isDigit c = true ∨ isLetter c = true ∨ c ∈ marks := by
      intro hc
      rcases form.digit_or_point c hc with hdigit | rfl
      · exact .inl hdigit
      · exact .inr (.inr (by decide))
    cases negative with
    | false => exact hsize h
    | true =>
      rcases List.mem_cons.1 h with rfl | h
      · exact .inr (.inr (by decide))
      · exact hsize h
  | sign text known => exact .inr (.inr (subset_marks_of_sign text known h))
  | word letters known => exact .inr (.inl (isLetter_of_word known c h))

/-- Letters of words are ASCII letters or underscores. -/
theorem range_of_isLetter {c : Char} (h : isLetter c = true) : 65 ≤ c.toNat ∧ c.toNat ≤ 122 := by
  rcases Bool.or_eq_true_iff.1 h with h | h
  · rcases Bool.or_eq_true_iff.1 h with h | h
    · have hupper : 65 ≤ c.toNat ∧ c.toNat ≤ 90 := of_decide_eq_true h
      omega
    · obtain ⟨hfirst, hlast⟩ := Bool.and_eq_true_iff.1 h
      have hlower : 97 ≤ c.toNat ∧ c.toNat ≤ 122 :=
        ⟨of_decide_eq_true hfirst, of_decide_eq_true hlast⟩
      omega
  · obtain rfl : c = '_' := by simpa using h
    decide

theorem isBlank_of_isLetter {c : Char} (h : isLetter c = true) : isBlank c = false := by
  have hrange := range_of_isLetter h
  simp only [isBlank, Bool.or_eq_false_iff, Bool.and_eq_false_iff, decide_eq_false_iff_not,
    beq_eq_false_iff_ne]
  omega

theorem isDigit_of_isLetter {c : Char} (h : isLetter c = true) : isDigit c = false := by
  have hrange := range_of_isLetter h
  have hascii : c.toNat < 128 := by omega
  have hdigits : ¬ (48 ≤ c.toNat ∧ c.toNat ≤ 57) := by omega
  simp [isDigit, digitValue?, hascii, hdigits]

theorem not_mem_marks_of_isLetter {c : Char} (h : isLetter c = true) : c ∉ marks := by
  have hrange := range_of_isLetter h
  have hmarks : marks.all (fun m => decide (m.toNat < 65 ∨ 122 < m.toNat)) = true := by decide
  intro hc
  have := of_decide_eq_true (List.all_eq_true.1 hmarks c hc)
  omega

theorem Lexeme.isBlank_of_mem {l : Lexeme} {c : Char} (h : c ∈ l.spelling) :
    isBlank c = false := by
  rcases mem_spelling h with hdigit | hletter | hmark
  · exact isBlank_of_isDigit hdigit
  · exact isBlank_of_isLetter hletter
  · have hmarks : marks.all (fun m => !isBlank m) = true := by decide
    simpa using List.all_eq_true.1 hmarks c hmark

/-- The character that is shown for a half of a pair stands in no lexeme. -/
theorem Lexeme.ne_replacement_of_mem {l : Lexeme} {c : Char} (h : c ∈ l.spelling) :
    c ≠ '\uFFFD' := by
  rintro rfl
  rcases mem_spelling h with hdigit | hletter | hmark
  · exact absurd hdigit (by decide)
  · exact absurd hletter (by decide)
  · exact absurd hmark (by decide)

theorem Lexeme.spelling_ne_nil (l : Lexeme) : l.spelling ≠ [] := by
  cases l with
  | number negative size form =>
    cases negative with
    | false => exact form.ne_nil
    | true => exact List.cons_ne_nil _ _
  | sign text known =>
    have hsigns : ∀ text ∈ signs, text.toList ≠ [] := by decide
    exact hsigns text known
  | word letters known => exact ne_nil_of_word known

/-! ## Reading a lexeme -/

/-- What is taken from the front while a test holds ends where the test fails. -/
theorem takeWhile_dropWhile_append {α : Type} {p : α → Bool} {cs rest : List α}
    (hcs : ∀ c ∈ cs, p c = true) (hrest : ∀ c ∈ rest.head?, p c = false) :
    (cs ++ rest).takeWhile p = cs ∧ (cs ++ rest).dropWhile p = rest := by
  have hempty : rest.takeWhile p = [] ∧ rest.dropWhile p = rest := by
    cases rest with
    | nil => exact ⟨rfl, rfl⟩
    | cons c rest =>
      have hc : ¬ p c = true := by simpa using hrest c rfl
      exact ⟨List.takeWhile_cons_of_neg hc, List.dropWhile_cons_of_neg hc⟩
  rw [List.takeWhile_append_of_pos hcs, List.dropWhile_append_of_pos hcs, hempty.1, hempty.2,
    List.append_nil]
  exact ⟨rfl, rfl⟩

/-- A number without a sign is read up to its end if neither a digit nor a point follows it. -/
theorem unsigned?_append {size rest : List Char} (form : Numeral isDigit size)
    (hrest : ∀ c ∈ rest.head?, isDigit c = false ∧ c ≠ '.') :
    unsigned? (size ++ rest) = some (size, rest) := by
  have hdigit : ∀ c ∈ rest.head?, isDigit c = false := fun c hc => (hrest c hc).1
  cases form with
  | whole hne hws =>
    obtain ⟨htake, hdrop⟩ := takeWhile_dropWhile_append hws hdigit
    obtain ⟨w, ws, rfl⟩ := List.exists_cons_of_ne_nil hne
    unfold unsigned?
    rw [htake, hdrop]
    rcases rest with _ | ⟨c, rest⟩
    · rfl
    · have hc : c ≠ '.' := (hrest c rfl).2
      simp [hc]
  | @point ws ps hne hws hps =>
    have hpoint : ∀ c ∈ ('.' :: ps ++ rest).head?, isDigit c = false := by
      simp
      decide
    obtain ⟨htake, hdrop⟩ := takeWhile_dropWhile_append hws hpoint
    obtain ⟨htake', hdrop'⟩ := takeWhile_dropWhile_append hps hdigit
    unfold unsigned?
    rw [List.append_assoc, htake, hdrop]
    rcases ws with _ | ⟨w, ws⟩
    · have hps : ps ≠ [] := by simpa using hne
      simp [htake', hdrop', hps]
    · simp [htake', hdrop']

theorem unsigned?_eq_none {c : Char} {cs : List Char} (hdigit : isDigit c = false)
    (hpoint : c ≠ '.') : unsigned? (c :: cs) = none := by
  simp [unsigned?, hdigit, hpoint]

theorem number?_eq_none {c : Char} {cs : List Char} (hdigit : isDigit c = false)
    (hpoint : c ≠ '.') (hminus : c ≠ '-') : number? (c :: cs) = none := by
  rw [number?]
  · exact unsigned?_eq_none hdigit hpoint
  · simp [hminus]

/-- A number is read as one without a sign unless it begins with a minus sign. -/
theorem number?_eq_unsigned? {size rest : List Char} (form : Numeral isDigit size) :
    number? (size ++ rest) = unsigned? (size ++ rest) := by
  obtain ⟨c, cs, rfl⟩ := List.exists_cons_of_ne_nil form.ne_nil
  have hminus : c ≠ '-' := by
    rintro rfl
    exact absurd (form.digit_or_point '-' (by simp)) (by decide)
  rw [number?]
  simp [hminus]

theorem isDigit_of_isBlank {c : Char} (h : isBlank c = true) : isDigit c = false ∧ c ≠ '.' := by
  constructor
  · by_contra hdigit
    rw [isBlank_of_isDigit (by simpa using hdigit)] at h
    cases h
  · rintro rfl
    exact absurd h (by decide)

theorem isLetter_of_isBlank {c : Char} (h : isBlank c = true) : isLetter c = false := by
  by_contra hletter
  rw [isBlank_of_isLetter (by simpa using hletter)] at h
  cases h

/-- No number begins with a sign. -/
theorem number?_of_known {text : String} (known : text ∈ signs) (rest : List Char) :
    number? (text.toList ++ rest) = none := by
  have hfronts : ∀ text ∈ signs,
      text.toList.head?.all (fun c => !isDigit c && c != '.' && c != '-') = true := by decide
  obtain ⟨c, cs, hcons⟩ := List.exists_cons_of_ne_nil (Lexeme.sign text known).spelling_ne_nil
  have htext : text.toList = c :: cs := hcons
  have hfront := hfronts text known
  rw [htext] at hfront
  obtain ⟨⟨hdigit, hpoint⟩, hminus⟩ : (isDigit c = false ∧ c ≠ '.') ∧ c ≠ '-' := by
    simpa using hfront
  rw [htext]
  exact number?_eq_none hdigit hpoint hminus

/-- A sign is read up to its end if no equals sign follows it. -/
theorem sign?_of_known {text : String} (known : text ∈ signs) {rest : List Char}
    (hrest : ∀ c ∈ rest.head?, c ≠ '=') :
    ∃ t, sign? (text.toList ++ rest) = some (t, rest) ∧ t.told = ("op", text) := by
  have hne : ∀ more, rest = '=' :: more → False := by
    rintro more rfl
    exact hrest '=' rfl rfl
  simp only [signs, List.mem_cons, List.not_mem_nil, or_false] at known
  rcases known with rfl | rfl | rfl | rfl | rfl | rfl | rfl | rfl | rfl | rfl | rfl
  · exact ⟨.compare .eq, rfl, rfl⟩
  · exact ⟨.compare .ne, rfl, rfl⟩
  · exact ⟨.compare .le, rfl, rfl⟩
  · exact ⟨.compare .ge, rfl, rfl⟩
  · exact ⟨.compare .lt, by simp [sign?], rfl⟩
  · exact ⟨.compare .gt, by simp [sign?], rfl⟩
  · exact ⟨.both true, rfl, rfl⟩
  · exact ⟨.either true, rfl, rfl⟩
  · exact ⟨.negate true, by simp [sign?], rfl⟩
  · exact ⟨.opening, rfl, rfl⟩
  · exact ⟨.closing, rfl, rfl⟩

theorem sign?_eq_none {c : Char} {cs : List Char} (h : c ∉ marks) : sign? (c :: cs) = none := by
  simp only [marks, List.mem_cons, List.not_mem_nil, or_false, not_or] at h
  unfold sign?
  split <;> simp_all

theorem word?_of_known {word : String} (known : word ∈ words) :
    ∃ t, word? word = some t ∧ t.told = ("word", word) := by
  simp only [words, List.mem_cons, List.not_mem_nil, or_false] at known
  rcases known with rfl | rfl | rfl | rfl | rfl
  · exact ⟨.truth true, rfl, rfl⟩
  · exact ⟨.truth false, rfl, rfl⟩
  · exact ⟨.both false, rfl, rfl⟩
  · exact ⟨.either false, rfl, rfl⟩
  · exact ⟨.negate false, rfl, rfl⟩

/-- **A lexeme is read** up to its end if a blank or nothing follows it. -/
theorem lexeme?_spelling (l : Lexeme) {rest : List Char}
    (hrest : ∀ c ∈ rest.head?, isBlank c = true) :
    ∃ t, lexeme? (l.spelling ++ rest) = some (.ok (t, rest)) ∧ t.told = l.told := by
  cases l with
  | number negative size form =>
    have hsize := unsigned?_append form fun c hc => isDigit_of_isBlank (hrest c hc)
    refine ⟨.number (String.ofList (if negative then '-' :: size else size)), ?_, rfl⟩
    cases negative with
    | false =>
      have hnumber := (number?_eq_unsigned? form).trans hsize
      simp only [Lexeme.spelling, Bool.false_eq_true, if_false, lexeme?, hnumber]
    | true =>
      simp only [Lexeme.spelling, if_true, lexeme?, List.cons_append, number?, hsize,
        Option.map_some]
  | sign text known =>
    have hequal : ∀ c ∈ rest.head?, c ≠ '=' := by
      rintro c hc rfl
      exact absurd (hrest '=' hc) (by decide)
    obtain ⟨t, ht, htold⟩ := sign?_of_known known hequal
    have hnumber := number?_of_known known rest
    exact ⟨t, by simp only [Lexeme.spelling, lexeme?, hnumber, ht], htold⟩
  | word letters known =>
    have hletters := isLetter_of_word known
    obtain ⟨htake, hdrop⟩ := takeWhile_dropWhile_append hletters
      fun c hc => isLetter_of_isBlank (hrest c hc)
    obtain ⟨c, cs, hcons⟩ := List.exists_cons_of_ne_nil (ne_nil_of_word known)
    have hc : isLetter c = true := hletters c (by simp [hcons])
    have hmarks := not_mem_marks_of_isLetter hc
    have hnumber : number? (letters ++ rest) = none := by
      rw [hcons]
      refine number?_eq_none (isDigit_of_isLetter hc) ?_ ?_ <;> rintro rfl <;>
        exact hmarks (by decide)
    have hsign : sign? (letters ++ rest) = none := by
      rw [hcons]
      exact sign?_eq_none hmarks
    obtain ⟨t, ht, htold⟩ := word?_of_known known
    refine ⟨t, ?_, htold⟩
    simp [Lexeme.spelling, lexeme?, hnumber, hsign, htake, hdrop, ht, ne_nil_of_word known]

/-! ## What is read is a lexeme -/

theorem unsigned?_split {cs size rest : List Char} (h : unsigned? cs = some (size, rest)) :
    cs = size ++ rest := by
  have hsplit : cs.takeWhile isDigit ++ cs.dropWhile isDigit = cs := List.takeWhile_append_dropWhile
  simp only [unsigned?] at h
  split at h
  · rename_i behind hnil hbehind
    split at h
    · cases h
    · cases h
      rw [hnil, hbehind] at hsplit
      rw [List.cons_append, List.takeWhile_append_dropWhile]
      exact hsplit.symm
  · cases h
  · rename_i behind hbehind hne
    cases h
    rw [hbehind] at hsplit
    rw [List.append_assoc, List.cons_append, List.takeWhile_append_dropWhile]
    exact hsplit.symm
  · cases h
    exact hsplit.symm

theorem number?_split {cs spelling rest : List Char} (h : number? cs = some (spelling, rest)) :
    ∃ l : Lexeme, cs = l.spelling ++ rest ∧ l.told = ("number", String.ofList spelling) := by
  unfold number? at h
  split at h
  · obtain ⟨⟨size, behind⟩, hsize, heq⟩ := Option.map_eq_some_iff.1 h
    cases heq
    refine ⟨.number true size (unsigned?_numeral hsize), ?_, rfl⟩
    exact congrArg ('-' :: ·) (unsigned?_split hsize)
  · exact ⟨.number false spelling (unsigned?_numeral h), unsigned?_split h, rfl⟩

theorem sign?_split {cs rest : List Char} {t : Token} (h : sign? cs = some (t, rest)) :
    ∃ l : Lexeme, cs = l.spelling ++ rest ∧ l.told = t.told := by
  have hsign : ∀ text known, cs = text.toList ++ rest → ("op", text) = t.told →
      ∃ l : Lexeme, cs = l.spelling ++ rest ∧ l.told = t.told :=
    fun text known hcs htold => ⟨.sign text known, hcs, htold⟩
  unfold sign? at h
  split at h <;> cases h <;> exact hsign _ (by decide) rfl rfl

theorem word?_told {word : String} {t : Token} (h : word? word = some t) :
    word ∈ words ∧ t.told = ("word", word) := by
  unfold word? at h
  split_ifs at h with htrue hfalse hand hor hnot <;> cases h <;> simp_all [words] <;> rfl

/-- **What is read is a lexeme**, with the sort and the text of the token. -/
theorem exists_spelling_of_lexeme? {cs rest : List Char} {t : Token}
    (h : lexeme? cs = some (.ok (t, rest))) :
    ∃ l : Lexeme, cs = l.spelling ++ rest ∧ l.told = t.told := by
  unfold lexeme? at h
  split at h
  · rename_i spelling behind hnumber
    cases h
    exact number?_split hnumber
  · split at h
    · rename_i r hsign
      cases h
      exact sign?_split hsign
    · simp only at h
      split at h
      · cases h
      · split at h
        · rename_i token hword
          cases h
          obtain ⟨known, htold⟩ := word?_told hword
          exact ⟨.word _ known, List.takeWhile_append_dropWhile.symm, htold.symm⟩
        · cases h

theorem takeWhile_append_ne_nil {p : Char → Bool} {cs : List Char} (hne : cs ≠ [])
    (hcs : ∀ c ∈ cs, p c = true) (rest : List Char) : (cs ++ rest).takeWhile p ≠ [] := by
  rw [List.takeWhile_append_of_pos hcs]
  exact List.append_ne_nil_of_left_ne_nil hne _

/-- Where no number without a sign is read, neither a digit stands nor a point before a digit. -/
theorem unsigned?_eq_none_of {cs : List Char} (h : unsigned? cs = none) :
    cs.takeWhile isDigit = [] ∧ ∀ ps, cs = '.' :: ps → ps.takeWhile isDigit = [] := by
  have hpoint : isDigit '.' = false := by decide
  simp only [unsigned?] at h
  split at h
  · rename_i behind hnil hbehind
    split at h
    · rename_i hplaces
      refine ⟨hnil, ?_⟩
      rintro ps rfl
      rw [List.dropWhile_cons_of_neg (by simp [hpoint])] at hbehind
      cases hbehind
      simpa using hplaces
    · cases h
  · rename_i hnil hne
    refine ⟨hnil, ?_⟩
    rintro ps rfl
    exact absurd (List.dropWhile_cons_of_neg (by simp [hpoint])) (hne ps)
  · cases h
  · cases h

theorem unsigned?_isSome {size : List Char} (form : Numeral isDigit size) (rest : List Char) :
    unsigned? (size ++ rest) ≠ none := by
  intro h
  obtain ⟨hwhole, hplaces⟩ := unsigned?_eq_none_of h
  cases form with
  | whole hne hws => exact takeWhile_append_ne_nil hne hws rest hwhole
  | @point ws ps hne hws hps =>
    rcases eq_or_ne ws [] with rfl | hne'
    · exact takeWhile_append_ne_nil (by simpa using hne) hps rest (hplaces _ rfl)
    · rw [List.append_assoc] at hwhole
      exact takeWhile_append_ne_nil hne' hws _ hwhole

theorem sign?_isSome {text : String} (known : text ∈ signs) (rest : List Char) :
    sign? (text.toList ++ rest) ≠ none := by
  by_cases hequal : ∃ more, rest = '=' :: more
  · obtain ⟨more, rfl⟩ := hequal
    simp only [signs, List.mem_cons, List.not_mem_nil, or_false] at known
    rcases known with rfl | rfl | rfl | rfl | rfl | rfl | rfl | rfl | rfl | rfl | rfl <;>
      exact Option.some_ne_none _
  · have hrest : ∀ c ∈ rest.head?, c ≠ '=' := by
      rintro c hc rfl
      obtain ⟨more, hmore⟩ := List.head?_eq_some_iff.1 hc
      exact hequal ⟨more, hmore⟩
    obtain ⟨t, ht, -⟩ := sign?_of_known known hrest
    rw [ht]
    exact Option.some_ne_none _

theorem lexeme?_eq_none_iff {cs : List Char} :
    lexeme? cs = none ↔ number? cs = none ∧ sign? cs = none ∧ cs.takeWhile isLetter = [] := by
  unfold lexeme?
  rcases number? cs with _ | r
  · rcases sign? cs with _ | r
    · by_cases hletters : cs.takeWhile isLetter = []
      · simp [hletters]
      · simp only [hletters, List.isEmpty_iff, if_false]
        split <;> simp
    · simp
  · simp

/-- Where no lexeme is read, none begins. -/
theorem lexeme?_eq_none {cs : List Char} (h : lexeme? cs = none) (l : Lexeme) :
    ¬ l.spelling <+: cs := by
  rintro ⟨rest, rfl⟩
  obtain ⟨hnumber, hsign, hletters⟩ := lexeme?_eq_none_iff.1 h
  cases l with
  | number negative size form =>
    cases negative with
    | false => exact unsigned?_isSome form rest ((number?_eq_unsigned? form).symm.trans hnumber)
    | true =>
      simp only [Lexeme.spelling, if_true, List.cons_append, number?,
        Option.map_eq_none_iff] at hnumber
      exact unsigned?_isSome form rest hnumber
  | sign text known =>
    exact sign?_isSome known rest hsign
  | word letters known =>
    have hfront : (letters ++ rest).takeWhile isLetter = letters ++ rest.takeWhile isLetter :=
      List.takeWhile_append_of_pos (isLetter_of_word known)
    rw [Lexeme.spelling, hfront, List.append_eq_nil_iff] at hletters
    exact ne_nil_of_word known hletters.1

/-- What is refused as a word is a run of letters that is none of the words. -/
theorem lexeme?_eq_error {cs : List Char} {fault : Fault} (h : lexeme? cs = some (.error fault)) :
    fault = .name (String.ofList (cs.takeWhile isLetter)) ∧ cs.takeWhile isLetter ≠ [] ∧
      String.ofList ((cs.takeWhile isLetter).map Char.toLower) ∉ words := by
  unfold lexeme? at h
  split at h
  · cases h
  · split at h
    · cases h
    · simp only at h
      split at h
      · cases h
      · rename_i hletters
        split at h
        · cases h
        · rename_i hword
          cases h
          refine ⟨rfl, by simpa using hletters, fun known => ?_⟩
          obtain ⟨t, ht, -⟩ := word?_of_known known
          rw [hword] at ht
          cases ht

end Guard

end RobotBlocks
