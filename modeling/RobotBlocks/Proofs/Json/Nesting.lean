import Mathlib.Data.List.TakeWhile
import RobotBlocks.Json.Reader
import RobotBlocks.Proofs.Data.Fields
import RobotBlocks.Proofs.Outcome

/-!
# How reading JSON can fail

`nesting` is the deepest level of brackets in a text, those in strings aside. The reader leaves
every value at the level where it began, and gives up only where the brackets lead deeper than it
may go (`Spans`), so a text whose brackets nest at most `maxDepth` deep is read or refused
(`read_eq_error`).

The names of a record that is read differ (`nodup_names_of_read`).
-/

namespace RobotBlocks

namespace Json

open Outcome

variable {α β : Type} {fuel depth position level outside : ℕ} {cs rest : List Char}

/-! ## Levels of brackets -/

/-- Whether the character begins a list or a record. -/
def isOpening (c : Char) : Bool := c == '[' || c.toNat == 0x7B

/-- Whether the character ends a list or a record. -/
def isClosing (c : Char) : Bool := c == ']' || c.toNat == 0x7D

/-- The deepest level of brackets in a text that begins at a level, outside or inside a string. -/
def deepest : (quoted : Bool) → (level : ℕ) → List Char → ℕ
  | _, level, [] => level
  | true, level, ['\\'] => level
  | true, level, '\\' :: _ :: rest => deepest true level rest
  | true, level, c :: rest => deepest (c != '"') level rest
  | false, level, c :: rest =>
    if c == '"' then deepest true level rest
    else if isOpening c then deepest false (level + 1) rest
    else if isClosing c then max level (deepest false (level - 1) rest)
    else deepest false level rest

/-- The deepest level of brackets in a text. -/
def nesting (cs : List Char) : ℕ := deepest false 0 cs

/-- The character begins or ends nothing. -/
def IsPlain (c : Char) : Prop := c ≠ '"' ∧ isOpening c = false ∧ isClosing c = false

instance : DecidablePred IsPlain := fun _ => inferInstanceAs (Decidable (_ ∧ _))

theorem le_deepest (quoted : Bool) (level : ℕ) (cs : List Char) :
    level ≤ deepest quoted level cs := by
  fun_induction deepest quoted level cs with
  | case6 => omega
  | case7 => exact Nat.le_max_left _ _
  | _ => first | exact Nat.le_refl _ | assumption

theorem deepest_plain_cons {c : Char} (h : IsPlain c) (level : ℕ) (rest : List Char) :
    deepest false level (c :: rest) = deepest false level rest := by
  obtain ⟨hquote, hopening, hclosing⟩ := h
  rw [deepest, if_neg (by simpa using hquote), if_neg (by simp [hopening]),
    if_neg (by simp [hclosing])]

theorem deepest_plain {front : List Char} (h : ∀ c ∈ front, IsPlain c) (level : ℕ)
    (rest : List Char) : deepest false level (front ++ rest) = deepest false level rest := by
  induction front with
  | nil => rfl
  | cons c front ih =>
    obtain ⟨hc, hfront⟩ := List.forall_mem_cons.1 h
    rw [List.cons_append, deepest_plain_cons hc, ih hfront]

theorem deepest_opening {c : Char} (h : isOpening c = true) :
    deepest false level (c :: rest) = deepest false (level + 1) rest := by
  have hquote : c ≠ '"' := by
    rintro rfl
    exact absurd h (by decide)
  rw [deepest, if_neg (by simpa using hquote), if_pos h]

/-- What stands behind a closing bracket reaches no deeper than what begins with it. -/
theorem deepest_closing {c : Char} (h : isClosing c = true) :
    deepest false level rest ≤ deepest false (level + 1) (c :: rest) := by
  have hquote : c ≠ '"' := by
    rintro rfl
    exact absurd h (by decide)
  have hopening : isOpening c = false := by
    simp only [isClosing, Bool.or_eq_true, beq_iff_eq] at h
    rcases h with rfl | h
    · rfl
    · simp only [isOpening, h, Bool.or_eq_false_iff]
      refine ⟨beq_eq_false_iff_ne.2 ?_, rfl⟩
      rintro rfl
      exact absurd h (by decide)
  rw [deepest, if_neg (by simpa using hquote), if_neg (by simp [hopening]), if_pos h]
  exact Nat.le_max_right _ _

theorem isPlain_of_isSpace {c : Char} (h : isSpace c = true) : IsPlain c := by
  simp only [isSpace, Bool.or_eq_true, beq_iff_eq] at h
  rcases h with ((rfl | rfl) | rfl) | rfl <;> exact ⟨by decide, rfl, rfl⟩

theorem isPlain_of_isDigit {c : Char} (h : c.isDigit = true) : IsPlain c := by
  have hcode : 48 ≤ c.toNat ∧ c.toNat ≤ 57 := Char.isDigit_iff_toNat.1 h
  have hne : ∀ d : Char, ¬ (48 ≤ d.toNat ∧ d.toNat ≤ 57) → c ≠ d := by
    rintro d hd rfl
    exact hd hcode
  refine ⟨hne _ (by decide), ?_, ?_⟩
  · simp only [isOpening, Bool.or_eq_false_iff, beq_eq_false_iff_ne]
    exact ⟨hne _ (by decide), by omega⟩
  · simp only [isClosing, Bool.or_eq_false_iff, beq_eq_false_iff_ne]
    exact ⟨hne _ (by decide), by omega⟩

theorem deepest_skipSpaces (level position : ℕ) (cs : List Char) :
    deepest false level (skipSpaces position cs).2 = deepest false level cs := by
  fun_induction skipSpaces position cs with
  | case1 => rfl
  | case2 position c rest h ih =>
    rw [ih]
    exact (deepest_plain_cons (isPlain_of_isSpace h) level rest).symm
  | case3 => rfl

/-! ## Parts of a text -/

theorem deepest_escaped (level : ℕ) (c : Char) (rest : List Char) :
    deepest true level ('\\' :: c :: rest) = deepest true level rest := rfl

theorem deepest_inside {c : Char} (hquote : c ≠ '"') (hbackslash : c ≠ '\\') (level : ℕ)
    (rest : List Char) : deepest true level (c :: rest) = deepest true level rest := by
  rw [deepest, bne_iff_ne.2 hquote]
  · exact fun h => absurd h hbackslash
  · exact fun _ _ h => absurd h hbackslash

theorem isInside_of_hexDigit? {c : Char} {n : ℕ} (h : hexDigit? c = some n) :
    c ≠ '"' ∧ c ≠ '\\' := by
  constructor
  · rintro rfl
    cases h
  · rintro rfl
    cases h

theorem deepest_unit {a b c d : Char} {n : ℕ} (h : codeUnit? a b c d = some n) (level : ℕ)
    (rest : List Char) :
    deepest true level ('\\' :: 'u' :: a :: b :: c :: d :: rest) = deepest true level rest := by
  simp only [codeUnit?, Option.bind_eq_bind, Option.bind_eq_some_iff] at h
  obtain ⟨_, ha, _, hb, _, hc, _, hd, -⟩ := h
  obtain ⟨ha, ha'⟩ := isInside_of_hexDigit? ha
  obtain ⟨hb, hb'⟩ := isInside_of_hexDigit? hb
  obtain ⟨hc, hc'⟩ := isInside_of_hexDigit? hc
  obtain ⟨hd, hd'⟩ := isInside_of_hexDigit? hd
  rw [deepest_escaped, deepest_inside ha ha', deepest_inside hb hb', deepest_inside hc hc',
    deepest_inside hd hd']

/-- **A string ends where the text is outside of strings again.** -/
theorem deepest_string {start : ℕ} {r : Read Text} (hread : string start position cs = .ok r) :
    deepest false level r.rest = deepest true level cs := by
  fun_induction string start position cs generalizing r with
  | case2 position rest =>
    cases hread
    rfl
  | case7 position a b c d e f g h i more unit hunit hhigh second hsecond hlow ih =>
    obtain ⟨r, hmore, rfl⟩ := map_eq_ok.1 hread
    rw [deepest_unit hunit, deepest_unit hsecond, ← ih hmore]
    rfl
  | case8 position a b c d e f g h i more unit hunit hhigh second hsecond hlow ih =>
    obtain ⟨r, hmore, rfl⟩ := map_eq_ok.1 hread
    rw [deepest_unit hunit, ← ih hmore]
    rfl
  | case9 position a b c d e f g h i more unit hunit hhigh ih =>
    obtain ⟨r, hmore, rfl⟩ := map_eq_ok.1 hread
    rw [deepest_unit hunit, ← ih hmore]
    rfl
  | case10 position a b c d next more unit _ hunit ih =>
    obtain ⟨r, hmore, rfl⟩ := map_eq_ok.1 hread
    rw [deepest_unit hunit, ← ih hmore]
    rfl
  | case12 position c rest _ _ e hescaped ih =>
    obtain ⟨r, hmore, rfl⟩ := map_eq_ok.1 hread
    rw [deepest_escaped, ← ih hmore]
    rfl
  | case15 position c rest hquote hlast _ _ hbackslash _ ih =>
    obtain ⟨r, hmore, rfl⟩ := map_eq_ok.1 hread
    have hbackslash : c ≠ '\\' := fun hc =>
      match rest with
      | [] => hlast hc rfl
      | d :: more => hbackslash d more hc rfl
    rw [deepest_inside hquote hbackslash, ← ih hmore]
    rfl
  | _ => cases hread

theorem string_ne_tooDeep (start position : ℕ) (cs : List Char) (container : Container) :
    string start position cs ≠ .error (.tooDeep container) := by
  fun_induction string start position cs with
  | case7 | case8 | case9 | case10 | case12 | case15 =>
    rename_i ih
    exact fun h => ih (map_eq_error.1 h)
  | _ => nofun

/-- What a part of a number takes off the front of a text begins and ends nothing. -/
def TakesPlain (cs front rest : List Char) : Prop := cs = front ++ rest ∧ ∀ c ∈ front, IsPlain c

theorem takesPlain_digits (cs : List Char) : TakesPlain cs (digits cs).1 (digits cs).2 :=
  ⟨List.takeWhile_append_dropWhile.symm,
    fun _ hc => isPlain_of_isDigit (List.mem_takeWhile_imp hc)⟩

theorem takesPlain_nil (cs : List Char) : TakesPlain cs [] cs := ⟨rfl, by simp⟩

theorem TakesPlain.cons {c : Char} {front : List Char} (hc : IsPlain c)
    (h : TakesPlain cs front rest) : TakesPlain (c :: cs) (c :: front) rest :=
  ⟨congrArg _ h.1, List.forall_mem_cons.2 ⟨hc, h.2⟩⟩

theorem TakesPlain.trans {front more behind : List Char} (h : TakesPlain cs front rest)
    (h' : TakesPlain rest more behind) : TakesPlain cs (front ++ more) behind :=
  ⟨by rw [h.1, h'.1, List.append_assoc], List.forall_mem_append.2 ⟨h.2, h'.2⟩⟩

/-- The part of a number before its point, behind a sign that was taken. -/
def unsigned? (sign cs : List Char) : Option (List Char × List Char) :=
  match cs with
  | '0' :: rest => some (sign ++ ['0'], rest)
  | cs => if (digits cs).1.isEmpty then none else some (sign ++ (digits cs).1, (digits cs).2)

theorem whole?_minus (rest : List Char) : whole? ('-' :: rest) = unsigned? ['-'] rest := rfl

theorem whole?_of_ne_minus (h : ∀ rest, cs ≠ '-' :: rest) : whole? cs = unsigned? [] cs := by
  unfold whole?
  split
  rename_i sign unsigned hcs
  split at hcs
  next rest => exact absurd rfl (h rest)
  next =>
    cases hcs
    rfl

theorem takesPlain_unsigned? {sign whole : List Char} (hsign : ∀ c ∈ sign, IsPlain c)
    (h : unsigned? sign cs = some (whole, rest)) : TakesPlain (sign ++ cs) whole rest := by
  have hfront : TakesPlain (sign ++ cs) sign cs := ⟨rfl, hsign⟩
  unfold unsigned? at h
  split at h
  · cases h
    exact hfront.trans ((takesPlain_nil _).cons ⟨by decide, rfl, rfl⟩)
  · split at h
    · cases h
    · cases h
      exact hfront.trans (takesPlain_digits _)

theorem takesPlain_whole? {whole : List Char} (h : whole? cs = some (whole, rest)) :
    TakesPlain cs whole rest := by
  by_cases hminus : ∃ more, cs = '-' :: more
  · obtain ⟨more, rfl⟩ := hminus
    rw [whole?_minus] at h
    exact takesPlain_unsigned? (List.forall_mem_singleton.2 (by decide)) h
  · rw [whole?_of_ne_minus fun more hcs => hminus ⟨more, hcs⟩] at h
    exact takesPlain_unsigned? (List.forall_mem_nil _) h

theorem takesPlain_places (cs : List Char) : TakesPlain cs (places cs).1 (places cs).2 := by
  unfold places
  split
  · dsimp only
    split
    · exact takesPlain_nil _
    · exact (takesPlain_digits _).cons ⟨by decide, rfl, rfl⟩
  · exact takesPlain_nil _

/-- The sign of a power of ten, if it has one. -/
def powerSign : List Char → List Char × List Char
  | s :: more => if s == '-' || s == '+' then ([s], more) else ([], s :: more)
  | [] => ([], [])

theorem takesPlain_powerSign (cs : List Char) :
    TakesPlain cs (powerSign cs).1 (powerSign cs).2 := by
  unfold powerSign
  split
  · split
    next s more hs =>
      refine (takesPlain_nil _).cons ?_
      rcases Bool.or_eq_true_iff.1 hs with hs | hs <;> obtain rfl := eq_of_beq hs <;> decide
    · exact takesPlain_nil _
  · exact takesPlain_nil _

theorem exponent_cons {e : Char} (he : (e == 'e' || e == 'E') = true) (rest : List Char) :
    exponent (e :: rest) =
      if (digits (powerSign rest).2).1.isEmpty then ([], e :: rest)
      else (e :: (powerSign rest).1 ++ (digits (powerSign rest).2).1,
        (digits (powerSign rest).2).2) :=
  if_pos he

theorem takesPlain_exponent (cs : List Char) : TakesPlain cs (exponent cs).1 (exponent cs).2 := by
  cases cs with
  | nil => exact takesPlain_nil _
  | cons e rest =>
    by_cases he : (e == 'e' || e == 'E') = true
    · have hmark : IsPlain e := by
        rcases Bool.or_eq_true_iff.1 he with he | he <;> obtain rfl := eq_of_beq he <;> decide
      rw [exponent_cons he]
      split
      · exact takesPlain_nil _
      · exact ((takesPlain_powerSign rest).trans (takesPlain_digits _)).cons hmark
    · have hnone : exponent (e :: rest) = ([], e :: rest) := if_neg he
      rw [hnone]
      exact takesPlain_nil _

theorem takesPlain_number {r : Read Data} (h : number position cs = .ok r) :
    ∃ front, TakesPlain cs front r.rest := by
  unfold number at h
  split at h
  · cases h
  next whole rest hwhole =>
    have htakes := ((takesPlain_whole? hwhole).trans (takesPlain_places rest)).trans
      (takesPlain_exponent _)
    dsimp only at h
    split at h
    · split at h
      · cases h
      · cases h
        exact ⟨_, htakes⟩
    · cases h
      exact ⟨_, htakes⟩

theorem number_ne_tooDeep (position : ℕ) (cs : List Char) (container : Container) :
    number position cs ≠ .error (.tooDeep container) := by
  unfold number
  split
  · nofun
  · dsimp only
    repeat' split
    all_goals nofun

theorem takesPlain_word? {r : Read Data} (h : word? position cs = some r) :
    ∃ front, TakesPlain cs front r.rest := by
  obtain ⟨w, hfind, rfl⟩ := Option.map_eq_some_iff.1 h
  refine ⟨w.1, ?_, ?_⟩
  · have hprefix := List.find?_some hfind
    obtain ⟨rest, rfl⟩ := List.isPrefixOf_iff_prefix.1 hprefix
    simp
  · have hwords : (words.all fun w => w.1.all (IsPlain ·)) = true := by decide
    simp only [List.all_eq_true, decide_eq_true_eq] at hwords
    exact hwords w (List.mem_of_find?_eq_some hfind)

/-! ## Values -/

/-- What is read from a text `outside` levels further out than it begins: nothing in what is left
lies deeper than the text, and reading gives up only where the text goes deeper than allowed. -/
structure Spans (outside depth : ℕ) (cs : List Char) (x : Except Stop (Read α)) : Prop where
  rest : ∀ {r}, x = .ok r → ∀ level,
    deepest false level r.rest ≤ deepest false (level + outside) cs
  tooDeep : ∀ {container}, x = .error (.tooDeep container) → ∀ level,
    level + outside + depth < deepest false (level + outside) cs

namespace Spans

variable {x : Except Stop (Read α)} {front : List Char}

theorem of_le (hle : ∀ level, deepest false level rest ≤ deepest false level cs)
    (h : Spans outside depth rest x) : Spans outside depth cs x :=
  ⟨fun hx level => (h.rest hx level).trans (hle _),
    fun hx level => (h.tooDeep hx level).trans_le (hle _)⟩

theorem skipSpaces (position : ℕ) (h : Spans outside depth (skipSpaces position cs).2 x) :
    Spans outside depth cs x :=
  of_le (fun level => (deepest_skipSpaces level position cs).le) h

theorem plain {c : Char} (hc : IsPlain c) (h : Spans outside depth rest x) :
    Spans outside depth (c :: rest) x :=
  of_le (fun level => (deepest_plain_cons hc level rest).ge) h

theorem error (problem : Problem) (position : ℕ) :
    Spans outside depth cs (.error (.at problem position) : Except Stop (Read α)) := by
  constructor
  · intro r hx
    cases hx
  · intro container hx
    cases hx

theorem closing {c : Char} (hc : isClosing c = true) (value : α) (position : ℕ) :
    Spans 1 depth (c :: rest) (.ok ⟨value, position, rest⟩) :=
  ⟨fun hx level => by
    cases hx
    exact deepest_closing hc, nofun⟩

theorem map {f : Read α → Read β} (hf : ∀ r, (f r).rest = r.rest) (h : Spans outside depth cs x) :
    Spans outside depth cs (x.map f) := by
  refine ⟨fun hx level => ?_, fun hx => h.tooDeep (map_eq_error.1 hx)⟩
  obtain ⟨r, hr, rfl⟩ := map_eq_ok.1 hx
  rw [hf]
  exact h.rest hr level

theorem bind {f : Read α → Except Stop (Read β)} (h : Spans 0 depth cs x)
    (hf : ∀ r, Spans outside depth r.rest (f r)) : Spans outside depth cs (x >>= f) := by
  constructor
  · intro r hx level
    obtain ⟨r', hr', hr⟩ := bind_eq_ok.1 hx
    exact ((hf r').rest hr level).trans (h.rest hr' _)
  · intro container hx level
    rcases bind_eq_error.1 hx with hx | ⟨r, hr, hx⟩
    · exact h.tooDeep hx (level + outside)
    · exact ((hf r).tooDeep hx level).trans_le (h.rest hr _)

/-- A bracket leads one level deeper. -/
theorem opening {c : Char} (hc : isOpening c = true) (h : Spans 1 depth rest x) :
    Spans 0 (depth + 1) (c :: rest) x := by
  constructor
  · intro r hx level
    rw [Nat.add_zero, deepest_opening hc]
    exact h.rest hx level
  · intro container hx level
    have := h.tooDeep hx level
    rw [Nat.add_zero, deepest_opening hc]
    omega

theorem tooDeep_opening {c : Char} (hc : isOpening c = true) (container : Container) :
    Spans 0 0 (c :: rest) (.error (.tooDeep container) : Except Stop (Read α)) := by
  refine ⟨nofun, fun _ level => ?_⟩
  rw [Nat.add_zero, deepest_opening hc]
  exact le_deepest false (level + 1) rest

theorem string (start position : ℕ) (rest : List Char) :
    Spans 0 depth ('"' :: rest) (string start position rest) :=
  ⟨fun hx _ => (deepest_string hx).le, fun hx => absurd hx (string_ne_tooDeep _ _ _ _)⟩

theorem of_takesPlain (hx : ∀ container, x ≠ .error (.tooDeep container))
    (h : ∀ {r}, x = .ok r → ∃ front, TakesPlain cs front r.rest) : Spans 0 depth cs x := by
  refine ⟨fun hr level => ?_, fun hr => absurd hr (hx _)⟩
  obtain ⟨front, rfl, hplain⟩ := h hr
  exact (deepest_plain hplain level _).ge

theorem word {r : Read Data} (h : word? position cs = some r) : Spans 0 depth cs (.ok r) := by
  refine of_takesPlain (fun container hr => ?_) fun hr => ?_
  · cases hr
  · cases hr
    exact takesPlain_word? h

theorem number (position : ℕ) (cs : List Char) : Spans 0 depth cs (number position cs) :=
  of_takesPlain (number_ne_tooDeep position cs) takesPlain_number

end Spans

/-- All three readers keep to their levels with this fuel. -/
structure Keeps (fuel : ℕ) : Prop where
  value : ∀ depth position cs, Spans 0 depth cs (value fuel depth position cs)
  items : ∀ depth position cs, Spans 1 depth cs (items fuel depth position cs)
  fields : ∀ depth known position cs, Spans 1 depth cs (fields fuel depth known position cs)

theorem spans_value (h : Keeps fuel) (depth position : ℕ) (cs : List Char) :
    Spans 0 depth cs (value (fuel + 1) depth position cs) := by
  rw [value.eq_def]
  cases cs with
  | nil => exact .error _ _
  | cons c rest =>
    dsimp only
    split
    next hc =>
      obtain rfl := eq_of_beq hc
      exact (Spans.string _ _ rest).map fun _ => rfl
    split
    next hc =>
      have hopening : isOpening c = true := by simp [isOpening, hc]
      cases depth with
      | zero => exact .tooDeep_opening hopening _
      | succ depth =>
        refine .opening hopening (.skipSpaces (position + 1) ?_)
        dsimp only
        split
        next hrest => exact hrest ▸ .closing rfl _ _
        next => exact (h.items depth _ _).map fun _ => rfl
    split
    next hc =>
      have hopening : isOpening c = true := by simp [isOpening, eq_of_beq hc]
      cases depth with
      | zero => exact .tooDeep_opening hopening _
      | succ depth =>
        refine .opening hopening (.skipSpaces (position + 1) ?_)
        dsimp only
        split
        next d more hrest =>
          rw [hrest]
          split
          next hd => exact .closing (by simp [isClosing, eq_of_beq hd]) _ _
          next => exact (h.fields depth _ _ _).map fun _ => rfl
        next => exact .error _ _
    split
    next r hword => exact .word hword
    next => exact .number position _

theorem spans_items (h : Keeps fuel) (depth position : ℕ) (cs : List Char) :
    Spans 1 depth cs (items (fuel + 1) depth position cs) := by
  rw [items]
  refine (h.value depth position cs).bind fun first => ?_
  refine .skipSpaces first.position ?_
  dsimp only
  split
  next hrest => exact hrest ▸ .closing rfl _ _
  next rest hrest =>
    rw [hrest]
    refine .plain (by decide) (.skipSpaces ((skipSpaces first.position first.rest).1 + 1) ?_)
    exact (h.items depth _ _).map fun _ => rfl
  next => exact .error _ _

theorem spans_fields (h : Keeps fuel) (depth : ℕ) (known : Fields) (position : ℕ)
    (cs : List Char) : Spans 1 depth cs (fields (fuel + 1) depth known position cs) := by
  rw [fields.eq_def]
  dsimp only
  split
  next rest =>
    refine (Spans.string position _ rest).bind fun name => ?_
    refine .skipSpaces name.position ?_
    split
    next more hmore =>
      rw [hmore]
      refine .plain (by decide) ?_
      refine .skipSpaces ((skipSpaces name.position name.rest).1 + 1) ?_
      refine (h.value depth _ _).bind fun content => ?_
      refine .skipSpaces content.position ?_
      split
      next behind hbehind =>
        rw [hbehind]
        refine .plain (by decide) ?_
        refine .skipSpaces ((skipSpaces content.position content.rest).1 + 1) ?_
        exact h.fields depth _ _ _
      next d behind _ hbehind =>
        rw [hbehind]
        split
        next hd => exact .closing (by simp [isClosing, eq_of_beq hd]) _ _
        next => exact .error _ _
      next => exact .error _ _
    next => exact .error _ _
  next => exact .error _ _

theorem keeps (fuel : ℕ) : Keeps fuel := by
  induction fuel with
  | zero =>
    refine ⟨fun _ _ _ => ?_, fun _ _ _ => ?_, fun _ _ _ _ => ?_⟩
    · rw [value]
      exact .error _ _
    · rw [items]
      exact .error _ _
    · rw [fields]
      exact .error _ _
  | succ fuel ih => exact ⟨spans_value ih, spans_items ih, spans_fields ih⟩

/-! ## Documents -/

/-- **Reading gives up only where brackets nest deeper than it may go.** -/
theorem maxDepth_lt_nesting_of_document {container : Container}
    (h : document cs = .error (.tooDeep container)) : maxDepth < nesting cs := by
  unfold document at h
  split at h
  · cases h
  next cs _ =>
    rcases bind_eq_error.1 h with h | ⟨r, -, h⟩
    · have hdeep := ((keeps _).value maxDepth _ _).skipSpaces 0 |>.tooDeep h 0
      rw [nesting]
      simpa using hdeep
    · split at h <;> cases h

/-- **The only way in which a whole call fails.** -/
theorem read_eq_error {fault : RobotBlocks.Fault} (h : read cs = .error fault) :
    ∃ container : Container, fault = .tooDeep container.name ∧ maxDepth < nesting cs := by
  unfold read at h
  split at h
  next => cases h
  next container hdocument =>
    cases h
    exact ⟨container, rfl, maxDepth_lt_nesting_of_document hdocument⟩
  next => cases h
  next => cases h

theorem document_of_read {value : Data} (h : read cs = .ok (.ok value)) :
    document cs = .ok value := by
  unfold read at h
  split at h
  next hdocument =>
    cases h
    exact hdocument
  all_goals cases h

/-! ## Distinct names -/

/-- Fields are set one after the other, so their names stay distinct. -/
theorem nodup_names_of_fields {known : Fields} {r : Read Fields}
    (hknown : (Data.names known).Nodup) (h : fields fuel depth known position cs = .ok r) :
    (Data.names r.value).Nodup := by
  induction fuel generalizing known position cs with
  | zero =>
    rw [fields] at h
    cases h
  | succ fuel ih =>
    rw [fields.eq_def] at h
    dsimp only at h
    split at h
    · obtain ⟨name, -, h⟩ := bind_eq_ok.1 h
      split at h
      · obtain ⟨content, -, h⟩ := bind_eq_ok.1 h
        have hset : (Data.names (Data.setField known name.value content.value)).Nodup :=
          Data.nodup_names_setField hknown
        split at h
        · exact ih hset h
        · split at h
          · cases h
            exact hset
          · cases h
        · cases h
      · cases h
    · cases h

theorem number_ne_record {r : Read Data} (h : number position cs = .ok r) (fields : Fields) :
    r.value ≠ .record fields := by
  unfold number at h
  split at h
  · cases h
  · dsimp only at h
    split at h
    · split at h
      · cases h
      · cases h
        nofun
    · cases h
      nofun

theorem word?_ne_record {r : Read Data} (h : word? position cs = some r) (fields : Fields) :
    r.value ≠ .record fields := by
  obtain ⟨w, hfind, rfl⟩ := Option.map_eq_some_iff.1 h
  have hwords : ∀ w ∈ words, w.2 ≠ .record fields := by simp [words]
  exact hwords w (List.mem_of_find?_eq_some hfind)

theorem nodup_names_of_value {r : Read Data} {fields : Fields}
    (h : value fuel depth position cs = .ok r) (hrecord : r.value = .record fields) :
    (Data.names fields).Nodup := by
  rw [value.eq_def] at h
  split at h
  · cases h
  · cases h
  split at h
  · obtain ⟨r, -, rfl⟩ := map_eq_ok.1 h
    cases hrecord
  split at h
  · split at h
    · cases h
    · dsimp only at h
      split at h
      · cases h
        cases hrecord
      · obtain ⟨r, -, rfl⟩ := map_eq_ok.1 h
        cases hrecord
  split at h
  · split at h
    · cases h
    · dsimp only at h
      split at h
      · split at h
        · cases h
          cases hrecord
          exact List.nodup_nil
        · obtain ⟨r, hfields, rfl⟩ := map_eq_ok.1 h
          cases hrecord
          have hnone : (Data.names ([] : Fields)).Nodup := List.nodup_nil
          exact nodup_names_of_fields hnone hfields
      · cases h
  split at h
  next hword =>
    cases h
    exact absurd hrecord (word?_ne_record hword fields)
  next => exact absurd hrecord (number_ne_record h fields)

/-- **The names of a record that is read differ.** -/
theorem nodup_names_of_read {fields : Fields} (h : read cs = .ok (.ok (.record fields))) :
    (Data.names fields).Nodup := by
  have hdocument := document_of_read h
  unfold document at hdocument
  split at hdocument
  · cases hdocument
  · obtain ⟨r, hvalue, hdocument⟩ := bind_eq_ok.1 hdocument
    split at hdocument
    · exact nodup_names_of_value hvalue (Except.ok.inj hdocument)
    · cases hdocument

end Json

end RobotBlocks
