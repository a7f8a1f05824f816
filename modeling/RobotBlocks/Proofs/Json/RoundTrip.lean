import RobotBlocks.Proofs.Data.Fields
import RobotBlocks.Proofs.Json.Nesting
import RobotBlocks.Proofs.Json.Numbers
import RobotBlocks.Proofs.Json.Strings

/-!
# What is written is read back

The indented text of a value is read as the value if this is `Legible`: texts consist of characters,
integers are not too long, names differ, doubles are read from their texts, and no more containers
lie inside each other than the reader goes into. There is one lemma for each kind of value, with the
blanks and line ends that stand between the parts of a text; those for lists and records follow the
items and fields one by one (`items_joined`, `fields_joined`).

* `read_indented`: the text of a legible value is read as this value.
-/

namespace RobotBlocks

namespace Json

open Outcome

variable {fuel depth position level : ℕ} {cs rest : List Char}

/-- A value that is read back from what is written: at most so many containers lie in it. -/
inductive Legible : (depth : ℕ) → Data → Prop
  | null (depth : ℕ) : Legible depth .null
  | flag (depth : ℕ) (b : Bool) : Legible depth (.flag b)
  | integer (depth : ℕ) {n : ℤ} (few : (digitChars n.natAbs).length ≤ maxDigits) :
    Legible depth (.integer n)
  | real (depth : ℕ) {x : Float}
    (back : x.isFinite = true → Float.ofText? (Float.shortestText x) = some x) :
    Legible depth (.real x)
  | text (depth : ℕ) (cs : List Char) : Legible depth (.text (.ofChars cs))
  | list {depth : ℕ} {items : List Data} (all : ∀ item ∈ items, Legible depth item) :
    Legible (depth + 1) (.list items)
  | record {depth : ℕ} {fields : Fields} (names : (Data.names fields).Nodup)
    (texts : ∀ f ∈ fields, ∃ cs, f.1 = Text.ofChars cs)
    (values : ∀ f ∈ fields, Legible depth f.2) : Legible (depth + 1) (.record fields)

/-! ## How values begin -/

/-- Characters that begin neither a word nor a number. -/
def marks : List Char := ['"', '[', '\x7b', ']', ' ', '\t', '\n', '\r', '\uFEFF']

theorem eq_of_mem_marks {c : Char} (h : c ∈ marks) : c = '"' ∨ c = '[' ∨ c = '\x7b' ∨ c = ']' ∨
    c = ' ' ∨ c = '\t' ∨ c = '\n' ∨ c = '\r' ∨ c = '\uFEFF' := by
  simpa [marks] using h

theorem word?_eq_none {c : Char} (h : c ∈ marks) (position : ℕ) (rest : List Char) :
    word? position (c :: rest) = none := by
  rcases eq_of_mem_marks h with rfl | rfl | rfl | rfl | rfl | rfl | rfl | rfl | rfl <;> rfl

theorem number_eq_error {c : Char} (h : c ∈ marks) (position : ℕ) (rest : List Char) :
    number position (c :: rest) = .error (.at .value position) := by
  rcases eq_of_mem_marks h with rfl | rfl | rfl | rfl | rfl | rfl | rfl | rfl | rfl <;> rfl

/-- A value that is neither a string nor a container is a word or a number. -/
theorem value_cons {c : Char} (hquote : c ≠ '"') (hopening : isOpening c = false) (fuel depth : ℕ)
    (position : ℕ) (rest : List Char) : value (fuel + 1) depth position (c :: rest) =
      match word? position (c :: rest) with
      | some r => .ok r
      | none => number position (c :: rest) := by
  simp only [isOpening, Bool.or_eq_false_iff] at hopening
  rw [value.eq_def]
  dsimp only
  rw [if_neg (by simpa using hquote), if_neg (by simp [hopening.1])]
  exact if_neg (by simp [hopening.2])

theorem mem_marks_of_isOpening {c : Char} (h : isOpening c = true) : c ∈ marks := by
  simp only [isOpening, Bool.or_eq_true, beq_iff_eq] at h
  rcases h with rfl | h
  · decide
  · obtain rfl : c = '\x7b' := Char.toNat_inj.1 h
    decide

/-- A word stands for its value. -/
theorem value_of_word? {r : Read Data} (h : word? position cs = some r) (fuel depth : ℕ) :
    value (fuel + 1) depth position cs = .ok r := by
  cases cs with
  | nil => cases h
  | cons c rest =>
    have hmark : c ∉ marks := fun hc => by
      rw [word?_eq_none hc] at h
      cases h
    rw [value_cons _ _, h]
    · rintro rfl
      exact hmark (by decide)
    · exact Bool.eq_false_iff.2 fun hopening => hmark (mem_marks_of_isOpening hopening)

/-- A number stands for itself. -/
theorem value_of_number {r : Read Data} (hword : word? position cs = none)
    (h : number position cs = .ok r) (fuel depth : ℕ) :
    value (fuel + 1) depth position cs = .ok r := by
  cases cs with
  | nil => cases h
  | cons c rest =>
    have hmark : c ∉ marks := fun hc => by
      rw [number_eq_error hc] at h
      cases h
    rw [value_cons _ _, hword]
    · exact h
    · rintro rfl
      exact hmark (by decide)
    · exact Bool.eq_false_iff.2 fun hopening => hmark (mem_marks_of_isOpening hopening)

/-- A quote begins a text. -/
theorem value_quote (fuel depth position : ℕ) (rest : List Char) :
    value (fuel + 1) depth position ('"' :: rest) =
      (string position (position + 1) rest).map fun r =>
        ⟨.text r.value, r.position, r.rest⟩ := by
  rw [value.eq_def]
  rfl

/-- A bracket begins a list. -/
theorem value_bracket {inside : ℕ} {c : Char} {more : List Char} (hc : c ≠ ']')
    (hskip : skipSpaces (position + 1) rest = (inside, c :: more)) (fuel depth : ℕ) :
    value (fuel + 1) (depth + 1) position ('[' :: rest) =
      (items fuel depth inside (c :: more)).map fun r =>
        ⟨.list r.value, r.position, r.rest⟩ := by
  have hclosing : ∀ rest, c :: more ≠ ']' :: rest := fun rest hcons =>
    hc (List.cons.inj hcons).1
  rw [value.eq_def]
  dsimp only
  rw [if_neg (by decide), if_pos (by decide), hskip]
  dsimp only
  split
  next hcons => exact absurd hcons (hclosing _)
  next => rfl

theorem value_brackets (fuel depth position : ℕ) (rest : List Char) :
    value (fuel + 1) (depth + 1) position ('[' :: ']' :: rest) =
      .ok ⟨.list [], position + 1 + 1, rest⟩ := by
  rw [value.eq_def]
  rfl

/-- A brace begins a record. -/
theorem value_brace {inside : ℕ} {c : Char} {more : List Char} (hc : c ≠ '\x7d')
    (hskip : skipSpaces (position + 1) rest = (inside, c :: more)) (fuel depth : ℕ) :
    value (fuel + 1) (depth + 1) position ('\x7b' :: rest) =
      (fields fuel depth [] inside (c :: more)).map fun r =>
        ⟨.record r.value, r.position, r.rest⟩ := by
  have hclosing : ¬ (c.toNat == 0x7D) = true := fun hcode =>
    hc (Char.toNat_inj.1 (eq_of_beq hcode))
  rw [value.eq_def]
  dsimp only
  rw [if_neg (by decide), if_neg (by decide), if_pos (by decide), hskip]
  dsimp only
  rw [if_neg hclosing]

theorem value_braces (fuel depth position : ℕ) (rest : List Char) :
    value (fuel + 1) (depth + 1) position ('\x7b' :: '\x7d' :: rest) =
      .ok ⟨.record [], position + 1 + 1, rest⟩ := by
  rw [value.eq_def]
  rfl

/-- **A value begins with no blank, no closing bracket and no byte order mark.** -/
theorem exists_cons_of_value {r : Read Data} (h : value fuel depth position cs = .ok r) :
    ∃ c more, cs = c :: more ∧ isSpace c = false ∧ c ≠ ']' ∧ c ≠ '\uFEFF' := by
  cases fuel with
  | zero =>
    rw [value] at h
    cases h
  | succ fuel =>
    cases cs with
    | nil =>
      rw [value] at h
      · cases h
      · omega
    | cons c more =>
      have hmark : ∀ d ∈ marks, d ≠ '"' → isOpening d = false → c ≠ d := by
        rintro d hd hquote hopening rfl
        rw [value_cons hquote hopening, word?_eq_none hd, number_eq_error hd] at h
        cases h
      refine ⟨c, more, rfl, ?_, hmark ']' (by decide) (by decide) rfl,
        hmark '\uFEFF' (by decide) (by decide) rfl⟩
      simp only [isSpace, Bool.or_eq_false_iff, beq_eq_false_iff_ne]
      exact ⟨⟨⟨hmark ' ' (by decide) (by decide) rfl, hmark '\t' (by decide) (by decide) rfl⟩,
        hmark '\n' (by decide) (by decide) rfl⟩, hmark '\r' (by decide) (by decide) rfl⟩

theorem exists_cons_of_items {r : Read (List Data)} (h : items fuel depth position cs = .ok r) :
    ∃ c more, cs = c :: more ∧ isSpace c = false ∧ c ≠ ']' := by
  cases fuel with
  | zero =>
    rw [items] at h
    cases h
  | succ fuel =>
    rw [items] at h
    obtain ⟨first, hfirst, -⟩ := bind_eq_ok.1 h
    obtain ⟨c, more, hcs, hspace, hclosing, -⟩ := exists_cons_of_value hfirst
    exact ⟨c, more, hcs, hspace, hclosing⟩

theorem exists_cons_of_fields {known : Fields} {r : Read Fields}
    (h : fields fuel depth known position cs = .ok r) : ∃ more, cs = '"' :: more := by
  cases fuel with
  | zero =>
    rw [fields] at h
    cases h
  | succ fuel =>
    rw [fields.eq_def] at h
    dsimp only at h
    split at h
    · exact ⟨_, rfl⟩
    · cases h

/-! ## Blanks -/

theorem skipSpaces_cons {c : Char} (h : isSpace c = false) (position : ℕ) (rest : List Char) :
    skipSpaces position (c :: rest) = (position, c :: rest) := by
  rw [skipSpaces, if_neg (by simp [h])]

theorem skipSpaces_replicate (count : ℕ) {c : Char} (h : isSpace c = false) (position : ℕ)
    (rest : List Char) : skipSpaces position (List.replicate count ' ' ++ c :: rest) =
      (position + count, c :: rest) := by
  induction count generalizing position with
  | zero => exact skipSpaces_cons h position rest
  | succ count ih =>
    have hsum : position + 1 + count = position + (count + 1) := by omega
    exact (ih (position + 1)).trans (by rw [hsum])

theorem toList_lineAt (level : ℕ) :
    (lineAt level).toList = '\n' :: List.replicate (2 * level) ' ' := by
  rw [lineAt, String.toList_ofList]

/-- A line end and the blanks behind it are passed over. -/
theorem skipSpaces_lineAt (level : ℕ) {c : Char} (h : isSpace c = false) (position : ℕ)
    (rest : List Char) : skipSpaces position ((lineAt level).toList ++ c :: rest) =
      (position + 1 + 2 * level, c :: rest) := by
  rw [toList_lineAt]
  exact skipSpaces_replicate (2 * level) h (position + 1) rest

theorem stops_lineAt (level : ℕ) (rest : List Char) : Stops ((lineAt level).toList ++ rest) := by
  rw [toList_lineAt]
  exact stops_cons (by decide) _

/-! ## Single values -/

/-- The value is read from its text at any level and place if twice its length is allowed. -/
def Restored (depth : ℕ) (d : Data) : Prop :=
  ∀ (level fuel position : ℕ) (rest : List Char),
    2 * (indented level d).toList.length ≤ fuel → Stops rest →
      ∃ behind, value fuel depth position ((indented level d).toList ++ rest) =
        .ok ⟨d, behind, rest⟩

/-- A value with the same text at every level. -/
theorem restored_of_text {d : Data} {text : String} (htext : ∀ level, indented level d = text)
    (hread : ∀ fuel position rest, Stops rest → ∃ behind,
      value (fuel + 1) depth position (text.toList ++ rest) = .ok ⟨d, behind, rest⟩) :
    Restored depth d := by
  intro level fuel position rest hfuel hrest
  rw [htext] at hfuel ⊢
  have hne : text.toList ≠ [] := by
    intro hnil
    obtain ⟨behind, h⟩ := hread 0 0 [] nofun
    rw [hnil] at h
    obtain ⟨c, more, hcs, -⟩ := exists_cons_of_value h
    cases hcs
  have hpos := List.length_pos_iff.2 hne
  obtain ⟨less, rfl⟩ : ∃ less, fuel = less + 1 := ⟨fuel - 1, by omega⟩
  exact hread less position rest hrest

theorem restored_null (depth : ℕ) : Restored depth .null :=
  restored_of_text (fun level => by rw [indented]) fun fuel position rest _ =>
    ⟨position + 4, value_of_word? rfl fuel depth⟩

theorem restored_flag (depth : ℕ) (b : Bool) : Restored depth (.flag b) := by
  cases b with
  | false =>
    exact restored_of_text (fun level => by rw [indented]) fun fuel position rest _ =>
      ⟨position + 5, value_of_word? rfl fuel depth⟩
  | true =>
    exact restored_of_text (fun level => by rw [indented]) fun fuel position rest _ =>
      ⟨position + 4, value_of_word? rfl fuel depth⟩

theorem restored_integer (depth : ℕ) {n : ℤ} (few : (digitChars n.natAbs).length ≤ maxDigits) :
    Restored depth (.integer n) :=
  restored_of_text (fun level => by rw [indented]) fun fuel position rest hrest =>
    have hword := PrintedNumber.toList_intText n ▸ word?_chars (.ofInt n) position rest
    (number_intText few position hrest).imp fun _ h => value_of_number hword h fuel depth

theorem restored_real (depth : ℕ) {x : Float}
    (back : x.isFinite = true → Float.ofText? (Float.shortestText x) = some x) :
    Restored depth (.real x) := by
  refine restored_of_text (fun level => by rw [indented]) fun fuel position rest hrest => ?_
  cases hx : x.isFinite with
  | false =>
    obtain ⟨behind, h⟩ := word?_realText hx position rest
    exact ⟨behind, value_of_word? h fuel depth⟩
  | true =>
    obtain ⟨n, -, htext⟩ := Float.exists_printedNumber hx
    have hword : word? position ((Float.shortestText x).toList ++ rest) = none :=
      htext ▸ word?_chars n position rest
    rw [realText_of_isFinite hx]
    obtain ⟨behind, h⟩ := number_shortestText hx (back hx) position hrest
    exact ⟨behind, value_of_number hword h fuel depth⟩

theorem toList_stringText (cs : List Char) :
    (stringText (.ofChars cs)).toList = '"' :: cs.flatMap charChars ++ ['"'] := by
  rw [stringText, String.toList_ofList, Text.ofChars, List.flatMap_map]
  rfl

theorem restored_text (depth : ℕ) (cs : List Char) : Restored depth (.text (.ofChars cs)) := by
  refine restored_of_text (fun level => by rw [indented]) fun fuel position rest _ => ?_
  obtain ⟨behind, h⟩ := string_flatMap_charChars position (position + 1) cs rest
  refine ⟨behind, ?_⟩
  rw [toList_stringText, List.cons_append, List.cons_append, List.append_assoc, value_quote,
    List.singleton_append, h]
  rfl

/-! ## Lists -/

/-- The items of a list, each on its line. -/
def joinedItems (level : ℕ) (items : List Data) : List Char :=
  (("," ++ lineAt level).intercalate (indentedItems level items)).toList

theorem joinedItems_singleton (level : ℕ) (item : Data) :
    joinedItems level [item] = (indented level item).toList := by
  simp [joinedItems, indentedItems]

theorem joinedItems_cons (level : ℕ) (item next : Data) (items : List Data) :
    joinedItems level (item :: next :: items) =
      (indented level item).toList ++ ',' :: ((lineAt level).toList ++
        joinedItems level (next :: items)) := by
  simp [joinedItems, indentedItems, String.intercalate_cons_cons]

theorem toList_indented_list (level : ℕ) {items : List Data} (hne : items ≠ []) :
    (indented level (.list items)).toList = '[' :: ((lineAt (level + 1)).toList ++
      (joinedItems (level + 1) items ++ ((lineAt level).toList ++ [']']))) := by
  obtain ⟨item, items, rfl⟩ := List.exists_cons_of_ne_nil hne
  rw [indented, bracketed, if_neg (by simp [indentedItems])]
  simp [joinedItems]

section

variable {first : Read Data} {behind : ℕ} {more : List Char}

/-- A bracket ends the list behind an item. -/
theorem items_bracket (hfirst : value fuel depth position cs = .ok first)
    (hskip : skipSpaces first.position first.rest = (behind, ']' :: more)) :
    items (fuel + 1) depth position cs = .ok ⟨[first.value], behind + 1, more⟩ := by
  simp only [items, hfirst, bind, Except.bind, hskip]

/-- A comma goes on with the next item. -/
theorem items_comma {next : ℕ} (hfirst : value fuel depth position cs = .ok first)
    (hskip : skipSpaces first.position first.rest = (behind, ',' :: more))
    (hnext : skipSpaces (behind + 1) more = (next, rest)) :
    items (fuel + 1) depth position cs = (items fuel depth next rest).map fun r =>
      ⟨first.value :: r.value, r.position, r.rest⟩ := by
  simp only [items, hfirst, bind, Except.bind, hskip, hnext]
  cases items fuel depth next rest <;> rfl

end

/-- **Items are read one by one.** -/
theorem items_joined {items : List Data} (hne : items ≠ [])
    (hitems : ∀ item ∈ items, Restored depth item) (level outer : ℕ) (rest : List Char) :
    ∀ fuel position, 2 * (joinedItems level items).length + 1 ≤ fuel →
      ∃ behind, Json.items fuel depth position
        (joinedItems level items ++ ((lineAt outer).toList ++ ']' :: rest)) =
          .ok ⟨items, behind, rest⟩ := by
  induction items with
  | nil => exact absurd rfl hne
  | cons item items ih =>
    intro fuel position hfuel
    obtain ⟨less, rfl⟩ : ∃ less, fuel = less + 1 := ⟨fuel - 1, by omega⟩
    obtain ⟨hitem, hitems⟩ := List.forall_mem_cons.1 hitems
    cases items with
    | nil =>
      rw [joinedItems_singleton] at hfuel ⊢
      obtain ⟨behind, hread⟩ := hitem level less position _ (by omega)
        (stops_lineAt outer (']' :: rest))
      exact ⟨_, items_bracket hread (skipSpaces_lineAt outer (by decide) behind rest)⟩
    | cons next items =>
      rw [joinedItems_cons] at hfuel ⊢
      simp only [List.length_append, List.length_cons] at hfuel
      have hothers := ih (by simp) hitems less
      obtain ⟨_, h⟩ := hothers 0 (by omega)
      obtain ⟨c, more, hcs, hc, -⟩ := exists_cons_of_items h
      obtain ⟨behind, hread⟩ := hitem level less position
        (',' :: ((lineAt level).toList ++ (joinedItems level (next :: items) ++
          ((lineAt outer).toList ++ ']' :: rest)))) (by omega) (stops_cons (by decide) _)
      obtain ⟨last, h⟩ := hothers (behind + 1 + 1 + 2 * level) (by omega)
      refine ⟨last, ?_⟩
      rw [List.append_assoc, List.cons_append, List.append_assoc,
        items_comma hread (skipSpaces_cons (by decide) _ _)
          (hcs ▸ skipSpaces_lineAt level hc (behind + 1) more), h]
      rfl

theorem restored_list {items : List Data} (hitems : ∀ item ∈ items, Restored depth item) :
    Restored (depth + 1) (.list items) := by
  by_cases hne : items = []
  · subst hne
    have htext : ∀ level, indented level (.list []) = "[]" := fun level => by
      rw [indented, indentedItems, bracketed]
      rfl
    exact restored_of_text htext fun fuel position rest _ =>
      ⟨_, value_brackets fuel _ position rest⟩
  intro level fuel position rest hfuel _
  rw [toList_indented_list level hne] at hfuel ⊢
  simp only [List.length_append, List.length_cons] at hfuel
  obtain ⟨less, rfl⟩ : ∃ less, fuel = less + 1 := ⟨fuel - 1, by omega⟩
  have hread := items_joined hne hitems (level + 1) level rest less
  obtain ⟨_, h⟩ := hread 0 (by omega)
  obtain ⟨c, more, hcs, hc, hclosing⟩ := exists_cons_of_items h
  obtain ⟨behind, h⟩ := hread (position + 1 + 1 + 2 * (level + 1)) (by omega)
  refine ⟨behind, ?_⟩
  have hskip := skipSpaces_lineAt (level + 1) hc (position + 1) more
  rw [hcs] at h
  rw [List.cons_append, List.append_assoc, List.append_assoc, List.append_assoc,
    List.singleton_append, hcs, value_bracket hclosing hskip, h]
  rfl

/-! ## Records -/

/-- The fields of a record, each on its line. -/
def joinedFields (level : ℕ) (fields : Fields) : List Char :=
  (("," ++ lineAt level).intercalate (indentedFields level fields)).toList

theorem joinedFields_singleton (level : ℕ) (name : Text) (value : Data) :
    joinedFields level [(name, value)] =
      (stringText name).toList ++ ':' :: ' ' :: (indented level value).toList := by
  simp [joinedFields, indentedFields]

theorem joinedFields_cons (level : ℕ) (name : Text) (value : Data) (next : Text × Data)
    (fields : Fields) : joinedFields level ((name, value) :: next :: fields) =
      (stringText name).toList ++ ':' :: ' ' :: ((indented level value).toList ++
        ',' :: ((lineAt level).toList ++ joinedFields level (next :: fields))) := by
  simp [joinedFields, indentedFields, String.intercalate_cons_cons]

theorem toList_indented_record (level : ℕ) {fields : Fields} (hne : fields ≠ []) :
    (indented level (.record fields)).toList = '\x7b' :: ((lineAt (level + 1)).toList ++
      (joinedFields (level + 1) fields ++ ((lineAt level).toList ++ ['\x7d']))) := by
  obtain ⟨⟨name, value⟩, fields, rfl⟩ := List.exists_cons_of_ne_nil hne
  rw [indented, bracketed, if_neg (by simp [indentedFields])]
  simp [joinedFields]

section

variable {known : Fields} {name : Read Text} {content : Read Data} {behind inside finish : ℕ}
  {more last : List Char}

/-- A brace ends the record behind a field. -/
theorem fields_brace (hname : string position (position + 1) cs = .ok name)
    (hcolon : skipSpaces name.position name.rest = (behind, ':' :: more))
    (hinside : skipSpaces (behind + 1) more = (inside, rest))
    (hcontent : value fuel depth inside rest = .ok content)
    (hskip : skipSpaces content.position content.rest = (finish, '\x7d' :: last)) :
    fields (fuel + 1) depth known position ('"' :: cs) =
      .ok ⟨Data.setField known name.value content.value, finish + 1, last⟩ := by
  simp only [fields, hname, bind, Except.bind, hcolon, hinside, hcontent, hskip]
  rfl

/-- A comma goes on with the next field. -/
theorem fields_comma {next : ℕ} {behindNext : List Char}
    (hname : string position (position + 1) cs = .ok name)
    (hcolon : skipSpaces name.position name.rest = (behind, ':' :: more))
    (hinside : skipSpaces (behind + 1) more = (inside, rest))
    (hcontent : value fuel depth inside rest = .ok content)
    (hskip : skipSpaces content.position content.rest = (finish, ',' :: last))
    (hnext : skipSpaces (finish + 1) last = (next, behindNext)) :
    fields (fuel + 1) depth known position ('"' :: cs) =
      fields fuel depth (Data.setField known name.value content.value) next behindNext := by
  simp only [fields, hname, bind, Except.bind, hcolon, hinside, hcontent, hskip, hnext]

end

theorem stringText_append (cs rest : List Char) :
    (stringText (.ofChars cs)).toList ++ rest = '"' :: (cs.flatMap charChars ++ '"' :: rest) := by
  rw [toList_stringText, List.cons_append, List.cons_append, List.append_assoc,
    List.singleton_append]

/-- The name and the value of a field, in front of what does not go on with a number. -/
theorem exists_read_field {content : Data} (hcontent : Restored depth content) (cs : List Char)
    (hfuel : 2 * (indented level content).toList.length ≤ fuel) (hrest : Stops rest)
    (position : ℕ) : ∃ colon inside behind more,
      string position (position + 1) (cs.flatMap charChars ++ '"' :: ':' :: ' ' ::
        ((indented level content).toList ++ rest)) = .ok ⟨.ofChars cs, colon, ':' :: more⟩ ∧
      skipSpaces (colon + 1) more = (inside, (indented level content).toList ++ rest) ∧
      value fuel depth inside ((indented level content).toList ++ rest) =
        .ok ⟨content, behind, rest⟩ := by
  obtain ⟨colon, hname⟩ := string_flatMap_charChars position (position + 1) cs
    (':' :: ' ' :: ((indented level content).toList ++ rest))
  obtain ⟨behind, hvalue⟩ := hcontent level fuel (colon + 1 + 1) rest hfuel hrest
  obtain ⟨c, more, hcs, hc, -⟩ := exists_cons_of_value hvalue
  have hskip := skipSpaces_replicate 1 hc (colon + 1) more
  exact ⟨colon, colon + 1 + 1, behind, _, hname, hcs ▸ hskip, hvalue⟩

/-- **Fields are read one by one** and set behind those that are known. -/
theorem fields_joined {fields : Fields} (hne : fields ≠ [])
    (htexts : ∀ f ∈ fields, ∃ cs, f.1 = Text.ofChars cs)
    (hvalues : ∀ f ∈ fields, Restored depth f.2) (level outer : ℕ) (rest : List Char) :
    ∀ known fuel position, (Data.names (known ++ fields)).Nodup →
      2 * (joinedFields level fields).length + 1 ≤ fuel →
        ∃ behind, Json.fields fuel depth known position
          (joinedFields level fields ++ ((lineAt outer).toList ++ '\x7d' :: rest)) =
            .ok ⟨known ++ fields, behind, rest⟩ := by
  induction fields with
  | nil => exact absurd rfl hne
  | cons f fields ih =>
    intro known fuel position hnodup hfuel
    obtain ⟨less, rfl⟩ : ∃ less, fuel = less + 1 := ⟨fuel - 1, by omega⟩
    obtain ⟨name, content⟩ := f
    obtain ⟨⟨cs, rfl⟩, hothers⟩ := List.forall_mem_cons.1 htexts
    obtain ⟨hcontent, hvalues⟩ := List.forall_mem_cons.1 hvalues
    replace hcontent : Restored depth content := hcontent
    have hset : Data.setField known (.ofChars cs) content = known ++ [(.ofChars cs, content)] := by
      refine Data.setField_of_notMem fun hmem => ?_
      rw [Data.names, List.map_append, List.nodup_append] at hnodup
      exact hnodup.2.2 _ hmem _ List.mem_cons_self rfl
    cases fields with
    | nil =>
      rw [joinedFields_singleton] at hfuel ⊢
      simp only [List.length_append, List.length_cons] at hfuel
      have hshort : 2 * (indented level content).toList.length ≤ less := by omega
      obtain ⟨colon, inside, behind, more, hname, hinside, hvalue⟩ :=
        exists_read_field hcontent cs hshort (stops_lineAt outer ('\x7d' :: rest)) position
      refine ⟨behind + 1 + 2 * outer + 1, ?_⟩
      rw [List.append_assoc, stringText_append, List.cons_append, List.cons_append,
        fields_brace hname (skipSpaces_cons (by decide) _ _) hinside hvalue
          (skipSpaces_lineAt outer (by decide) behind rest), hset]
    | cons next fields =>
      rw [joinedFields_cons] at hfuel ⊢
      simp only [List.length_append, List.length_cons] at hfuel
      have hshort : 2 * (indented level content).toList.length ≤ less := by omega
      have hcomma : Stops (',' :: ((lineAt level).toList ++ (joinedFields level (next :: fields) ++
          ((lineAt outer).toList ++ '\x7d' :: rest)))) := stops_cons (by decide) _
      obtain ⟨colon, inside, behind, more, hname, hinside, hvalue⟩ :=
        exists_read_field hcontent cs hshort hcomma position
      have hnodup : (Data.names (known ++ [(.ofChars cs, content)] ++ next :: fields)).Nodup := by
        rwa [List.append_assoc]
      obtain ⟨last, h⟩ := ih (by simp) hothers hvalues _ less (behind + 1 + 1 + 2 * level) hnodup
        (by omega)
      obtain ⟨after, hafter⟩ := exists_cons_of_fields h
      refine ⟨last, ?_⟩
      rw [List.append_assoc, stringText_append, List.cons_append, List.cons_append,
        List.append_assoc, List.cons_append, List.append_assoc,
        fields_comma hname (skipSpaces_cons (by decide) _ _) hinside hvalue
          (skipSpaces_cons (by decide) _ _)
          (hafter ▸ skipSpaces_lineAt level (by decide) (behind + 1) after), hset, h,
        List.append_assoc]
      rfl

theorem restored_record {fields : Fields} (hnodup : (Data.names fields).Nodup)
    (htexts : ∀ f ∈ fields, ∃ cs, f.1 = Text.ofChars cs)
    (hvalues : ∀ f ∈ fields, Restored depth f.2) : Restored (depth + 1) (.record fields) := by
  by_cases hne : fields = []
  · subst hne
    have htext : ∀ level, indented level (.record []) = "\x7b\x7d" := fun level => by
      rw [indented, indentedFields, bracketed]
      rfl
    exact restored_of_text htext fun fuel position rest _ =>
      ⟨_, value_braces fuel _ position rest⟩
  intro level fuel position rest hfuel _
  rw [toList_indented_record level hne] at hfuel ⊢
  simp only [List.length_append, List.length_cons] at hfuel
  obtain ⟨less, rfl⟩ : ∃ less, fuel = less + 1 := ⟨fuel - 1, by omega⟩
  obtain ⟨behind, h⟩ := fields_joined hne htexts hvalues (level + 1) level rest [] less
    (position + 1 + 1 + 2 * (level + 1)) hnodup (by omega)
  obtain ⟨more, hcs⟩ := exists_cons_of_fields h
  refine ⟨behind, ?_⟩
  have hskip := skipSpaces_lineAt (level + 1) (c := '"') (by decide) (position + 1) more
  rw [hcs] at h
  rw [List.cons_append, List.append_assoc, List.append_assoc, List.append_assoc,
    List.singleton_append, hcs, value_brace (by decide) hskip, h]
  rfl

/-! ## Documents -/

theorem Legible.restored {d : Data} (h : Legible depth d) : Restored depth d := by
  induction h with
  | null => exact restored_null _
  | flag _ b => exact restored_flag _ b
  | integer _ few => exact restored_integer _ few
  | real _ back => exact restored_real _ back
  | text _ cs => exact restored_text _ cs
  | list _ ih => exact restored_list ih
  | record names texts _ ih => exact restored_record names texts ih

theorem document_indented {d : Data} (h : Legible maxDepth d) :
    document (indented 0 d).toList = .ok d := by
  obtain ⟨behind, hread⟩ := h.restored 0 (2 * (indented 0 d).toList.length + 4) 0 [] (by omega)
    nofun
  rw [List.append_nil] at hread
  obtain ⟨c, more, hcs, hc, -, hmark⟩ := exists_cons_of_value hread
  rw [hcs] at hread ⊢
  unfold document
  split
  next hcons => exact absurd (List.cons.inj hcons).1 hmark
  next =>
    rw [skipSpaces_cons hc]
    simp only [hread]
    rfl

/-- **What is written is read back.** -/
theorem read_indented {d : Data} (h : Legible maxDepth d) :
    read (indented 0 d).toList = .ok (.ok d) := by
  rw [read, document_indented h]

end Json

end RobotBlocks
