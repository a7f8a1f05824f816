import RobotBlocks.Proofs.Json.Numbers

/-!
# Written texts are ASCII

The text of a value consists of printable ASCII characters and newlines (`areWritten_indented`),
whatever characters occur in the value: the others are written as code units.
-/

namespace RobotBlocks

namespace Json

/-- A newline or a printable ASCII character. -/
def IsWritten (c : Char) : Prop := c = '\n' ∨ 32 ≤ c.toNat ∧ c.toNat < 127

instance : DecidablePred IsWritten := fun _ => inferInstanceAs (Decidable (_ ∨ _))

/-- All characters are newlines or printable. -/
def AreWritten (cs : List Char) : Prop := ∀ c ∈ cs, IsWritten c

-- Searching would find the instance that goes through all characters.
instance : DecidablePred AreWritten := fun cs => List.decidableBAll IsWritten cs

theorem AreWritten.append {cs ds : List Char} (hcs : AreWritten cs) (hds : AreWritten ds) :
    AreWritten (cs ++ ds) :=
  List.forall_mem_append.2 ⟨hcs, hds⟩

/-! ## Strings -/

theorem areWritten_toDigits (n : ℕ) : AreWritten (Nat.toDigits 16 n) := by
  induction n using Nat.strongRecOn with
  | _ n ih =>
    have hdigit : ∀ d < 16, IsWritten (Nat.digitChar d) := by decide
    by_cases hn : n < 16
    · rw [Nat.toDigits_of_lt_base hn]
      exact List.forall_mem_singleton.2 (hdigit n hn)
    · rw [Nat.toDigits_of_base_le (by decide) (by omega)]
      exact (ih (n / 16) (by omega)).append
        (List.forall_mem_singleton.2 (hdigit _ (Nat.mod_lt _ (by decide))))

theorem areWritten_unitChars (n : ℕ) : AreWritten (unitChars n) := by
  have hzeros : ∀ count, AreWritten (List.replicate count '0') := fun count c hc => by
    obtain rfl := List.eq_of_mem_replicate hc
    decide
  have hmark : AreWritten ['\\', 'u'] := by decide
  exact hmark.append ((hzeros _).append (areWritten_toDigits n))

theorem areWritten_charChars (c : Char) : AreWritten (charChars c) := by
  have hshort : ∀ d, IsWritten d → AreWritten ['\\', d] := fun d hd =>
    List.forall_mem_cons.2 ⟨by decide, List.forall_mem_singleton.2 hd⟩
  unfold charChars
  split
  next h =>
    refine hshort c ?_
    rcases Bool.or_eq_true_iff.1 h with h | h <;> obtain rfl := eq_of_beq h <;> decide
  split
  next => exact hshort 'n' (by decide)
  split
  next => exact hshort 'r' (by decide)
  split
  next => exact hshort 't' (by decide)
  split
  next => exact hshort 'b' (by decide)
  split
  next => exact hshort 'f' (by decide)
  dsimp only
  split
  next h =>
    simp only [Bool.and_eq_true, decide_eq_true_eq] at h
    exact List.forall_mem_singleton.2 (.inr h)
  split
  next => exact areWritten_unitChars _
  next => exact (areWritten_unitChars _).append (areWritten_unitChars _)

theorem areWritten_stringText (t : Text) : AreWritten (stringText t).toList := by
  have hquote : AreWritten ['"'] := by decide
  have hpieces : AreWritten (t.flatMap pieceChars) := by
    intro c hc
    obtain ⟨p, -, hc⟩ := List.mem_flatMap.1 hc
    cases p with
    | char d => exact areWritten_charChars d c hc
    | half index => exact areWritten_unitChars _ c hc
  rw [stringText, String.toList_ofList]
  exact (hquote.append hpieces).append hquote

/-! ## Numbers -/

theorem areWritten_digits {ds : List Char} (h : AreDigits ds) : AreWritten ds := by
  intro c hc
  have hcode : 48 ≤ c.toNat ∧ c.toNat ≤ 57 := Char.isDigit_iff_toNat.1 (h.2 c hc)
  exact .inr ⟨by omega, by omega⟩

theorem areWritten_printedNumber (n : PrintedNumber) : AreWritten n.chars := by
  have hsign : AreWritten (PrintedNumber.signChars n.negative) := by
    cases n.negative <;> decide
  have hplaces : AreWritten n.places := by
    rcases n.arePlaces with h | ⟨ds, hds, h⟩ <;> rw [h]
    · nofun
    · exact List.forall_mem_cons.2 ⟨by decide, areWritten_digits hds⟩
  have hpower : AreWritten n.power := by
    rcases n.arePower with h | ⟨sign, ds, hds, hsign, h⟩ <;> rw [h]
    · nofun
    · refine List.forall_mem_cons.2 ⟨by decide, List.forall_mem_cons.2 ⟨?_, areWritten_digits hds⟩⟩
      rcases hsign with rfl | rfl <;> decide
  exact ((hsign.append (areWritten_digits n.areWhole.1)).append hplaces).append hpower

theorem areWritten_realText (x : Float) : AreWritten (realText x).toList := by
  cases hx : x.isFinite with
  | true =>
    obtain ⟨n, -, htext⟩ := Float.exists_printedNumber hx
    rw [realText_of_isFinite hx, htext]
    exact areWritten_printedNumber n
  | false =>
    have hwords : ∀ word ∈ ["NaN", "Infinity", "-Infinity"], AreWritten word.toList := by
      decide
    refine hwords _ ?_
    unfold realText
    split
    · simp
    split
    · split <;> simp
    next hnan hinf =>
      rw [Float.isInf_of_not_isFinite hx (Bool.eq_false_iff.2 hnan)] at hinf
      exact absurd rfl hinf

/-! ## Values -/

theorem areWritten_lineAt (level : ℕ) : AreWritten (lineAt level).toList := by
  rw [lineAt, String.toList_ofList]
  refine List.forall_mem_cons.2 ⟨.inl rfl, fun c hc => ?_⟩
  obtain rfl := List.eq_of_mem_replicate hc
  decide

theorem areWritten_intercalate {separator : String} {lines : List String}
    (hseparator : AreWritten separator.toList) (hlines : ∀ line ∈ lines, AreWritten line.toList) :
    AreWritten (separator.intercalate lines).toList := by
  induction lines with
  | nil => nofun
  | cons line lines ih =>
    obtain ⟨hline, hlines⟩ := List.forall_mem_cons.1 hlines
    cases lines with
    | nil => simpa using hline
    | cons next lines =>
      rw [String.intercalate_cons_cons, String.toList_append, String.toList_append]
      exact (hline.append hseparator).append (ih hlines)

theorem areWritten_bracketed {opening closing : String} (hopening : AreWritten opening.toList)
    (hclosing : AreWritten closing.toList) (level : ℕ) {lines : List String}
    (hlines : ∀ line ∈ lines, AreWritten line.toList) :
    AreWritten (bracketed opening closing level lines).toList := by
  have hcomma : AreWritten ("," ++ lineAt (level + 1)).toList := by
    have hmark : AreWritten ",".toList := by decide
    rw [String.toList_append]
    exact hmark.append (areWritten_lineAt _)
  unfold bracketed
  split
  · rw [String.toList_append]
    exact hopening.append hclosing
  · simp only [String.toList_append]
    exact (((hopening.append (areWritten_lineAt _)).append
      (areWritten_intercalate hcomma hlines)).append (areWritten_lineAt _)).append hclosing

mutual

/-- **The text of a value is printable ASCII with newlines.** -/
theorem areWritten_indented (level : ℕ) (d : Data) : AreWritten (indented level d).toList := by
  cases d with
  | null =>
    rw [indented]
    decide
  | flag b =>
    cases b <;> rw [indented] <;> decide
  | integer n =>
    rw [indented, PrintedNumber.toList_intText]
    exact areWritten_printedNumber _
  | real x =>
    rw [indented]
    exact areWritten_realText x
  | text t =>
    rw [indented]
    exact areWritten_stringText t
  | list items =>
    rw [indented]
    exact areWritten_bracketed (by decide) (by decide) level
      (areWritten_indentedItems (level + 1) items)
  | record fields =>
    rw [indented]
    exact areWritten_bracketed (by decide) (by decide) level
      (areWritten_indentedFields (level + 1) fields)

theorem areWritten_indentedItems (level : ℕ) (items : List Data) :
    ∀ line ∈ indentedItems level items, AreWritten line.toList := by
  cases items with
  | nil =>
    rw [indentedItems]
    nofun
  | cons item items =>
    rw [indentedItems]
    exact List.forall_mem_cons.2
      ⟨areWritten_indented level item, areWritten_indentedItems level items⟩

theorem areWritten_indentedFields (level : ℕ) (fields : Fields) :
    ∀ line ∈ indentedFields level fields, AreWritten line.toList := by
  cases fields with
  | nil =>
    rw [indentedFields]
    nofun
  | cons f fields =>
    obtain ⟨name, value⟩ := f
    have hcolon : AreWritten ": ".toList := by decide
    rw [indentedFields]
    refine List.forall_mem_cons.2 ⟨?_, areWritten_indentedFields level fields⟩
    rw [String.toList_append, String.toList_append]
    exact ((areWritten_stringText name).append hcolon).append (areWritten_indented level value)

end

end Json

end RobotBlocks
