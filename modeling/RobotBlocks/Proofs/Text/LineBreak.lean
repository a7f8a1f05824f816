import Mathlib.Data.Nat.Notation
import RobotBlocks.Text.Quoted

/-!
# Texts without line breaks

A text that is joined from lines comes apart into these lines again if and only if none of them
holds a line break (`Text.splitOn_join_iff`). The texts of numbers hold none, and neither do quoted
texts, in which line breaks are escaped.
-/

namespace RobotBlocks

namespace Text

/-- Ends a line. -/
def lineBreak : Piece := .char '\n'

/-- The text stands on one line. -/
def IsInline (t : Text) : Prop := lineBreak ∉ t

instance (t : Text) : Decidable t.IsInline := inferInstanceAs (Decidable (lineBreak ∉ t))

theorem isInline_append {t u : Text} : IsInline (t ++ u) ↔ t.IsInline ∧ u.IsInline := by
  simp [IsInline, not_or]

theorem isInline_ofString {s : String} : (ofString s).IsInline ↔ '\n' ∉ s.toList := by
  simp [IsInline, ofString, ofChars, lineBreak]

/-! ## Joined lines -/

/-- What a list is split into holds no separator. -/
theorem notMem_of_mem_splitOn {α : Type} [BEq α] [LawfulBEq α] {a : α} {xs part : List α}
    (h : part ∈ xs.splitOn a) : a ∉ part := by
  induction xs generalizing part with
  | nil =>
    obtain rfl : part = [] := by simpa using h
    exact List.not_mem_nil
  | cons x xs ih =>
    rw [List.splitOn_cons_eq_if_modifyHead] at h
    split at h
    · rcases List.mem_cons.1 h with rfl | h
      · exact List.not_mem_nil
      · exact ih h
    next hx =>
      obtain ⟨first, others, hsplit⟩ := List.exists_cons_of_ne_nil (List.splitOn_ne_nil a xs)
      rw [hsplit] at h ih
      rcases List.mem_cons.1 h with rfl | h
      · rw [List.mem_cons, not_or]
        exact ⟨fun e => hx (by simp [e]), ih List.mem_cons_self⟩
      · exact ih (List.mem_cons_of_mem _ h)

/-- **Joined lines come apart as they were** if and only if each of them stands on one line. -/
theorem splitOn_join_iff {lines : List Text} (hne : lines ≠ []) :
    List.splitOn lineBreak (("\n" : Text).intercalate lines) = lines ↔
      ∀ t ∈ lines, t.IsInline := by
  constructor
  · intro h t ht
    rw [← h] at ht
    exact notMem_of_mem_splitOn ht
  · intro h
    exact List.splitOn_intercalate lineBreak h hne

end Text

/-! ## Numbers -/

theorem notMem_toDigits {base : ℕ} (hbase : 1 < base) (n : ℕ) : '\n' ∉ Nat.toDigits base n := by
  induction n using Nat.strongRecOn with
  | ind n ih =>
    rw [Nat.toDigits_eq_if hbase]
    split
    · simp
    next hle =>
      have hdiv : n / base < n := Nat.div_lt_self (by omega) hbase
      simpa using ih _ hdiv

theorem notMem_digitChars (n : ℕ) : '\n' ∉ digitChars n := notMem_toDigits (by decide) n

theorem notMem_intText (n : Int) : '\n' ∉ (intText n).toList := by
  unfold intText natText
  split <;> simp [notMem_digitChars]

theorem notMem_withSign {negative : Bool} {text : String} (h : '\n' ∉ text.toList) :
    '\n' ∉ (withSign negative text).toList := by
  unfold withSign
  split <;> simp [h]

namespace Decimal

theorem notMem_positional (d : Decimal) : '\n' ∉ d.positional.toList := by
  have hdigits := notMem_digitChars d.digits
  unfold positional
  dsimp only
  split
  · simp [hdigits]
  · have hpadded : '\n' ∉
        List.replicate ((-d.exponent).toNat + 1 - (digitChars d.digits).length) '0' ++
          digitChars d.digits := by
      simp [hdigits]
    rw [String.toList_ofList, List.mem_append, List.mem_cons, not_or, not_or]
    exact ⟨fun h => hpadded (List.mem_of_mem_take h), by decide,
      fun h => hpadded (List.mem_of_mem_drop h)⟩

theorem notMem_scientific (d : Decimal) : '\n' ∉ d.scientific.toList := by
  have hdigits := notMem_digitChars d.digits
  have hpower := notMem_digitChars d.leading.natAbs
  unfold scientific
  dsimp only
  split
  · simp
  next c heq =>
    rw [heq] at hdigits
    split <;> split <;> simp_all
  next c rest _ heq =>
    rw [heq] at hdigits
    split <;> split <;> simp_all

end Decimal

theorem notMem_shortestText (x : Float) : '\n' ∉ (Float.shortestText x).toList := by
  unfold Float.shortestText
  split
  · simp
  · exact notMem_withSign (by simp)
  · refine notMem_withSign ?_
    split
    · simp
    · dsimp only
      split
      · split
        · simp [Decimal.notMem_positional]
        · exact Decimal.notMem_positional _
      · exact Decimal.notMem_scientific _

/-! ## Quoted texts -/

theorem notMem_hexChars (width n : ℕ) : '\n' ∉ hexChars width n := by
  simp [hexChars, notMem_toDigits (by decide : 1 < 16) n]

theorem notMem_escape {quote c : Char} (hquote : quote ≠ '\n') : '\n' ∉ Quoted.escape quote c := by
  by_cases hc : c = '\n'
  · subst hc
    simp [Quoted.escape, hquote.symm]
  · have hc : '\n' ≠ c := Ne.symm hc
    unfold Quoted.escape
    split
    · simp [hc]
    iterate 3
      split
      · simp
    split
    · simp [hc]
    split
    · simp [notMem_hexChars]
    split <;> simp [notMem_hexChars]

/-- **A quoted text stands on one line.** -/
theorem notMem_quoted (t : Text) : '\n' ∉ (quoted t).toList := by
  have hquote : Quoted.quoteFor t ≠ '\n' := by
    unfold Quoted.quoteFor
    split <;> decide
  have hpiece : ∀ p, '\n' ∉ Quoted.escapePiece (Quoted.quoteFor t) p := by
    rintro (c | index)
    · exact notMem_escape hquote
    · simp [Quoted.escapePiece, notMem_hexChars]
  rw [quoted, String.toList_ofList, Quoted.chars]
  simp [hquote.symm, hpiece]

end RobotBlocks
