import RobotBlocks.Proofs.Guard.Routine
import RobotBlocks.Proofs.Guard.Safety
import RobotBlocks.Proofs.Guard.Tokenizing

/-!
# Guards are read and evaluated with bounded recursion

The height of a tree bounds the calls that evaluate it, and the nesting limit bounds this height and
the calls that find the tree. It does not bound the number of operands, and the bound on the height
is met.

* `exists_parse`: a derivation without numbers that nests little enough is that of a text, so it
  takes derivations only to show that there are guards with long chains (`Derivation.row`) and with
  high trees (`Derivation.tower`);
* `nesting_bounds_recursion`: what the nesting limit bounds, and what it does not.
-/

namespace RobotBlocks

namespace Guard

open Expression

/-! ## Texts of derivations -/

/-- What is no number is the token of a lexeme. -/
theorem Token.exists_lexeme {t : Token} (h : ∀ spelling, t ≠ .number spelling) :
    ∃ l : Lexeme, l.told = t.told := by
  cases t with
  | number spelling => exact absurd rfl (h spelling)
  | compare c => exact ⟨.sign c.sign (by cases c <;> decide), rfl⟩
  | both asSign =>
    cases asSign
    · exact ⟨.word "and".toList (by decide), rfl⟩
    · exact ⟨.sign "&&" (by decide), rfl⟩
  | either asSign =>
    cases asSign
    · exact ⟨.word "or".toList (by decide), rfl⟩
    · exact ⟨.sign "||" (by decide), rfl⟩
  | negate asSign =>
    cases asSign
    · exact ⟨.word "not".toList (by decide), rfl⟩
    · exact ⟨.sign "!" (by decide), rfl⟩
  | truth value =>
    cases value
    · exact ⟨.word "false".toList (by decide), rfl⟩
    · exact ⟨.word "true".toList (by decide), rfl⟩
  | opening => exact ⟨.sign "(" (by decide), rfl⟩
  | closing => exact ⟨.sign ")" (by decide), rfl⟩

/-- The token of a sort and a text. -/
def Token.ofTold? (told : String × String) : Option Token :=
  if told.1 = "number" then some (.number told.2)
  else if told.1 = "word" then word? told.2
  else (sign? told.2.toList).map Prod.fst

theorem Token.ofTold?_told (t : Token) : Token.ofTold? t.told = some t := by
  cases t with
  | number spelling => rfl
  | compare c => cases c <;> rfl
  | both asSign => cases asSign <;> rfl
  | either asSign => cases asSign <;> rfl
  | negate asSign => cases asSign <;> rfl
  | truth value => cases value <;> rfl
  | opening => rfl
  | closing => rfl

theorem Token.told_injective : Function.Injective Token.told := fun t t' h =>
  Option.some.inj (t.ofTold?_told.symm.trans ((congrArg Token.ofTold? h).trans t'.ofTold?_told))

/-- Lexemes behind blanks are told by the tokens of a text. -/
theorem exists_text_of_lexemes (ls : List Lexeme) :
    ∃ text ts, tokenize text = .ok ts ∧ ts.map Token.told = ls.map Lexeme.told := by
  let parts : Parts := ls.map fun l => (⟨[' '], List.all_eq_true.1 rfl⟩, l)
  have hapart : parts.Apart := by
    intro p hp
    obtain ⟨l, -, rfl⟩ := List.mem_map.1 (List.mem_of_mem_tail hp)
    exact List.cons_ne_nil _ _
  have hlength : parts.length ≤ (Text.ofChars parts.chars).length := by
    simpa [Text.ofChars] using parts.length_le
  obtain ⟨ts, hts, htold⟩ := tokensFrom_chars (Text.ofChars parts.chars) parts hapart hlength
  have htrim := trimEnd_ofChars parts ⟨[], fun c hc => (List.not_mem_nil hc).elim⟩
  rw [List.append_nil] at htrim
  refine ⟨Text.ofChars parts.chars, ts, ?_, ?_⟩
  · rw [tokenize, htrim, chars_ofChars, hts]
  · rw [htold, Parts.told, List.map_map]
    rfl

/-- **Tokens without numbers are those of a text.** -/
theorem exists_text {ts : List Token} (h : ∀ spelling, .number spelling ∉ ts) :
    ∃ text, tokenize text = .ok ts := by
  obtain ⟨ls, hls⟩ : ∃ ls : List Lexeme, ls.map Lexeme.told = ts.map Token.told := by
    induction ts with
    | nil => exact ⟨[], rfl⟩
    | cons t ts ih =>
      obtain ⟨l, hl⟩ := Token.exists_lexeme fun spelling ht => h spelling (ht ▸ List.mem_cons_self)
      obtain ⟨ls, hls⟩ := ih fun spelling hmem => h spelling (List.mem_cons_of_mem t hmem)
      exact ⟨l :: ls, by rw [List.map_cons, List.map_cons, hl, hls]⟩
  obtain ⟨text, ts', htext, htold⟩ := exists_text_of_lexemes ls
  obtain rfl : ts' = ts := List.map_injective_iff.2 Token.told_injective (htold.trans hls)
  exact ⟨text, htext⟩

/-- A derivation that nests little enough is found. -/
theorem ofTokens_tokens (d : Derivation (.phrase (.chain .either))) (h : d.depth ≤ maxNesting) :
    ofTokens d.tokens = .ok d.tree := by
  have hguard := recognizes_disjunction (recognizes_negation d.tokens.length maxNesting)
  have hread := hguard.complete d h (Nat.le_refl _) (Phrase.stops_nil _)
  rw [List.append_nil] at hread
  have hne : ¬ d.tokens.isEmpty := by
    intro hempty
    rw [List.isEmpty_iff.1 hempty] at hread
    cases hread
  rw [ofTokens, if_neg hne]
  exact Outcome.bind_eq_ok.2 ⟨_, hread, rfl⟩

/-- If it has no numbers, it is found in a text. -/
theorem exists_parse (d : Derivation (.phrase (.chain .either))) (hdepth : d.depth ≤ maxNesting)
    (hnumbers : ∀ spelling, .number spelling ∉ d.tokens) :
    ∃ text, Expression.parse text = .ok d.tree := by
  obtain ⟨text, htext⟩ := exists_text hnumbers
  exact ⟨text, Outcome.bind_eq_ok.2 ⟨d.tokens, htext, ofTokens_tokens d hdepth⟩⟩

/-! ## Long chains and high trees -/

theorem one_le_height (e : Expression) : 1 ≤ e.height := by
  cases e <;> simp [height]

theorem heights_replicate (e : Expression) (n : ℕ) :
    heights (List.replicate (n + 1) e) = e.height := by
  induction n with
  | zero => exact Nat.max_zero _
  | succ n ih => rw [List.replicate_succ, heights, ih, Nat.max_self]

namespace Derivation

/-- The atom `true` as an operand of a chain. -/
def holds : (c : Connective) → Derivation (.phrase c.operand)
  | .both => .plain (.single (.truth true))
  | .either => .chain (c := .both) (.plain (.single (.truth true))) .done

/-- The same operand over and over. -/
def copies {c : Connective} (operand : Derivation (.phrase c.operand)) :
    ℕ → Derivation (.links c)
  | 0 => .done
  | n + 1 => .link false operand (copies operand n)

/-- A chain of two operands and so many more. -/
def row (c : Connective) (n : ℕ) : Derivation (.phrase (.chain c)) :=
  .chain (holds c) (copies (holds c) (n + 1))

/-- A chain as a guard. -/
def guard :
    (c : Connective) → Derivation (.phrase (.chain c)) → Derivation (.phrase (.chain .either))
  | .both, d => .chain (c := .either) d .done
  | .either, d => d

/-- An operand of a comparison in a conjunction in a disjunction. -/
def roofed (operand : Derivation (.phrase .atom)) : Derivation (.phrase (.chain .either)) :=
  .chain (c := .either)
    (.chain (c := .both) (.plain (.compare operand .eq (.truth true)))
      (copies (c := .both) (holds .both) 1))
    (copies (c := .either) (holds .either) 1)

/-- Disjunctions inside each other, each in parentheses. -/
def tower : ℕ → Derivation (.phrase (.chain .either))
  | 0 => roofed (.truth true)
  | n + 1 => roofed (.group (tower n))

section

variable {c : Connective} (operand : Derivation (.phrase c.operand)) (n : ℕ)

theorem tree_copies : (copies operand n).tree = List.replicate n operand.tree := by
  induction n with
  | zero => rfl
  | succ n ih => rw [copies, tree, ih, List.replicate_succ]

theorem depth_copies : (copies operand n).depth ≤ operand.depth := by
  induction n with
  | zero => exact Nat.zero_le _
  | succ n ih => exact Nat.max_le.2 ⟨Nat.le_refl _, ih⟩

theorem notMem_copies {operand : Derivation (.phrase c.operand)} {spelling : String}
    (h : .number spelling ∉ operand.tokens) : .number spelling ∉ (copies operand n).tokens := by
  induction n with
  | zero => exact List.not_mem_nil
  | succ n ih =>
    have htoken : Token.number spelling ≠ c.token false := by cases c <;> exact Token.noConfusion
    rw [copies, tokens, List.mem_cons, List.mem_append]
    exact not_or.2 ⟨htoken, not_or.2 ⟨h, ih⟩⟩

end

theorem tree_holds (c : Connective) : (holds c).tree = .truth true := by
  cases c <;> rfl

theorem depth_holds (c : Connective) : (holds c).depth = 0 := by
  cases c <;> rfl

theorem notMem_holds (c : Connective) (spelling : String) :
    .number spelling ∉ (holds c).tokens := by
  cases c <;> simp [holds, tokens]

theorem tree_row (c : Connective) (n : ℕ) :
    (row c n).tree = c.join (List.replicate (n + 2) (.truth true)) := by
  rw [row, tree, tree_copies, tree_holds]
  rfl

theorem depth_row (c : Connective) (n : ℕ) : (row c n).depth = 0 := by
  have hcopies := depth_copies (holds c) (n + 1)
  rw [depth_holds] at hcopies
  rw [row, depth, depth_holds]
  omega

theorem notMem_row (c : Connective) (n : ℕ) (spelling : String) :
    .number spelling ∉ (row c n).tokens := by
  have hfirst := notMem_holds c spelling
  rw [row, tokens, List.mem_append]
  exact not_or.2 ⟨hfirst, notMem_copies (n + 1) hfirst⟩

theorem tree_guard (c : Connective) (d : Derivation (.phrase (.chain c))) :
    (guard c d).tree = d.tree := by
  cases c <;> rfl

theorem depth_guard (c : Connective) (d : Derivation (.phrase (.chain c))) :
    (guard c d).depth = d.depth := by
  cases c
  · exact Nat.max_zero _
  · rfl

theorem tokens_guard (c : Connective) (d : Derivation (.phrase (.chain c))) :
    (guard c d).tokens = d.tokens := by
  cases c
  · exact List.append_nil _
  · rfl

theorem depth_roofed (operand : Derivation (.phrase .atom)) :
    (roofed operand).depth = operand.depth := by
  simp [roofed, depth, holds, copies]

theorem height_roofed (operand : Derivation (.phrase .atom)) :
    (roofed operand).tree.height = Expression.height operand.tree + 3 := by
  have hpos : 1 ≤ Expression.height operand.tree := one_le_height _
  simp only [roofed, tree, tree_copies, tree_holds, List.replicate_one, List.isEmpty_cons,
    Bool.false_eq_true, if_false, height_join, height, heights]
  omega

theorem depth_tower (n : ℕ) : (tower n).depth = n := by
  induction n with
  | zero => rfl
  | succ n ih => simp [tower, depth_roofed, depth, ih]

theorem notMem_tower (n : ℕ) (spelling : String) : .number spelling ∉ (tower n).tokens := by
  induction n with
  | zero => simp [tower, roofed, tokens, holds, copies, Connective.token]
  | succ n ih => simp [tower, roofed, tokens, holds, copies, Connective.token, ih]

theorem height_tower (n : ℕ) : (tower n).tree.height = 3 * n + 4 := by
  induction n with
  | zero => rfl
  | succ n ih =>
    rw [tower, height_roofed, tree, ih]
    omega

end Derivation

/-! ## What the nesting limit bounds -/

/-- **The nesting limit bounds recursion.** Whatever the length of a guard, at most 196 expressions
lie inside each other in its tree: three for each pair of parentheses and one for each negation
around a token, of which there are 64 together, and four for the token itself. So the tree is
evaluated with as many calls inside each other, and tokens are read with 325 of them. Trees as high
as that exist, and chains of any length in trees of height two. -/
theorem nesting_bounds_recursion :
    (∀ (text : Text) (e : Expression), Expression.parse text = .ok e →
      e.height ≤ 196 ∧ e.checked 196 = .ok e.value.raw ∧
        ∃ ts, tokenize text = .ok ts ∧ (ts = [] ∧ e = .truth true ∨
          ∃ d : Derivation (.phrase (.chain .either)),
            d.tokens = ts ∧ d.tree = e ∧ d.depth ≤ 64 ∧ e.height ≤ d.added + 4)) ∧
    (∀ ts, ofTokensWithin 325 ts = (ofTokens ts).mapError .fault) ∧
    (∃ text e, Expression.parse text = .ok e ∧ e.height = 196) ∧
    ∀ (c : Connective) (n : ℕ), ∃ text es, es.length = n + 2 ∧
      Expression.parse text = .ok (c.join es) ∧ (c.join es).height = 2 := by
  refine ⟨fun text e hparse => ?_, ofTokensWithin_eq (by decide), ?_, fun c n => ?_⟩
  · obtain ⟨ts, htext, hread⟩ := Outcome.bind_eq_ok.1 hparse
    have hheight : e.height ≤ 196 := height_of_ofTokens htext hread
    refine ⟨hheight, checked_eq hheight, ts, htext, ?_⟩
    obtain hempty | ⟨d, htokens, hdepth, rfl⟩ := exists_derivation htext hread
    · exact .inl hempty
    · exact .inr ⟨d, htokens, rfl, hdepth, d.height_le⟩
  · have hdepth : (Derivation.tower 64).depth ≤ maxNesting := (Derivation.depth_tower 64).le
    have hheight : (Derivation.tower 64).tree.height = 196 := Derivation.height_tower 64
    obtain ⟨text, hparse⟩ := exists_parse (Derivation.tower 64) hdepth (Derivation.notMem_tower 64)
    exact ⟨text, _, hparse, hheight⟩
  · let d := Derivation.guard c (Derivation.row c n)
    have hdepth : d.depth ≤ maxNesting := by
      rw [Derivation.depth_guard, Derivation.depth_row]
      exact Nat.zero_le _
    have hnumbers : ∀ spelling, .number spelling ∉ d.tokens := by
      intro spelling
      rw [Derivation.tokens_guard]
      exact Derivation.notMem_row c n spelling
    obtain ⟨text, hparse⟩ := exists_parse d hdepth hnumbers
    rw [Derivation.tree_guard, Derivation.tree_row] at hparse
    refine ⟨text, _, List.length_replicate, hparse, ?_⟩
    rw [height_join, heights_replicate]
    rfl

theorem nesting_bounds_recursion_sample :
    Expression.parse "not (1 < 2 or false) && true" = .ok sample.tree ∧
      sample.tree.height ≤ 196 ∧ sample.tree.checked 196 = .ok sample.tree.value.raw := by
  have htext : tokenize "not (1 < 2 or false) && true" = .ok sample.tokens := rfl
  have hparse := Outcome.bind_eq_ok.2 ⟨_, htext, ofTokens_tokens sample (by decide)⟩
  obtain ⟨hheight, hchecked, -⟩ := nesting_bounds_recursion.1 _ _ hparse
  exact ⟨hparse, hheight, hchecked⟩

end Guard

end RobotBlocks
