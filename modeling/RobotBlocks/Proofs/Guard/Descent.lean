import RobotBlocks.Proofs.Guard.Grammar
import RobotBlocks.Proofs.Guard.Spelling

/-!
# Guards are read by their grammar

Every function by which `Expression.ofTokens` descends takes phrases of the grammar off the front of
the tokens, with the tree of the derivation, and finds each of them if its nesting is allowed and
its tokens are not too many for the fuel (`Recognizes`). One lemma for each function says so, given
the same of the functions it calls; the limit on nesting is spent by `recognizes_negation` and
`recognizes_atom` alone.

* `Expression.ofTokens_eq_ok_iff`: the tokens of a text form an expression if and only if they have
  a derivation in which at most 64 negations and parentheses enclose a token, and the expression is
  the tree of the derivation, of which there is one.
-/

namespace RobotBlocks

namespace Guard

namespace Expression

open Outcome

variable {fuel levels : ℕ} {ts rest : List Token} {e : Expression}

/-- All numbers among the tokens have a value. -/
def Valued (ts : List Token) : Prop :=
  ∀ spelling : String, .number spelling ∈ ts → (Float.ofText? spelling).isSome = true

theorem Valued.append {front behind : List Token} (h : Valued (front ++ behind)) : Valued behind :=
  fun spelling hmem => h spelling (List.mem_append_right front hmem)

theorem Valued.cons {t : Token} (h : Valued (t :: ts)) : Valued ts :=
  fun spelling hmem => h spelling (List.mem_cons_of_mem t hmem)

/-- The function takes phrases off the front of tokens: what it takes has a derivation with at most
so many levels, and it takes every phrase that has one and at most `fuel` tokens. -/
structure Recognizes (p : Phrase) (fuel levels : ℕ) (read : Reader) : Prop where
  sound : ∀ {ts rest e}, Valued ts → read ts = .ok (e, rest) →
    ∃ d : Derivation (.phrase p), d.tokens ++ rest = ts ∧ d.depth ≤ levels ∧ d.tree = e
  complete : ∀ (d : Derivation (.phrase p)) {rest}, d.depth ≤ levels → d.tokens.length ≤ fuel →
    p.Stops rest → read (d.tokens ++ rest) = .ok (d.tree, rest)

/-! ## Chains -/

section Chain

variable {c : Connective} {operand : Reader}

theorem sound_chain (h : Recognizes c.operand fuel levels operand) {n : ℕ} {es : List Expression}
    (hts : Valued ts) (hread : chain operand c.ties n ts = .ok (es, rest)) :
    ∃ d : Derivation (.links c), d.tokens ++ rest = ts ∧ d.depth ≤ levels ∧ d.tree = es := by
  fun_induction chain operand c.ties n ts generalizing es with
  | case1 n t behind hties ih =>
    obtain ⟨⟨first, afterFirst⟩, hfirst, hread⟩ := bind_eq_ok.1 hread
    obtain ⟨⟨others, afterOthers⟩, hothers, hread⟩ := bind_eq_ok.1 hread
    cases hread
    obtain ⟨asSign, rfl⟩ := Connective.ties_iff.1 hties
    obtain ⟨d, rfl, hdepth, rfl⟩ := h.sound hts.cons hfirst
    obtain ⟨ds, rfl, hdepths, rfl⟩ := ih _ hts.cons.append hothers
    exact ⟨.link asSign d ds, by simp [Derivation.tokens], Nat.max_le.2 ⟨hdepth, hdepths⟩, rfl⟩
  | case2 n t behind hties =>
    cases hread
    exact ⟨.done, rfl, Nat.zero_le _, rfl⟩
  | case3 =>
    cases hread
    exact ⟨.done, rfl, Nat.zero_le _, rfl⟩

theorem complete_chain (h : Recognizes c.operand fuel levels operand) {n : ℕ}
    (d : Derivation (.links c)) (hdepth : d.depth ≤ levels) (hfuel : d.tokens.length ≤ fuel)
    (hn : d.tokens.length ≤ n) (hrest : (Phrase.chain c).Stops rest) :
    chain operand c.ties n (d.tokens ++ rest) = .ok (d.tree, rest) := by
  induction n generalizing d with
  | zero =>
    cases d with
    | done => rfl
    | link => simp [Derivation.tokens] at hn
  | succ n ih =>
    cases d with
    | done =>
      cases rest with
      | nil => rfl
      | cons t rest => simp [Derivation.tokens, Derivation.tree, chain, hrest.not_ties]
    | link asSign first others =>
      simp only [Derivation.depth, Nat.max_le] at hdepth
      simp only [Derivation.tokens, List.length_cons, List.length_append] at hfuel hn
      have hfirst := h.complete first hdepth.1 (by omega) (others.stops_links hrest)
      have hothers := ih others hdepth.2 (by omega) (by omega)
      simp only [Derivation.tokens, List.cons_append, List.append_assoc, chain,
        Connective.ties_token, if_true]
      refine bind_eq_ok.2 ⟨_, hfirst, bind_eq_ok.2 ⟨_, hothers, rfl⟩⟩

/-- Chains of what is recognized are recognized. -/
theorem recognizes_chained (h : Recognizes c.operand fuel levels operand) :
    Recognizes (.chain c) fuel levels (chained fuel operand c.ties c.join) where
  sound hts hread := by
    obtain ⟨⟨first, afterFirst⟩, hfirst, hread⟩ := bind_eq_ok.1 hread
    obtain ⟨⟨others, afterOthers⟩, hothers, hread⟩ := bind_eq_ok.1 hread
    cases hread
    obtain ⟨d, rfl, hdepth, rfl⟩ := h.sound hts hfirst
    obtain ⟨ds, rfl, hdepths, rfl⟩ := sound_chain h hts.append hothers
    exact ⟨.chain d ds, by simp [Derivation.tokens], Nat.max_le.2 ⟨hdepth, hdepths⟩, rfl⟩
  complete d {rest} hdepth hfuel hrest := by
    cases d with
    | chain first others =>
      simp only [Derivation.depth, Nat.max_le] at hdepth
      simp only [Derivation.tokens, List.length_append] at hfuel
      have hfirst := h.complete first hdepth.1 (by omega) (others.stops_links hrest)
      have hothers := complete_chain h others (n := fuel) hdepth.2 (by omega) (by omega) hrest
      simp only [Derivation.tokens, List.append_assoc]
      exact bind_eq_ok.2 ⟨_, hfirst, bind_eq_ok.2 ⟨_, hothers, rfl⟩⟩

end Chain

/-- Disjunctions of conjunctions are chains of chains. -/
theorem recognizes_disjunction {operand : Reader} (h : Recognizes .negation fuel levels operand) :
    Recognizes (.chain .either) fuel levels (disjunction fuel operand) :=
  recognizes_chained (c := .either) (recognizes_chained (c := .both) h)

/-! ## Operands -/

/-- An atom has the levels of what stands between parentheses and one more; without levels there are
no parentheses. -/
theorem recognizes_atom {inner : Option Reader}
    (hnone : inner = none → levels = 0)
    (hsome : ∀ read, inner = some read →
      ∃ l, levels = l + 1 ∧ Recognizes (.chain .either) fuel l read) :
    Recognizes .atom fuel levels (atom inner) where
  sound {ts rest e} hts hread := by
    unfold atom at hread
    split at hread
    · cases hread
    · rename_i spelling behind
      obtain ⟨value, hvalue⟩ := Option.isSome_iff_exists.1 (hts spelling (by simp))
      cases hread
      exact ⟨.number spelling value hvalue, rfl, Nat.zero_le _, by simp [Derivation.tree, hvalue]⟩
    · rename_i value behind
      cases hread
      exact ⟨.truth value, rfl, Nat.zero_le _, rfl⟩
    · split at hread
      · cases hread
      · rename_i read
        obtain ⟨l, rfl, hinner⟩ := hsome read rfl
        obtain ⟨⟨e', afterInner⟩, hread', hread⟩ := bind_eq_ok.1 hread
        obtain ⟨d, rfl, hdepth, rfl⟩ := hinner.sound hts.cons hread'
        dsimp only at hread
        split at hread
        · cases hread
          exact ⟨.group d, by simp [Derivation.tokens], Nat.succ_le_succ hdepth, rfl⟩
        · cases hread
    · cases hread
  complete d {rest} hdepth hfuel hrest := by
    cases d with
    | truth value => rfl
    | number spelling value hvalue => simp [Derivation.tokens, Derivation.tree, atom, hvalue]
    | group d =>
      simp only [Derivation.depth] at hdepth
      simp only [Derivation.tokens, List.length_cons, List.length_append] at hfuel
      cases inner with
      | none =>
        have := hnone rfl
        omega
      | some read =>
        obtain ⟨l, rfl, hinner⟩ := hsome read rfl
        have hread := hinner.complete d (Nat.le_of_succ_le_succ hdepth) (by omega)
          (Phrase.stops_closing rest)
        simp only [Derivation.tokens, List.cons_append, List.append_assoc, List.nil_append, atom]
        exact bind_eq_ok.2 ⟨_, hread, rfl⟩

theorem recognizes_comparison {operand : Reader} (h : Recognizes .atom fuel levels operand) :
    Recognizes .comparison fuel levels (comparison operand) where
  sound hts hread := by
    obtain ⟨⟨left, behind⟩, hleft, hread⟩ := bind_eq_ok.1 hread
    obtain ⟨d, rfl, hdepth, rfl⟩ := h.sound hts hleft
    dsimp only at hread
    split at hread
    · rename_i c _ _
      obtain ⟨⟨right, behind⟩, hright, hread⟩ := bind_eq_ok.1 hread
      cases hread
      obtain ⟨d', rfl, hdepth', rfl⟩ := h.sound hts.append.cons hright
      exact ⟨.compare d c d', by simp [Derivation.tokens], Nat.max_le.2 ⟨hdepth, hdepth'⟩, rfl⟩
    · cases hread
      exact ⟨.single d, rfl, hdepth, rfl⟩
  complete d {rest} hdepth hfuel hrest := by
    cases d with
    | compare left comparison right =>
      simp only [Derivation.depth, Nat.max_le] at hdepth
      simp only [Derivation.tokens, List.length_append, List.length_cons] at hfuel
      have hleft := h.complete left hdepth.1 (by omega)
        (Phrase.stops_atom (.compare comparison :: (right.tokens ++ rest)))
      have hright := h.complete right hdepth.2 (by omega) (Phrase.stops_atom rest)
      simp only [Derivation.tokens, List.append_assoc, List.cons_append]
      exact bind_eq_ok.2 ⟨_, hleft, bind_eq_ok.2 ⟨_, hright, rfl⟩⟩
    | single operand =>
      have hread := h.complete operand hdepth hfuel (Phrase.stops_atom rest)
      refine bind_eq_ok.2 ⟨_, hread, ?_⟩
      dsimp only
      split
      · exact absurd (Phrase.stops_cons.1 hrest) (by simp [Phrase.goesOn, Token.compares])
      · rfl

/-! ## Levels -/

/-- What reads between parentheses with so many levels left. -/
def inner (fuel : ℕ) : (levels : ℕ) → Option Reader
  | 0 => none
  | levels + 1 => some (disjunction fuel (negation fuel levels))

/-- What is no negation is left to comparisons. -/
theorem negation_of_ne (hts : ∀ asSign behind, ts ≠ .negate asSign :: behind) :
    negation fuel levels ts = comparison (atom (inner fuel levels)) ts := by
  cases levels <;>
  · unfold negation
    split
    · exact absurd rfl (hts _ _)
    · rfl

/-- A negation, and parentheses, leave one level less for what they enclose. -/
theorem recognizes_negation_of_below
    (hbelow : ∀ l, levels = l + 1 → Recognizes .negation fuel l (negation fuel l)) :
    Recognizes .negation fuel levels (negation fuel levels) := by
  have hplain : Recognizes .comparison fuel levels (comparison (atom (inner fuel levels))) := by
    refine recognizes_comparison (recognizes_atom ?_ ?_)
    · intro hnone
      cases levels with
      | zero => rfl
      | succ l => cases hnone
    · intro read hread
      cases levels with
      | zero => cases hread
      | succ l =>
        cases hread
        exact ⟨l, rfl, recognizes_disjunction (hbelow l rfl)⟩
  constructor
  · intro ts rest e hts hread
    by_cases hnegate : ∃ asSign behind, ts = .negate asSign :: behind
    · obtain ⟨asSign, behind, rfl⟩ := hnegate
      cases levels with
      | zero => cases hread
      | succ l =>
        obtain ⟨⟨e', afterOperand⟩, hoperand, hread⟩ := bind_eq_ok.1 hread
        cases hread
        obtain ⟨d, rfl, hdepth, rfl⟩ := (hbelow l rfl).sound hts.cons hoperand
        exact ⟨.negate asSign d, rfl, Nat.succ_le_succ hdepth, rfl⟩
    · rw [negation_of_ne fun asSign behind h => hnegate ⟨asSign, behind, h⟩] at hread
      obtain ⟨d, htokens, hdepth, htree⟩ := hplain.sound hts hread
      exact ⟨.plain d, htokens, hdepth, htree⟩
  · intro d rest hdepth hfuel hrest
    cases d with
    | negate asSign operand =>
      simp only [Derivation.depth] at hdepth
      simp only [Derivation.tokens, List.length_cons] at hfuel
      cases levels with
      | zero => omega
      | succ l =>
        have hoperand := (hbelow l rfl).complete operand (Nat.le_of_succ_le_succ hdepth) (by omega)
          hrest
        exact bind_eq_ok.2 ⟨_, hoperand, rfl⟩
    | plain operand =>
      exact (negation_of_ne fun asSign ts => operand.tokens_comparison_ne asSign ts rest).trans
        (hplain.complete operand hdepth hfuel hrest)

theorem recognizes_negation (fuel levels : ℕ) :
    Recognizes .negation fuel levels (negation fuel levels) := by
  induction levels with
  | zero => exact recognizes_negation_of_below fun l h => nomatch h
  | succ levels ih =>
    refine recognizes_negation_of_below fun l h => ?_
    cases h
    exact ih

/-! ## Guards -/

/-- **Guards are read by their grammar.** The tokens of a text form an expression if and only if
they have a derivation in which no token is enclosed by more than 64 negations and parentheses; the
expression is the tree of the derivation, and the derivation is the only one of the tokens. -/
theorem ofTokens_eq_ok_iff {text : Text} {ts : List Token} (htext : tokenize text = .ok ts)
    (hne : ts ≠ []) :
    (∀ e, ofTokens ts = .ok e ↔
      ∃ d : Derivation (.phrase (.chain .either)), d.tokens = ts ∧ d.depth ≤ 64 ∧ d.tree = e) ∧
    ∀ d d' : Derivation (.phrase (.chain .either)), d.tokens = ts → d'.tokens = ts → d = d' := by
  have hguard := recognizes_disjunction (recognizes_negation ts.length maxNesting)
  have hvalued : Valued ts := fun spelling => isSome_ofText?_of_tokenize htext
  refine ⟨fun e => ⟨fun hread => ?_, ?_⟩, ?_⟩
  · rw [ofTokens, if_neg (by simpa using hne)] at hread
    obtain ⟨⟨e', rest⟩, hread', hread⟩ := bind_eq_ok.1 hread
    obtain ⟨d, htokens, hdepth, rfl⟩ := hguard.sound hvalued hread'
    cases rest with
    | nil =>
      cases hread
      exact ⟨d, by simpa using htokens, hdepth, rfl⟩
    | cons t rest => cases hread
  · rintro ⟨d, rfl, hdepth, rfl⟩
    have hread := hguard.complete d hdepth (Nat.le_refl _) (Phrase.stops_nil _)
    rw [List.append_nil] at hread
    rw [ofTokens, if_neg (by simpa using hne)]
    exact bind_eq_ok.2 ⟨_, hread, rfl⟩
  · rintro d d' rfl htokens
    exact (d.eq_of_append d' (Phrase.stops_nil _) (Phrase.stops_nil _) (by rw [htokens])).1

/-- The derivation of `not (1 < 2 or false) && true`. -/
def sample : Derivation (.phrase (.chain .either)) :=
  let comparison := Derivation.compare (.number "1" 1.0 rfl) .lt (.number "2" 2.0 rfl)
  let disjunction := Derivation.chain (c := .either) (.chain (c := .both) (.plain comparison) .done)
    (.link false (.chain (c := .both) (.plain (.single (.truth false))) .done) .done)
  .chain (c := .either) (.chain (c := .both)
    (.negate false (.plain (.single (.group disjunction))))
    (.link true (.plain (.single (.truth true))) .done)) .done

theorem ofTokens_eq_ok_iff_sample :
    tokenize "not (1 < 2 or false) && true" = .ok sample.tokens ∧
      ofTokens sample.tokens =
        .ok (.all [.negate (.any [.compare .lt (.number 1.0) (.number 2.0), .truth false]),
          .truth true]) := by
  have htext : tokenize "not (1 < 2 or false) && true" = .ok sample.tokens := rfl
  have hne : sample.tokens ≠ [] := List.cons_ne_nil _ _
  exact ⟨htext, ((ofTokens_eq_ok_iff htext hne).1 _).2 ⟨sample, rfl, by decide, rfl⟩⟩

end Expression

end Guard

end RobotBlocks
