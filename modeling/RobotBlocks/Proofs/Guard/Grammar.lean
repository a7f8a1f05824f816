import Mathlib.Data.Nat.Notation
import RobotBlocks.Guard.Expression

/-!
# The grammar of guards

The grammar in the head of `Guard.Expression` as a type of derivations. A derivation of a phrase
spells a list of tokens (`Derivation.tokens`), stands for an expression (`Derivation.tree`) and has
a nesting depth (`Derivation.depth`); none of the three looks at how guards are read.

The two rules for chains, `and (or and)*` and `not (and not)*`, are one rule for each `Connective`,
and the repetition in it is a rule of its own, so a `Rule` is a phrase or the links of a chain.
`Phrase` and `Rule` are apart because a phrase stands for one expression and links for a list of
them.

* `Derivation.eq_of_append`: the grammar is unambiguous. One token behind a phrase decides whether
  the phrase could go on (`Phrase.Stops`), so that the lemma can speak of phrases inside a guard.
-/

namespace RobotBlocks

namespace Guard

/-- What ties the operands of a chain. -/
inductive Connective
  | both
  | either

/-- The parts of guards. -/
inductive Phrase
  /-- Operands that are tied by a connective, or a single one. -/
  | chain (c : Connective)
  | negation
  | comparison
  | atom

/-- What the grammar has a rule for. -/
inductive Rule
  | phrase (p : Phrase)
  /-- The operands of a chain behind the first one, each with the sign in front of it. -/
  | links (c : Connective)

namespace Connective

/-- What a chain ties: conjunctions are chains of negations, disjunctions chains of conjunctions. -/
def operand : Connective → Phrase
  | both => .negation
  | either => .chain .both

/-- The token of a connective, as a sign or as a word. -/
def token : Connective → (asSign : Bool) → Token
  | both => .both
  | either => .either

/-- The expression of two or more operands. -/
def join : Connective → List Expression → Expression
  | both => .all
  | either => .any

/-- Whether a token is one of the connective. -/
def ties : Connective → Token → Bool
  | both => Expression.isBoth
  | either => Expression.isEither

theorem ties_iff {c : Connective} {t : Token} : c.ties t = true ↔ ∃ asSign, t = c.token asSign := by
  cases c <;> cases t <;> simp [ties, token, Expression.isBoth, Expression.isEither]

theorem ties_token (c : Connective) (asSign : Bool) : c.ties (c.token asSign) = true :=
  ties_iff.2 ⟨asSign, rfl⟩

theorem token_injective (c : Connective) : Function.Injective c.token := by
  intro asSign asSign' h
  cases c <;> simpa [token] using h

end Connective

/-- A derivation from a rule of the grammar. -/
inductive Derivation : Rule → Type
  /-- `and ((or | ||) and)*` and `not ((and | &&) not)*` -/
  | chain {c : Connective} (first : Derivation (.phrase c.operand))
    (others : Derivation (.links c)) : Derivation (.phrase (.chain c))
  | done {c : Connective} : Derivation (.links c)
  | link {c : Connective} (asSign : Bool) (operand : Derivation (.phrase c.operand))
    (others : Derivation (.links c)) : Derivation (.links c)
  /-- `(not | !) not` -/
  | negate (asSign : Bool) (operand : Derivation (.phrase .negation)) :
    Derivation (.phrase .negation)
  | plain (operand : Derivation (.phrase .comparison)) : Derivation (.phrase .negation)
  /-- `atom op atom` -/
  | compare (left : Derivation (.phrase .atom)) (comparison : Comparison)
    (right : Derivation (.phrase .atom)) : Derivation (.phrase .comparison)
  | single (operand : Derivation (.phrase .atom)) : Derivation (.phrase .comparison)
  | truth (value : Bool) : Derivation (.phrase .atom)
  | number (spelling : String) (value : Float) (h : Float.ofText? spelling = some value) :
    Derivation (.phrase .atom)
  /-- `( or )` -/
  | group (inner : Derivation (.phrase (.chain .either))) : Derivation (.phrase .atom)

/-- What a derivation from a rule stands for. -/
abbrev Rule.Meaning : Rule → Type
  | .phrase _ => Expression
  | .links _ => List Expression

namespace Derivation

/-- The tokens that a derivation spells. -/
def tokens : {r : Rule} → Derivation r → List Token
  | _, chain first others => first.tokens ++ others.tokens
  | _, done => []
  | _, link (c := c) asSign operand others => c.token asSign :: (operand.tokens ++ others.tokens)
  | _, negate asSign operand => .negate asSign :: operand.tokens
  | _, plain operand => operand.tokens
  | _, compare left comparison right => left.tokens ++ .compare comparison :: right.tokens
  | _, single operand => operand.tokens
  | _, truth value => [.truth value]
  | _, number spelling _ _ => [.number spelling]
  | _, group inner => .opening :: (inner.tokens ++ [.closing])

/-- The most negations and parentheses that enclose one of the tokens. -/
def depth : {r : Rule} → Derivation r → ℕ
  | _, chain first others => max first.depth others.depth
  | _, done => 0
  | _, link _ operand others => max operand.depth others.depth
  | _, negate _ operand => operand.depth + 1
  | _, plain operand => operand.depth
  | _, compare left _ right => max left.depth right.depth
  | _, single operand => operand.depth
  | _, truth _ => 0
  | _, number _ _ _ => 0
  | _, group inner => inner.depth + 1

/-- The expression that a derivation stands for: a single operand is itself, and two or more are
joined on one level. -/
def tree : {r : Rule} → Derivation r → r.Meaning
  | _, chain (c := c) first others =>
    if List.isEmpty others.tree then first.tree else c.join (first.tree :: others.tree)
  | _, done => []
  | _, link _ operand others => List.cons operand.tree others.tree
  | _, negate _ operand => Expression.negate operand.tree
  | _, plain operand => operand.tree
  | _, compare left comparison right => Expression.compare comparison left.tree right.tree
  | _, single operand => operand.tree
  | _, truth value => Expression.truth value
  | _, number _ value _ => Expression.number value
  | _, group inner => inner.tree

end Derivation

/-! ## What may follow -/

/-- Whether the token compares the operands around it. -/
def Token.compares : Token → Bool
  | compare _ => true
  | _ => false

namespace Phrase

/-- Whether a phrase goes on with the token if it can. -/
def goesOn : Phrase → Token → Bool
  | atom, _ => false
  | comparison, t | negation, t => t.compares
  | chain .both, t => t.compares || Expression.isBoth t
  | chain .either, t => t.compares || Expression.isBoth t || Expression.isEither t

/-- The tokens begin with none with which the phrase would go on. -/
def Stops (p : Phrase) (rest : List Token) : Prop := ∀ t ∈ rest.head?, p.goesOn t = false

theorem stops_nil (p : Phrase) : p.Stops [] := by simp [Stops]

theorem stops_atom (rest : List Token) : atom.Stops rest := fun _ _ => rfl

theorem stops_cons {p : Phrase} {t : Token} {rest : List Token} :
    p.Stops (t :: rest) ↔ p.goesOn t = false := by
  simp [Stops]

/-- A chain goes on with what its operands go on with, and with its connective. -/
theorem goesOn_chain (c : Connective) (t : Token) :
    (chain c).goesOn t = (c.operand.goesOn t || c.ties t) := by
  cases c <;> rfl

/-- Operands do not go on with the connective that ties them. -/
theorem goesOn_token (c : Connective) (asSign : Bool) : c.operand.goesOn (c.token asSign) = false := by
  cases c <;> rfl

theorem Stops.operand {c : Connective} {rest : List Token} (h : (chain c).Stops rest) :
    c.operand.Stops rest := by
  intro t ht
  have := h t ht
  rw [goesOn_chain, Bool.or_eq_false_iff] at this
  exact this.1

/-- A chain that has stopped is not tied to more. -/
theorem Stops.not_ties {c : Connective} {t : Token} {rest : List Token}
    (h : (chain c).Stops (t :: rest)) : c.ties t = false := by
  rw [stops_cons, goesOn_chain, Bool.or_eq_false_iff] at h
  exact h.2

theorem stops_closing (rest : List Token) : (chain .either).Stops (.closing :: rest) :=
  stops_cons.2 rfl

end Phrase

namespace Derivation

/-- An operand of a chain stops where the next one is tied to it, and where the chain does. -/
theorem stops_links {c : Connective} (others : Derivation (.links c)) {rest : List Token}
    (h : (Phrase.chain c).Stops rest) : c.operand.Stops (others.tokens ++ rest) := by
  cases others with
  | done => exact h.operand
  | link asSign operand others => exact Phrase.stops_cons.2 (Phrase.goesOn_token c asSign)

/-- No atom begins with a negation. -/
theorem tokens_atom_ne (d : Derivation (.phrase .atom)) (asSign : Bool) (ts rest : List Token) :
    d.tokens ++ rest ≠ .negate asSign :: ts := by
  cases d <;> simp [tokens]

/-- No comparison begins with a negation. -/
theorem tokens_comparison_ne (d : Derivation (.phrase .comparison)) (asSign : Bool)
    (ts rest : List Token) : d.tokens ++ rest ≠ .negate asSign :: ts := by
  cases d with
  | compare left comparison right =>
    simp only [tokens, List.append_assoc]
    exact left.tokens_atom_ne asSign ts _
  | single operand => exact operand.tokens_atom_ne asSign ts rest

end Derivation

/-- The tokens begin with none with which a phrase or the links of a chain would go on. -/
def Rule.Stops : Rule → List Token → Prop
  | .phrase p => p.Stops
  | .links c => (Phrase.chain c).Stops

/-- **Unambiguity.** Two derivations from one rule that spell the front of the same tokens, up to
where neither could go on, are the same. -/
theorem Derivation.eq_of_append {r : Rule} (d d' : Derivation r) {rest rest' : List Token}
    (hrest : r.Stops rest) (hrest' : r.Stops rest') (h : d.tokens ++ rest = d'.tokens ++ rest') :
    d = d' ∧ rest = rest' := by
  induction d generalizing rest rest' with
  | chain first others ihfirst ihothers =>
    cases d' with
    | chain first' others' =>
      simp only [tokens, List.append_assoc] at h
      obtain ⟨rfl, hbehind⟩ :=
        ihfirst first' (others.stops_links hrest) (others'.stops_links hrest') h
      obtain ⟨rfl, rfl⟩ := ihothers others' hrest hrest' hbehind
      exact ⟨rfl, rfl⟩
  | @done c =>
    cases d' with
    | done => exact ⟨rfl, h⟩
    | link asSign operand others =>
      subst h
      exact absurd hrest.not_ties (by simp [Connective.ties_token])
  | @link c asSign operand others ihoperand ihothers =>
    cases d' with
    | done =>
      subst h
      exact absurd hrest'.not_ties (by simp [Connective.ties_token])
    | link asSign' operand' others' =>
      simp only [tokens, List.cons_append, List.append_assoc, List.cons.injEq] at h
      obtain ⟨hsign, h⟩ := h
      obtain rfl := Connective.token_injective c hsign
      obtain ⟨rfl, hbehind⟩ :=
        ihoperand operand' (others.stops_links hrest) (others'.stops_links hrest') h
      obtain ⟨rfl, rfl⟩ := ihothers others' hrest hrest' hbehind
      exact ⟨rfl, rfl⟩
  | negate asSign operand ih =>
    cases d' with
    | negate asSign' operand' =>
      simp only [tokens, List.cons_append, List.cons.injEq, Token.negate.injEq] at h
      obtain ⟨rfl, h⟩ := h
      obtain ⟨rfl, rfl⟩ := ih operand' hrest hrest' h
      exact ⟨rfl, rfl⟩
    | plain operand' => exact absurd h.symm (operand'.tokens_comparison_ne asSign _ rest')
  | plain operand ih =>
    cases d' with
    | negate asSign' operand' => exact absurd h (operand.tokens_comparison_ne asSign' _ rest)
    | plain operand' =>
      obtain ⟨rfl, rfl⟩ := ih operand' hrest hrest' h
      exact ⟨rfl, rfl⟩
  | compare left comparison right ihleft ihright =>
    cases d' with
    | compare left' comparison' right' =>
      simp only [tokens, List.append_assoc] at h
      obtain ⟨rfl, hbehind⟩ := ihleft left' (Phrase.stops_atom _) (Phrase.stops_atom _) h
      simp only [List.cons_append, List.cons.injEq, Token.compare.injEq] at hbehind
      obtain ⟨rfl, hbehind⟩ := hbehind
      obtain ⟨rfl, rfl⟩ := ihright right' (Phrase.stops_atom _) (Phrase.stops_atom _) hbehind
      exact ⟨rfl, rfl⟩
    | single operand' =>
      simp only [tokens, List.append_assoc] at h
      obtain ⟨rfl, rfl⟩ := ihleft operand' (Phrase.stops_atom _) (Phrase.stops_atom _) h
      exact absurd (Phrase.stops_cons.1 hrest') (by simp [Phrase.goesOn, Token.compares])
  | single operand ih =>
    cases d' with
    | compare left' comparison' right' =>
      simp only [tokens, List.append_assoc] at h
      obtain ⟨rfl, rfl⟩ := ih left' (Phrase.stops_atom _) (Phrase.stops_atom _) h
      exact absurd (Phrase.stops_cons.1 hrest) (by simp [Phrase.goesOn, Token.compares])
    | single operand' =>
      obtain ⟨rfl, rfl⟩ := ih operand' (Phrase.stops_atom _) (Phrase.stops_atom _) h
      exact ⟨rfl, rfl⟩
  | truth value =>
    cases d' with
    | truth value' =>
      simp only [tokens, List.singleton_append, List.cons.injEq, Token.truth.injEq] at h
      obtain ⟨rfl, rfl⟩ := h
      exact ⟨rfl, rfl⟩
    | number => simp [tokens] at h
    | group => simp [tokens] at h
  | number spelling value hvalue =>
    cases d' with
    | number spelling' value' hvalue' =>
      simp only [tokens, List.singleton_append, List.cons.injEq, Token.number.injEq] at h
      obtain ⟨rfl, rfl⟩ := h
      obtain rfl : value = value' := Option.some.inj (hvalue.symm.trans hvalue')
      exact ⟨rfl, rfl⟩
    | truth => simp [tokens] at h
    | group => simp [tokens] at h
  | group inner ih =>
    cases d' with
    | group inner' =>
      simp only [tokens, List.cons_append, List.append_assoc, List.cons.injEq, true_and] at h
      obtain ⟨rfl, hbehind⟩ := ih inner' (Phrase.stops_closing rest) (Phrase.stops_closing rest') h
      exact ⟨rfl, (List.cons.inj hbehind).2⟩
    | truth => simp [tokens] at h
    | number => simp [tokens] at h

end Guard

end RobotBlocks
