import RobotBlocks.Proofs.Guard.Descent

/-!
# The descent as routines with a counter

`Expression.ofTokens` hands the levels of nesting that are left down its descent. Here the same
descent is made by routines that share a `Cursor`: the tokens that are left, and a count of the
negations and parentheses that are open. The count is raised and lowered in two places, the
routines of negations and of atoms, and no routine knows how deep it has been called. `routine`
allows so many calls inside each other and goes wrong where that is not enough.

* `agrees_negation`: if the calls last for the levels that are left, a routine does what the reader
  of its phrase does, and leaves the count as it found it;
* `ofTokensWithin_eq`: five calls for each level that there may be, and five more, are enough for
  any tokens.
-/

namespace RobotBlocks

namespace Guard

open Expression

/-! ## The descent with a count of open levels -/

/-- Where a descent is: the tokens that are left, and how many negations and parentheses are
open. -/
structure Cursor where
  tokens : List Token
  opened : ℕ

/-- Why a descent ends without an expression. -/
inductive Halt
  | fault (fault : Fault)
  /-- More calls would lie inside each other than are allowed. -/
  | calls

/-- A routine of the descent. -/
abbrev Routine := Cursor → Except Halt (Expression × Cursor)

namespace Cursor

/-- Opens a negation or a parenthesis. -/
def enter (s : Cursor) : Except Halt Cursor :=
  if maxNesting < s.opened + 1 then .error (.fault .nesting) else .ok ⟨s.tokens, s.opened + 1⟩

/-- Closes the negation or parenthesis that was opened last. -/
def leave (s : Cursor) : Cursor := ⟨s.tokens, s.opened - 1⟩

end Cursor

/-- The operands that connectives tie to the one before, read in a loop by the same routine. -/
def links (operand : Routine) (c : Connective) :
    (fuel : ℕ) → Cursor → Except Halt (List Expression × Cursor)
  | fuel + 1, ⟨t :: rest, opened⟩ =>
    if c.ties t then do
      let (first, s) ← operand ⟨rest, opened⟩
      let (others, s) ← links operand c fuel s
      return (first :: others, s)
    else .ok ([], ⟨t :: rest, opened⟩)
  | _, s => .ok ([], s)

/-- The routine of a phrase, with so many calls inside each other, its own among them. `fuel` limits
the loops only. -/
def routine (fuel : ℕ) : (calls : ℕ) → Phrase → Routine
  | 0, _, _ => .error .calls
  | calls + 1, .chain c, s => do
    let (first, s) ← routine fuel calls c.operand s
    let (others, s) ← links (routine fuel calls c.operand) c fuel s
    return (if others.isEmpty then first else c.join (first :: others), s)
  | calls + 1, .negation, ⟨.negate _ :: rest, opened⟩ => do
    let s ← Cursor.enter ⟨rest, opened⟩
    let (e, s) ← routine fuel calls .negation s
    return (.negate e, s.leave)
  | calls + 1, .negation, s => routine fuel calls .comparison s
  | calls + 1, .comparison, s => do
    let (left, s) ← routine fuel calls .atom s
    match s with
    | ⟨.compare c :: rest, opened⟩ =>
      let (right, s) ← routine fuel calls .atom ⟨rest, opened⟩
      return (.compare c left right, s)
    | s => return (left, s)
  | calls + 1, .atom, ⟨ts, opened⟩ =>
    match ts with
    | [] => .error (.fault .ending)
    | .number spelling :: rest =>
      .ok (.number ((Float.ofText? spelling).getD 0.0), ⟨rest, opened⟩)
    | .truth value :: rest => .ok (.truth value, ⟨rest, opened⟩)
    | .opening :: rest => do
      let s ← Cursor.enter ⟨rest, opened⟩
      let (e, s) ← routine fuel calls (.chain .either) s
      match s.leave with
      | ⟨.closing :: rest, opened⟩ => return (e, ⟨rest, opened⟩)
      | _ => .error (.fault .unclosed)
    | t :: _ => .error (.fault (.token t.text))

/-- The expression that all of the tokens form, found with so many calls inside each other. -/
def ofTokensWithin (calls : ℕ) (ts : List Token) : Except Halt Expression :=
  if ts.isEmpty then .ok (.truth true)
  else do
    let (e, s) ← routine ts.length calls (.chain .either) ⟨ts, 0⟩
    match s.tokens with
    | [] => return e
    | t :: _ => .error (.fault (.token t.text))

/-! ## The count agrees with the levels -/

section

variable {α : Type} {fuel levels opened calls : ℕ}

/-- What a reader has found, with so many levels open before and after it. -/
def counted (opened : ℕ) : Except Fault (α × List Token) → Except Halt (α × Cursor)
  | .ok (a, rest) => .ok (a, ⟨rest, opened⟩)
  | .error fault => .error (.fault fault)

/-- The routine finds what the reader finds, and the count is as before when it returns. -/
def Agrees (opened : ℕ) (read : Reader) (run : Routine) : Prop :=
  ∀ ts, run ⟨ts, opened⟩ = counted opened (read ts)

theorem counted_bind {β : Type} {n : ℕ} {x : Except Fault (α × List Token)}
    {find : α × List Token → Except Fault (β × List Token)}
    {run : α × Cursor → Except Halt (β × Cursor)}
    (h : ∀ a rest, run (a, ⟨rest, n⟩) = counted opened (find (a, rest))) :
    (counted n x >>= run) = counted opened (x >>= find) := by
  rcases x with fault | ⟨a, rest⟩
  · rfl
  · exact h a rest

theorem enter_eq_ok (h : opened < maxNesting) (ts : List Token) :
    Cursor.enter ⟨ts, opened⟩ = .ok ⟨ts, opened + 1⟩ :=
  if_neg (Nat.not_lt.2 h)

theorem enter_eq_error (h : maxNesting ≤ opened) (ts : List Token) :
    Cursor.enter ⟨ts, opened⟩ = .error (.fault .nesting) :=
  if_pos (Nat.lt_succ_of_le h)

/-- Operands are read in a loop: their number takes no calls. -/
theorem links_eq {c : Connective} {operand : Reader} {run : Routine} (h : Agrees opened operand run)
    (n : ℕ) (ts : List Token) :
    links run c n ⟨ts, opened⟩ = counted opened (chain operand c.ties n ts) := by
  fun_induction chain operand c.ties n ts with
  | case1 n t behind hties ih =>
    rw [links, if_pos hties, h behind]
    refine counted_bind fun first rest => ?_
    dsimp only
    rw [ih rest]
    exact counted_bind fun others rest => rfl
  | case2 n t behind hties =>
    rw [links, if_neg hties]
    rfl
  | case3 n ts hts =>
    rcases n with _ | n
    · rfl
    · rcases ts with _ | ⟨t, behind⟩
      · rfl
      · exact absurd rfl (hts n t behind rfl)

theorem agrees_chain {c : Connective} {operand : Reader}
    (h : Agrees opened operand (routine fuel calls c.operand)) :
    Agrees opened (chained fuel operand c.ties c.join) (routine fuel (calls + 1) (.chain c)) := by
  intro ts
  rw [routine, h ts]
  refine counted_bind fun first rest => ?_
  dsimp only
  rw [links_eq h]
  exact counted_bind fun others rest => rfl

theorem agrees_disjunction {operand : Reader}
    (h : Agrees opened operand (routine fuel calls .negation)) :
    Agrees opened (disjunction fuel operand) (routine fuel (calls + 2) (.chain .either)) :=
  agrees_chain (c := .either) (agrees_chain (c := .both) h)

/-- Parentheses raise the count for what is inside them. -/
theorem agrees_atom (hlevels : opened + levels = maxNesting)
    (hinner : ∀ l, levels = l + 1 → Agrees (opened + 1) (disjunction fuel (negation fuel l))
      (routine fuel calls (.chain .either))) :
    Agrees opened (atom (inner fuel levels)) (routine fuel (calls + 1) .atom) := by
  intro ts
  rcases ts with _ | ⟨t, behind⟩
  · rfl
  cases t with
  | opening =>
    rw [routine]
    cases levels with
    | zero =>
      rw [enter_eq_error (by omega)]
      rfl
    | succ l =>
      rw [enter_eq_ok (by omega)]
      change (routine fuel calls (.chain .either) ⟨behind, opened + 1⟩ >>= _) = _
      rw [hinner l rfl behind]
      refine counted_bind fun e rest => ?_
      rcases rest with _ | ⟨t, rest⟩
      · rfl
      · cases t <;> rfl
  | _ => rfl

theorem agrees_comparison {operand : Reader}
    (h : Agrees opened operand (routine fuel calls .atom)) :
    Agrees opened (comparison operand) (routine fuel (calls + 1) .comparison) := by
  intro ts
  rw [routine, h ts]
  refine counted_bind fun left rest => ?_
  rcases rest with _ | ⟨t, rest⟩
  · rfl
  cases t with
  | compare c =>
    dsimp only
    rw [h rest]
    exact counted_bind fun right rest => rfl
  | _ => rfl

/-- What is no negation is left to the routine of comparisons. -/
theorem routine_of_ne {ts : List Token} (hts : ∀ asSign behind, ts ≠ .negate asSign :: behind) :
    routine fuel (calls + 1) .negation ⟨ts, opened⟩ =
      routine fuel calls .comparison ⟨ts, opened⟩ := by
  rcases ts with _ | ⟨t, behind⟩
  · rfl
  cases t with
  | negate asSign => exact absurd rfl (hts asSign behind)
  | _ => rfl

/-- A negation raises the count for its operand, and parentheses do so for what is inside them. -/
theorem agrees_negation_of_below (hlevels : opened + levels = maxNesting)
    (hcalls : 5 * levels + 3 ≤ calls)
    (hbelow : ∀ l, levels = l + 1 → ∀ n, 5 * l + 3 ≤ n →
      Agrees (opened + 1) (negation fuel l) (routine fuel n .negation)) :
    Agrees opened (negation fuel levels) (routine fuel calls .negation) := by
  obtain ⟨calls, rfl⟩ : ∃ n, calls = n + 3 := ⟨calls - 3, by omega⟩
  intro ts
  by_cases hnegate : ∃ asSign behind, ts = .negate asSign :: behind
  · obtain ⟨asSign, behind, rfl⟩ := hnegate
    rw [routine]
    cases levels with
    | zero =>
      rw [enter_eq_error (by omega)]
      rfl
    | succ l =>
      rw [enter_eq_ok (by omega)]
      change (routine fuel (calls + 2) .negation ⟨behind, opened + 1⟩ >>= _) = _
      rw [hbelow l rfl (calls + 2) (by omega) behind]
      exact counted_bind fun e rest => rfl
  · have hplain := fun asSign behind h => hnegate ⟨asSign, behind, h⟩
    rw [negation_of_ne hplain, routine_of_ne hplain]
    refine agrees_comparison (agrees_atom hlevels fun l hl => ?_) ts
    obtain ⟨calls, rfl⟩ : ∃ n, calls = n + 2 := ⟨calls - 2, by omega⟩
    exact agrees_disjunction (hbelow l hl calls (by omega))

/-- **The calls that the levels take**: five for each level, from the disjunction in parentheses to
the next one, and those up to the negation. What a negation negates is read by the same routine, so
a level that is spent on it takes one call only. -/
theorem agrees_negation (hlevels : opened + levels = maxNesting) (hcalls : 5 * levels + 3 ≤ calls) :
    Agrees opened (negation fuel levels) (routine fuel calls .negation) := by
  induction levels generalizing opened calls with
  | zero => exact agrees_negation_of_below hlevels hcalls fun l h => nomatch h
  | succ levels ih =>
    refine agrees_negation_of_below hlevels hcalls fun l h n hn => ?_
    cases h
    exact ih (by omega) hn

end

/-- **Reading takes a bounded number of calls** inside each other, whatever the number of tokens and
whether they form an expression or not. -/
theorem ofTokensWithin_eq {calls : ℕ} (hcalls : 5 * (maxNesting + 1) ≤ calls) (ts : List Token) :
    ofTokensWithin calls ts = (ofTokens ts).mapError .fault := by
  obtain ⟨calls, rfl⟩ : ∃ n, calls = n + 2 := ⟨calls - 2, by omega⟩
  have hread : Agrees 0 (disjunction ts.length (negation ts.length maxNesting))
      (routine ts.length (calls + 2) (.chain .either)) :=
    agrees_disjunction (agrees_negation (Nat.zero_add _) (by omega))
  unfold ofTokensWithin ofTokens
  split
  · rfl
  · rw [hread ts]
    rcases disjunction ts.length (negation ts.length maxNesting) ts with fault | ⟨e, rest⟩
    · rfl
    · rcases rest with _ | ⟨t, rest⟩ <;> rfl

end Guard

end RobotBlocks
