import Mathlib.Data.List.Nodup
import RobotBlocks.Guard.Evaluation
import RobotBlocks.Proofs.Guard.Descent
import RobotBlocks.Proofs.Program.Recording

/-!
# Evaluating guards is safe

`Guard.holds` takes for granted that the number tokens of a guard are spelled as numbers, that the
operands of comparisons are truth values or numbers, and that trees can be followed down to their
leaves. `Guard.evaluate` works on raw values, checks all three and goes wrong where one of them does
not hold; only a text that cannot be parsed is recorded. It never goes wrong:

* number tokens are numerals (`numbers_of_tokenize`);
* the values of all expressions are truth values or numbers (`Expression.checked_eq`);
* the tree of a derivation is as high as the negations and parentheses around its tokens make it,
  and their nesting is limited (`Derivation.height_le`, `height_of_ofTokens`).

`evaluate_is_safe` adds what is recorded.
-/

namespace RobotBlocks

namespace Guard

/-! ## Evaluation that checks what it relies on -/

/-- What could go wrong while a guard is evaluated, other than that it cannot be parsed. -/
inductive Mishap
  /-- The spelling of a number token is not the text of a number. -/
  | spelling (spelling : String)
  /-- The operands of a comparison are not both truth values or numbers. -/
  | operands (comparison : Comparison) (left right : Data)
  /-- The tree is deeper than it is followed. -/
  | depth

/-- The values of the number tokens. -/
def numbers : List Token → Except Mishap (List Float)
  | [] => .ok []
  | .number spelling :: ts =>
    match Float.ofText? spelling with
    | none => .error (.spelling spelling)
    | some x => (numbers ts).map (x :: ·)
  | _ :: ts => numbers ts

/-- The number as which a raw value takes part in a comparison. -/
def operand? : Data → Option Float
  | .flag b => some (if b then 1.0 else 0.0)
  | .real x => some x
  | _ => none

/-- The outcome of a comparison of raw values. -/
def Comparison.checked (c : Comparison) (left right : Data) : Except Mishap Data :=
  match operand? left, operand? right with
  | some x, some y => .ok (.flag (c.holds x y))
  | _, _ => .error (.operands c left right)

/-- Whether a raw value counts as true. -/
def counts : Data → Bool
  | .null => false
  | .flag b => b
  | .integer n => n != 0
  | .real x => !(x == 0.0)
  | .text t => !t.isEmpty
  | .list items => !items.isEmpty
  | .record fields => !fields.isEmpty

/-- Whether the values of all expressions count as true, as far as they have to be looked at. -/
def allChecked (eval : Expression → Except Mishap Data) : List Expression → Except Mishap Bool
  | [] => .ok true
  | e :: es => do
    if counts (← eval e) then allChecked eval es else return false

/-- Whether the value of one of the expressions counts as true. -/
def anyChecked (eval : Expression → Except Mishap Data) : List Expression → Except Mishap Bool
  | [] => .ok false
  | e :: es => do
    if counts (← eval e) then return true else anyChecked eval es

/-- The value of an expression, followed so many levels deep. -/
def Expression.checked : (levels : ℕ) → Expression → Except Mishap Data
  | 0, _ => .error .depth
  | _ + 1, .truth b => .ok (.flag b)
  | _ + 1, .number x => .ok (.real x)
  | levels + 1, .negate e => do return .flag (!counts (← checked levels e))
  | levels + 1, .compare c left right => do
    c.checked (← checked levels left) (← checked levels right)
  | levels + 1, .all es => do return .flag (← allChecked (checked levels) es)
  | levels + 1, .any es => do return .flag (← anyChecked (checked levels) es)

/-- How deep the tree of a guard can be: under every negation or pair of parentheses a disjunction, a
conjunction and a comparison at most. -/
def maxHeight : ℕ := 3 * maxNesting + 4

/-- What is recorded about a text that cannot be parsed. -/
def refusal (text : Text) (fault : Fault) : Text :=
  "Cannot evaluate condition " ++ quoted text ++ ": " ++ fault.message ++ "; treating it as false"

/-- The value of the text of a guard. A text that cannot be parsed is recorded. -/
def evaluateText (text : Text) (block : Option Text) : EStateM Mishap Diagnostics Bool :=
  let refuse (fault : Fault) : EStateM Mishap Diagnostics Bool := do
    modify fun ds => ds.warn block (refusal text fault) .condition
    return false
  match tokenize text with
  | .error fault => refuse fault
  | .ok ts =>
    match numbers ts with
    | .error mishap => throw mishap
    | .ok _ =>
      match Expression.ofTokens ts with
      | .error fault => refuse fault
      | .ok e =>
        match e.checked maxHeight with
        | .error mishap => throw mishap
        | .ok value => return counts value

/-- The value of a raw condition of a block. -/
def evaluate (condition : Option Data) (block : Option Text) : EStateM Mishap Diagnostics Bool :=
  match condition.getD .null with
  | .null => return true
  | .flag b => return b
  | .integer n => return n != 0
  | .real x => return !(x == 0.0)
  | value =>
    let text := value.shown.trim
    if text.isEmpty then return true else evaluateText text block

/-! ## Numbers -/

/-- **The spellings of all number tokens are texts of numbers.** -/
theorem numbers_of_tokenize {text : Text} {ts : List Token} (h : tokenize text = .ok ts) :
    ∃ xs, numbers ts = .ok xs := by
  have hvalued : Expression.Valued ts := fun spelling => isSome_ofText?_of_tokenize h
  clear h
  induction ts with
  | nil => exact ⟨[], rfl⟩
  | cons t ts ih =>
    obtain ⟨xs, hxs⟩ := ih hvalued.cons
    cases t with
    | number spelling =>
      obtain ⟨x, hx⟩ := Option.isSome_iff_exists.1 (hvalued spelling List.mem_cons_self)
      exact ⟨x :: xs, by simp only [numbers, hx, hxs, Except.map]⟩
    | _ => exact ⟨xs, hxs⟩

/-! ## Operands -/

/-- The raw value that a value is. -/
def Value.raw : Value → Data
  | .truth b => .flag b
  | .number x => .real x

theorem counts_raw (v : Value) : counts v.raw = v.holds := by
  cases v <;> rfl

/-- Truth values and numbers can all be compared. -/
theorem checked_raw (c : Comparison) (v w : Value) :
    c.checked v.raw w.raw = .ok (.flag (c.holds v.toNumber w.toNumber)) := by
  cases v <;> cases w <;> rfl

/-! ## Depth -/

namespace Expression

mutual

/-- How many expressions lie inside each other. -/
def height : Expression → ℕ
  | truth _ | number _ => 1
  | negate e => height e + 1
  | compare _ left right => max (height left) (height right) + 1
  | all es | any es => heights es + 1

/-- The greatest height of the expressions. -/
def heights : List Expression → ℕ
  | [] => 0
  | e :: es => max (height e) (heights es)

end

theorem height_le_heights {es : List Expression} {e : Expression} (h : e ∈ es) :
    e.height ≤ heights es := by
  induction es with
  | nil => cases h
  | cons first es ih =>
    rw [heights]
    rcases List.mem_cons.1 h with rfl | h
    · exact Nat.le_max_left _ _
    · exact (ih h).trans (Nat.le_max_right _ _)

theorem allChecked_eq {eval : Expression → Except Mishap Data} {es : List Expression}
    (h : ∀ e ∈ es, eval e = .ok e.value.raw) : allChecked eval es = .ok (allHold es) := by
  induction es with
  | nil => rfl
  | cons e es ih =>
    obtain ⟨he, hes⟩ := List.forall_mem_cons.1 h
    rw [allChecked, he, allHold]
    change (if counts e.value.raw = true then allChecked eval es else .ok false) = _
    rw [ih hes, counts_raw]
    cases e.value.holds <;> rfl

theorem anyChecked_eq {eval : Expression → Except Mishap Data} {es : List Expression}
    (h : ∀ e ∈ es, eval e = .ok e.value.raw) : anyChecked eval es = .ok (anyHolds es) := by
  induction es with
  | nil => rfl
  | cons e es ih =>
    obtain ⟨he, hes⟩ := List.forall_mem_cons.1 h
    rw [anyChecked, he, anyHolds]
    change (if counts e.value.raw = true then .ok true else anyChecked eval es) = _
    rw [ih hes, counts_raw]
    cases e.value.holds <;> rfl

/-- **Evaluation never goes wrong** if the tree is followed deep enough: no comparison meets other
operands than truth values and numbers. -/
theorem checked_eq {levels : ℕ} {e : Expression} (h : e.height ≤ levels) :
    e.checked levels = .ok e.value.raw := by
  induction levels generalizing e with
  | zero => cases e <;> simp [height] at h
  | succ levels ih =>
    cases e with
    | truth b => rfl
    | number x => rfl
    | negate e =>
      have he : e.height ≤ levels := by simpa [height] using h
      rw [checked, ih he]
      change Except.ok (Data.flag !(counts e.value.raw)) = _
      rw [counts_raw]
      rfl
    | compare c left right =>
      obtain ⟨hleft, hright⟩ : left.height ≤ levels ∧ right.height ≤ levels := by
        simpa [height, Nat.max_le] using h
      rw [checked, ih hleft, ih hright]
      exact checked_raw c left.value right.value
    | all es =>
      have hes : heights es ≤ levels := by simpa [height] using h
      rw [checked, allChecked_eq fun e he => ih ((height_le_heights he).trans hes)]
      rfl
    | any es =>
      have hes : heights es ≤ levels := by simpa [height] using h
      rw [checked, anyChecked_eq fun e he => ih ((height_le_heights he).trans hes)]
      rfl

end Expression

/-- The height of what a rule stands for. -/
def Rule.height : (r : Rule) → r.Meaning → ℕ
  | .phrase _ => Expression.height
  | .links _ => Expression.heights

/-- How high the tree of a phrase is if so many negations and parentheses enclose its tokens. -/
def Phrase.room : Phrase → ℕ → ℕ
  | .atom, n => 3 * n + 1
  | .comparison, n | .negation, n => 3 * n + 2
  | .chain .both, n => 3 * n + 3
  | .chain .either, n => 3 * n + 4

/-- The same for a rule; links are as high as one operand. -/
def Rule.room : Rule → ℕ → ℕ
  | .phrase p => p.room
  | .links c => c.operand.room

theorem room_chain (c : Connective) (n : ℕ) : (Phrase.chain c).room n = c.operand.room n + 1 := by
  cases c <;> rfl

theorem height_join (c : Connective) (es : List Expression) :
    (c.join es).height = Expression.heights es + 1 := by
  cases c <;> simp [Connective.join, Expression.height]

/-- Every level of nesting makes room for a disjunction, a conjunction and a comparison. -/
theorem Rule.room_eq (r : Rule) (n : ℕ) : r.room n = 3 * n + r.room 0 := by
  rcases r with (⟨_ | _⟩ | _ | _ | _) | ⟨_ | _⟩ <;> rfl

/-- What the negations and parentheses around one of the tokens add to the height of the tree, at
most: one for a negation, three for parentheses. -/
def Derivation.added : {r : Rule} → Derivation r → ℕ
  | _, chain first others => max first.added others.added
  | _, done => 0
  | _, link _ operand others => max operand.added others.added
  | _, negate _ operand => operand.added + 1
  | _, plain operand => operand.added
  | _, compare left _ right => max left.added right.added
  | _, single operand => operand.added
  | _, truth _ => 0
  | _, number _ _ _ => 0
  | _, group inner => inner.added + 3

theorem Derivation.added_le {r : Rule} (d : Derivation r) : d.added ≤ 3 * d.depth := by
  induction d <;> simp only [added, depth] <;> omega

/-- **Trees are low**: only negations and parentheses make them higher than a chain of chains. -/
theorem Derivation.height_le {r : Rule} (d : Derivation r) :
    r.height d.tree ≤ d.added + r.room 0 := by
  induction d with
  | @chain c first others ihfirst ihothers =>
    simp only [Rule.height, Rule.room, added] at ihfirst ihothers ⊢
    rw [room_chain, tree]
    split
    · omega
    · rw [height_join, Expression.heights]
      omega
  | done => exact Nat.zero_le _
  | @link c asSign operand others ihoperand ihothers =>
    simp only [Rule.height, Rule.room, tree, Expression.heights, added] at ihoperand ihothers ⊢
    omega
  | negate asSign operand ih =>
    simp only [Rule.height, Rule.room, Phrase.room, tree, Expression.height, added] at ih ⊢
    omega
  | plain operand ih => exact ih
  | compare left comparison right ihleft ihright =>
    simp only [Rule.height, Rule.room, Phrase.room, tree, Expression.height, added]
      at ihleft ihright ⊢
    omega
  | single operand ih => exact ih.trans (Nat.le_succ _)
  | truth value => exact Nat.le_refl 1
  | number spelling value hvalue => exact Nat.le_refl 1
  | group inner ih => exact ih

theorem Derivation.height_tree {r : Rule} (d : Derivation r) {n : ℕ} (h : d.depth ≤ n) :
    r.height d.tree ≤ r.room n := by
  have hheight := d.height_le
  have hadded := d.added_le
  rw [r.room_eq n]
  omega

/-- What has been read is the tree of a derivation, unless there was nothing to read. -/
theorem exists_derivation {text : Text} {ts : List Token} {e : Expression}
    (htext : tokenize text = .ok ts) (h : Expression.ofTokens ts = .ok e) :
    ts = [] ∧ e = .truth true ∨ ∃ d : Derivation (.phrase (.chain .either)),
      d.tokens = ts ∧ d.depth ≤ maxNesting ∧ d.tree = e := by
  by_cases hempty : ts.isEmpty
  · rw [Expression.ofTokens, if_pos hempty] at h
    cases h
    exact .inl ⟨List.isEmpty_iff.1 hempty, rfl⟩
  · rw [Expression.ofTokens, if_neg hempty] at h
    obtain ⟨⟨e', rest⟩, hread, h⟩ := Outcome.bind_eq_ok.1 h
    have hguard := Expression.recognizes_disjunction
      (Expression.recognizes_negation ts.length maxNesting)
    obtain ⟨d, htokens, hdepth, rfl⟩ :=
      hguard.sound (fun spelling => isSome_ofText?_of_tokenize htext) hread
    cases rest with
    | nil =>
      cases h
      exact .inr ⟨d, by simpa using htokens, hdepth, rfl⟩
    | cons t rest => cases h

/-- **The tree of a guard is low enough** to be evaluated. -/
theorem height_of_ofTokens {text : Text} {ts : List Token} {e : Expression}
    (htext : tokenize text = .ok ts) (h : Expression.ofTokens ts = .ok e) :
    e.height ≤ maxHeight := by
  obtain ⟨-, rfl⟩ | ⟨d, -, hdepth, rfl⟩ := exists_derivation htext h
  · simp [Expression.height, maxHeight]
  · exact d.height_tree hdepth

/-! ## Whole guards -/

/-- The outcome of a guard that is a text: its value, or a record that it cannot be parsed. -/
def settle (text : Text) (block : Option Text) (ds : Diagnostics) : Bool × Diagnostics :=
  match Expression.parse text with
  | .ok e => (e.value.holds, ds)
  | .error fault => (false, ds.warn block (refusal text fault) .condition)

theorem evaluateText_eq (text : Text) (block : Option Text) (ds : Diagnostics) :
    (evaluateText text block).run ds = .ok (settle text block ds).1 (settle text block ds).2 := by
  unfold evaluateText settle Expression.parse
  rcases htext : tokenize text with fault | ts
  · rfl
  · obtain ⟨xs, hxs⟩ := numbers_of_tokenize htext
    simp only [hxs, bind, Except.bind]
    rcases he : Expression.ofTokens ts with fault | e
    · rfl
    · simp only [Expression.checked_eq (height_of_ofTokens htext he), counts_raw]
      rfl

/-- The text as which a condition is parsed, if it is parsed at all. -/
def parsed? (condition : Option Data) : Option Text :=
  match condition.getD .null with
  | .null | .flag _ | .integer _ | .real _ => none
  | value => some value.shown.trim

/-- A condition that is parsed is settled by its text; any other leaves the diagnostics alone. -/
theorem holds_eq_settle (condition : Option Data) (block : Option Text) (ds : Diagnostics) :
    match parsed? condition with
    | none => ∃ b, holds condition block ds = (b, ds) ∧ (evaluate condition block).run ds = .ok b ds
    | some text => holds condition block ds = settle text block ds ∧
        (evaluate condition block).run ds =
          .ok (settle text block ds).1 (settle text block ds).2 := by
  -- A blank text is parsed to what holds, so it needs no case of its own.
  have htext : ∀ text : Text, (if text.isEmpty then (true, ds) else settle text block ds) =
      settle text block ds := by
    intro text
    split
    · rename_i hempty
      rw [List.isEmpty_iff.1 hempty]
      rfl
    · rfl
  have hrun : ∀ text : Text, (if text.isEmpty then return true
      else evaluateText text block : EStateM Mishap Diagnostics Bool).run ds =
        .ok (settle text block ds).1 (settle text block ds).2 := by
    intro text
    split
    · rename_i hempty
      rw [List.isEmpty_iff.1 hempty]
      rfl
    · exact evaluateText_eq text block ds
  unfold parsed? holds evaluate
  generalize condition.getD .null = value
  cases value with
  | null => exact ⟨true, rfl, rfl⟩
  | flag b => exact ⟨b, rfl, rfl⟩
  | integer n => exact ⟨_, rfl, rfl⟩
  | real x => exact ⟨_, rfl, rfl⟩
  | text t =>
    simp only
    generalize (Data.text t).shown.trim = text
    exact ⟨htext text, hrun text⟩
  | list items =>
    simp only
    generalize (Data.list items).shown.trim = text
    exact ⟨htext text, hrun text⟩
  | record fields =>
    simp only
    generalize (Data.record fields).shown.trim = text
    exact ⟨htext text, hrun text⟩

end Guard

namespace Diagnostics

theorem nodup_add {ds : Diagnostics} (h : ds.entries.Nodup) (d : Diagnostic) :
    (ds.add d).entries.Nodup := by
  unfold add
  split
  · exact h
  · rename_i hd
    exact List.nodup_append.2 ⟨h, List.nodup_singleton d, by grind⟩

/-- No diagnostic is recorded twice. -/
theorem nodup_addAll (found : List Diagnostic) {ds : Diagnostics} (h : ds.entries.Nodup) :
    (ds.addAll found).entries.Nodup := by
  induction found generalizing ds with
  | nil => exact h
  | cons d found ih => exact ih (nodup_add h d)

theorem count_add {ds : Diagnostics} (h : ds.entries.Nodup) (d : Diagnostic) :
    (ds.add d).entries.count d = 1 :=
  List.count_eq_one_of_mem (nodup_add h d) (mem_add.2 (.inr rfl))

theorem filter_add (ds : Diagnostics) (d : Diagnostic) :
    (ds.add d).entries.filter (· ≠ d) = ds.entries.filter (· ≠ d) := by
  unfold add
  split
  · rfl
  · simp

/-- Among warnings a diagnostic is told by its block, its message and its category. -/
theorem filter_alike {ds : Diagnostics} (h : ds.entries.Nodup) (herrors : ds.hasErrors = false)
    {d : Diagnostic} (hd : d.severity = .warning) :
    ((ds.add d).entries.filter fun e =>
      e.block = d.block ∧ e.message = d.message ∧ e.category = d.category) = [d] := by
  have halike : ∀ e ∈ (ds.add d).entries,
      decide (e.block = d.block ∧ e.message = d.message ∧ e.category = d.category) = (e == d) := by
    intro e he
    have hwarning : e.severity = d.severity := by
      rcases mem_add.1 he with he | rfl
      · have hne : e.severity ≠ .error := by
          simpa using List.any_eq_false.1 herrors e he
        rw [hd]
        cases hseverity : e.severity with
        | warning => rfl
        | error => exact absurd hseverity hne
      · rfl
    rw [Bool.eq_iff_iff, decide_eq_true_iff, beq_iff_eq]
    obtain ⟨block, message, category, severity⟩ := e
    obtain ⟨block', message', category', severity'⟩ := d
    rw [Diagnostic.mk.injEq]
    exact ⟨fun ⟨hblock, hmessage, hcategory⟩ => ⟨hblock, hmessage, hcategory, hwarning⟩,
      fun ⟨hblock, hmessage, hcategory, _⟩ => ⟨hblock, hmessage, hcategory⟩⟩
  rw [List.filter_congr halike, List.filter_beq, count_add h d]
  rfl

end Diagnostics

namespace Guard

/-- **Evaluating guards is safe.** Whatever has been recorded before, a condition is evaluated to a
truth value: every number token has the spelling of a number, every comparison has operands that can
be compared, and no tree is too deep. A condition whose text cannot be parsed does not hold, and
afterwards one warning says so and all other diagnostics are as they were; any other condition leaves
the diagnostics alone. -/
theorem evaluate_is_safe (condition : Option Data) (block : Option Text)
    (found : List Diagnostic) :
    let ds := Diagnostics.empty.addAll found
    ∃ b ds', (evaluate condition block).run ds = .ok b ds' ∧ holds condition block ds = (b, ds') ∧
      ((¬ ∃ text fault, parsed? condition = some text ∧ Expression.parse text = .error fault) ∧
          ds' = ds ∨
        ∃ text fault, parsed? condition = some text ∧ Expression.parse text = .error fault ∧
          b = false ∧
          let d : Diagnostic := ⟨block, refusal text fault, .condition, .warning⟩
          ds'.entries.count d = 1 ∧ ds'.entries.filter (· ≠ d) = ds.entries.filter (· ≠ d) ∧
            (ds.hasErrors = true ∨ (ds'.entries.filter fun e =>
              e.block = d.block ∧ e.message = d.message ∧ e.category = d.category) = [d])) := by
  intro ds
  have hnodup : ds.entries.Nodup := Diagnostics.nodup_addAll found List.nodup_nil
  have hsettle := holds_eq_settle condition block ds
  rcases hparsed : parsed? condition with _ | text
  · simp only [hparsed] at hsettle
    obtain ⟨b, hholds, hrun⟩ := hsettle
    exact ⟨b, ds, hrun, hholds, .inl ⟨by simp, rfl⟩⟩
  · simp only [hparsed] at hsettle
    obtain ⟨hholds, hrun⟩ := hsettle
    refine ⟨_, _, hrun, hholds, ?_⟩
    unfold settle
    rcases hparse : Expression.parse text with fault | e
    · refine .inr ⟨text, fault, rfl, hparse, rfl, ?_⟩
      refine ⟨Diagnostics.count_add hnodup _, Diagnostics.filter_add ds _, ?_⟩
      rcases herrors : ds.hasErrors with _ | _
      · exact .inr (Diagnostics.filter_alike hnodup herrors rfl)
      · exact .inl rfl
    · refine .inl ⟨?_, rfl⟩
      rintro ⟨text', fault, htext, hfault⟩
      cases htext
      rw [hparse] at hfault
      cases hfault

/-- A guard that is looked at twice is recorded once. -/
example :
    let ds := (holds (some (.text "1 = 2")) none .empty).2
    (holds (some (.text "1 = 2")) none ds).2 = ds ∧ ds.entries.length = 1 := by
  decide +kernel

end Guard

end RobotBlocks
