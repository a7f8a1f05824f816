import RobotBlocks.Proofs.Number.Value
import RobotBlocks.Proofs.Program.Walk

/-!
# What compiling cannot cope with

Compiling takes almost any value for a program: what is odd is replaced and recorded. One thing
makes it fail, an integer beyond the range of doubles, where a block states its place or, once the
block is visited, its quantity (`ofData_succeeds_iff`). Raw values are those that a text can hold:
their integers have few enough digits to be shown in messages, however large they are.

`Outcome.Yields P Q x` says that `x` is the failure because of such an integer if `P` holds, and a
result of which `Q` holds if not; `Recording.FailsIff P m` says the same of a computation, whatever
has been recorded before. Both are closed under the operations from which compiling is built
(`Yields.bind`, `FailsIff.bind`), so they are known

* of the blocks of a program, which state their coordinates (`Block.yields_load`),
* of a visit, which asks for at most one quantity (`failsIff_visit`),
* of a walk, which is made of visits (`failsIff_walkAlong`).
-/

namespace RobotBlocks

variable {α β : Type}

/-! ## Failing because of an integer that is too large -/

namespace Outcome

/-- The outcome is the failure because of an integer that is too large if `P` holds, and a result of
which `Q` holds if not. -/
def Yields (P : Prop) (Q : α → Prop) (x : Except Fault α) : Prop :=
  (P ∧ x = .error .integerTooLarge) ∨ (¬ P ∧ ∃ a, x = .ok a ∧ Q a)

namespace Yields

variable {P P' : Prop} {Q : α → Prop} {Q' : β → Prop} {x : Except Fault α}

theorem ok {a : α} (h : Q a) : Yields False Q (.ok a) := .inr ⟨id, a, rfl, h⟩

theorem congr (h : Yields P Q x) (hP : P ↔ P') : Yields P' Q x := by
  rwa [Yields, ← hP]

theorem mono {Q' : α → Prop} (h : Yields P Q x) (hQ : ∀ a, Q a → Q' a) : Yields P Q' x :=
  h.imp_right fun ⟨hP, a, hx, ha⟩ => ⟨hP, a, hx, hQ a ha⟩

theorem bind {f : α → Except Fault β} (hx : Yields P Q x) (hf : ∀ a, Q a → Yields P' Q' (f a)) :
    Yields (P ∨ P') Q' (x >>= f) := by
  rcases hx with ⟨hP, rfl⟩ | ⟨hP, a, rfl, ha⟩
  · exact .inl ⟨.inl hP, rfl⟩
  · rcases hf a ha with ⟨hP', h⟩ | ⟨hP', h⟩
    · exact .inl ⟨.inr hP', h⟩
    · exact .inr ⟨by simp [hP, hP'], h⟩

end Yields

end Outcome

open Outcome

namespace Data

/-- The value is an integer beyond the range of doubles. -/
def IsTooLarge (v : Data) : Prop := ∃ n, v = .integer n ∧ (Float.ofInt n).isInf = true

/-- **Only such an integer is refused** as a number for its size. -/
theorem toNumber_eq_tooLarge_iff {v : Data} :
    v.toNumber = .error .integerTooLarge ↔ v.IsTooLarge := by
  cases v with
  | integer n =>
    simp only [toNumber, Float.ofInt?, IsTooLarge]
    split <;> simp_all
  | text t =>
    simp only [toNumber, IsTooLarge]
    split <;> simp
  | _ => simp [toNumber, IsTooLarge]

end Data

/-! ## Reading blocks -/

theorem Coordinate.yields_ofData (v : Data) : Yields v.IsTooLarge (fun _ => True) (ofData v) := by
  rw [← Data.toNumber_eq_tooLarge_iff]
  unfold ofData
  split
  · exact .inr ⟨by simp [Data.toNumber], _, rfl, trivial⟩
  · exact .inr ⟨by simp [Data.toNumber], _, rfl, trivial⟩
  · split
    next h => exact .inr ⟨by simp [h], _, rfl, trivial⟩
    next h => exact .inl ⟨h, rfl⟩
    next fault hne h => exact .inr ⟨by rw [h]; simpa using hne, _, rfl, trivial⟩

namespace Block

/-- The record in which a block states where it stands. -/
def placeOf (fields : Fields) : Fields :=
  match Data.field fields "position" with
  | .record position => position
  | _ => fields

/-- A block states a coordinate that is too large. -/
def Misplaced (fields : Fields) : Prop :=
  (Data.field (placeOf fields) "x").IsTooLarge ∨ (Data.field (placeOf fields) "y").IsTooLarge

theorem yields_ofFields (fields : Fields) (place : Int) :
    Yields (Misplaced fields) (fun _ => True) (ofFields fields place) := by
  refine Yields.congr (.bind (Coordinate.yields_ofData _) fun x _ =>
    .bind (Coordinate.yields_ofData _) fun y _ => .ok trivial) ?_
  simp only [or_false]
  exact Iff.rfl

/-- **Blocks are read** unless one of them states such a coordinate. -/
theorem yields_load (program : Data) :
    Yields (∃ fields, .record fields ∈ itemsOf program ∧ Misplaced fields) (fun _ => True)
      (load program) := by
  have hitems : ∀ (items : List Data) (index : ℕ),
      Yields (∃ fields, .record fields ∈ items ∧ Misplaced fields) (fun _ => True)
        (ofItems index items) := by
    intro items
    induction items with
    | nil => exact fun index => Yields.congr (.ok trivial) (by simp)
    | cons item items ih =>
      intro index
      cases item with
      | record fields =>
        refine Yields.congr (.bind (yields_ofFields fields index) fun b _ =>
          .bind (ih (index + 1)) fun blocks _ => .ok trivial) ?_
        simp [or_and_right, exists_or]
      | _ => exact (ih (index + 1)).congr (by simp)
  exact hitems _ 0

end Block

/-! ## Visiting blocks -/

namespace Recording

variable {L : Diagnostic → Prop} {m : Recording α} {f : α → Recording β}

/-- The outcome of a sequence is the sequence of the outcomes. -/
theorem outcome_bind (hm : Logs L m) (hf : ∀ a, Logs L (f a)) :
    (m >>= f).outcome = m.outcome >>= fun a => (f a).outcome := by
  obtain ⟨outcome, found, -, rfl⟩ := hm
  rcases outcome with fault | a
  · rfl
  · obtain ⟨outcome, more, -, hfa⟩ := hf a
    rw [outcome_of]
    change _ = (f a).outcome
    rw [hfa, outcome_of, Recording.outcome, of_ok_bind, hfa]
    cases outcome <;> rfl

theorem yields_bind {P P' : Prop} {Q : α → Prop} {Q' : β → Prop} (hm : Logs L m)
    (hf : ∀ a, Logs L (f a)) (h : Yields P Q m.outcome)
    (h' : ∀ a, Q a → Yields P' Q' (f a).outcome) : Yields (P ∨ P') Q' (m >>= f).outcome := by
  rw [outcome_bind hm hf]
  exact h.bind h'

/-- Whatever has been recorded before, the computation fails because of an integer that is too large
if `P` holds, and succeeds if not. -/
structure FailsIff (P : Prop) (m : Recording α) : Prop where
  logs : Logs (fun _ => True) m
  outcome : Yields P (fun _ => True) m.outcome

namespace FailsIff

variable {P P' : Prop} {m : Recording α} {f : α → Recording β}

theorem pure (a : α) : FailsIff False (pure a : Recording α) := ⟨.pure a, .ok trivial⟩

theorem congr (h : FailsIff P m) (hP : P ↔ P') : FailsIff P' m := ⟨h.logs, h.outcome.congr hP⟩

theorem bind (hm : FailsIff P m) (hf : ∀ a, FailsIff P' (f a)) : FailsIff (P ∨ P') (m >>= f) where
  logs := .bind hm.logs fun a => (hf a).logs
  outcome := yields_bind hm.logs (fun a => (hf a).logs) hm.outcome fun a _ => (hf a).outcome

theorem run (h : FailsIff P m) (ds : Diagnostics) :
    (P ∧ ∃ ds', m ds = .error .integerTooLarge ds') ∨ (¬ P ∧ ∃ a ds', m ds = .ok a ds') := by
  obtain ⟨found, -, heq⟩ := h.logs.eq_of_outcome
  rcases h.outcome with ⟨hP, h⟩ | ⟨hP, a, h, -⟩
  · rw [heq, h]
    exact .inl ⟨hP, _, rfl⟩
  · rw [heq, h]
    exact .inr ⟨hP, a, _, rfl⟩

end FailsIff

end Recording

open Recording

namespace Compilation

variable {R : Type} [Scalar R] {c : Config R}

/-- The quantity that a visit to a block of the given kind asks for. -/
def quantity? (k : Kind) : Option Quantity :=
  match k with
  | .loop => some rounds
  | k => (movement? k).map (·.2)

/-- What the block states for a quantity is an integer that is too large. -/
def Overstates (b : Block) (q : Quantity) : Prop :=
  ∃ raw, b.input? q.inputs = some raw ∧ raw.IsTooLarge

/-- What a configuration has to provide: a default of every quantity, one of the rounds that is the
number of some rounds, and a limit of rounds that can be counted. -/
structure Complete (c : Config R) : Prop where
  default : ∀ k q, quantity? k = some q → ∃ x, c.default? q.default = some x
  rounds : ∃ x, c.default? rounds.default = some x ∧ ∃ n : ℕ, Float.toInteger x = .ok n
  limit : 0 ≤ c.maxRepeat ∧ c.maxRepeat ≤ Int.ofNat greatestCount

theorem yields_finiteNumber (raw : Data) :
    Yields raw.IsTooLarge (fun x? => ∀ x, x? = some x → x.isFinite = true) (finiteNumber raw) := by
  rw [← Data.toNumber_eq_tooLarge_iff]
  unfold finiteNumber
  split
  · exact .inr ⟨by simp [Data.toNumber], _, rfl, by simp⟩
  · split
    next x h => exact .inr ⟨by simp [h], _, rfl, by simp⟩
    next h => exact .inl ⟨h, rfl⟩
    next fault hne h => exact .inr ⟨by rw [h]; simpa using hne, _, rfl, by simp⟩

omit [Scalar R] in
theorem yields_resolve {b : Block} {q : Quantity} {default : Float}
    (h : c.default? q.default = some default) :
    Yields (Overstates b q) (fun x => x = default ∨ x.isFinite = true ∧ ¬ x < 0.0)
      (resolve c b q).outcome := by
  simp only [resolve, h, Overstates]
  rcases hinput : b.input? q.inputs with _ | raw
  · exact Yields.congr (.ok (.inl rfl)) (by simp)
  · simp only [Option.some.injEq, exists_eq_left']
    rcases yields_finiteNumber raw with ⟨hlarge, hraw⟩ | ⟨hlarge, x?, hraw, hfinite⟩
    · exact .inl ⟨hlarge, by rw [hraw]; rfl⟩
    · refine .inr ⟨hlarge, ?_⟩
      rw [hraw]
      cases x? with
      | none => exact ⟨default, rfl, .inl rfl⟩
      | some x =>
        by_cases hneg : x < 0.0
        · refine ⟨0.0, ?_, .inr ⟨rfl, by decide⟩⟩
          simp only [if_pos hneg]
          rfl
        · refine ⟨x, ?_, .inr ⟨hfinite x rfl, hneg⟩⟩
          simp only [if_neg hneg]
          rfl

omit [Scalar R] in
theorem failsIff_resolve {b : Block} {q : Quantity} {default : Float}
    (h : c.default? q.default = some default) : FailsIff (Overstates b q) (resolve c b q) :=
  ⟨(resolve_logs c b q).mono fun _ _ => trivial, (yields_resolve h).mono fun _ _ => trivial⟩

theorem failsIff_commandFor (hc : Complete c) (b : Block) :
    FailsIff (∃ m q, movement? b.kind = some (m, q) ∧ Overstates b q) (commandFor c b) := by
  unfold commandFor
  rcases hmovement : movement? b.kind with _ | ⟨m, q⟩
  · exact (FailsIff.pure none).congr (by simp)
  · obtain ⟨x, hx⟩ : ∃ x, c.default? q.default = some x := by
      refine hc.default b.kind q ?_
      generalize b.kind = kind at hmovement
      cases kind <;> simp_all [movement?, quantity?]
    exact ((failsIff_resolve hx).bind fun _ => .pure _).congr (by simp)

omit [Scalar R] in
/-- The count of rounds that a loop states is not negative and within the limit. -/
theorem yields_loopCount (hc : Complete c) (b : Block) :
    Yields (Overstates b rounds) (fun count => 0 ≤ count ∧ count ≤ c.maxRepeat)
      (loopCount c b).outcome := by
  obtain ⟨default, hdefault, hrounds⟩ := hc.rounds
  refine Yields.congr (yields_bind (resolve_logs c b rounds) (fun stated => ?_)
    (yields_resolve hdefault) fun stated hstated => ?_) (iff_of_eq (or_false _))
  · split
    · exact .throw _
    · split
      · exact .bind (.warn (.inr (.inl rfl))) fun _ => .pure _
      · exact .pure _
  · obtain ⟨n, hn⟩ : ∃ n : ℕ, Float.toInteger stated = .ok n := by
      rcases hstated with rfl | ⟨hfinite, hneg⟩
      · exact hrounds
      · exact Float.exists_toInteger_eq hfinite hneg
    rw [hn]
    by_cases hlimit : c.maxRepeat < n
    · simp only [if_pos hlimit]
      exact .inr ⟨id, c.maxRepeat, rfl, hc.limit.1, le_rfl⟩
    · simp only [if_neg hlimit]
      exact .inr ⟨id, n, rfl, by omega, by omega⟩

omit [Scalar R] in
theorem failsIff_timesFor (hc : Complete c) (b : Block) :
    FailsIff (b.kind = .loop ∧ Overstates b rounds) (timesFor c b) := by
  refine ⟨(timesFor_logs c b).mono fun _ _ => trivial, ?_⟩
  unfold timesFor
  split
  next hkind =>
    refine Yields.congr (yields_bind (loopCount_logs c b) (fun count => ?_) (yields_loopCount hc b)
      fun count hcount => ?_) ((iff_of_eq (or_false _)).trans (by simp [hkind]))
    · split
      · exact .throw _
      · exact .pure _
    · -- A count within the limit can be counted.
      have hrounds : roundsOf count = .ok count.toNat := by
        have hlimit := hc.limit.2
        have hgreatest : 0 ≤ Int.ofNat greatestCount := Int.natCast_nonneg _
        rw [roundsOf, if_neg]
        simp only [Bool.or_eq_true, decide_eq_true_eq, not_or]
        omega
      rw [hrounds]
      exact .ok trivial
  next hkind =>
    obtain ⟨value, found, -, heq⟩ := holds_eq (b.input? ["condition"]) b.id
    refine .inr ⟨by simp [hkind], if value then 1 else 0, ?_, trivial⟩
    rw [outcome, get_bind, heq]
    rfl
  next hloop _ => exact Yields.congr (.ok trivial) ⟨False.elim, fun h => hloop h.1⟩

theorem failsIff_noteUnknown (b : Block) : FailsIff False (noteUnknown b) := by
  refine ⟨(noteUnknown_logs b).mono fun _ _ => trivial, ?_⟩
  unfold noteUnknown
  split
  · exact .ok trivial
  · exact .ok trivial

/-- **A visit** succeeds unless the quantity that it asks for is too large. -/
theorem failsIff_visit (hc : Complete c) (g : Graph) (b : Block) :
    FailsIff (∃ q, quantity? b.kind = some q ∧ Overstates b q) (visit c g b) := by
  refine ((failsIff_noteUnknown b).bind fun _ => (failsIff_commandFor hc b).bind fun _ =>
    (failsIff_timesFor hc b).bind fun _ => .pure _).congr ?_
  generalize b.kind = kind
  cases kind <;> simp [movement?, quantity?]

/-! ## Compiling -/

/-- **A walk** succeeds unless one of its visits asks for a quantity that is too large. -/
theorem failsIff_walkAlong (hc : Complete c) (g : Graph) (budget : ℕ) (bs : List Block) :
    FailsIff (∃ b ∈ bs.take budget, ∃ q, quantity? b.kind = some q ∧ Overstates b q)
      (walkAlong c g budget bs) := by
  induction bs generalizing budget with
  | nil =>
    rw [walkAlong]
    exact (FailsIff.pure []).congr (by simp)
  | cons b bs ih =>
    rcases budget with _ | budget
    · refine ⟨(walkAlong_logs 0 _).mono fun _ _ => trivial, ?_⟩
      exact Yields.congr (.ok trivial) (by simp)
    · refine ((failsIff_visit hc g b).bind fun _ => (ih budget).bind fun _ => .pure _).congr ?_
      simp

theorem complete_of_mem_presets (hc : c ∈ Config.presets) : Complete c := by
  obtain ⟨hinputs, hrepeat⟩ : c.defaultInputs = (Config.robot : Config R).defaultInputs ∧
      c.maxRepeat = 1000 := by
    simp only [Config.presets, List.mem_cons, List.not_mem_nil, or_false] at hc
    rcases hc with rfl | rfl | rfl | rfl | rfl | rfl <;> exact ⟨rfl, rfl⟩
  have hdefault : ∀ name, c.default? name = (Config.robot : Config R).default? name := by
    intro name
    rw [Config.default?, hinputs]
    rfl
  refine ⟨fun k q hq => ?_, ⟨10.0, hdefault _, 10, by decide⟩, ?_⟩
  · rw [hdefault]
    cases k <;> simp only [quantity?, movement?, Option.map_some, Option.map_none,
      Option.some.injEq, reduceCtorEq] at hq <;> subst hq <;> exact ⟨_, rfl⟩
  · rw [hrepeat]
    decide

/-- **Compiling fails on nothing but an integer beyond the range of doubles.** With the
configuration of any agent, every program is compiled to commands, unless a block of the program
states such an integer as a coordinate or a block that is visited, within the budget of visits,
states one as its quantity; and then it fails because of that. -/
theorem ofData_succeeds_iff (hc : c ∈ Config.presets) (program : Data) (ds : Diagnostics) :
    ((∃ commands ds', (ofData c program).run ds = .ok commands ds') ∨
      ∃ ds', (ofData c program).run ds = .error .integerTooLarge ds') ∧
    ((∃ commands ds', (ofData c program).run ds = .ok commands ds') ↔
      (∀ fields, .record fields ∈ Block.itemsOf program → ¬ Block.Misplaced fields) ∧
      ∀ blocks, Block.load program = .ok blocks →
        let g := (Graph.build blocks .empty).1
        ∀ b ∈ (g.topLevel.flatMap (g.unroll (roundsIn c))).take c.maxVisits.toNat,
          ∀ q, quantity? b.kind = some q → ¬ Overstates b q) := by
  rcases Block.yields_load program with
    ⟨⟨fields, hmem, hfields⟩, hload⟩ | ⟨hplaced, blocks, hload, -⟩
  · have hrun : (ofData c program).run ds = .error .integerTooLarge .empty := by
      simp only [ofData, hload]
      rfl
    refine ⟨.inr ⟨_, hrun⟩, ⟨?_, fun h => absurd hfields (h.1 fields hmem)⟩⟩
    rintro ⟨commands, ds', h⟩
    rw [hrun] at h
    cases h
  · have hplaced' : ∀ fields, .record fields ∈ Block.itemsOf program → ¬ Block.Misplaced fields :=
      fun fields hmem h => hplaced ⟨fields, hmem, h⟩
    have hrun : (ofData c program).run ds = ofBlocks c blocks .empty := by
      simp only [ofData, hload]
      rfl
    rw [hrun, ofBlocks_eq_walkAlong]
    rcases (failsIff_walkAlong (complete_of_mem_presets hc) _ _ _).run _ with
      ⟨⟨b, hb, q, hq, hlarge⟩, ds', hwalk⟩ | ⟨hnone, commands, ds', hwalk⟩
    · refine ⟨.inr ⟨ds', hwalk⟩, ⟨?_, fun h => absurd hlarge (h.2 blocks hload b hb q hq)⟩⟩
      rintro ⟨commands, ds'', h⟩
      rw [hwalk] at h
      cases h
    · refine ⟨.inl ⟨commands, ds', hwalk⟩, ⟨fun _ => ⟨hplaced', ?_⟩, fun _ => ⟨commands, ds', hwalk⟩⟩⟩
      intro blocks' hload' g b hb q hq hlarge
      cases hload.symm.trans hload'
      exact hnone ⟨b, hb, q, hq, hlarge⟩

/-- Odd items that are read all the same: a block with a text for a coordinate, a text for its
inputs and one for its children, a turn of a list of degrees, and a text that is no block. -/
def oddities : Data :=
  .list
    [.record [("id", .text "m"), ("type", .text "moveForward"), ("x", .text "left"), ("y", .null),
       ("inputs", .text "nope"), ("children", .text "also nope")],
     .record [("type", .text "turnLeft"),
       ("inputs", .record [("degrees", .list [.integer (10 ^ 400)])])],
     .text "not a block"]

theorem ofData_succeeds_iff_oddities :
    (Config.robot : Config Float) ∈ Config.presets ∧
    (∃ commands ds, (ofData (Config.robot : Config Float) oddities).run .empty = .ok commands ds) ∧
    ∀ fields, .record fields ∈ Block.itemsOf oddities → ¬ Block.Misplaced fields := by
  have hrobot : (Config.robot : Config Float) ∈ Config.presets := by simp [Config.presets]
  have hrun : ∃ commands ds,
      (ofData (Config.robot : Config Float) oddities).run .empty = .ok commands ds := by
    have hok : (Outcome.returned ((ofData (Config.robot : Config Float) oddities).run .empty)
        fun commands ds => commands.length == 2 && ds.entries.length == 1) = true := by
      decide +kernel
    obtain ⟨commands, ds, hrun, -⟩ := Outcome.returned_eq_true.1 hok
    exact ⟨commands, ds, hrun⟩
  exact ⟨hrobot, hrun, ((ofData_succeeds_iff hrobot oddities .empty).2.1 hrun).1⟩

/-- A block at a coordinate beyond the range of doubles. -/
def farAway : Data :=
  .list [.record [("id", .text "a"), ("type", .text "start"), ("x", .integer (10 ^ 400))]]

/-- Not every program is compiled. -/
theorem not_ofData_succeeds : ¬ ∀ program : Data, ∃ commands ds,
    (ofData (Config.robot : Config Float) program).run .empty = .ok commands ds := by
  intro h
  obtain ⟨commands, ds, hrun⟩ := h farAway
  have hfails : (Outcome.failed ((ofData (Config.robot : Config Float) farAway).run .empty)
      fun fault _ => fault == .integerTooLarge) = true := by decide +kernel
  obtain ⟨fault, ds', hfault, -⟩ := Outcome.failed_eq_true.1 hfails
  cases hrun.symm.trans hfault

end Compilation

end RobotBlocks
