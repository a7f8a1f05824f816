import RobotBlocks.Proofs.Graph.Counterparts
import RobotBlocks.Proofs.Number.Value
import RobotBlocks.Proofs.Program.Agreement

/-!
# What is recorded does not tell how often loops run

Every round of a loop visits its body again and records all its remarks again. Since each diagnostic
is kept once, the rounds after the first add nothing and leave the order of what follows alone.

* Lists of diagnostics are alike if recording the one or the other comes to the same
  (`Diagnostics.AddAlike`); repeating a list is (`AddAlike.rounds`).
* A visit records its own remarks (`remarks`), whatever the graph and whatever is there already, so
  a compilation that leaves nothing out records those of the unrolled program (`diagnostics_eq`).
* Blocks that agree but for the number of their rounds (`Recounted`) unroll to visits with alike
  remarks; the induction is on the levels of the unrolling (`addAlike_unrollWithin`).

`diagnostics_of_recounted_loop` says so of a loop that states one valid count instead of another.
-/

namespace RobotBlocks

/-! ## Diagnostics that are there already -/

namespace Diagnostics

theorem add_of_mem {ds : Diagnostics} {d : Diagnostic} (h : d ∈ ds.entries) : ds.add d = ds :=
  if_pos h

theorem addAll_of_subset {ds : Diagnostics} {found : List Diagnostic}
    (h : ∀ d ∈ found, d ∈ ds.entries) : ds.addAll found = ds := by
  induction found with
  | nil => rfl
  | cons d found ih =>
    rw [addAll_cons, add_of_mem (h d List.mem_cons_self)]
    exact ih fun e he => h e (List.mem_cons_of_mem d he)

/-- Recording what has been kept of a list is recording the list. -/
theorem addAll_entries (ds kept : Diagnostics) (found : List Diagnostic) :
    ds.addAll (kept.addAll found).entries = (ds.addAll kept.entries).addAll found := by
  induction found generalizing kept with
  | nil => rfl
  | cons d found ih =>
    rw [addAll_cons, addAll_cons, ih]
    congr 1
    by_cases h : d ∈ kept.entries
    · rw [add_of_mem h, add_of_mem (mem_addAll.2 (.inr h))]
    · rw [add, if_neg h, addAll_append]
      rfl

/-- Recording the one list or the other comes to the same. -/
def AddAlike (found found' : List Diagnostic) : Prop :=
  ∀ ds : Diagnostics, ds.addAll found = ds.addAll found'

namespace AddAlike

variable {found found' more more' : List Diagnostic}

theorem append (h : AddAlike found found') (hmore : AddAlike more more') :
    AddAlike (found ++ more) (found' ++ more') := fun ds => by
  rw [addAll_append, addAll_append, h, hmore]

theorem flatMap {α β : Type} {R : α → β → Prop} {f : α → List Diagnostic}
    {f' : β → List Diagnostic} {xs : List α} {ys : List β} (h : List.Forall₂ R xs ys)
    (hf : ∀ x y, R x y → AddAlike (f x) (f' y)) : AddAlike (xs.flatMap f) (ys.flatMap f') := by
  induction h with
  | nil => exact fun _ => rfl
  | cons hxy _ ih => exact (hf _ _ hxy).append ih

/-- Recording a list once more adds nothing. -/
theorem rounds_succ (n : ℕ) (found : List Diagnostic) :
    AddAlike (List.replicate (n + 1) found).flatten found := fun ds => by
  rw [List.replicate_succ, List.flatten_cons, addAll_append]
  refine addAll_of_subset fun d hd => mem_addAll.2 (.inr ?_)
  obtain ⟨round, hround, hd⟩ := List.mem_flatten.1 hd
  exact List.eq_of_mem_replicate hround ▸ hd

/-- **How often a list is recorded does not matter**, as long as it is recorded at all. -/
theorem rounds {n n' : ℕ} (hn : n = 0 ↔ n' = 0) (h : AddAlike found found') :
    AddAlike (List.replicate n found).flatten (List.replicate n' found').flatten := by
  rcases n with _ | n <;> rcases n' with _ | n'
  · exact fun _ => rfl
  · simp at hn
  · simp at hn
  · exact fun ds => (rounds_succ n found ds).trans ((h ds).trans (rounds_succ n' found' ds).symm)

end AddAlike

end Diagnostics

namespace Recording

variable {α β : Type}

theorem run_eq_of_outcome {m : Recording α} {a : α} (h : m.outcome = .ok a) :
    m.run .empty = .ok a (m.recorded .empty) := by
  obtain ⟨ds, hrun⟩ := outcome_eq_ok.1 h
  rw [recorded, hrun]
  exact hrun

theorem recorded_map (f : α → β) (m : Recording α) (ds : Diagnostics) :
    (f <$> m).recorded ds = m.recorded ds := by
  simp only [recorded, Functor.map, EStateM.map]
  rcases m ds with ⟨a, ds'⟩ | ⟨fault, ds'⟩ <;> rfl

/-- A computation records behind what is there what it records by itself. -/
theorem Logs.recorded_eq {P : Diagnostic → Prop} {m : Recording α} (h : Logs P m)
    (ds : Diagnostics) : m.recorded ds = ds.addAll (m.recorded .empty).entries := by
  obtain ⟨outcome, found, -, rfl⟩ := h
  rw [recorded_of, recorded_of, Diagnostics.addAll_entries]
  rfl

end Recording

namespace Compilation

open Recording

variable {R : Type} [Scalar R] {c : Config R} {g g' : Graph}

/-! ## The remarks of visits -/

/-- What a visit does at its block: the command and the rounds of the body. -/
def attend (c : Config R) (b : Block) : Recording (Option (Command R) × ℕ) := do
  noteUnknown b
  let command ← commandFor c b
  let times ← timesFor c b
  return (command, times)

theorem visit_eq_attend (c : Config R) (g : Graph) (b : Block) :
    visit c g b = (fun v => (v.1, ⟨some b.id, [], g.inSlot b .body, v.2, g.inSlot b .next⟩)) <$>
      attend c b := by
  simp only [visit, attend, map_bind, map_pure]

theorem attend_logs (c : Config R) (b : Block) : Logs Remark (attend c b) :=
  .bind (noteUnknown_logs b) fun _ => .bind (commandFor_logs c b) fun _ =>
    .bind (timesFor_logs c b) fun _ => .pure _

/-- What a visit to a block records. -/
def remarks (c : Config R) (b : Block) : List Diagnostic :=
  ((attend c b).recorded .empty).entries

theorem recorded_visit (b : Block) (ds : Diagnostics) :
    (visit c g b).recorded ds = ds.addAll (remarks c b) := by
  rw [visit_eq_attend, recorded_map, (attend_logs c b).recorded_eq, remarks]

/-- **A walk to the end records the remarks of its visits.** -/
theorem diagnostics_of_walkAlong {budget : ℕ} {bs : List Block} (hbudget : bs.length ≤ budget)
    {commands : List (Command R)} {ds ds' : Diagnostics}
    (h : walkAlong c g budget bs ds = .ok commands ds') :
    ds' = ds.addAll (bs.flatMap (remarks c)) := by
  induction bs generalizing budget commands ds with
  | nil =>
    rw [walkAlong] at h
    cases h
    rfl
  | cons b bs ih =>
    obtain ⟨budget, rfl⟩ : ∃ left, budget = left + 1 :=
      Nat.exists_eq_succ_of_ne_zero (by have := hbudget; simp at this; omega)
    rw [walkAlong] at h
    obtain ⟨⟨command, frame⟩, ds₁, hvisit, h⟩ := bind_eq_ok.1 h
    obtain ⟨rest, ds₂, hrest, h⟩ := bind_eq_ok.1 h
    have hds₁ : (visit c g b).recorded ds = ds₁ := by rw [recorded, hvisit]
    cases h
    rw [ih (Nat.le_of_succ_le_succ hbudget) hrest, ← hds₁, recorded_visit, List.flatMap_cons,
      Diagnostics.addAll_append]

/-- **A compilation that leaves nothing out** records what settling the claims does, and then the
remarks of the unrolled program. -/
theorem diagnostics_eq {blocks : List Block} {commands : List (Command R)} {ds₀ ds : Diagnostics}
    (h : (ofBlocks c blocks).run ds₀ = .ok commands ds)
    (hbudget : ∀ d ∈ ds.entries, d.message ≠ overrunMessage c) :
    let g := (Graph.build blocks .empty).1
    ds = (Graph.build blocks .empty).2.addAll
      ((g.topLevel.flatMap (g.unroll (roundsIn c))).flatMap (remarks c)) := by
  intro g
  have hwalk : walkAlong c g c.maxVisits.toNat (g.topLevel.flatMap (g.unroll (roundsIn c)))
      (Graph.build blocks .empty).2 = .ok commands ds :=
    (ofBlocks_eq_walkAlong c blocks ds₀).symm.trans h
  exact diagnostics_of_walkAlong (length_le_budget h hbudget) hwalk

/-! ## Blocks that differ in their rounds -/

/-- Two blocks take the same place in a program, a visit to the one records what a visit to the
other does, and both run their bodies or neither does. -/
structure Recounted (c : Config R) (a b : Block) : Prop where
  shape : a.SameShape b
  remarks : remarks c a = remarks c b
  rounds : roundsIn c a = 0 ↔ roundsIn c b = 0

theorem Recounted.refl (c : Config R) (b : Block) : Recounted c b b := ⟨.refl b, rfl, Iff.rfl⟩

/-- **The visits from blocks that differ in their rounds** record alike. -/
theorem addAlike_unrollWithin (h : g.Counterpart (Recounted c) g') (levels : ℕ) {a b : Block}
    (hab : Recounted c a b) :
    Diagnostics.AddAlike ((g.unrollWithin (roundsIn c) levels a).flatMap (remarks c))
      ((g'.unrollWithin (roundsIn c) levels b).flatMap (remarks c)) := by
  induction levels generalizing a b with
  | zero => exact fun _ => rfl
  | succ levels ih =>
    have hslot : ∀ slot, Diagnostics.AddAlike
        (((g.inSlot a slot).flatMap (g.unrollWithin (roundsIn c) levels)).flatMap (remarks c))
        (((g'.inSlot b slot).flatMap (g'.unrollWithin (roundsIn c) levels)).flatMap (remarks c)) := by
      intro slot
      rw [List.flatMap_assoc, List.flatMap_assoc]
      exact .flatMap (h.inSlot (fun _ _ hxy => hxy.shape) hab slot) fun _ _ => ih
    have hrounds : ∀ (n : ℕ) (body : List Block),
        (List.replicate n body).flatten.flatMap (remarks c) =
          (List.replicate n (body.flatMap (remarks c))).flatten := fun n body => by
      rw [List.flatMap_def, List.map_flatten, List.map_replicate, List.flatten_flatten,
        List.map_replicate, List.flatMap_def]
    rw [Graph.unrollWithin, Graph.unrollWithin, List.cons_append, List.cons_append,
      List.flatMap_cons, List.flatMap_cons, List.flatMap_append, List.flatMap_append, hrounds,
      hrounds, hab.remarks]
    exact .append (fun _ => rfl) (.append (.rounds hab.rounds (hslot .body)) (hslot .next))

/-- **Programs whose blocks differ in their rounds** get the same diagnostics. -/
theorem diagnostics_of_recounted {blocks blocks' : List Block}
    (hblocks : List.Forall₂ (Recounted c) blocks blocks') {commands commands' : List (Command R)}
    {ds₀ ds₀' ds ds' : Diagnostics} (h : (ofBlocks c blocks).run ds₀ = .ok commands ds)
    (h' : (ofBlocks c blocks').run ds₀' = .ok commands' ds')
    (hbudget : ∀ d ∈ ds.entries, d.message ≠ overrunMessage c)
    (hbudget' : ∀ d ∈ ds'.entries, d.message ≠ overrunMessage c) : ds' = ds := by
  obtain ⟨hgraph, hds⟩ :=
    Graph.counterpart_build (fun _ _ hab => Recounted.shape hab) hblocks Diagnostics.empty
  rw [diagnostics_eq h hbudget, diagnostics_eq h' hbudget', ← hds, List.flatMap_assoc,
    List.flatMap_assoc]
  refine (Diagnostics.AddAlike.flatMap (hgraph.topLevel fun _ _ hab => hab.shape)
    (fun a b hab => ?_) _).symm
  rw [Graph.unroll, Graph.unroll, ← hgraph.blocks.length_eq]
  exact addAlike_unrollWithin hgraph _ hab

/-! ## Loops that state their rounds -/

/-- The integer part of the number that a block states for its rounds, if it states one. -/
def statedRounds? (b : Block) : Option ℤ :=
  (b.input? rounds.inputs).bind fun raw =>
    (finiteNumber raw).toOption.join.bind fun x => (Float.toInteger x).toOption

/-- The block states a number of rounds, and its integer part is between one and the limit. -/
def StatesRounds (c : Config R) (b : Block) : Prop :=
  ∃ n ∈ statedRounds? b, 1 ≤ n ∧ n ≤ c.maxRepeat

instance (c : Config R) (b : Block) : Decidable (StatesRounds c b) :=
  inferInstanceAs (Decidable (∃ n ∈ statedRounds? b, 1 ≤ n ∧ n ≤ c.maxRepeat))

namespace StatesRounds

variable {b : Block}

omit [Scalar R] in
/-- A stated count within the limit is taken without a remark. If there is no default, it is missed
all the same. -/
theorem resolve_eq (h : StatesRounds c b) :
    ∃ x n, resolve c b rounds = (if (c.default? rounds.default).isSome then pure x
        else throw (.missingKey rounds.default)) ∧
      Float.toInteger x = .ok n ∧ 1 ≤ n ∧ n ≤ c.maxRepeat := by
  obtain ⟨n, hstated, hpos, hle⟩ := h
  obtain ⟨raw, hinput, hstated⟩ := Option.bind_eq_some_iff.1 hstated
  obtain ⟨x, hnumber, hn⟩ := Option.bind_eq_some_iff.1 hstated
  have hnumber : finiteNumber raw = .ok (some x) := by
    rcases hraw : finiteNumber raw with fault | x?
    · simp [hraw, Except.toOption] at hnumber
    · simpa [hraw, Except.toOption] using hnumber
  have hn : Float.toInteger x = .ok n := by
    rcases hx : Float.toInteger x with fault | m
    · simp [hx, Except.toOption] at hn
    · simpa [hx, Except.toOption] using hn
  refine ⟨x, n, ?_, hn, hpos, hle⟩
  rw [resolve]
  rcases c.default? rounds.default with _ | default
  · rfl
  · simp only [hinput, hnumber, if_neg (Float.not_lt_zero_of_toInteger hn hpos)]
    rfl

omit [Scalar R] in
theorem loopCount_eq (h : StatesRounds c b) :
    ∃ n, loopCount c b = if (c.default? rounds.default).isSome then pure n
      else throw (.missingKey rounds.default) := by
  obtain ⟨x, n, hresolve, hn, -, hle⟩ := h.resolve_eq
  refine ⟨n, ?_⟩
  rw [loopCount, hresolve]
  split
  · simp only [pure_bind, hn, if_neg (not_lt.2 hle)]
  · rfl

theorem remarks_eq_nil (hloop : b.kind = .loop) (h : StatesRounds c b) : remarks c b = [] := by
  obtain ⟨n, hcount⟩ := h.loopCount_eq
  have hattend : attend c b = (timesFor c b >>= fun times => pure (none, times)) := by
    simp [attend, noteUnknown, commandFor, movement?, hloop]
  rw [remarks, hattend, timesFor, hloop]
  dsimp only
  rw [hcount]
  split
  · rw [pure_bind]
    split <;> rfl
  · rfl

omit [Scalar R] in
/-- A loop that states its rounds runs its body, unless there is no default. -/
theorem roundsIn_eq_zero_iff (hloop : b.kind = .loop) (h : StatesRounds c b) :
    roundsIn c b = 0 ↔ c.default? rounds.default = none := by
  obtain ⟨x, n, hresolve, hn, hpos, hle⟩ := h.resolve_eq
  rw [roundsIn, hloop]
  dsimp only
  rw [hresolve]
  rcases c.default? rounds.default with _ | default
  · exact iff_of_true rfl rfl
  · have hstated : (if (some default).isSome then pure x
        else throw (.missingKey rounds.default) : Recording Float).outcome >>= Float.toInteger =
          .ok n := hn
    rw [hstated]
    refine iff_of_false ?_ (Option.some_ne_none default)
    dsimp only
    omega

/-- Loops of one shape that state their rounds differ in their rounds only. -/
theorem recounted {a : Block} (ha : StatesRounds c a) (hb : StatesRounds c b)
    (hloop : a.kind = .loop) (hshape : a.SameShape b) : Recounted c a b where
  shape := hshape
  remarks := by
    rw [ha.remarks_eq_nil hloop, hb.remarks_eq_nil (hshape.kind.symm.trans hloop)]
  rounds := by
    rw [ha.roundsIn_eq_zero_iff hloop, hb.roundsIn_eq_zero_iff (hshape.kind.symm.trans hloop)]

end StatesRounds

/-- **Diagnostics do not depend on how often a loop runs.** If a loop of a program states a valid
count of rounds, and another one instead, and both programs compile without leaving anything out,
the same diagnostics are recorded in the same order. -/
theorem diagnostics_of_recounted_loop (before after : List Block) {r : Block} {inputs : Fields}
    (hloop : r.kind = .loop) (hr : StatesRounds c r) (hr' : StatesRounds c { r with inputs })
    {commands commands' : List (Command R)} {ds₀ ds₀' ds ds' : Diagnostics}
    (h : (ofBlocks c (before ++ r :: after)).run ds₀ = .ok commands ds)
    (h' : (ofBlocks c (before ++ { r with inputs } :: after)).run ds₀' = .ok commands' ds')
    (hbudget : ∀ d ∈ ds.entries, d.message ≠ overrunMessage c)
    (hbudget' : ∀ d ∈ ds'.entries, d.message ≠ overrunMessage c) : ds' = ds := by
  have hself : ∀ bs : List Block, List.Forall₂ (Recounted c) bs bs := fun bs =>
    List.forall₂_same.2 fun b _ => .refl c b
  refine diagnostics_of_recounted (List.rel_append (hself before) (.cons ?_ (hself after))) h h'
    hbudget hbudget'
  exact hr.recounted hr' hloop ⟨rfl, rfl, rfl, rfl, rfl, rfl⟩

/-- A loop around a loop with a count that is no number, which moves by less than nothing and then
comes to a block of no known kind. Behind both is a wait for a time that is none. -/
def nagging : Data :=
  .list
    [Sample.block "outer" "repeat" "control" 0 0 [("times", .integer 2)] ["inner", "late"],
     Sample.block "inner" "repeat" "control" 40 20 [("times", .text "many")] ["back", "odd"],
     Sample.block "back" "moveForward" "motion" 80 40 [("steps", .integer (-1))] [],
     Sample.block "odd" "dance" "motion" 80 60 [] [],
     Sample.block "late" "wait" "control" 0 80 [("seconds", .text "soon")] []]

/-- What the loop states instead. -/
def oftener : Fields := [("count", .text " 3.9 ")]

theorem diagnostics_of_recounted_loop_nagging :
    ∃ (r : Block) (after : List Block) (commands commands' : List (Command Float))
        (ds ds' : Diagnostics),
      Block.load nagging = .ok (r :: after) ∧
      (ofBlocks Config.robot (r :: after)).run .empty = .ok commands ds ∧ commands.length = 21 ∧
      (ofBlocks Config.robot ({ r with inputs := oftener } :: after)).run .empty =
        .ok commands' ds' ∧ commands'.length = 31 ∧
      ds.entries.map Diagnostic.block = (["inner", "back", "odd", "late"] : List Text).map some ∧
      ds' = ds := by
  have hok : ((Block.load nagging).toOption.any fun blocks => blocks.head?.any fun r =>
      let m := ofBlocks (Config.robot : Config Float) (r :: blocks.tail)
      let m' := ofBlocks (Config.robot : Config Float) ({ r with inputs := oftener } :: blocks.tail)
      m.outcome.toOption.any fun commands => m'.outcome.toOption.any fun commands' =>
        decide (r.kind = .loop ∧
          StatesRounds (Config.robot : Config Float) r ∧
          StatesRounds (Config.robot : Config Float) { r with inputs := oftener } ∧
          commands.length = 21 ∧ commands'.length = 31 ∧
          (m.recorded .empty).entries.map Diagnostic.block =
            (["inner", "back", "odd", "late"] : List Text).map some ∧
          (∀ d ∈ (m.recorded .empty).entries,
            d.message ≠ overrunMessage (Config.robot : Config Float)) ∧
          ∀ d ∈ (m'.recorded .empty).entries,
            d.message ≠ overrunMessage (Config.robot : Config Float))) = true := by
    decide +kernel
  obtain ⟨blocks, hload, hok⟩ := Outcome.any_toOption.1 hok
  obtain ⟨r, hhead, hok⟩ := (Option.any_eq_true ..).1 hok
  have hcons : r :: blocks.tail = blocks := List.cons_head?_tail hhead
  obtain ⟨commands, hrun, hok⟩ := Outcome.any_toOption.1 hok
  obtain ⟨commands', hrun', hok⟩ := Outcome.any_toOption.1 hok
  obtain ⟨hloop, hr, hr', hcount, hcount', hblocks, hbudget, hbudget'⟩ := of_decide_eq_true hok
  have h := run_eq_of_outcome hrun
  have h' := run_eq_of_outcome hrun'
  exact ⟨r, blocks.tail, commands, commands', _, _, hcons.symm ▸ hload, h, hcount, h', hcount',
    hblocks, diagnostics_of_recounted_loop [] blocks.tail hloop hr hr' h h' hbudget hbudget'⟩

end Compilation

end RobotBlocks
