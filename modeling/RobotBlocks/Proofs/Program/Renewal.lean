import RobotBlocks.Program.Build
import RobotBlocks.Proofs.Program.Emission
import RobotBlocks.Proofs.Program.Totality

/-!
# How a build is renewed

A build is renewed part by part: the number of blocks, the diagnostics and the commands, and then the
code and the success. Reading the blocks, compiling and printing can each fail because of an integer
beyond the range of doubles, at different blocks (`Block.yields_load`, `failsIff_walkAlong`,
`Code.yields_ofBlocks`): printing handles every block that can be reached, also those that the walk
never visits, for they stand in a body without rounds or behind the last visit of the budget.

`ofData_renews` says what is left in each case. After a failure the parts may be those of two
programs (`not_renewed_or_kept`).
-/

namespace RobotBlocks

open Outcome

theorem Outcome.Yields.map {α β : Type} {P : Prop} {Q : α → Prop} {x : Except Fault α}
    (h : Yields P Q x) (f : α → β) : Yields P (fun _ => True) (x.map f) := by
  rcases h with ⟨hP, rfl⟩ | ⟨hP, a, rfl, -⟩
  · exact .inl ⟨hP, rfl⟩
  · exact .inr ⟨hP, f a, rfl, trivial⟩

namespace Compilation

/-- The block states a quantity that is too large. -/
def Excessive (b : Block) : Prop := ∃ q, quantity? b.kind = some q ∧ Overstates b q

end Compilation

open Compilation (Complete Excessive Overstates quantity? roundsIn)

/-! ## Printing -/

namespace Code

/-- What is printed as a number in place of a value: the default if it is missing or a truth value. -/
def numberOf (value : Option Data) (default : Int) : Data :=
  match value with
  | none | some .null | some (.flag _) => .integer default
  | some value => value

/-- How a value is printed: as a number if it is one, and else in quotes. -/
def printed (value : Data) : Except Fault String :=
  match value.toNumber with
  | .ok x => .ok (if (Binary.ofFloat x).isWhole
      then intText ((Binary.ofFloat x).truncate?.getD 0) else Float.shortestText x)
  | .error .integerTooLarge => .error .integerTooLarge
  | .error _ => .ok (quoted value.shown)

theorem numberText_eq (value : Option Data) (default : Int) :
    numberText value default = printed (numberOf value default) := rfl

/-- A value is printed unless it is an integer that is too large. -/
theorem yields_printed (value : Data) : Yields value.IsTooLarge (fun _ => True) (printed value) := by
  rw [← Data.toNumber_eq_tooLarge_iff]
  unfold printed
  split
  next h => exact .inr ⟨by simp [h], _, rfl, trivial⟩
  next h => exact .inl ⟨h, rfl⟩
  next fault hne h => exact .inr ⟨by rw [h]; simpa using hne, _, rfl, trivial⟩

/-- **A number is printed** unless it is too large. -/
theorem yields_numberText {value : Option Data} {default : Int}
    (hdefault : ¬ (Data.integer default).IsTooLarge) :
    Yields (∃ raw, value = some raw ∧ raw.IsTooLarge) (fun _ => True)
      (numberText value default) := by
  have hlarge : (numberOf value default).IsTooLarge ↔ ∃ raw, value = some raw ∧ raw.IsTooLarge := by
    rcases value with _ | v
    · simp [numberOf, hdefault]
    · cases v <;> simp [numberOf, hdefault] <;> simp [Data.IsTooLarge]
  rw [numberText_eq]
  exact (yields_printed _).congr hlarge

/-- The line of a block that states a quantity tells the number, with a default that is not too
large. -/
theorem textFor_of_quantity {b : Block} {q : Compilation.Quantity} (h : quantity? b.kind = some q) :
    ∃ (default : Int) (f : Text → Option Text), ¬ (Data.integer default).IsTooLarge ∧ textFor b =
      (numberText (b.input? q.inputs) default >>= fun n => pure (Text.ofString n)).map f := by
  have hsmall : ∀ n ∈ [1, 10, 90], ¬ (Data.integer n).IsTooLarge := by
    have hfinite : ∀ n ∈ ([1, 10, 90] : List Int), (Float.ofInt n).isInf = false := by
      decide
    rintro n hn ⟨m, hm, hinf⟩
    cases hm
    exact absurd (hfinite n hn) (by simp [hinf])
  cases hkind : b.kind <;>
    simp only [hkind, quantity?, Compilation.movement?, Option.map_some, Option.map_none,
      Option.some.injEq, reduceCtorEq] at h <;>
    subst h <;> simp only [textFor, hkind] <;>
    refine ⟨_, _, ?_, rfl⟩ <;> exact hsmall _ (by simp)

/-- The line of any other block can be made. -/
theorem textFor_of_no_quantity {b : Block} (h : quantity? b.kind = none) :
    ∃ text, textFor b = .ok text := by
  cases hkind : b.kind <;>
    simp only [hkind, quantity?, Compilation.movement?, Option.map_some, Option.map_none,
      reduceCtorEq] at h <;>
    simp only [textFor, hkind] <;> exact ⟨_, rfl⟩

/-- **The line of a block** can be made unless the block states a quantity that is too large. -/
theorem yields_textFor (b : Block) : Yields (Excessive b) (fun _ => True) (textFor b) := by
  rcases hq : quantity? b.kind with _ | q
  · obtain ⟨text, htext⟩ := textFor_of_no_quantity hq
    rw [htext]
    exact Yields.congr (.ok trivial) (by simp [Excessive, hq])
  · obtain ⟨default, f, hdefault, htext⟩ := textFor_of_quantity hq
    rw [htext]
    have hnumber : Yields _ (fun _ => True)
        (numberText (b.input? q.inputs) default >>= fun n => pure (Text.ofString n)) :=
      (yields_numberText hdefault).bind fun n _ => .ok trivial
    exact (hnumber.map f).congr (by simp [Excessive, hq, Overstates])

namespace Emission

variable {g : Graph} {n : ℕ}

/-- **A step** succeeds unless the line of the block that it handles cannot be made. -/
theorem yields_step (g : Graph) (e : Emission) :
    Yields (∃ b ∈ e.handles?, Excessive b) (fun _ => True) (e.step g) := by
  obtain ⟨tasks, path, lines⟩ := e
  rcases tasks with _ | ⟨_ | _ | _, tasks⟩
  case cons.block b level =>
    by_cases hpath : b.id ∈ path
    · simp only [step, handles?, List.contains_eq_mem, hpath, decide_true, if_true]
      exact Yields.congr (.ok trivial) (by simp)
    · simp only [step, handles?, List.contains_eq_mem, hpath, decide_false, Bool.false_eq_true,
        if_false]
      exact ((yields_textFor b).bind fun text _ => .ok trivial).congr (by simp)
  all_goals exact Yields.congr (.ok trivial) (by simp [handles?])

/-- **A run** succeeds unless the line of one of the blocks that it handles cannot be made. -/
theorem yields_run (g : Graph) (count : ℕ) (e : Emission) :
    Yields (∃ b ∈ e.handled g count, Excessive b) (fun _ => True) (e.run g count) := by
  induction count generalizing e with
  | zero => exact Yields.congr (.ok trivial) (by simp [handled])
  | succ count ih =>
    by_cases hne : e.tasks = []
    · rw [run_of_nil hne, handled_of_nil hne]
      exact Yields.congr (.ok trivial) (by simp)
    · rw [run_succ hne, handled]
      rcases yields_step g e with ⟨⟨b, hb, hlarge⟩, hstep⟩ | ⟨hnone, e', hstep, -⟩
      · rw [hstep]
        exact .inl ⟨⟨b, by simpa using hb, hlarge⟩, rfl⟩
      · rw [hstep]
        refine (ih e').congr ⟨?_, ?_⟩
        · rintro ⟨b, hb, hlarge⟩
          exact ⟨b, List.mem_append_right _ hb, hlarge⟩
        · rintro ⟨b, hb, hlarge⟩
          rcases List.mem_append.1 hb with hb | hb
          · exact absurd ⟨b, by simpa using hb, hlarge⟩ hnone
          · exact ⟨b, hb, hlarge⟩

end Emission

open Emission

/-- **A program is printed** unless a block that can be reached states a quantity that is too
large. -/
theorem yields_ofBlocks (blocks : List Block) :
    Yields (∃ b, (Graph.build blocks .empty).1.Reachable b ∧ Excessive b) (fun _ => True)
      (ofBlocks blocks) := by
  set g := (Graph.build blocks .empty).1 with hgraph
  have hg : g.Settled := Graph.settled_build blocks .empty
  have hstart := onCourse_ofRoots g
  have hreach : ∀ b, b ∈ g.preorder ↔ g.Reachable b := fun b => Graph.mem_preorder hg
  rw [ofBlocks, ← hgraph, lines]
  rcases yields_run g (3 * g.blocks.length) (ofRoots g.topLevel) with
    ⟨⟨b, hb, hlarge⟩, hrun⟩ | ⟨hnone, e, hrun, -⟩
  · have hb := (handled_isPrefix hg hstart _).subset hb
    rw [agenda_ofRoots] at hb
    rw [hrun]
    exact .inl ⟨⟨b, (hreach b).1 hb, hlarge⟩, rfl⟩
  · obtain ⟨-, hhandled, hdone⟩ := onCourse_run hg hstart hrun
    rw [agenda_ofRoots, hdone (cost_ofRoots_le hg)] at hhandled
    have hall : g.preorder = (ofRoots g.topLevel).handled g (3 * g.blocks.length) := by
      simpa [agenda] using hhandled
    rw [hrun]
    refine .inr ⟨?_, _, rfl, trivial⟩
    rintro ⟨b, hb, hlarge⟩
    exact hnone ⟨b, hall ▸ (hreach b).2 hb, hlarge⟩

end Code

/-! ## Building -/

namespace Build

variable {R : Type} [Scalar R]

/-- The parts of a build are set one after the other, until one of them fails. -/
theorem run_ofBlocks (blocks : List Block) (b : Build R) :
    (ofBlocks blocks).run b =
      match (Compilation.ofBlocks b.config blocks).run .empty with
      | .error fault ds => .error fault { b with blockCount := blocks.length, diagnostics := ds }
      | .ok commands ds =>
        match Code.ofBlocks blocks with
        | .error fault =>
          .error fault { b with blockCount := blocks.length, diagnostics := ds, commands }
        | .ok code =>
          .ok (!ds.hasErrors) ⟨b.config, ds, commands, code, blocks.length, !ds.hasErrors⟩ := by
  have hcompile : (Compilation.ofBlocks b.config blocks).run .empty =
      (Compilation.ofBlocks b.config blocks).run b.diagnostics := by
    rw [EStateM.run, EStateM.run, Compilation.ofBlocks_eq_walkAlong,
      Compilation.ofBlocks_eq_walkAlong]
  rw [hcompile]
  unfold ofBlocks
  change EStateM.run _ { b with blockCount := blocks.length } = _
  rcases hrun : (Compilation.ofBlocks b.config blocks).run b.diagnostics with
    ⟨commands, ds⟩ | ⟨fault, ds⟩
  · rcases Code.ofBlocks blocks with fault | code <;> rfl
  · rfl

/-- **What becomes of a build** when a program is processed, whatever was built before. One of four
things happens:

* a block states a coordinate that is too large, and the build stays as it was;
* compiling fails, and the number of blocks and the diagnostics alone are those of the program; with
  a configuration that provides what compiling needs, as those of all agents do, it fails because of
  a quantity of a block that is visited;
* printing fails because of a quantity of a block that can be reached, and the commands are those of
  the program, too, but not the code and the success;
* nothing fails, and all parts are those of the program. -/
theorem ofData_renews (b : Build R) (program : Data) :
    let misplaced := ∃ fields, .record fields ∈ Block.itemsOf program ∧ Block.Misplaced fields
    (misplaced ∧ (ofData program).run b = .error .integerTooLarge b) ∨
    (¬ misplaced ∧ ∃ blocks, Block.load program = .ok blocks ∧
      let g := (Graph.build blocks .empty).1
      let visits := (g.topLevel.flatMap (g.unroll (roundsIn b.config))).take
        b.config.maxVisits.toNat
      (∃ fault ds, (Compilation.ofBlocks b.config blocks).run .empty = .error fault ds ∧
        (ofData program).run b =
          .error fault { b with blockCount := blocks.length, diagnostics := ds } ∧
        (Complete b.config → fault = .integerTooLarge ∧ ∃ v ∈ visits, Excessive v)) ∨
      ∃ commands ds, (Compilation.ofBlocks b.config blocks).run .empty = .ok commands ds ∧
        (Complete b.config → ∀ v ∈ visits, ¬ Excessive v) ∧
        (((∃ v, g.Reachable v ∧ Excessive v) ∧ (ofData program).run b = .error .integerTooLarge
            { b with blockCount := blocks.length, diagnostics := ds, commands }) ∨
          ((∀ v, g.Reachable v → ¬ Excessive v) ∧ ∃ code, Code.ofBlocks blocks = .ok code ∧
            (ofData program).run b =
              .ok (!ds.hasErrors) ⟨b.config, ds, commands, code, blocks.length, !ds.hasErrors⟩))) := by
  intro misplaced
  rcases Block.yields_load program with ⟨hmisplaced, hload⟩ | ⟨hplaced, blocks, hload, -⟩
  · refine .inl ⟨hmisplaced, ?_⟩
    simp only [ofData, hload]
    rfl
  refine .inr ⟨hplaced, blocks, hload, ?_⟩
  intro g visits
  have hbuild : (ofData program).run b = (ofBlocks blocks).run b := by rw [ofData, hload]
  have hvisits : ∀ ds, Complete b.config →
      ((∃ v ∈ visits, Excessive v) ∧ ∃ ds',
        (Compilation.ofBlocks b.config blocks).run ds = .error .integerTooLarge ds') ∨
      ((¬ ∃ v ∈ visits, Excessive v) ∧ ∃ commands ds',
        (Compilation.ofBlocks b.config blocks).run ds = .ok commands ds') := by
    intro ds hc
    rw [EStateM.run, Compilation.ofBlocks_eq_walkAlong]
    exact (Compilation.failsIff_walkAlong hc _ _ _).run _
  rw [hbuild, run_ofBlocks]
  rcases hcompile : (Compilation.ofBlocks b.config blocks).run .empty with
    ⟨commands, ds⟩ | ⟨fault, ds⟩
  · refine .inr ⟨commands, ds, rfl, fun hc v hv hlarge => ?_, ?_⟩
    · rcases hvisits .empty hc with ⟨-, ds', hfails⟩ | ⟨hnone, -⟩
      · rw [hcompile] at hfails
        cases hfails
      · exact hnone ⟨v, hv, hlarge⟩
    · rcases Code.yields_ofBlocks blocks with ⟨hlarge, hcode⟩ | ⟨hnone, code, hcode, -⟩
      · rw [hcode]
        exact .inl ⟨hlarge, rfl⟩
      · rw [hcode]
        exact .inr ⟨fun v hv hlarge => hnone ⟨v, hv, hlarge⟩, code, rfl, rfl⟩
  · refine .inl ⟨fault, ds, rfl, rfl, fun hc => ?_⟩
    rcases hvisits .empty hc with ⟨hlarge, ds', hfails⟩ | ⟨-, commands, ds', hruns⟩
    · rw [hcompile] at hfails
      cases hfails
      exact ⟨rfl, hlarge⟩
    · rw [hcompile] at hruns
      cases hruns

/-- A loop without rounds around a move of more steps than a double can hold. -/
def unwalked : Data :=
  .list
    [Sample.block "loop" "repeat" "control" 0 0 [("times", .integer 0)] ["move"],
     Sample.block "move" "moveForward" "motion" 40 20 [("steps", .integer (10 ^ 400))] []]

/-- A build may fail and yet hold parts of two programs. -/
theorem not_renewed_or_kept : ¬ ∀ (b b' : Build Float) (program : Data) (fault : Fault),
    (ofData program).run b = .error fault b' →
      b'.commands = b.commands ∧ b'.code = b.code ∧ b'.blockCount = b.blockCount ∧
        b'.successful = b.successful := by
  intro h
  have hfails : (Outcome.failed ((ofData unwalked).run (fresh (Config.robot : Config Float)))
      fun _ b' => b'.blockCount == 2) = true := by decide +kernel
  obtain ⟨fault, b', hrun, htwo⟩ := Outcome.failed_eq_true.1 hfails
  obtain ⟨-, -, hcount, -⟩ := h _ _ _ _ hrun
  simp [beq_iff_eq.1 htwo, fresh] at hcount

end Build

end RobotBlocks
