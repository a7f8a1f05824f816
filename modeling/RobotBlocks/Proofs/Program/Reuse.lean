import RobotBlocks.Program.Processor
import RobotBlocks.Proofs.Program.Renewal

/-!
# Compilers, printers and processors can be used again

What a compiler, a printer or a processor holds from earlier programs, also from ones that failed
half way, has no influence on the next program:

* the names on the path of a compiler are the owners of the frames of its stack (`owners`), so it
  walks as one that looks at the frames (`performs_nextVisit`, `performs_visit`, `performs_walk`);
  what was on the path before is cleared at the start (`Compiler.compile_eq`);
* a printer carries its lines along as an emission does, and begins without any
  (`Printer.print_eq`);
* a processor renews its build (`Processor.process_eq`), which depends on the configuration and the
  program alone (`Build.ofData_cases`).

`uses_are_independent` draws the conclusion for every history of uses.
-/

namespace RobotBlocks

variable {R : Type} {α β : Type}

namespace Compilation

theorem nextVisit_of_cycle {f f' : Frame} {outer : List Frame} {b : Block}
    (h : f.next? = some (b, f')) (hpath : onPath (f' :: outer) b = true) :
    nextVisit (f :: outer) =
      Recording.warn b cycleMessage .structural >>= fun _ => nextVisit (f' :: outer) := by
  rw [nextVisit]
  split
  · simp_all
  · rename_i b' f'' h'
    obtain ⟨rfl, rfl⟩ : b = b' ∧ f' = f'' := by simpa [h] using h'
    rw [hpath]
    rfl

end Compilation

namespace Compiler

open Compilation (Frame onPath)

/-! ## Jobs that do what a recording does -/

/-- Begun in the given state, the job has the outcome of a recording and records what the recording
does. Beside the diagnostics only the path may change; behind a success it is as told. -/
def Performs (k : Compiler R) (job : Job R α) (m : Recording α) (left : α → List Text → Prop) :
    Prop :=
  match m k.diagnostics with
  | .ok a diagnostics => ∃ path, left a path ∧ job k = .ok a { k with diagnostics, path }
  | .error fault diagnostics => ∃ path, job k = .error fault { k with diagnostics, path }

namespace Performs

variable {k : Compiler R} {job : Job R α} {m : Recording α} {left : α → List Text → Prop}

theorem pure {a : α} (h : left a k.path) : Performs k (pure a) (pure a) left :=
  ⟨k.path, h, rfl⟩

theorem record (m : Recording α) : Performs k (record m) m fun _ path => path = k.path := by
  unfold Performs Compiler.record
  rcases m k.diagnostics with ⟨a, ds⟩ | ⟨fault, ds⟩
  · exact ⟨k.path, rfl, rfl⟩
  · exact ⟨k.path, rfl⟩

theorem bind {f : α → Job R β} {g : α → Recording β} {left' : β → List Text → Prop}
    (h : Performs k job m left)
    (hf : ∀ a diagnostics path, left a path →
      Performs { k with diagnostics, path } (f a) (g a) left') :
    Performs k (job >>= f) (m >>= g) left' := by
  unfold Performs at h ⊢
  simp only [Bind.bind, EStateM.bind]
  rcases hm : m k.diagnostics with ⟨a, ds⟩ | ⟨fault, ds⟩ <;> simp only [hm] at h
  · obtain ⟨path, hleft, hjob⟩ := h
    rw [hjob]
    exact hf a ds path hleft
  · obtain ⟨path, hjob⟩ := h
    rw [hjob]
    exact ⟨path, rfl⟩

/-- The job may read the state first. -/
theorem get {f : Compiler R → Job R α} (h : Performs k (f k) m left) :
    Performs k (get >>= f) m left := h

/-- The job may change the path first. -/
theorem behind {change : Job R Unit} {f : Unit → Job R α} {path : List Text}
    (hchange : change k = .ok () { k with path }) (h : Performs { k with path } (f ()) m left) :
    Performs k (change >>= f) m left := by
  have hbind : (change >>= f) k = f () { k with path } := by
    simp only [Bind.bind, EStateM.bind, hchange]
  unfold Performs at h ⊢
  rwa [hbind]

end Performs

/-! ## The path -/

/-- The names of the blocks that own the frames of a stack. -/
def owners (stack : List Frame) : List Text := stack.filterMap Frame.owner

theorem contains_owners (stack : List Frame) (b : Block) :
    (owners stack).contains b.id = onPath stack b := by
  rw [Bool.eq_iff_iff, List.contains_iff_mem, owners, List.mem_filterMap, onPath, List.any_eq_true]
  simp

theorem owners_of_next? {f f' : Frame} {outer : List Frame} {b : Block}
    (h : f.next? = some (b, f')) : owners (f :: outer) = owners (f' :: outer) := by
  simp only [owners, List.filterMap_cons, (Frame.blocks_of_next? h).2.2]

/-- Leaving the innermost frame takes its owner from the path. -/
theorem leave_eq {k : Compiler R} {f : Frame} {outer : List Frame}
    (hpath : k.path = owners (f :: outer)) (hnodup : k.path.Nodup) :
    leave f k = .ok () { k with path := owners outer } := by
  rcases howner : f.owner with _ | id
  · have howners : owners (f :: outer) = owners outer := List.filterMap_cons_none howner
    simp only [leave, howner]
    rw [← howners, ← hpath]
    rfl
  · have howners : owners (f :: outer) = id :: owners outer := List.filterMap_cons_some howner
    rw [hpath, howners] at hnodup
    have hfilter : k.path.filter (· != id) = owners outer := by
      rw [hpath, howners, List.filter_cons_of_neg (by simp), List.filter_eq_self]
      intro other hother
      have hne : other ≠ id := fun h => (List.nodup_cons.1 hnodup).1 (h ▸ hother)
      simpa using hne
    simp only [leave, howner]
    rw [← hfilter]
    rfl

/-! ## The walk -/

theorem nextVisit_of_none {f : Frame} {outer : List Frame} (h : f.next? = none) :
    (nextVisit (f :: outer) : Job R _) = leave f >>= fun _ => nextVisit outer := by
  rw [nextVisit]
  split
  · rfl
  · simp_all

theorem nextVisit_of_some {f f' : Frame} {outer : List Frame} {b : Block}
    (h : f.next? = some (b, f')) :
    (nextVisit (f :: outer) : Job R _) = get >>= fun k =>
      if k.path.contains b.id then
        record (Recording.warn b Compilation.cycleMessage .structural) >>= fun _ =>
          nextVisit (f' :: outer)
      else pure (some (b, f' :: outer)) := by
  rw [nextVisit]
  split
  · simp_all
  · rename_i b' f'' h'
    obtain ⟨rfl, rfl⟩ : b = b' ∧ f' = f'' := by simpa [h] using h'
    rfl

/-- What is on the path when a visit has been found: the owners of what is left of the stack, each
once, and not the block to visit. -/
def Found (next : Option (Block × List Frame)) (path : List Text) : Prop :=
  ∀ b stack, next = some (b, stack) → path = owners stack ∧ path.Nodup ∧ b.id ∉ path

/-- **The next visit** is the same whether a block is looked for among the names on the path or
among the owners of the frames. -/
theorem performs_nextVisit (stack : List Frame) {k : Compiler R} (hpath : k.path = owners stack)
    (hnodup : k.path.Nodup) :
    Performs k (nextVisit stack) (Compilation.nextVisit stack) Found := by
  induction stack using Compilation.nextVisit.induct generalizing k with
  | case1 =>
    rw [nextVisit, Compilation.nextVisit]
    exact .pure (by simp [Found])
  | case2 f outer hnext ih =>
    rw [Compilation.nextVisit_of_none hnext, nextVisit_of_none hnext]
    refine .behind (leave_eq hpath hnodup) (ih rfl ?_)
    rw [hpath] at hnodup
    exact hnodup.sublist ((List.sublist_cons_self f outer).filterMap _)
  | case3 f outer b f' hnext hon ih =>
    rw [owners_of_next? hnext] at hpath
    rw [Compilation.nextVisit_of_cycle hnext hon, nextVisit_of_some hnext]
    refine .get ?_
    rw [hpath, contains_owners, hon, if_pos rfl]
    refine .bind (.record _) fun _ ds path h => ?_
    obtain rfl : path = k.path := h
    exact ih hpath hnodup
  | case4 f outer b f' hnext hon =>
    rw [owners_of_next? hnext] at hpath
    have hoff : onPath (f' :: outer) b = false := by simpa using hon
    rw [Compilation.nextVisit_of_some hnext hoff, nextVisit_of_some hnext]
    refine .get ?_
    have hcontains : k.path.contains b.id = false := by rw [hpath, contains_owners, hoff]
    rw [hcontains, if_neg Bool.false_ne_true]
    refine .pure ?_
    intro b' stack h
    cases h
    exact ⟨hpath, hnodup, by simpa using hcontains⟩

variable [Scalar R]

/-- **A visit** is the same whether the block is on the path yet or not. -/
theorem performs_visit (b : Block) (k : Compiler R) :
    Performs k (visit b) (Compilation.visit k.config k.graph b)
      fun visited path => path = b.id :: k.path ∧ visited.2.owner = some b.id := by
  refine .get <| .bind (.record _) fun _ ds path hpath => ?_
  refine .bind (.record _) fun command ds path' hpath' => ?_
  refine .behind rfl <| .get <| .bind (.record _) fun times ds path'' hpath'' => ?_
  exact .pure ⟨by rw [hpath'', hpath', hpath], rfl⟩

/-- **The walk** of a compiler that holds a graph is the walk through that graph. -/
theorem performs_walk (budget : ℕ) (stack : List Frame) {k : Compiler R}
    (hpath : k.path = owners stack) (hnodup : k.path.Nodup) :
    Performs k (walk budget stack) (Compilation.walk k.config k.graph budget stack)
      fun _ _ => True := by
  induction budget generalizing stack k with
  | zero =>
    refine .bind (performs_nextVisit stack hpath hnodup) fun next ds path h => ?_
    rcases next with _ | ⟨b, rest⟩
    · exact .pure trivial
    · exact .get <| .bind (.record _) fun _ ds path h => .pure trivial
  | succ budget ih =>
    refine .bind (performs_nextVisit stack hpath hnodup) fun next ds path h => ?_
    rcases next with _ | ⟨b, rest⟩
    · exact .pure trivial
    obtain ⟨rfl, hnodup', hnew⟩ := h b rest rfl
    refine .bind (performs_visit b _) fun visited ds path h => ?_
    obtain ⟨command, frame⟩ := visited
    obtain ⟨rfl, howner⟩ := h
    have howners : owners (frame :: rest) = b.id :: owners rest :=
      List.filterMap_cons_some howner
    refine .bind (ih (frame :: rest) howners.symm (List.nodup_cons.2 ⟨hnew, hnodup'⟩)) ?_
    exact fun commands ds path _ => .pure trivial

/-- **Compiling blocks** that have been read clears what the compiler holds, so it has the outcome
of the compilation and leaves its diagnostics. -/
theorem compileRead_ok (blocks : List Block) (k : Compiler R) :
    ∃ path graph, compileRead (.ok blocks) k =
      match Compilation.ofBlocks k.config blocks .empty with
      | .ok commands diagnostics => .ok commands { k with diagnostics, path, graph }
      | .error fault diagnostics => .error fault { k with diagnostics, path, graph } := by
  set g := (Graph.build blocks .empty).1
  set ds := (Graph.build blocks .empty).2
  set start : Compiler R := { k with diagnostics := ds, path := [], graph := g } with hstart
  have hread : compileRead (.ok blocks) k =
      (walk k.config.maxVisits.toNat [.ofRoots g.topLevel] >>= fun commands =>
        (modify fun k => { k with path := [] }) >>= fun _ => pure commands) start := rfl
  have hblocks : Compilation.ofBlocks k.config blocks .empty =
      Compilation.walk k.config g k.config.maxVisits.toNat [.ofRoots g.topLevel] ds := rfl
  have hwalk := performs_walk k.config.maxVisits.toNat [.ofRoots g.topLevel] (k := start) rfl
    List.nodup_nil
  unfold Performs at hwalk
  rw [hread, hblocks]
  simp only [Bind.bind, EStateM.bind]
  rcases hcompiled : Compilation.walk k.config g k.config.maxVisits.toNat [.ofRoots g.topLevel] ds
    with ⟨commands, ds'⟩ | ⟨fault, ds'⟩
  · simp only [hstart, hcompiled] at hwalk
    obtain ⟨path, -, hwalk⟩ := hwalk
    rw [hstart, hwalk]
    exact ⟨[], g, rfl⟩
  · simp only [hstart, hcompiled] at hwalk
    obtain ⟨path, hwalk⟩ := hwalk
    rw [hstart, hwalk]
    exact ⟨path, g, rfl⟩

/-- **A compiler that is used again** has the outcome of the compilation and leaves its
diagnostics, whatever it held before. -/
theorem compile_eq (program : Data) (k : Compiler R) :
    ∃ path graph, compile program k =
      match Compilation.ofData k.config program .empty with
      | .ok commands diagnostics => .ok commands { k with diagnostics, path, graph }
      | .error fault diagnostics => .error fault { k with diagnostics, path, graph } := by
  rcases hload : Block.load program with fault | blocks
  · refine ⟨[], k.graph, ?_⟩
    have hcompile : compile program k =
        .error fault { k with diagnostics := .empty, path := [] } := by
      rw [compile, hload]
      rfl
    have hdata : Compilation.ofData k.config program .empty = .error fault .empty := by
      rw [Compilation.ofData, hload]
      rfl
    rw [hcompile, hdata]
  · have hdata : Compilation.ofData k.config program .empty =
        Compilation.ofBlocks k.config blocks .empty := by
      rw [Compilation.ofData, hload]
      rfl
    rw [hdata, compile, hload]
    exact compileRead_ok blocks k

end Compiler

/-! ## Printers -/

namespace Printer

open Code (Emission)

/-- **Emitting** with the lines that are held is the emission that carries them along; one that fails
leaves some of them. -/
theorem emit_eq (count : ℕ) (tasks : List Code.Task) (path : List Text) (p : Printer) :
    ∃ lines, emit count tasks path p =
      match Emission.run p.graph count ⟨tasks, path, p.lines⟩ with
      | .ok e => .ok () { p with lines := e.lines }
      | .error fault => .error fault { p with lines } := by
  induction count generalizing tasks path p with
  | zero => exact ⟨p.lines, rfl⟩
  | succ count ih =>
    by_cases htasks : tasks.isEmpty
    · refine ⟨p.lines, ?_⟩
      simp only [emit, Emission.run, htasks, if_true]
      rfl
    · simp only [emit, Emission.run, htasks, Bool.false_eq_true, if_false]
      rcases hstep : Emission.step p.graph ⟨tasks, path, p.lines⟩ with fault | e
      · refine ⟨p.lines, ?_⟩
        simp only [bind, EStateM.bind, get, getThe, MonadStateOf.get, EStateM.get, hstep]
        rfl
      · obtain ⟨lines, hemit⟩ := ih e.tasks e.path { p with lines := e.lines }
        refine ⟨lines, ?_⟩
        simp only [bind, EStateM.bind, get, getThe, MonadStateOf.get, EStateM.get, hstep]
        exact hemit

/-- Printing blocks that have been read gives their code. -/
theorem printRead_ok (blocks : List Block) (p : Printer) :
    ∃ p' : Printer, printRead (.ok blocks) p =
      match Code.ofBlocks blocks with
      | .ok code => .ok code p'
      | .error fault => .error fault p' := by
  set g := (Graph.build blocks .empty).1 with hgraph
  obtain ⟨lines, hemit⟩ := emit_eq (3 * g.blocks.length)
    (g.topLevel.map fun b => .block b 1) [] ⟨[], g⟩
  have hprint : printRead (.ok blocks) p =
      (emit (3 * g.blocks.length) (g.topLevel.map fun b => .block b 1) [] >>= fun _ =>
        (modify fun p => if p.lines.isEmpty then { p with lines := [⟨1, "pass"⟩] } else p) >>=
          fun _ => get >>= fun p => pure (("\n" : Text).intercalate
            (Code.opening ++ p.lines.map Code.Line.render ++ Code.ending))) ⟨[], g⟩ := rfl
  rw [hprint, Code.ofBlocks, Code.lines, ← hgraph, Emission.ofRoots]
  simp only [bind, EStateM.bind, hemit]
  rcases Emission.run g (3 * g.blocks.length) ⟨g.topLevel.map fun b => .block b 1, [], []⟩
    with fault | e
  · exact ⟨⟨lines, g⟩, rfl⟩
  · refine ⟨⟨if e.lines.isEmpty then [⟨1, "pass"⟩] else e.lines, g⟩, ?_⟩
    simp only [modify, modifyGet, MonadStateOf.modifyGet, EStateM.modifyGet, Except.bind]
    by_cases hnone : e.lines.isEmpty
    · simp only [hnone, if_true]
      rfl
    · simp only [hnone, Bool.false_eq_true, if_false]
      rfl

/-- **A printer that is used again** prints the code of the program, whatever it held before. -/
theorem print_eq (program : Data) (p : Printer) :
    ∃ p' : Printer, print program p =
      match Code.ofData program with
      | .ok code => .ok code p'
      | .error fault => .error fault p' := by
  rcases hload : Block.load program with fault | blocks
  · refine ⟨{ p with lines := [] }, ?_⟩
    simp only [print, hload, Code.ofData]
    rfl
  · have hcode : Code.ofData program = Code.ofBlocks blocks := by
      rw [Code.ofData, hload]
      rfl
    rw [hcode, print, hload]
    exact printRead_ok blocks p

end Printer

/-! ## Processors -/

namespace Build

variable [Scalar R]

/-- With a configuration a program is built, to one build and whatever was built before, or it
fails, with one fault. -/
theorem ofData_cases (c : Config R) (program : Data) :
    (∃ good built, built.config = c ∧
      ∀ b : Build R, b.config = c → ofData program b = .ok good built) ∨
    ∃ fault, ∀ b : Build R, b.config = c →
      ∃ b', b'.config = c ∧ ofData program b = .error fault b' := by
  rcases hload : Block.load program with fault | blocks
  · refine .inr ⟨fault, fun b hb => ⟨b, hb, ?_⟩⟩
    rw [ofData, hload]
    rfl
  have hbuild : ∀ b : Build R, ofData program b = (ofBlocks blocks).run b := by
    intro b
    rw [ofData, hload]
    rfl
  rcases hcompile : (Compilation.ofBlocks c blocks).run .empty with ⟨commands, ds⟩ | ⟨fault, ds⟩
  · rcases hcode : Code.ofBlocks blocks with fault | code
    · refine .inr ⟨fault, fun b hb => ?_⟩
      rw [hbuild, run_ofBlocks, hb, hcompile]
      simp only [hcode]
      exact ⟨_, rfl, rfl⟩
    · refine .inl ⟨!ds.hasErrors, ⟨c, ds, commands, code, blocks.length, !ds.hasErrors⟩, rfl, ?_⟩
      intro b hb
      rw [hbuild, run_ofBlocks, hb, hcompile]
      simp only [hcode]
  · refine .inr ⟨fault, fun b hb => ?_⟩
    rw [hbuild, run_ofBlocks, hb, hcompile]
    exact ⟨_, rfl, rfl⟩

end Build

namespace Processor

open Compiler (compileRead)
open Printer (printRead)

variable [Scalar R]

/-- The processor that holds a build, with what its compiler holds beside the diagnostics. -/
def holding (b : Build R) (path : List Text) (graph : Graph) : Processor R :=
  ⟨⟨b.config, b.diagnostics, path, graph⟩, b.commands, b.code, b.blockCount, b.successful⟩

/-- Processing blocks that have been read: the compiler first, and then a printer of its own. -/
theorem process_of_read {program : Data} {blocks : List Block}
    (hload : Block.load program = .ok blocks) (p : Processor R) :
    process program p =
      match compileRead (.ok blocks) p.compiler with
      | .error fault compiler => .error fault { p with blockCount := blocks.length, compiler }
      | .ok commands compiler =>
        match printRead (.ok blocks) .fresh with
        | .error fault _ =>
          .error fault { p with blockCount := blocks.length, compiler, commands }
        | .ok code _ => .ok (!compiler.diagnostics.hasErrors)
          ⟨compiler, commands, code, blocks.length, !compiler.diagnostics.hasErrors⟩ := by
  simp only [process, hload, bind, EStateM.bind, modify, modifyGet, MonadStateOf.modifyGet,
    EStateM.modifyGet, get, getThe, MonadStateOf.get, EStateM.get, EStateM.run]
  rcases compileRead (.ok blocks) p.compiler with ⟨commands, k⟩ | ⟨fault, k⟩
  · rcases printRead (.ok blocks) .fresh with ⟨code, p'⟩ | ⟨fault, p'⟩ <;> rfl
  · rfl

/-- **A processor that is used again** renews its build, whatever else it held before. -/
theorem process_eq (program : Data) (p : Processor R) :
    ∃ path graph, process program p =
      match Build.ofData program p.build with
      | .ok good b => .ok good (holding b path graph)
      | .error fault b => .error fault (holding b path graph) := by
  rcases hload : Block.load program with fault | blocks
  · refine ⟨p.compiler.path, p.compiler.graph, ?_⟩
    simp only [process, Build.ofData, hload]
    rfl
  have hbuild : Build.ofData program p.build = (Build.ofBlocks blocks).run p.build := by
    rw [Build.ofData, hload]
    rfl
  obtain ⟨path, graph, hcompile⟩ := Compiler.compileRead_ok blocks p.compiler
  obtain ⟨printer, hprint⟩ := Printer.printRead_ok blocks .fresh
  refine ⟨path, graph, ?_⟩
  rw [hbuild, Build.run_ofBlocks, process_of_read hload, hcompile, hprint, EStateM.run]
  have hconfig : p.build.config = p.compiler.config := rfl
  rw [hconfig]
  rcases Compilation.ofBlocks p.compiler.config blocks .empty with ⟨commands, ds⟩ | ⟨fault, ds⟩
  · rcases Code.ofBlocks blocks with fault | code <;> rfl
  · rfl

/-- With a configuration a processor comes to one build of a program, or it fails with one fault. -/
theorem process_cases (c : Config R) (program : Data) :
    (∃ good built, built.config = c ∧ ∀ p : Processor R, p.compiler.config = c →
      ∃ p', p'.build = built ∧ process program p = .ok good p') ∨
    ∃ fault, ∀ p : Processor R, p.compiler.config = c →
      ∃ p', p'.compiler.config = c ∧ process program p = .error fault p' := by
  rcases Build.ofData_cases c program with ⟨good, built, hbuilt, h⟩ | ⟨fault, h⟩
  · refine .inl ⟨good, built, hbuilt, fun p hp => ?_⟩
    obtain ⟨path, graph, hprocess⟩ := process_eq program p
    rw [h p.build hp] at hprocess
    exact ⟨holding built path graph, rfl, hprocess⟩
  · refine .inr ⟨fault, fun p hp => ?_⟩
    obtain ⟨path, graph, hprocess⟩ := process_eq program p
    obtain ⟨b, hb, hbuild⟩ := h p.build hp
    rw [hbuild] at hprocess
    exact ⟨holding b path graph, hb, hprocess⟩

end Processor

/-! ## Histories -/

/-- What a run gives or fails with. -/
def outcomeOf {σ : Type} : EStateM.Result Fault σ α → Except Fault α
  | .ok a _ => .ok a
  | .error fault _ => .error fault

/-- The state in which a run ends, also if it fails. -/
def stateOf {σ : Type} : EStateM.Result Fault σ α → σ
  | .ok _ s => s
  | .error _ s => s

/-- What a host does with the compiler, the printer and the processor that it keeps. -/
inductive Use
  | compile (program : Data)
  | print (program : Data)
  | process (program : Data)
  | reset

/-- A compiler, a printer and a processor that are kept. -/
structure Workshop (R : Type) where
  compiler : Compiler R
  printer : Printer
  processor : Processor R

namespace Workshop

/-- None of the three has been used. -/
def fresh (c c' : Config R) : Workshop R := ⟨.fresh c, .fresh, .fresh c'⟩

variable [Scalar R]

/-- What is kept after a use, also one that fails. -/
def after (w : Workshop R) : Use → Workshop R
  | .compile program => { w with compiler := stateOf (Compiler.compile program w.compiler) }
  | .print program => { w with printer := stateOf (Printer.print program w.printer) }
  | .process program => { w with processor := stateOf (Processor.process program w.processor) }
  | .reset => { w with processor := w.processor.reset }

variable {c c' : Config R}

/-- No use changes the configurations. -/
theorem config_after (use : Use) {w : Workshop R} (hc : w.compiler.config = c)
    (hc' : w.processor.compiler.config = c') :
    (w.after use).compiler.config = c ∧ (w.after use).processor.compiler.config = c' := by
  cases use with
  | compile program =>
    refine ⟨?_, hc'⟩
    obtain ⟨path, graph, h⟩ := Compiler.compile_eq program w.compiler
    rw [after, h]
    rcases Compilation.ofData w.compiler.config program .empty with ⟨commands, ds⟩ | ⟨fault, ds⟩ <;>
      exact hc
  | print program => exact ⟨hc, hc'⟩
  | process program =>
    refine ⟨hc, ?_⟩
    rcases Processor.process_cases c' program with ⟨good, built, hbuilt, h⟩ | ⟨fault, h⟩
    · obtain ⟨p', hp', hprocess⟩ := h w.processor hc'
      rw [after, hprocess]
      exact (congrArg Build.config hp').trans hbuilt
    · obtain ⟨p', hp', hprocess⟩ := h w.processor hc'
      rw [after, hprocess]
      exact hp'
  | reset => exact ⟨hc, hc'⟩

theorem config_foldl_after (history : List Use) {w : Workshop R} (hc : w.compiler.config = c)
    (hc' : w.processor.compiler.config = c') :
    (history.foldl after w).compiler.config = c ∧
      (history.foldl after w).processor.compiler.config = c' := by
  induction history generalizing w with
  | nil => exact ⟨hc, hc'⟩
  | cons use history ih =>
    obtain ⟨h, h'⟩ := config_after use hc hc'
    exact ih h h'

/-- **Uses do not influence each other.** Whatever a host has done with the compiler, the printer and
the processor that it keeps, also where this failed half way, the next use comes to what it would
come to if nothing had been done yet: compiling gives the same commands and diagnostics or fails in
the same way, printing gives the same code or fails in the same way, and processing gives the same
build or fails in the same way. After a reset the processor holds the build of a new one, of which
everything is asked. -/
theorem uses_are_independent (c c' : Config R) (history : List Use) (program : Data) :
    let w := history.foldl after (fresh c c')
    (let kept := Compiler.compile program w.compiler
     let new := Compiler.compile program (.fresh c)
     outcomeOf kept = outcomeOf new ∧ (stateOf kept).diagnostics = (stateOf new).diagnostics) ∧
    outcomeOf (Printer.print program w.printer) = outcomeOf (Printer.print program .fresh) ∧
    (let kept := Processor.process program w.processor
     let new := Processor.process program (.fresh c')
     outcomeOf kept = outcomeOf new ∧
       ∀ good, outcomeOf kept = .ok good → (stateOf kept).build = (stateOf new).build) ∧
    w.processor.reset.build = (Processor.fresh c').build := by
  intro w
  obtain ⟨hc, hc'⟩ : w.compiler.config = c ∧ w.processor.compiler.config = c' :=
    config_foldl_after history rfl rfl
  refine ⟨?_, ?_, ?_, ?_⟩
  · intro kept new
    obtain ⟨path, graph, hkept⟩ := Compiler.compile_eq program w.compiler
    obtain ⟨path', graph', hnew⟩ := Compiler.compile_eq program (.fresh c)
    simp only [kept, new, hkept, hnew, hc, Compiler.fresh]
    rcases Compilation.ofData c program .empty with ⟨commands, ds⟩ | ⟨fault, ds⟩ <;>
      exact ⟨rfl, rfl⟩
  · obtain ⟨p, hkept⟩ := Printer.print_eq program w.printer
    obtain ⟨p', hnew⟩ := Printer.print_eq program .fresh
    rw [hkept, hnew]
    rcases Code.ofData program with fault | code <;> rfl
  · intro kept new
    rcases Processor.process_cases c' program with ⟨good, built, -, h⟩ | ⟨fault, h⟩
    · obtain ⟨p, hp, hkept⟩ := h w.processor hc'
      obtain ⟨p', hp', hnew⟩ := h (.fresh c') rfl
      simp only [kept, new, hkept, hnew]
      exact ⟨rfl, fun _ _ => hp.trans hp'.symm⟩
    · obtain ⟨p, -, hkept⟩ := h w.processor hc'
      obtain ⟨p', -, hnew⟩ := h (.fresh c') rfl
      simp only [kept, new, hkept, hnew]
      refine ⟨rfl, fun good hgood => ?_⟩
      cases hgood
  · simp only [Processor.reset, Processor.build, Processor.fresh, Compiler.fresh, hc']

end Workshop

end RobotBlocks
