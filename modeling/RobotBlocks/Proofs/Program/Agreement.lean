import RobotBlocks.Proofs.Graph.FirstVisits
import RobotBlocks.Proofs.Outcome
import RobotBlocks.Proofs.Program.Emission

/-!
# Code and commands agree

A program is compiled by a walk over frames with a budget, and printed by a run over tasks with
levels. If every container runs its body and the budget is enough, the two agree on the structure of
the program:

* the blocks that the walk visits are the unrolled program (`visited_eq`), so the first visits to
  them are the reachable blocks in preorder, which are also the blocks that the emission handles;
* every task to handle a block has the level of the block, one more than the steps into bodies on
  the owner links up from it (`Levelled`), so the lines apart from those of empty bodies are the
  lines of the blocks, in order, at these levels (`levelled_run`);
* the text of a line tells the movement of its block (`movementOf?_textFor`), and so does the
  command of a visit (`movement_of_visit`).

`agrees_with_walk` puts the three together.
-/

namespace RobotBlocks

/-! ## Steps into bodies -/

namespace Graph

variable {g : Graph}

/-- The block that owns a block. -/
def ownerOf? (g : Graph) (b : Block) : Option Block :=
  (g.owner? b.id).bind (Block.find? g.blocks)

/-- How many of the first so many owner links up from a block lead out of a body. -/
def bodyStepsWithin (g : Graph) : (links : ℕ) → Block → ℕ
  | 0, _ => 0
  | links + 1, b =>
    match g.ownerOf? b with
    | none => 0
    | some p => g.bodyStepsWithin links p + if p.slotFor b = .body then 1 else 0

/-- How many bodies a block stands in: the steps into bodies on the way down to it from its root.
There are fewer owner links than blocks. -/
def bodySteps (g : Graph) (b : Block) : ℕ := g.bodyStepsWithin g.blocks.length b

theorem ownerOf?_eq_some (hg : g.Settled) {p b : Block} (hp : p ∈ g.blocks)
    (h : g.owner? b.id = some p.id) : g.ownerOf? b = some p := by
  rw [ownerOf?, h, Option.bind_some]
  exact find?_eq_some_of_nodup Block.id hg.nodup_ids hp

/-- From the depth of a block on, more links make no difference. -/
theorem bodyStepsWithin_succ (hg : g.Settled) {links n : ℕ} {b : Block} (hn : g.AtDepth n b.id)
    (h : n ≤ links) : g.bodyStepsWithin (links + 1) b = g.bodyStepsWithin links b := by
  induction links generalizing n b with
  | zero =>
    obtain rfl : n = 0 := Nat.le_zero.1 h
    cases hn with
    | root hnone => simp [bodyStepsWithin, ownerOf?, hnone]
  | succ links ih =>
    cases hn with
    | root hnone => simp [bodyStepsWithin, ownerOf?, hnone]
    | @owned _ other n howner hn =>
      obtain ⟨p, hp, rfl⟩ := hg.owner_mem howner
      have hparent := ih hn (Nat.le_of_succ_le_succ h)
      rw [bodyStepsWithin, bodyStepsWithin, ownerOf?_eq_some hg hp howner]
      simp only [hparent]

theorem bodySteps_of_root {b : Block} (h : b ∈ g.topLevel) : g.bodySteps b = 0 := by
  have hnone := (mem_topLevel.1 h).2
  rw [bodySteps]
  cases g.blocks.length with
  | zero => rfl
  | succ links => simp [bodyStepsWithin, ownerOf?, hnone]

/-- **A child stands in one body more than its owner if it hangs in the body**, and in as many if it
hangs behind. -/
theorem bodySteps_of_child (hg : g.Settled) {p b : Block} {slot : Slot} (hp : g.Reachable p)
    (h : b ∈ g.inSlot p slot) :
    g.bodySteps b = g.bodySteps p + if slot = .body then 1 else 0 := by
  obtain ⟨hmem, n, hn⟩ := (reachable_iff hg).1 hp
  obtain ⟨hchild, hslot⟩ := mem_inSlot.1 h
  have howner := ((hg.mem_childrenOf hmem).1 hchild).2
  obtain ⟨links, hlinks⟩ : ∃ links, g.blocks.length = links + 1 :=
    Nat.exists_eq_succ_of_ne_zero (by have := hn.lt_length hg hmem; omega)
  have hparent : g.bodyStepsWithin (links + 1) p = g.bodyStepsWithin links p := by
    have := hn.lt_length hg hmem
    exact bodyStepsWithin_succ hg hn (by omega)
  rw [bodySteps, bodySteps, hlinks, hparent, bodyStepsWithin, ownerOf?_eq_some hg hmem howner]
  simp only [hslot]

end Graph

/-! ## The visits of a compilation -/

namespace Compilation

open Recording

variable {R : Type} [Scalar R] {c : Config R} {g : Graph}

/-- The blocks that a walk visits, with so many visits left, also one at which it fails. -/
def visited (c : Config R) (g : Graph) : (budget : ℕ) → List Frame → Diagnostics → List Block
  | 0, _, _ => []
  | budget + 1, stack, ds =>
    match nextVisit stack ds with
    | .ok (some (b, rest)) ds' =>
      b :: match visit c g b ds' with
        | .ok (_, frame) ds'' => visited c g budget (frame :: rest) ds''
        | .error .. => []
    | _ => []

/-- **The visits of a walk that succeeds** are the first blocks of its agenda. -/
theorem visited_eq (hg : g.Settled) {budget n : ℕ} {stack : List Frame} (h : OnTrack g n stack)
    {commands : List (Command R)} {ds ds' : Diagnostics}
    (hwalk : walk c g budget stack ds = .ok commands ds') :
    visited c g budget stack ds = (agenda (g.unroll (roundsIn c)) stack).take budget := by
  induction budget generalizing n stack commands ds ds' with
  | zero => simp [visited]
  | succ budget ih =>
    rcases nextVisit_onTrack (g.unroll (roundsIn c)) h with
      ⟨hnext, hagenda⟩ | ⟨b, rest, m, hnext, hrest, hmem, hb, hagenda⟩
    · rw [visited, hnext, hagenda]
      rfl
    · have hreach : g.Reachable b := (Graph.reachable_iff hg).2 ⟨hmem, m, hb⟩
      rw [walk, hnext, pure_bind] at hwalk
      obtain ⟨⟨command, frame⟩, ds₁, hvisit, hwalk⟩ := bind_eq_ok.1 hwalk
      obtain ⟨commands', ds₂, hwalk', -⟩ := bind_eq_ok.1 hwalk
      obtain ⟨-, rfl⟩ := visit_eq_ok c g hvisit
      have hpush := hrest.push hg hmem hb (roundsIn c b)
      rw [visited, hnext, hagenda, Graph.unroll_eq _ hg hreach]
      simp only [pure, EStateM.pure, hvisit]
      rw [ih hpush hwalk']
      simp [agenda, Frame.agenda]

/-- A command tells the movement of the kind of its block. -/
theorem movement_of_visit {b : Block} {command : Option (Command R)} {frame : Frame}
    {ds ds' : Diagnostics} (h : visit c g b ds = .ok (command, frame) ds') :
    command.map Command.movement = (movement? b.kind).map Prod.fst := by
  obtain ⟨-, ds₁, -, h⟩ := bind_eq_ok.1 h
  obtain ⟨command', ds₂, hcommand, h⟩ := bind_eq_ok.1 h
  obtain ⟨times, ds₃, -, h⟩ := bind_eq_ok.1 h
  cases h
  rcases hkind : movement? b.kind with _ | ⟨m, q⟩
  · simp only [commandFor, hkind] at hcommand
    cases hcommand
    rfl
  · simp only [commandFor, hkind] at hcommand
    obtain ⟨value, ds₄, -, hcommand⟩ := bind_eq_ok.1 hcommand
    cases hcommand
    rfl

/-- A program of which a compilation leaves nothing out has no more visits than its budget. -/
theorem length_le_budget {blocks : List Block} {commands : List (Command R)} {ds₀ ds : Diagnostics}
    (h : ofBlocks c blocks ds₀ = .ok commands ds)
    (hbudget : ∀ d ∈ ds.entries, d.message ≠ overrunMessage c) :
    let g := (Graph.build blocks .empty).1
    (g.topLevel.flatMap (g.unroll (roundsIn c))).length ≤ c.maxVisits.toNat := by
  intro g
  rw [ofBlocks_eq_walkAlong] at h
  have hnone : ds.entries.filter (fun d => d.message = overrunMessage c) = [] := by
    simpa using hbudget
  rw [(walkAlong_eq_ok h fun d hd => (IsOrdinary.of_build d hd).ne_overrunMessage).2] at hnone
  simpa using hnone

/-- **A compilation that leaves nothing out** visits the unrolled program. -/
theorem visited_eq_unrolled {blocks : List Block} {commands : List (Command R)}
    {ds₀ ds : Diagnostics} (h : ofBlocks c blocks ds₀ = .ok commands ds)
    (hbudget : ∀ d ∈ ds.entries, d.message ≠ overrunMessage c) :
    let g := (Graph.build blocks .empty).1
    visited c g c.maxVisits.toNat [.ofRoots g.topLevel] (Graph.build blocks .empty).2 =
      g.topLevel.flatMap (g.unroll (roundsIn c)) := by
  intro g
  have hwalk : walk c g c.maxVisits.toNat [.ofRoots g.topLevel] (Graph.build blocks .empty).2 =
      .ok commands ds := h
  have hagenda : agenda (g.unroll (roundsIn c)) [.ofRoots g.topLevel] =
      g.topLevel.flatMap (g.unroll (roundsIn c)) := by
    simp [agenda, Frame.agenda, Frame.ofRoots]
  rw [visited_eq (Graph.settled_build blocks .empty) (onTrack_roots g) hwalk, hagenda,
    List.take_of_length_le (length_le_budget h hbudget)]

theorem movements_of_walkAlong {budget : ℕ} {bs : List Block} {commands : List (Command R)}
    {ds ds' : Diagnostics} (h : walkAlong c g budget bs ds = .ok commands ds') :
    commands.map Command.movement =
      (bs.take budget).filterMap fun b => (movement? b.kind).map Prod.fst := by
  induction bs generalizing budget commands ds with
  | nil =>
    rw [walkAlong] at h
    cases h
    simp
  | cons b bs ih =>
    cases budget with
    | zero =>
      rw [walkAlong, Recording.warn_eq_of] at h
      cases h
      rfl
    | succ budget =>
      rw [walkAlong] at h
      obtain ⟨⟨command, frame⟩, ds₁, hvisit, h⟩ := bind_eq_ok.1 h
      obtain ⟨rest, ds₂, hrest, h⟩ := bind_eq_ok.1 h
      have hmovement := movement_of_visit hvisit
      cases h
      rw [List.map_append, ih hrest, List.take_succ_cons, List.filterMap_cons, ← hmovement]
      cases command <;> rfl

end Compilation

/-! ## The lines of a program -/

namespace Code

/-- The function that a movement calls in code. -/
def callee : Movement → Text
  | .forward => "robot.move_forward"
  | .backward => "robot.move_backward"
  | .turnLeft => "robot.turn_left"
  | .turnRight => "robot.turn_right"
  | .wait => "time.sleep"

/-- The movement that a line of code calls. -/
def movementOf? (text : Text) : Option Movement :=
  Movement.all.find? fun m => (callee m ++ "(").isPrefixOf text

/-- The line of an empty body. -/
def emptyBody : Text := "pass"

/-- The line of a block, if it has one, at one level more than it has steps into bodies above it. -/
def lineOf? (g : Graph) (b : Block) : Option Line :=
  (textFor b).toOption.join.map (Line.mk (1 + g.bodySteps b))

/-- **The text of a line tells the movement of the kind of its block**, and it is not that of an
empty body. -/
theorem movementOf?_textFor {b : Block} {text : Option Text} (h : textFor b = .ok text) :
    text.bind movementOf? = (Compilation.movement? b.kind).map Prod.fst ∧
      ∀ t ∈ text, t ≠ emptyBody := by
  -- The first character of a line tells it from that of an empty body.
  have hne : ∀ {t : Text}, (t.head? == emptyBody.head?) = false → ∀ t' ∈ some t, t' ≠ emptyBody := by
    rintro t h t' ⟨⟩ rfl
    simp at h
  cases hkind : b.kind <;> simp only [textFor, hkind] at h
  case conditional =>
    cases h
    exact ⟨rfl, hne rfl⟩
  case sensorQuery =>
    cases h
    split
    · exact ⟨rfl, hne rfl⟩
    · exact ⟨rfl, hne rfl⟩
  case startEvent | unknown =>
    cases h
    exact ⟨rfl, by simp⟩
  all_goals
    obtain ⟨n, -, rfl⟩ := Outcome.map_eq_ok.1 h
    exact ⟨rfl, hne rfl⟩

namespace Emission

variable {g : Graph} {e e' : Emission} {n : ℕ}

/-- Every task to handle a block has the level that the owner links of the block give. -/
def Levelled (g : Graph) (tasks : List Task) : Prop :=
  ∀ b level, Task.block b level ∈ tasks → level = 1 + g.bodySteps b

theorem levelled_ofRoots (g : Graph) : Levelled g (ofRoots g.topLevel).tasks := by
  intro b level h
  obtain ⟨root, hroot, heq⟩ := List.mem_map.1 h
  cases heq
  rw [Graph.bodySteps_of_root hroot]

/-- The tasks that follow the line of a block have the levels of its children. -/
theorem levelled_tasksAfter (hg : g.Settled) {b : Block} (hb : g.Reachable b) (count : ℕ) :
    Levelled g (tasksAfter g b (1 + g.bodySteps b) count) := by
  intro child level h
  have hchild : (child ∈ g.inSlot b .body ∧ level = 1 + g.bodySteps b + 1) ∨
      (child ∈ g.inSlot b .next ∧ level = 1 + g.bodySteps b) := by
    unfold tasksAfter at h
    split at h
    · simpa [eq_comm] using h
    · exact .inr (by simpa [eq_comm] using h)
  rcases hchild with ⟨hchild, rfl⟩ | ⟨hchild, rfl⟩
  · rw [Graph.bodySteps_of_child hg hb hchild]
    rfl
  · rw [Graph.bodySteps_of_child hg hb hchild]
    rfl

/-- The lines apart from those of empty bodies. -/
def codeLines (lines : List Line) : List Line := lines.filter fun l => l.text != emptyBody

/-- **A step** keeps the levels right, and adds the line of the block that it handles. -/
theorem levelled_step (hg : g.Settled) (h : OnCourse g n e.tasks e.path)
    (hlevels : Levelled g e.tasks) (hstep : e.step g = .ok e') :
    Levelled g e'.tasks ∧
      codeLines e'.lines = codeLines e.lines ++ e.handles?.toList.filterMap (lineOf? g) ∧
      ∀ b ∈ e.handles?, ∃ text, textFor b = .ok text := by
  obtain ⟨tasks, path, lines⟩ := e
  have htail : ∀ {task : Task} {rest : List Task}, Levelled g (task :: rest) → Levelled g rest :=
    fun h b level hmem => h b level (List.mem_cons_of_mem _ hmem)
  cases h with
  | done =>
    cases hstep
    exact ⟨hlevels, by simp [handles?], by simp [handles?]⟩
  | @bodyEnd _ level start tasks path h =>
    cases hstep
    refine ⟨htail hlevels, ?_, by simp [handles?]⟩
    by_cases hempty : (lines.length == start) = true
    · simp [handles?, hempty, codeLines, emptyBody]
    · simp [handles?, hempty]
  | leave hid h =>
    cases hstep
    exact ⟨htail hlevels, by simp [handles?], by simp [handles?]⟩
  | @block _ b level tasks path hb hn h =>
    have hpath : b.id ∉ path := h.not_mem_path hn
    have hreach : g.Reachable b := (Graph.reachable_iff hg).2 ⟨hb, n, hn⟩
    obtain rfl : level = 1 + g.bodySteps b := hlevels b level List.mem_cons_self
    simp only [step, List.contains_eq_mem, hpath, decide_false, Bool.false_eq_true, if_false]
      at hstep
    obtain ⟨text, htext, hstep⟩ := Outcome.bind_eq_ok.1 hstep
    cases hstep
    have hhandles : handles? ⟨.block b (1 + g.bodySteps b) :: tasks, path, lines⟩ = some b := by
      simp [handles?, hpath]
    rw [hhandles]
    refine ⟨fun child level hmem => ?_, ?_, ?_⟩
    · rcases List.mem_append.1 hmem with hmem | hmem
      · exact levelled_tasksAfter hg hreach _ child level hmem
      · exact htail hlevels child level hmem
    · have hcode := (movementOf?_textFor htext).2
      cases text with
      | none => simp [lineOf?, htext, Except.toOption]
      | some text => simpa [codeLines, lineOf?, htext, Except.toOption] using hcode text rfl
    · rintro b' ⟨⟩
      exact ⟨text, htext⟩

/-- **A run** adds the lines of the blocks that it handles, in order and at their levels. -/
theorem levelled_run (hg : g.Settled) {count : ℕ} (h : OnCourse g n e.tasks e.path)
    (hlevels : Levelled g e.tasks) (hrun : e.run g count = .ok e') :
    codeLines e'.lines = codeLines e.lines ++ (e.handled g count).filterMap (lineOf? g) ∧
      ∀ b ∈ e.handled g count, ∃ text, textFor b = .ok text := by
  induction count generalizing e n with
  | zero =>
    cases hrun
    simp [handled]
  | succ count ih =>
    by_cases hne : e.tasks = []
    · rw [run_of_nil hne] at hrun
      cases hrun
      simp [handled_of_nil hne]
    · rw [run_succ hne] at hrun
      obtain ⟨e₁, hstep, hrun⟩ := Outcome.bind_eq_ok.1 hrun
      obtain ⟨⟨m, h₁⟩, -, -⟩ := onCourse_step hg h hstep hne
      obtain ⟨hlevels₁, hlines, htexts⟩ := levelled_step hg h hlevels hstep
      obtain ⟨hrest, hmore⟩ := ih h₁ hlevels₁ hrun
      rw [handled, hstep]
      refine ⟨?_, fun b hb => ?_⟩
      · rw [hrest, hlines, List.filterMap_append, List.append_assoc]
      · rcases List.mem_append.1 hb with hb | hb
        · exact htexts b (by simpa using hb)
        · exact hmore b hb

end Emission

open Emission

variable {g : Graph}

/-- The lines of empty bodies call no movement. -/
theorem movements_codeLines (lines : List Line) :
    (codeLines lines).filterMap (fun l => movementOf? l.text) =
      lines.filterMap fun l => movementOf? l.text := by
  rw [codeLines, List.filterMap_filter]
  refine List.filterMap_congr fun l _ => ?_
  by_cases hempty : l.text = emptyBody
  · rw [hempty]
    rfl
  · simp [hempty]

/-- **The lines of a program** that can be made are, apart from those of empty bodies, the lines of
the reachable blocks in preorder, and these are the blocks that are handled. -/
theorem codeLines_eq (hg : g.Settled) {ls : List Line} (h : lines g = .ok ls) :
    (ofRoots g.topLevel).handled g (3 * g.blocks.length) = g.preorder ∧
      codeLines ls = g.preorder.filterMap (lineOf? g) ∧
      ∀ b ∈ g.preorder, ∃ text, textFor b = .ok text := by
  obtain ⟨e, hrun, h⟩ := Outcome.bind_eq_ok.1 h
  have hstart := onCourse_ofRoots g
  obtain ⟨-, hhandled, hdone⟩ := onCourse_run hg hstart hrun
  rw [agenda_ofRoots, hdone (cost_ofRoots_le hg)] at hhandled
  have hpreorder : (ofRoots g.topLevel).handled g (3 * g.blocks.length) = g.preorder := by
    simpa [agenda] using hhandled.symm
  obtain ⟨hlines, htexts⟩ := levelled_run hg hstart (levelled_ofRoots g) hrun
  rw [hpreorder] at hlines htexts
  refine ⟨hpreorder, ?_, htexts⟩
  have hls : codeLines ls = codeLines e.lines := by
    cases h
    split
    · rename_i hempty
      rw [List.isEmpty_iff.1 hempty]
      rfl
    · rfl
  rw [hls, hlines]
  rfl

/-- **Code and commands agree on the structure of a program** in which every container that can be
reached runs its body, if the budget is enough and nothing fails. The blocks handled by the emission
of code are the first visits of the walk, in order; the lines, apart from those of empty bodies, are
the lines of these blocks at one level more than they have steps into bodies above them. If every
such body is run once, the lines that call a movement are in order those of the commands. -/
theorem agrees_with_walk {R : Type} [Scalar R] {c : Config R} {blocks : List Block}
    {commands : List (Command R)} {ds₀ ds : Diagnostics} {ls : List Line}
    (hcompile : (Compilation.ofBlocks c blocks).run ds₀ = .ok commands ds)
    (hlines : lines (Graph.build blocks .empty).1 = .ok ls)
    (hbudget : ∀ d ∈ ds.entries, d.message ≠ Compilation.overrunMessage c)
    (hrounds : ∀ b, (Graph.build blocks .empty).1.Reachable b → b.isContainer = true →
      1 ≤ Compilation.roundsIn c b) :
    let g := (Graph.build blocks .empty).1
    let handled := (ofRoots g.topLevel).handled g (3 * g.blocks.length)
    handled = Graph.firstVisits (Compilation.visited c g c.maxVisits.toNat
      [.ofRoots g.topLevel] (Graph.build blocks .empty).2) ∧
    codeLines ls = handled.filterMap (lineOf? g) ∧
    ((∀ b, g.Reachable b → b.isContainer = true → Compilation.roundsIn c b = 1) →
      ls.filterMap (fun l => movementOf? l.text) = commands.map Command.movement) := by
  intro g handled
  have hg : g.Settled := Graph.settled_build blocks .empty
  obtain ⟨hhandled, hcode, htexts⟩ := codeLines_eq hg hlines
  refine ⟨?_, ?_, fun honce => ?_⟩
  · rw [Compilation.visited_eq_unrolled hcompile hbudget, Graph.firstVisits_unroll_roots hg hrounds]
    exact hhandled
  · rw [hcode]
    exact congrArg _ hhandled.symm
  · have hwalk := (Compilation.ofBlocks_eq_walkAlong c blocks ds₀).symm.trans hcompile
    rw [Compilation.movements_of_walkAlong hwalk,
      List.take_of_length_le (Compilation.length_le_budget hcompile hbudget),
      Graph.unroll_roots_eq_preorder hg honce, ← movements_codeLines, hcode, List.filterMap_filterMap]
    refine List.filterMap_congr fun b hb => ?_
    obtain ⟨text, htext⟩ := htexts b hb
    rw [← (movementOf?_textFor htext).1, lineOf?, htext]
    cases text <;> rfl

/-- A program with a conditional in the body of a loop and a block behind the loop. -/
def nested : Data :=
  .list
    [Sample.block "start" "onStart" "events" 40 20 [] ["loop"],
     Sample.block "loop" "repeat" "control" 40 60 [("times", .integer 1)] ["if", "step"],
     Sample.block "if" "if" "control" 80 100 [("condition", .text "1 < 2")] ["turn"],
     Sample.block "turn" "turnRight" "motion" 120 140 [("degrees", .integer 90)] [],
     Sample.block "step" "moveForward" "motion" 40 180 [("steps", .integer 20)] []]

theorem agrees_with_walk_nested :
    ∃ blocks commands ds ls, Block.load nested = .ok blocks ∧
      (Compilation.ofBlocks (Config.robot : Config Float) blocks).run .empty = .ok commands ds ∧
      let g := (Graph.build blocks .empty).1
      let handled := (ofRoots g.topLevel).handled g (3 * g.blocks.length)
      lines g = .ok ls ∧
      handled = Graph.firstVisits (Compilation.visited (Config.robot : Config Float) g
        (Config.robot : Config Float).maxVisits.toNat [.ofRoots g.topLevel]
        (Graph.build blocks .empty).2) ∧
      codeLines ls = handled.filterMap (lineOf? g) ∧
      ls.filterMap (fun l => movementOf? l.text) = commands.map Command.movement := by
  have hok : ((Block.load nested).toOption.any fun blocks =>
      let g := (Graph.build blocks .empty).1
      Outcome.returned ((Compilation.ofBlocks (Config.robot : Config Float) blocks).run .empty)
        fun _ ds => ds.entries.isEmpty &&
          (lines g).toOption.any (fun ls => ls.map Line.level == [1, 2, 3, 1]) &&
          g.blocks.all fun b =>
            !b.isContainer || Compilation.roundsIn (Config.robot : Config Float) b == 1) = true := by
    decide +kernel
  obtain ⟨blocks, hload, hreturned⟩ := Outcome.any_toOption.1 hok
  obtain ⟨commands, ds, hrun, hwalk⟩ := Outcome.returned_eq_true.1 hreturned
  simp only [Bool.and_eq_true, List.all_eq_true] at hwalk
  obtain ⟨⟨hempty, hnested⟩, hall⟩ := hwalk
  obtain ⟨ls, hlines, -⟩ := Outcome.any_toOption.1 hnested
  have hg := Graph.settled_build blocks .empty
  have honce : ∀ b, (Graph.build blocks .empty).1.Reachable b → b.isContainer = true →
      Compilation.roundsIn (Config.robot : Config Float) b = 1 := fun b hb hcontainer => by
    simpa [hcontainer] using hall b ((Graph.reachable_iff hg).1 hb).1
  have hbudget : ∀ d ∈ ds.entries,
      d.message ≠ Compilation.overrunMessage (Config.robot : Config Float) := by
    rw [List.isEmpty_iff.1 hempty]
    simp
  obtain ⟨hvisits, hcode, hmovements⟩ := agrees_with_walk hrun hlines hbudget
    fun b hb hcontainer => (honce b hb hcontainer).ge
  exact ⟨blocks, commands, ds, ls, hload, hrun, hlines, hvisits, hcode, hmovements honce⟩

end Code

end RobotBlocks
