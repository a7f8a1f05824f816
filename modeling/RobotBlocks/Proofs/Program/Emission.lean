import RobotBlocks.Program.Code
import RobotBlocks.Proofs.Program.Walk

/-!
# The emission of code goes through a forest

The lines of a program are emitted from a stack of tasks with a guard of its own against cycles.
Below the roots there are none to guard against:

* the tasks and the path stand on owner links (`OnCourse`), each task to leave a block standing
  between what hangs off the block and what is done after it, so a block to handle is deeper than all
  blocks of the path (`OnCourse.not_mem_path`) and each step stays on course
  (`onCourse_step`);
* the blocks that the tasks lead to are their `agenda`, and a step takes the block that it handles
  from the front of it (`onCourse_step`); the blocks handled in a run are hence an initial part of the
  reachable blocks, in their order (`onCourse_run`, `handled_isPrefix`);
* each step takes a unit of the `cost` of the tasks, which is at most three for each block at the
  start (`cost_ofRoots_le`), so the run comes to its end.

`walks_stay_in_forest` states what this means for emission and compiling together.
-/

namespace RobotBlocks

namespace Code

namespace Emission

variable {g : Graph}

/-! ## What a step handles -/

/-- The block that the next step handles, if it handles one. -/
def handles? (e : Emission) : Option Block :=
  match e.tasks with
  | .block b _ :: _ => if e.path.contains b.id then none else some b
  | _ => none

/-- The blocks handled in so many steps, also one whose line cannot be made. -/
def handled (g : Graph) : (count : ℕ) → Emission → List Block
  | 0, _ => []
  | count + 1, e =>
    e.handles?.toList ++
      match e.step g with
      | .ok e' => handled g count e'
      | .error _ => []

/-! ## The path -/

/-- The tasks and the path stand on owner links: a block is left behind all that hangs off it, and
the blocks to handle before that lie one deeper than it. The number is the depth of the blocks to
handle next. -/
inductive OnCourse (g : Graph) : ℕ → List Task → List Text → Prop
  | done : OnCourse g 0 [] []
  | block {n : ℕ} {b : Block} {level : ℕ} {tasks : List Task} {path : List Text}
    (hb : b ∈ g.blocks) (hn : g.AtDepth n b.id) (h : OnCourse g n tasks path) :
    OnCourse g n (.block b level :: tasks) path
  | bodyEnd {n level start : ℕ} {tasks : List Task} {path : List Text}
    (h : OnCourse g n tasks path) : OnCourse g n (.bodyEnd level start :: tasks) path
  | leave {n : ℕ} {id : Text} {tasks : List Task} {path : List Text} (hid : g.AtDepth n id)
    (h : OnCourse g n tasks path) : OnCourse g (n + 1) (.leave id :: tasks) (id :: path)

namespace OnCourse

/-- Every block of the path lies above the blocks to handle next. -/
theorem path_lt {n : ℕ} {tasks : List Task} {path : List Text} (h : OnCourse g n tasks path) :
    ∀ id ∈ path, ∃ m < n, g.AtDepth m id := by
  induction h with
  | done => simp
  | block _ _ _ ih => exact ih
  | bodyEnd _ ih => exact ih
  | @leave n id tasks path hid _ ih =>
    intro id' hid'
    rcases List.mem_cons.1 hid' with rfl | hid'
    · exact ⟨n, Nat.lt_succ_self n, hid⟩
    · obtain ⟨m, hm, hat⟩ := ih id' hid'
      exact ⟨m, Nat.lt_succ_of_lt hm, hat⟩

/-- **No block to handle next is on the path.** -/
theorem not_mem_path {n : ℕ} {tasks : List Task} {path : List Text}
    (h : OnCourse g n tasks path) {id : Text} (hid : g.AtDepth n id) : id ∉ path := by
  intro hmem
  obtain ⟨m, hm, hat⟩ := h.path_lt id hmem
  have := hat.unique hid
  omega

/-- Leaving the innermost block of the path leaves the others on it. -/
theorem filter_eq {n : ℕ} {tasks : List Task} {path : List Text} (h : OnCourse g n tasks path)
    {id : Text} (hid : g.AtDepth n id) : (id :: path).filter (· != id) = path := by
  rw [List.filter_cons_of_neg (by simp), List.filter_eq_self]
  intro id' hid'
  have hne : id' ≠ id := fun e => h.not_mem_path hid (e ▸ hid')
  simpa using hne

/-- Blocks at the depth of the blocks to handle next can be put in front. -/
theorem append {n : ℕ} {tasks : List Task} {path : List Text} (h : OnCourse g n tasks path)
    (level : ℕ) {bs : List Block} (hbs : ∀ b ∈ bs, b ∈ g.blocks ∧ g.AtDepth n b.id) :
    OnCourse g n (bs.map (fun b => Task.block b level) ++ tasks) path := by
  induction bs with
  | nil => exact h
  | cons b bs ih =>
    obtain ⟨hb, hn⟩ := hbs b List.mem_cons_self
    exact .block hb hn (ih fun x hx => hbs x (List.mem_cons_of_mem b hx))

/-- The tasks that follow the line of a block go in front of those that were behind it. -/
theorem push (hg : g.Settled) {n : ℕ} {b : Block} {tasks : List Task} {path : List Text}
    (hb : b ∈ g.blocks) (hn : g.AtDepth n b.id) (h : OnCourse g n tasks path) (level count : ℕ) :
    OnCourse g (n + 1) (tasksAfter g b level count ++ tasks) (b.id :: path) := by
  have hslot : ∀ slot, ∀ c ∈ g.inSlot b slot, c ∈ g.blocks ∧ g.AtDepth (n + 1) c.id :=
    fun slot c hc => hn.child hg hb hc
  have hfollowing := (OnCourse.leave hn h).append level (hslot .next)
  unfold tasksAfter
  split
  · simp only [List.append_assoc, List.cons_append, List.nil_append]
    exact (OnCourse.bodyEnd hfollowing).append (level + 1) (hslot .body)
  · simpa using hfollowing

end OnCourse

theorem onCourse_ofRoots (g : Graph) :
    OnCourse g 0 (ofRoots g.topLevel).tasks (ofRoots g.topLevel).path := by
  have hroots : ∀ b ∈ g.topLevel, b ∈ g.blocks ∧ g.AtDepth 0 b.id := fun b hb => by
    obtain ⟨hmem, hnone⟩ := Graph.mem_topLevel.1 hb
    exact ⟨hmem, .root hnone⟩
  have h := (OnCourse.done (g := g)).append 1 hroots
  simpa [ofRoots] using h

/-! ## The agenda -/

/-- The blocks that a task leads to. -/
def visits (g : Graph) : Task → List Block
  | .block b _ => g.unroll (fun _ => 1) b
  | .bodyEnd .. | .leave _ => []

/-- The blocks that are still to handle. -/
def agenda (g : Graph) (tasks : List Task) : List Block := tasks.flatMap (visits g)

/-- Whether a task ends something and handles no block. -/
def isEnd : Task → Bool
  | .block .. => false
  | .bodyEnd .. | .leave _ => true

/-- How many steps the tasks take at most. -/
def cost (g : Graph) (tasks : List Task) : ℕ := 3 * (agenda g tasks).length + tasks.countP isEnd

theorem agenda_append (tasks more : List Task) :
    agenda g (tasks ++ more) = agenda g tasks ++ agenda g more := List.flatMap_append

theorem agenda_blocks (bs : List Block) (level : ℕ) :
    agenda g (bs.map fun b => Task.block b level) = bs.flatMap (g.unroll fun _ => 1) := by
  simp [agenda, List.flatMap_map, visits]

theorem countP_blocks (bs : List Block) (level : ℕ) :
    (bs.map fun b => Task.block b level).countP isEnd = 0 := by
  rw [List.countP_eq_zero]
  simp [isEnd]

/-- The tasks that follow the line of a block lead to what hangs off it, and there are at most two
ends among them. -/
theorem agenda_tasksAfter (b : Block) (level count : ℕ) :
    agenda g (tasksAfter g b level count) =
        (g.inSlot b .body ++ g.inSlot b .next).flatMap (g.unroll fun _ => 1) ∧
      (tasksAfter g b level count).countP isEnd ≤ 2 := by
  unfold tasksAfter
  split
  · constructor
    · rw [agenda_append, agenda_blocks, List.flatMap_append]
      simp [agenda, visits, List.flatMap_map]
    · rw [List.countP_append, countP_blocks, List.countP_cons, List.countP_append, countP_blocks]
      simp [isEnd]
  next hbody =>
    rw [Graph.inSlot_body_eq_nil (by simpa using hbody)]
    constructor
    · rw [agenda_append, agenda_blocks]
      simp [agenda, visits]
    · rw [List.countP_append, countP_blocks]
      simp [isEnd]

/-- Handling a reachable block takes it from the front of the agenda. -/
theorem agenda_block (hg : g.Settled) {b : Block} (h : g.Reachable b) (level count : ℕ)
    (tasks : List Task) : agenda g (.block b level :: tasks) =
      b :: agenda g (tasksAfter g b level count ++ tasks) := by
  rw [agenda_append, (agenda_tasksAfter b level count).1]
  simp [agenda, visits, Graph.unroll_one_eq hg h]

theorem cost_block (hg : g.Settled) {b : Block} (h : g.Reachable b) (level count : ℕ)
    (tasks : List Task) :
    cost g (tasksAfter g b level count ++ tasks) < cost g (.block b level :: tasks) := by
  have hends := (agenda_tasksAfter (g := g) b level count).2
  rw [cost, cost, agenda_block hg h level count, List.countP_append, List.countP_cons,
    List.length_cons]
  omega

/-- Only what has no tasks costs nothing. -/
theorem eq_nil_of_cost (hg : g.Settled) {n : ℕ} {tasks : List Task} {path : List Text}
    (h : OnCourse g n tasks path) (hcost : cost g tasks = 0) : tasks = [] := by
  cases h with
  | done => rfl
  | @block _ b level tasks _ hb hn h =>
    have := cost_block hg ((Graph.reachable_iff hg).2 ⟨hb, n, hn⟩) level 0 tasks
    omega
  | bodyEnd => simp [cost, List.countP_cons, isEnd] at hcost
  | leave => simp [cost, List.countP_cons, isEnd] at hcost

/-- At the start all reachable blocks are on the agenda. -/
theorem agenda_ofRoots (g : Graph) : agenda g (ofRoots g.topLevel).tasks = g.preorder := by
  rw [ofRoots, agenda_blocks, Graph.preorder]

theorem cost_ofRoots_le (hg : g.Settled) :
    cost g (ofRoots g.topLevel).tasks ≤ 3 * g.blocks.length := by
  have hlength := Graph.length_preorder_le hg
  rw [cost, agenda_ofRoots, ofRoots, countP_blocks]
  omega

/-! ## Steps -/

variable {e e' : Emission} {n : ℕ}

/-- A block that the next step handles is the first of the agenda. -/
theorem handles?_isPrefix (hg : g.Settled) (h : OnCourse g n e.tasks e.path) :
    e.handles?.toList <+: agenda g e.tasks := by
  obtain ⟨tasks, path, lines⟩ := e
  cases h with
  | @block n b level tasks path hb hn h =>
    have hreach : g.Reachable b := (Graph.reachable_iff hg).2 ⟨hb, n, hn⟩
    have hpath : b.id ∉ path := h.not_mem_path hn
    simp [handles?, hpath, agenda, visits, Graph.unroll_one_eq hg hreach]
  | done => exact List.nil_prefix
  | bodyEnd => exact List.nil_prefix
  | leave => exact List.nil_prefix

/-- **A step** of an emission on course stays on course, takes the block that it handles from the
front of the agenda and brings down the cost. -/
theorem onCourse_step (hg : g.Settled) (h : OnCourse g n e.tasks e.path) (hstep : e.step g = .ok e')
    (hne : e.tasks ≠ []) :
    (∃ m, OnCourse g m e'.tasks e'.path) ∧
      agenda g e.tasks = e.handles?.toList ++ agenda g e'.tasks ∧
      cost g e'.tasks < cost g e.tasks := by
  obtain ⟨tasks, path, lines⟩ := e
  cases h with
  | done => exact absurd rfl hne
  | @bodyEnd _ level start tasks path h =>
    cases hstep
    exact ⟨⟨n, h⟩, rfl, by simp [cost, agenda, visits, List.countP_cons, isEnd]⟩
  | @leave m id tasks path hid h =>
    cases hstep
    refine ⟨⟨m, ?_⟩, rfl, by simp [cost, agenda, visits, List.countP_cons, isEnd]⟩
    rw [h.filter_eq hid]
    exact h
  | @block _ b level tasks path hb hn h =>
    have hpath : b.id ∉ path := h.not_mem_path hn
    simp only [step, List.contains_eq_mem, hpath, decide_false, Bool.false_eq_true, if_false]
      at hstep
    rcases htext : textFor b with fault | text
    · rw [htext] at hstep
      cases hstep
    · rw [htext] at hstep
      cases hstep
      have hreach : g.Reachable b := (Graph.reachable_iff hg).2 ⟨hb, n, hn⟩
      refine ⟨⟨n + 1, h.push hg hb hn _ _⟩, ?_, cost_block hg hreach _ _ _⟩
      simp only [handles?, List.contains_eq_mem, hpath, decide_false, Bool.false_eq_true, if_false]
      exact agenda_block hg hreach _ _ _

/-! ## Runs -/

theorem run_succ {count : ℕ} (hne : e.tasks ≠ []) :
    e.run g (count + 1) = e.step g >>= run g count := by
  rw [run, if_neg (by simpa using hne)]

theorem run_of_nil (h : e.tasks = []) (count : ℕ) : e.run g count = .ok e := by
  cases count <;> simp [run, h]

theorem handled_of_nil (h : e.tasks = []) (count : ℕ) : e.handled g count = [] := by
  induction count with
  | zero => rfl
  | succ count ih => simpa [handled, handles?, step, h] using ih

/-- A run on course that comes through is on course at its end, what it has handled is what is no
longer on the agenda, and its end has no tasks if it was long enough. -/
theorem onCourse_run (hg : g.Settled) {count : ℕ} (h : OnCourse g n e.tasks e.path)
    (hrun : e.run g count = .ok e') :
    (∃ m, OnCourse g m e'.tasks e'.path) ∧
      agenda g e.tasks = e.handled g count ++ agenda g e'.tasks ∧
      (cost g e.tasks ≤ count → e'.tasks = []) := by
  induction count generalizing e n with
  | zero =>
    cases hrun
    exact ⟨⟨n, h⟩, rfl, fun hcost => eq_nil_of_cost hg h (by omega)⟩
  | succ count ih =>
    by_cases hne : e.tasks = []
    · rw [run_of_nil hne] at hrun
      cases hrun
      exact ⟨⟨n, h⟩, by rw [handled_of_nil hne, List.nil_append], fun _ => hne⟩
    · rw [run_succ hne] at hrun
      rcases hstep : e.step g with fault | e₁
      · rw [hstep] at hrun
        cases hrun
      · rw [hstep] at hrun
        obtain ⟨⟨m, h₁⟩, hagenda, hcost⟩ := onCourse_step hg h hstep hne
        obtain ⟨hend, hrest, hdone⟩ := ih h₁ hrun
        refine ⟨hend, ?_, fun hle => hdone (by omega)⟩
        rw [handled, hstep, hagenda, hrest, List.append_assoc]

/-- **Whatever a run on course handles** stands at the beginning of its agenda, also if a line cannot
be made. -/
theorem handled_isPrefix (hg : g.Settled) (h : OnCourse g n e.tasks e.path) (count : ℕ) :
    e.handled g count <+: agenda g e.tasks := by
  induction count generalizing e n with
  | zero => exact List.nil_prefix
  | succ count ih =>
    by_cases hne : e.tasks = []
    · rw [handled_of_nil hne]
      exact List.nil_prefix
    · rw [handled]
      rcases hstep : e.step g with fault | e'
      · simpa using handles?_isPrefix hg h
      · obtain ⟨⟨m, h'⟩, hagenda, -⟩ := onCourse_step hg h hstep hne
        rw [hagenda]
        exact (List.prefix_append_right_inj _).2 (ih h')

end Emission

end Code

end RobotBlocks
