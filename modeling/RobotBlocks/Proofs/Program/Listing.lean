import RobotBlocks.Proofs.Program.Agreement

/-!
# The lines of a program by recursion

Code is emitted from a stack of tasks, in which the end of a body compares numbers of lines. What
this comes to is a recursion over the forest of blocks: `Prints g level bs out` says that `out` are
the lines of the blocks `bs` at a level, each block giving its own line, its body one level deeper
if it is a container, and its continuation. A body without lines is closed by one that does nothing.

* Tasks complete lines if they come to the end with them (`Completes`). A step on course can be
  taken back (`Completes.of_step`), so a run to the end prints the roots (`exists_prints`).
* The lines apart from those of empty bodies are those of the blocks that the printed ones lead to
  (`Prints.codeLines_eq`), and there are none at all if none of these has a line
  (`Prints.eq_nil_iff`).
-/

namespace RobotBlocks

namespace Code

open Emission (codeLines)

variable {g : Graph}

/-- The lines of a body at a level: one that does nothing in place of none. -/
def closed (level : ℕ) (body : List Line) : List Line :=
  if body.isEmpty then [⟨level, emptyBody⟩] else body

/-- The lines of a block at a level without its continuation: its own line, if it has one, and its
closed body if its kind has one. -/
def ownLines (level : ℕ) (b : Block) (text : Option Text) (body : List Line) : List Line :=
  (text.map (Line.mk level)).toList ++ if b.isContainer then closed (level + 1) body else []

/-- Blocks at a level are printed as the given lines. -/
inductive Prints (g : Graph) : (level : ℕ) → List Block → List Line → Prop
  | nil (level : ℕ) : Prints g level [] []
  | cons {level : ℕ} {b : Block} {bs : List Block} {text : Option Text}
    {body following rest : List Line} (htext : textFor b = .ok text)
    (hbody : Prints g (level + 1) (g.inSlot b .body) body)
    (hnext : Prints g level (g.inSlot b .next) following) (hrest : Prints g level bs rest) :
    Prints g level (b :: bs) (ownLines level b text body ++ following ++ rest)

/-- One block can be printed in front of others. -/
theorem Prints.cons_of_singleton {level : ℕ} {b : Block} {bs : List Block} {out rest : List Line}
    (h : Prints g level [b] out) (hrest : Prints g level bs rest) :
    Prints g level (b :: bs) (out ++ rest) := by
  cases h with
  | cons htext hbody hnext hnil =>
    cases hnil
    rw [List.append_nil]
    exact .cons htext hbody hnext hrest

/-! ## Tasks -/

/-- Doing the tasks behind the lines so far comes to the final lines. -/
def Completes (g : Graph) (final : List Line) : List Task → List Line → Prop
  | [], ls => ls = final
  | .leave _ :: tasks, ls => Completes g final tasks ls
  | .bodyEnd level start :: tasks, ls =>
    Completes g final tasks (if ls.length == start then ls ++ [⟨level, emptyBody⟩] else ls)
  | .block b level :: tasks, ls =>
    ∃ out, Prints g level [b] out ∧ Completes g final tasks (ls ++ out)

namespace Completes

open Emission

variable {final ls : List Line} {tasks : List Task} {b : Block} {level n : ℕ} {e e' : Emission}

/-- Tasks for blocks at one level print these blocks. -/
theorem of_blocks {bs : List Block}
    (h : Completes g final (bs.map (fun b => Task.block b level) ++ tasks) ls) :
    ∃ out, Prints g level bs out ∧ Completes g final tasks (ls ++ out) := by
  induction bs generalizing ls with
  | nil => exact ⟨[], .nil level, by simpa using h⟩
  | cons b bs ih =>
    obtain ⟨out, hout, h⟩ := h
    obtain ⟨rest, hrest, h⟩ := ih h
    exact ⟨out ++ rest, hout.cons_of_singleton hrest, by simpa using h⟩

/-- The end of a body closes the lines that were added since its start. -/
theorem of_bodyEnd {body : List Line}
    (h : Completes g final (.bodyEnd level ls.length :: tasks) (ls ++ body)) :
    Completes g final tasks (ls ++ closed level body) := by
  rw [Completes] at h
  cases body with
  | nil => simpa [closed] using h
  | cons l body => simpa [closed] using h

/-- The tasks that follow the line of a block print its body and its continuation. -/
theorem of_tasksAfter (h : Completes g final (tasksAfter g b level ls.length ++ tasks) ls) :
    ∃ body following, Prints g (level + 1) (g.inSlot b .body) body ∧
      Prints g level (g.inSlot b .next) following ∧ Completes g final tasks
        (ls ++ (if b.isContainer then closed (level + 1) body else []) ++ following) := by
  unfold tasksAfter at h
  split at h
  next hbody =>
    simp only [List.append_assoc, List.cons_append, List.nil_append] at h
    obtain ⟨body, hprints, h⟩ := of_blocks h
    obtain ⟨following, hnext, h⟩ := of_blocks h.of_bodyEnd
    exact ⟨body, following, hprints, hnext, by rwa [if_pos hbody]⟩
  next hbody =>
    simp only [List.append_assoc, List.cons_append, List.nil_append] at h
    obtain ⟨following, hnext, h⟩ := of_blocks h
    refine ⟨[], following, ?_, hnext, by rwa [if_neg hbody, List.append_nil]⟩
    rw [Graph.inSlot_body_eq_nil (by simpa using hbody)]
    exact .nil _

/-- **A step on course can be taken back**: what the tasks behind it complete, those before
it do. -/
theorem of_step (hcourse : OnCourse g n e.tasks e.path) (hstep : e.step g = .ok e')
    (h : Completes g final e'.tasks e'.lines) : Completes g final e.tasks e.lines := by
  obtain ⟨tasks, path, lines⟩ := e
  cases hcourse with
  | done =>
    cases hstep
    exact h
  | bodyEnd =>
    cases hstep
    exact h
  | leave =>
    cases hstep
    exact h
  | @block _ b level tasks path hb hn hcourse =>
    have hpath : b.id ∉ path := hcourse.not_mem_path hn
    simp only [step, List.contains_eq_mem, hpath, decide_false, Bool.false_eq_true, if_false]
      at hstep
    obtain ⟨text, htext, hstep⟩ := Outcome.bind_eq_ok.1 hstep
    cases hstep
    obtain ⟨body, following, hbody, hnext, h⟩ := of_tasksAfter h
    refine ⟨_, .cons htext hbody hnext (.nil level), ?_⟩
    simpa [ownLines, List.append_assoc] using h

/-- A run on course that comes to its end completes its lines. -/
theorem of_run (hg : g.Settled) {count : ℕ} (hcourse : OnCourse g n e.tasks e.path)
    (hrun : e.run g count = .ok e') (hdone : e'.tasks = []) :
    Completes g e'.lines e.tasks e.lines := by
  induction count generalizing e n with
  | zero =>
    cases hrun
    rw [hdone]
    rfl
  | succ count ih =>
    by_cases hne : e.tasks = []
    · rw [run_of_nil hne] at hrun
      cases hrun
      rw [hne]
      rfl
    · rw [run_succ hne] at hrun
      obtain ⟨e₁, hstep, hrun⟩ := Outcome.bind_eq_ok.1 hrun
      obtain ⟨⟨m, hcourse₁⟩, -, -⟩ := onCourse_step hg hcourse hstep hne
      exact of_step hcourse hstep (ih hcourse₁ hrun)

end Completes

open Emission in
/-- **The lines of a program** are those that its roots are printed as, closed like a body. -/
theorem exists_prints (hg : g.Settled) {ls : List Line} (h : lines g = .ok ls) :
    ∃ out, Prints g 1 g.topLevel out ∧ ls = closed 1 out := by
  obtain ⟨e, hrun, h⟩ := Outcome.bind_eq_ok.1 h
  have hstart := onCourse_ofRoots g
  obtain ⟨-, -, hdone⟩ := onCourse_run hg hstart hrun
  have hcompletes := Completes.of_run hg hstart hrun (hdone (cost_ofRoots_le hg))
  rw [ofRoots, ← List.append_nil (g.topLevel.map _)] at hcompletes
  obtain ⟨out, hout, hlines⟩ := hcompletes.of_blocks
  refine ⟨out, hout, ?_⟩
  obtain rfl : out = e.lines := hlines
  exact (Except.ok.inj h).symm

/-! ## The blocks of the lines -/

theorem codeLines_append (ls more : List Line) :
    codeLines (ls ++ more) = codeLines ls ++ codeLines more := List.filter_append ..

theorem codeLines_closed (level : ℕ) (body : List Line) :
    codeLines (closed level body) = codeLines body := by
  cases body with
  | nil => rfl
  | cons l body => rfl

/-- A container has a line of its own. -/
theorem isSome_of_isContainer {b : Block} (hb : b.isContainer = true) {text : Option Text}
    (h : textFor b = .ok text) : text.isSome = true := by
  cases hkind : b.kind <;> simp only [textFor, hkind] at h <;>
    simp only [Block.isContainer, hkind, Kind.isContainer, Bool.false_eq_true] at hb
  · obtain ⟨n, -, rfl⟩ := Outcome.map_eq_ok.1 h
    rfl
  · cases h
    rfl

theorem lineOf?_of_textFor {b : Block} {text : Text} (h : textFor b = .ok (some text)) :
    lineOf? g b = some ⟨1 + g.bodySteps b, text⟩ := by
  rw [lineOf?, h]
  rfl

/-- The text of the line of a block is the one that the block gives. -/
theorem textFor_of_lineOf? {b : Block} {l : Line} (h : lineOf? g b = some l) :
    textFor b = .ok (some l.text) := by
  rw [lineOf?] at h
  rcases htext : textFor b with fault | _ | text
  · simp [htext, Except.toOption] at h
  · simp [htext, Except.toOption] at h
  · rw [htext] at h
    cases h
    rfl

/-- A line is that of an empty body or that of a block. -/
theorem eq_emptyBody_or_lineOf? (hg : g.Settled) {ls : List Line} (h : lines g = .ok ls) {l : Line}
    (hl : l ∈ ls) : l.text = emptyBody ∨ ∃ b ∈ g.preorder, lineOf? g b = some l := by
  by_cases hempty : l.text = emptyBody
  · exact .inl hempty
  · have hline : l ∈ codeLines ls := List.mem_filter.2 ⟨hl, by simpa using hempty⟩
    rw [(Code.codeLines_eq hg h).2.1] at hline
    exact .inr (List.mem_filterMap.1 hline)

/-- The line of a block at its level. -/
theorem toList_lineOf? {b : Block} {text : Option Text} (h : textFor b = .ok text) :
    (lineOf? g b).toList = codeLines (text.map (Line.mk (1 + g.bodySteps b))).toList := by
  have hcode := (movementOf?_textFor h).2
  rw [lineOf?, h]
  cases text with
  | none => rfl
  | some text => simp [codeLines, Except.toOption, hcode text rfl]

/-- What is printed of a block without its continuation are its line and those of the blocks in its
body. -/
theorem codeLines_ownLines {b : Block} {text : Option Text} (htext : textFor b = .ok text)
    {body : List Line} (hbody : codeLines body =
      ((g.inSlot b .body).flatMap (g.unroll fun _ => 1)).filterMap (lineOf? g)) :
    codeLines (ownLines (1 + g.bodySteps b) b text body) =
      (b :: (g.inSlot b .body).flatMap (g.unroll fun _ => 1)).filterMap (lineOf? g) := by
  have hclosed : codeLines (if b.isContainer then closed (1 + g.bodySteps b + 1) body else []) =
      codeLines body := by
    split
    · exact codeLines_closed _ body
    next hcontainer =>
      rw [hbody, Graph.inSlot_body_eq_nil (by simpa using hcontainer)]
      rfl
  rw [ownLines, codeLines_append, ← toList_lineOf? htext, hclosed, hbody, List.filterMap_cons]
  cases lineOf? g b <;> rfl

namespace Prints

variable {level : ℕ} {bs : List Block} {out : List Line}

/-- The blocks can be reached, and the level is theirs. -/
def AtLevel (g : Graph) (level : ℕ) (bs : List Block) : Prop :=
  ∀ b ∈ bs, g.Reachable b ∧ level = 1 + g.bodySteps b

theorem atLevel_topLevel (g : Graph) : AtLevel g 1 g.topLevel := fun _ hb =>
  ⟨.root hb, by rw [Graph.bodySteps_of_root hb]⟩

theorem AtLevel.children (hg : g.Settled) {b : Block} (h : AtLevel g level (b :: bs)) :
    AtLevel g (level + 1) (g.inSlot b .body) ∧ AtLevel g level (g.inSlot b .next) ∧
      AtLevel g level bs := by
  obtain ⟨hb, hlevel⟩ := h b List.mem_cons_self
  refine ⟨fun c hc => ⟨.child hb hc, ?_⟩, fun c hc => ⟨.child hb hc, ?_⟩,
    fun c hc => h c (List.mem_cons_of_mem b hc)⟩
  · rw [Graph.bodySteps_of_child hg hb hc, hlevel]
    rfl
  · rw [Graph.bodySteps_of_child hg hb hc, hlevel]
    rfl

/-- **The lines apart from those of empty bodies** are the lines of the blocks that the printed
blocks lead to, in their order. -/
theorem codeLines_eq (hg : g.Settled) (h : Prints g level bs out) (hbs : AtLevel g level bs) :
    codeLines out = (bs.flatMap (g.unroll fun _ => 1)).filterMap (lineOf? g) := by
  induction h with
  | nil => rfl
  | @cons level b bs text body following rest htext _ _ _ ihbody ihnext ihrest =>
    obtain ⟨hbody, hnext, hrest⟩ := hbs.children hg
    obtain ⟨hb, rfl⟩ := hbs b List.mem_cons_self
    rw [List.flatMap_cons, Graph.unroll_one_eq hg hb, codeLines_append, codeLines_append,
      codeLines_ownLines htext (ihbody hbody), ihnext hnext, ihrest hrest, List.flatMap_append,
      ← List.filterMap_append, ← List.filterMap_append, List.cons_append]

/-- **Blocks are printed as no lines** if and only if none of the blocks that they lead to
has one. -/
theorem eq_nil_iff (hg : g.Settled) (h : Prints g level bs out) (hbs : AtLevel g level bs) :
    out = [] ↔ ∀ x ∈ bs.flatMap (g.unroll fun _ => 1), textFor x = .ok none := by
  induction h with
  | nil => simp
  | @cons level b bs text body following rest htext _ _ _ ihbody ihnext ihrest =>
    obtain ⟨hbody, hnext, hrest⟩ := hbs.children hg
    obtain ⟨hb, -⟩ := hbs b List.mem_cons_self
    rw [List.flatMap_cons, Graph.unroll_one_eq hg hb]
    cases text with
    | some text => simp [ownLines, htext]
    | none =>
      have hcontainer : b.isContainer = false := by
        by_contra hcontainer
        cases isSome_of_isContainer (by simpa using hcontainer) htext
      simp only [ownLines, hcontainer, Graph.inSlot_body_eq_nil hcontainer, Option.map_none,
        Option.toList_none, Bool.false_eq_true, if_false, List.append_nil, List.nil_append,
        List.append_eq_nil_iff, List.cons_append, List.forall_mem_cons, List.forall_mem_append,
        htext, ihnext hnext, ihrest hrest, true_and]

end Prints

end Code

end RobotBlocks
