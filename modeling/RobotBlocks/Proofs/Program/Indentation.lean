import Mathlib.Data.List.Chain
import RobotBlocks.Proofs.Program.Listing

/-!
# Code is well indented

A line that heads a body is followed by a line one level deeper, and any other line by one that is
not deeper: lines with this property that begin at a level and have no line above it (`Indented`)
can be put one behind the other, and below a header one level up. So whatever is printed is well
indented (`Prints.indented`).

The lines that stand in the body of a container are those below its header down to the next line
that is not deeper (`Body`). Every container that is printed has one, at its place among the blocks
(`Prints.hasBody`), and in it stands a line that does nothing if and only if no block that hangs in
the body has a line. `wellIndented_lines` is the conclusion for programs.
-/

namespace RobotBlocks

namespace Code

open Emission (codeLines)

variable {g : Graph}

/-- Whether a line heads a body. -/
def Line.isHeader (l : Line) : Bool :=
  ("for " : Text).isPrefixOf l.text || ("if " : Text).isPrefixOf l.text

/-- One line may stand right before another one: below a header the level rises by one, and below
other lines it does not rise. -/
def Line.LeadsTo (l next : Line) : Prop :=
  if l.isHeader then next.level = l.level + 1 else 1 ≤ next.level ∧ next.level ≤ l.level

/-- **The line of a block heads a body** if and only if its kind has one, and it does not begin with
a blank. -/
theorem isHeader_textFor {b : Block} {text : Text} (h : textFor b = .ok (some text)) (level : ℕ) :
    (Line.mk level text).isHeader = b.isContainer ∧ text.head? ≠ some (.char ' ') := by
  -- The first character of a line tells it from a blank.
  have hfirst : ∀ {t : Text}, (t.head? == some (.char ' ')) = false → t.head? ≠ some (.char ' ') :=
    fun h => by simpa using h
  cases hkind : b.kind <;> simp only [textFor, hkind] at h <;>
    rw [Block.isContainer, hkind]
  case conditional =>
    cases h
    exact ⟨rfl, hfirst rfl⟩
  case sensorQuery =>
    cases h
    split
    · exact ⟨rfl, hfirst rfl⟩
    · exact ⟨rfl, hfirst rfl⟩
  case startEvent | unknown => cases h
  all_goals
    obtain ⟨n, -, htext⟩ := Outcome.map_eq_ok.1 h
    cases htext
    exact ⟨rfl, hfirst rfl⟩

/-! ## Well-indented lines -/

/-- The lines begin at a level, none of them stands above it, and each leads to the next one; the
last one heads no body. -/
structure Indented (level : ℕ) (ls : List Line) : Prop where
  head : ∀ l ∈ ls.head?, l.level = level
  least : ∀ l ∈ ls, level ≤ l.level
  last : ∀ l ∈ ls.getLast?, l.isHeader = false
  leads : ls.IsChain Line.LeadsTo

namespace Indented

variable {level : ℕ} {ls more : List Line} {l : Line}

theorem nil (level : ℕ) : Indented level [] := ⟨by simp, by simp, by simp, .nil⟩

theorem singleton (hl : l.isHeader = false) : Indented l.level [l] :=
  ⟨by simp, by simp, by simpa using hl, .singleton l⟩

/-- Lines at one level can stand one behind the other. -/
theorem append (hlevel : 1 ≤ level) (h : Indented level ls) (hmore : Indented level more) :
    Indented level (ls ++ more) where
  head l hl := by
    rw [List.head?_append] at hl
    cases hhead : ls.head? with
    | none => exact hmore.head l (by simpa [hhead] using hl)
    | some l' =>
      obtain rfl : l' = l := by simpa [hhead] using hl
      exact h.head l' hhead
  least l hl := (List.mem_append.1 hl).elim (h.least l) (hmore.least l)
  last l hl := by
    rw [List.getLast?_append] at hl
    cases hlast : more.getLast? with
    | none => exact h.last l (by simpa [hlast] using hl)
    | some l' =>
      obtain rfl : l' = l := by simpa [hlast] using hl
      exact hmore.last l' hlast
  leads := by
    refine List.isChain_append.2 ⟨h.leads, hmore.leads, fun l hl next hnext => ?_⟩
    have hle := h.least l (List.mem_of_getLast? hl)
    rw [Line.LeadsTo, h.last l hl, hmore.head next hnext]
    exact ⟨hlevel, hle⟩

/-- A header stands above lines that are one level deeper. -/
theorem header (hl : l.isHeader = true) (h : Indented (l.level + 1) ls) (hne : ls ≠ []) :
    Indented l.level (l :: ls) where
  head l' hl' := by
    cases hl'
    rfl
  least l' hl' := by
    rcases List.mem_cons.1 hl' with rfl | hl'
    · exact le_rfl
    · exact (Nat.le_succ _).trans (h.least l' hl')
  last l' hl' := h.last l' (by rwa [List.getLast?_cons_of_ne_nil hne] at hl')
  leads := by
    refine List.isChain_cons.2 ⟨fun next hnext => ?_, h.leads⟩
    rw [Line.LeadsTo, if_pos hl]
    exact h.head next hnext

theorem closed (h : Indented level ls) : Indented level (closed level ls) := by
  cases ls with
  | nil => exact .singleton (l := ⟨level, emptyBody⟩) rfl
  | cons l ls => exact h

end Indented

theorem closed_ne_nil (level : ℕ) (body : List Line) : closed level body ≠ [] := by
  cases body <;> simp [closed]

namespace Prints

variable {level : ℕ} {bs : List Block} {out : List Line}

/-- The line of a block with the closed body below it is well indented. -/
theorem indented_ownLines {b : Block} {text : Option Text} (htext : textFor b = .ok text)
    {body : List Line} (hbody : Indented (level + 1) body) :
    Indented level (ownLines level b text body) := by
  rw [ownLines]
  cases text with
  | none =>
    have hcontainer : b.isContainer = false := by
      by_contra hcontainer
      cases isSome_of_isContainer (by simpa using hcontainer) htext
    simpa [hcontainer] using Indented.nil level
  | some text =>
    have hheader := (isHeader_textFor htext level).1
    cases hcontainer : b.isContainer with
    | true =>
      exact .header (l := ⟨level, text⟩) (hheader.trans hcontainer) hbody.closed (closed_ne_nil _ _)
    | false => exact .singleton (l := ⟨level, text⟩) (hheader.trans hcontainer)

/-- **Whatever is printed is well indented.** -/
theorem indented (h : Prints g level bs out) (hlevel : 1 ≤ level) : Indented level out := by
  induction h with
  | nil level => exact .nil level
  | cons htext _ _ _ ihbody ihnext ihrest =>
    exact ((indented_ownLines htext (ihbody (by omega))).append hlevel (ihnext hlevel)).append hlevel
      (ihrest hlevel)

/-- A line that does nothing never stands at the level of the printed blocks. -/
theorem emptyBody_notMem (h : Prints g level bs out) (hlevel : 1 ≤ level) :
    ⟨level, emptyBody⟩ ∉ out := by
  induction h with
  | nil => simp
  | @cons level b bs text body following rest htext hbody _ _ _ ihnext ihrest =>
    simp only [ownLines, List.mem_append, Option.mem_toList, not_or]
    refine ⟨⟨⟨fun hmem => ?_, fun hmem => ?_⟩, ihnext hlevel⟩, ihrest hlevel⟩
    · obtain ⟨t, ht, hline⟩ := Option.map_eq_some_iff.1 hmem
      exact (movementOf?_textFor htext).2 t ht (congrArg Line.text hline)
    · split at hmem
      · have := (hbody.indented (by omega)).closed.least _ hmem
        exact absurd this (by simp)
      · cases hmem

/-- **A line that does nothing closes printed lines** if and only if none of the blocks that they
lead to has a line. -/
theorem emptyBody_mem_closed_iff (hg : g.Settled) (h : Prints g level bs out)
    (hbs : AtLevel g level bs) (hlevel : 1 ≤ level) : ⟨level, emptyBody⟩ ∈ closed level out ↔
      ∀ x ∈ bs.flatMap (g.unroll fun _ => 1), textFor x = .ok none := by
  rw [← h.eq_nil_iff hg hbs]
  cases out with
  | nil => simp [closed]
  | cons l out => exact iff_of_false (h.emptyBody_notMem hlevel) (by simp)

end Prints

/-- Below a header stands a line one level deeper, and below another line none that is deeper. -/
theorem Indented.next {level : ℕ} {before after : List Line} {l : Line}
    (h : Indented level (before ++ l :: after)) :
    if l.isHeader then ∃ next ∈ after.head?, next.level = l.level + 1
    else ∀ next ∈ after.head?, 1 ≤ next.level ∧ next.level ≤ l.level := by
  have hleads := (List.isChain_cons.1 (List.isChain_append.1 h.leads).2.1).1
  split
  next hheader =>
    cases hafter : after.head? with
    | none =>
      have hlast := h.last l (by simp [List.head?_eq_none_iff.1 hafter])
      exact absurd hheader (by simp [hlast])
    | some next => exact ⟨next, rfl, by simpa [Line.LeadsTo, hheader] using hleads next hafter⟩
  next hheader =>
    intro next hnext
    simpa [Line.LeadsTo, hheader] using hleads next hnext

/-! ## Bodies -/

/-- A line among others with the lines below it that are deeper. -/
structure Body (ls : List Line) where
  before : List Line
  header : Line
  /-- The lines that stand in the body. -/
  lines : List Line
  after : List Line
  eq : ls = before ++ header :: lines ++ after
  deeper : ∀ l ∈ lines, header.level < l.level
  ends : ∀ l ∈ after.head?, l.level ≤ header.level

namespace Body

variable {ls pre post : List Line} {visits preVisits postVisits : List Block} {b : Block}

/-- The body among more lines, those behind of which do not begin deeper than its header. -/
def extend (B : Body ls) (pre post : List Line)
    (hpost : ∀ l ∈ post.head?, l.level ≤ B.header.level) : Body (pre ++ ls ++ post) where
  before := pre ++ B.before
  header := B.header
  lines := B.lines
  after := B.after ++ post
  eq := by
    conv_lhs => rw [B.eq]
    simp only [List.append_assoc, List.cons_append]
  deeper := B.deeper
  ends l hl := by
    rw [List.head?_append] at hl
    cases hafter : B.after.head? with
    | none => exact hpost l (by simpa [hafter] using hl)
    | some l' =>
      obtain rfl : l' = l := by simpa [hafter] using hl
      exact B.ends l' hafter

/-- The body is that of a container, at its place among the blocks of the lines, and it holds the
lines of the blocks that hang in it. -/
structure IsOf (B : Body ls) (g : Graph) (visits : List Block) (b : Block) : Prop where
  place : ∃ earlier later, visits = earlier ++ b :: later ∧
    codeLines B.before = earlier.filterMap (lineOf? g)
  header : lineOf? g b = some B.header
  codeLines : codeLines B.lines =
    ((g.inSlot b .body).flatMap (g.unroll fun _ => 1)).filterMap (lineOf? g)

theorem IsOf.extend {B : Body ls} (h : B.IsOf g visits b)
    (hpre : Emission.codeLines pre = preVisits.filterMap (lineOf? g))
    (hpost : ∀ l ∈ post.head?, l.level ≤ B.header.level) :
    (B.extend pre post hpost).IsOf g (preVisits ++ visits ++ postVisits) b where
  place := by
    obtain ⟨earlier, later, rfl, hbefore⟩ := h.place
    refine ⟨preVisits ++ earlier, later ++ postVisits, by simp, ?_⟩
    rw [Body.extend, codeLines_append, List.filterMap_append, hpre, hbefore]
  header := h.header
  codeLines := h.codeLines

end Body

/-- The body of a container, whose header is not above a level, has its place among the lines. A
line that does nothing stands in it if and only if none of the blocks that hang in it has a line. -/
def HasBody (g : Graph) (level : ℕ) (visits : List Block) (ls : List Line) (b : Block) : Prop :=
  ∃ B : Body ls, level ≤ B.header.level ∧ B.IsOf g visits b ∧
    (⟨B.header.level + 1, emptyBody⟩ ∈ B.lines ↔
      ∀ x ∈ (g.inSlot b .body).flatMap (g.unroll fun _ => 1), textFor x = .ok none)

namespace HasBody

variable {level : ℕ} {b : Block} {ls pre post body : List Line}
  {visits preVisits postVisits : List Block}

/-- More lines before a body, and lines behind that do not begin deeper, leave it in place. -/
theorem extend (h : HasBody g level visits ls b)
    (hpre : codeLines pre = preVisits.filterMap (lineOf? g)) (postVisits : List Block)
    (hpost : ∀ l ∈ post.head?, l.level ≤ level) :
    HasBody g level (preVisits ++ visits ++ postVisits) (pre ++ ls ++ post) b := by
  obtain ⟨B, hle, hB, hempty⟩ := h
  exact ⟨B.extend pre post fun l hl => (hpost l hl).trans hle, hle, hB.extend hpre _, hempty⟩

theorem mono {level' : ℕ} (h : HasBody g level' visits ls b) (hle : level ≤ level') :
    HasBody g level visits ls b := by
  obtain ⟨B, hheader, hB⟩ := h
  exact ⟨B, hle.trans hheader, hB⟩

theorem ne_nil (h : HasBody g level visits ls b) : ls ≠ [] := by
  obtain ⟨B, -⟩ := h
  rw [B.eq]
  simp

/-- A container that is printed heads its body. -/
theorem of_ownLines (hg : g.Settled) (hb : g.Reachable b) (hcontainer : b.isContainer = true)
    {text : Option Text} (htext : textFor b = .ok text)
    (hbody : Prints g (1 + g.bodySteps b + 1) (g.inSlot b .body) body)
    (hpost : ∀ l ∈ post.head?, l.level ≤ 1 + g.bodySteps b) :
    HasBody g (1 + g.bodySteps b) (b :: postVisits)
      (ownLines (1 + g.bodySteps b) b text body ++ post) b := by
  have hlevels : Prints.AtLevel g (1 + g.bodySteps b + 1) (g.inSlot b .body) := fun c hc =>
    ⟨.child hb hc, by rw [Graph.bodySteps_of_child hg hb hc]; rfl⟩
  obtain ⟨text, rfl⟩ := Option.isSome_iff_exists.1 (isSome_of_isContainer hcontainer htext)
  refine ⟨⟨[], ⟨1 + g.bodySteps b, text⟩, closed (1 + g.bodySteps b + 1) body, post, ?_,
    fun l hl => ?_, hpost⟩, le_rfl, ⟨⟨[], postVisits, rfl, rfl⟩, ?_, ?_⟩, ?_⟩
  · simp [ownLines, hcontainer]
  · exact (hbody.indented (by omega)).closed.least l hl
  · exact lineOf?_of_textFor htext
  · rw [codeLines_closed, hbody.codeLines_eq hg hlevels]
  · exact hbody.emptyBody_mem_closed_iff hg hlevels (by omega)

end HasBody

/-- **Every container among the blocks that printed ones lead to has its body** among the lines. -/
theorem Prints.hasBody (hg : g.Settled) {level : ℕ} {bs : List Block} {out : List Line}
    (h : Prints g level bs out) (hbs : AtLevel g level bs) (hlevel : 1 ≤ level) :
    ∀ x ∈ bs.flatMap (g.unroll fun _ => 1), x.isContainer = true →
      HasBody g level (bs.flatMap (g.unroll fun _ => 1)) out x := by
  induction h with
  | nil => simp
  | @cons level b bs text body following rest htext hprints hnext hrest ihbody ihnext ihrest =>
    obtain ⟨hlevelBody, hlevelNext, hlevelRest⟩ := hbs.children hg
    obtain ⟨hb, rfl⟩ := hbs b List.mem_cons_self
    have hcodeBody := hprints.codeLines_eq hg hlevelBody
    have hcodeNext := hnext.codeLines_eq hg hlevelNext
    have hcodeOwn := codeLines_ownLines htext hcodeBody
    have hheadRest := (hrest.indented hlevel).head
    have hheadNext := ((hnext.indented hlevel).append hlevel (hrest.indented hlevel)).head
    have hunroll : (b :: bs).flatMap (g.unroll fun _ => 1) =
        b :: ((g.inSlot b .body).flatMap (g.unroll fun _ => 1) ++
          ((g.inSlot b .next).flatMap (g.unroll fun _ => 1) ++ bs.flatMap (g.unroll fun _ => 1))) := by
      rw [List.flatMap_cons, Graph.unroll_one_eq hg hb, List.flatMap_append, List.cons_append,
        List.append_assoc]
    rw [hunroll]
    intro x hx hcontainer
    simp only [List.mem_append, List.mem_cons] at hx
    rcases hx with rfl | hx | hx | hx
    · -- The block itself.
      rw [List.append_assoc]
      exact .of_ownLines hg hb hcontainer htext hprints fun l hl => (hheadNext l hl).le
    · -- A block of the body, which has lines then and needs no other one.
      have hbody := ihbody hlevelBody (by omega) x hx hcontainer
      have hself : b.isContainer = true := by
        by_contra hself
        simp [Graph.inSlot_body_eq_nil (by simpa using hself)] at hx
      have hclosed : closed (1 + g.bodySteps b + 1) body = body :=
        if_neg (by simpa using hbody.ne_nil)
      have hown : codeLines (text.map (Line.mk (1 + g.bodySteps b))).toList =
          [b].filterMap (lineOf? g) := by
        rw [← toList_lineOf? htext, List.filterMap_cons]
        cases lineOf? g b <;> rfl
      have hplace := hbody.extend hown ((g.inSlot b .next).flatMap (g.unroll fun _ => 1) ++
        bs.flatMap (g.unroll fun _ => 1)) fun l hl => (hheadNext l hl).le.trans (Nat.le_succ _)
      simpa [ownLines, hself, hclosed] using hplace.mono (Nat.le_succ _)
    · -- A block of the continuation.
      have hplace := (ihnext hlevelNext hlevel x hx hcontainer).extend hcodeOwn
        (bs.flatMap (g.unroll fun _ => 1)) fun l hl => (hheadRest l hl).le
      simpa using hplace
    · -- A block behind.
      have hcode : codeLines (ownLines (1 + g.bodySteps b) b text body ++ following) =
          (b :: (g.inSlot b .body).flatMap (g.unroll fun _ => 1) ++
            (g.inSlot b .next).flatMap (g.unroll fun _ => 1)).filterMap (lineOf? g) := by
        rw [codeLines_append, hcodeOwn, hcodeNext, List.filterMap_append]
      have hnone : ∀ l ∈ ([] : List Line).head?, l.level ≤ 1 + g.bodySteps b := by simp
      have hplace := (ihrest hlevelRest hlevel x hx hcontainer).extend hcode [] hnone
      simpa using hplace

/-- The lines are code of a program that is well indented. -/
structure WellIndented (g : Graph) (ls : List Line) : Prop where
  /-- There are lines, and the first one is at level one. -/
  first : ∃ first ∈ ls.head?, first.level = 1
  /-- A header is followed by a line one level deeper, and another line by one that is
  not deeper. -/
  next : ∀ before l after, ls = before ++ l :: after →
    if l.isHeader then ∃ next ∈ after.head?, next.level = l.level + 1
    else ∀ next ∈ after.head?, 1 ≤ next.level ∧ next.level ≤ l.level
  /-- No text begins with a blank, so the blanks of a line tell its level. -/
  text : ∀ l ∈ ls, l.text.head? ≠ some (.char ' ')
  /-- A line that does nothing stands in the program if and only if no block has a line. -/
  program : ⟨1, emptyBody⟩ ∈ ls ↔ ∀ x ∈ g.preorder, textFor x = .ok none
  /-- A line that does nothing stands in a body if and only if no block that hangs in it has
  a line. -/
  body : ∀ b, g.Reachable b → b.isContainer = true → ∃ B : Body ls, B.IsOf g g.preorder b ∧
    (⟨B.header.level + 1, emptyBody⟩ ∈ B.lines ↔
      ∀ x ∈ (g.inSlot b .body).flatMap (g.unroll fun _ => 1), textFor x = .ok none)

/-- **Code is always well indented**: whenever the lines of a program can be made, they are. -/
theorem wellIndented_lines {blocks : List Block} {ls : List Line}
    (h : lines (Graph.build blocks .empty).1 = .ok ls) :
    WellIndented (Graph.build blocks .empty).1 ls := by
  have hg := Graph.settled_build blocks .empty
  have hblock : ∀ l ∈ ls, l.text = emptyBody ∨ ∃ b ∈ _, lineOf? _ b = some l := fun l hl =>
    eq_emptyBody_or_lineOf? hg h hl
  obtain ⟨out, hout, rfl⟩ := exists_prints hg h
  have hindented := (hout.indented le_rfl).closed
  refine ⟨?_, fun before l after hls => ?_, fun l hl => ?_, ?_, fun b hb hcontainer => ?_⟩
  · obtain ⟨first, rest, hfirst⟩ := List.exists_cons_of_ne_nil (closed_ne_nil 1 out)
    exact ⟨first, by rw [hfirst]; rfl, hindented.head first (by rw [hfirst]; rfl)⟩
  · exact (hls ▸ hindented).next
  · rcases hblock l hl with hempty | ⟨b, -, hb⟩
    · rw [hempty]
      decide
    · exact (isHeader_textFor (textFor_of_lineOf? hb) l.level).2
  · exact hout.emptyBody_mem_closed_iff hg (Prints.atLevel_topLevel _) le_rfl
  · have hbody := hout.hasBody hg (Prints.atLevel_topLevel _) le_rfl b
      ((Graph.mem_preorder hg).2 hb) hcontainer
    have hclosed : closed 1 out = out := if_neg (by simpa using hbody.ne_nil)
    rw [hclosed]
    obtain ⟨B, -, hB, hempty⟩ := hbody
    exact ⟨B, hB, hempty⟩

/-- A loop whose body holds a block of no known kind, and behind that a conditional around a start
event; behind the loop is a wait. -/
def hollow : Data :=
  .list
    [Sample.block "loop" "repeat" "control" 0 0 [("times", .integer 2)] ["odd", "wait"],
     Sample.block "odd" "dance" "motion" 40 20 [] ["if"],
     Sample.block "if" "if" "control" 40 40 [("condition", .text "1 < 2")] ["flag"],
     Sample.block "flag" "onStart" "events" 80 60 [] [],
     Sample.block "wait" "wait" "control" 0 80 [("seconds", .integer 1)] []]

theorem wellIndented_lines_hollow :
    ∃ blocks ls, Block.load hollow = .ok blocks ∧ lines (Graph.build blocks .empty).1 = .ok ls ∧
      ls.map Line.level = [1, 2, 3, 1] ∧ ls[2]? = some ⟨3, emptyBody⟩ ∧
      WellIndented (Graph.build blocks .empty).1 ls := by
  have hok : ((Block.load hollow).toOption.any fun blocks =>
      (lines (Graph.build blocks .empty).1).toOption.any fun ls =>
        decide (ls.map Line.level = [1, 2, 3, 1] ∧ ls[2]? = some ⟨3, emptyBody⟩)) = true := by
    decide +kernel
  obtain ⟨blocks, hload, hok⟩ := Outcome.any_toOption.1 hok
  obtain ⟨ls, hlines, hok⟩ := Outcome.any_toOption.1 hok
  obtain ⟨hlevels, hpass⟩ := of_decide_eq_true hok
  exact ⟨blocks, ls, hload, hlines, hlevels, hpass, wellIndented_lines hlines⟩

end Code

end RobotBlocks
