import RobotBlocks.Proofs.Program.Listing
import RobotBlocks.Proofs.Text.Literal

/-!
# Lines of code and lines of text

The text of a program joins the lines of its frame and of its blocks. It comes apart into these
lines again if and only if no text that a block states brings a line break of its own
(`StatesInline`). Only two kinds of blocks can do so: a conditional, whose guard stands in its line
as it was written, and a sensor query, whose object stands between double quotes with nothing but
backslashes and double quotes escaped. What is written for a number is a number or a quoted text,
and stands on one line (`isInline_numberText`).

For the same reason the object of a sensor query can be read back from its line if and only if all
of it can stand in a line of source text. `physical_lines` puts both together.
-/

namespace RobotBlocks

namespace Code

open Emission (codeLines)

variable {g : Graph} {b : Block}

/-- The object that a sensor query asks about. -/
def objectName (value : Option Data) : Text :=
  match value with
  | none | some .null => "wall"
  | some value => value.shown

/-- The object is written as a literal. -/
theorem objectText_eq (value : Option Data) : objectText value = Literal.quote (objectName value) :=
  rfl

/-- The function that a sensor query calls. -/
def queryName (b : Block) : Text :=
  if b.type.trim.lower == "distance" then "robot.distance_to" else "robot.is_touching"

/-- The text that a block states for its line; other blocks state numbers there or have no line. -/
def statedText? (b : Block) : Option Text :=
  match b.kind with
  | .conditional => some (guardText (b.input? ["condition"]))
  | .sensorQuery => some (objectName (b.input? ["object"]))
  | _ => none

/-- The text that a block states for its line stands on one line. -/
def StatesInline (b : Block) : Prop := ∀ t ∈ statedText? b, t.IsInline

instance (b : Block) : Decidable (StatesInline b) :=
  inferInstanceAs (Decidable (∀ t ∈ statedText? b, t.IsInline))

/-! ## The text of a line -/

/-- **A number in code stands on one line**, whatever was stated for it. -/
theorem isInline_numberText {value : Option Data} {default : Int} {text : Text}
    (h : (numberText value default >>= fun n => pure (Text.ofString n)) = .ok text) :
    text.IsInline := by
  obtain ⟨n, hn, htext⟩ := Outcome.bind_eq_ok.1 h
  obtain rfl : Text.ofString n = text := Except.ok.inj htext
  clear h htext
  rw [Text.isInline_ofString]
  unfold numberText at hn
  dsimp only at hn
  split at hn
  · cases hn
    split
    · exact notMem_intText _
    · exact notMem_shortestText _
  · cases hn
  · cases hn
    exact notMem_quoted _

theorem isInline_call {name argument : Text} (hname : name.IsInline) :
    (call name argument).IsInline ↔ argument.IsInline := by
  have hparens : Text.IsInline "(" ∧ Text.IsInline ")" := by decide
  simp [call, Text.isInline_append, hname, hparens]

/-- **A line of a block stands on one line of text** if and only if what the block states for it
does. -/
theorem isInline_textFor {text : Text} (h : textFor b = .ok (some text)) :
    text.IsInline ↔ StatesInline b := by
  have hcolon : Text.IsInline ":" := by decide
  cases hkind : b.kind <;> simp only [textFor, hkind] at h <;>
    simp only [StatesInline, statedText?, hkind, Option.mem_some_iff, forall_eq',
      Option.not_mem_none, false_imp_iff, implies_true]
  case conditional =>
    cases h
    have hif : Text.IsInline "if " := by decide
    simp [Text.isInline_append, hif, hcolon]
  case sensorQuery =>
    cases h
    rw [objectText_eq, isInline_call, Literal.isInline_quote]
    split <;> decide
  case startEvent | unknown => cases h
  case loop =>
    obtain ⟨n, hn, htext⟩ := Outcome.map_eq_ok.1 h
    cases htext
    rw [Text.isInline_append, isInline_call (by decide)]
    exact iff_of_true ⟨isInline_numberText hn, hcolon⟩ trivial
  all_goals
    obtain ⟨n, hn, htext⟩ := Outcome.map_eq_ok.1 h
    cases htext
    rw [isInline_call (by decide)]
    exact iff_of_true (isInline_numberText hn) trivial

/-- A block without a line states nothing. -/
theorem statesInline_of_none (h : textFor b = .ok none) : StatesInline b := by
  intro t ht
  cases hkind : b.kind <;> simp [textFor, statedText?, hkind] at h ht

theorem isInline_render {l : Line} : l.render.IsInline ↔ l.text.IsInline := by
  simp [Line.render, Text.IsInline, Text.lineBreak]

/-- A block with a line has it among the lines of the program. -/
theorem mem_lines_of_lineOf? (hg : g.Settled) {ls : List Line} (h : lines g = .ok ls)
    (hb : g.Reachable b) {l : Line} (hl : lineOf? g b = some l) : l ∈ ls := by
  have hcode : l ∈ codeLines ls := by
    rw [(codeLines_eq hg h).2.1]
    exact List.mem_filterMap.2 ⟨b, (Graph.mem_preorder hg).2 hb, hl⟩
  exact List.mem_of_mem_filter hcode

/-- The lines of a program stand on one line of text each if and only if what its blocks
state does. -/
theorem isInline_lines_iff (hg : g.Settled) {ls : List Line} (h : lines g = .ok ls) :
    (∀ l ∈ ls, l.text.IsInline) ↔ ∀ b, g.Reachable b → StatesInline b := by
  constructor
  · intro hls b hb
    obtain ⟨text, htext⟩ := (codeLines_eq hg h).2.2 b ((Graph.mem_preorder hg).2 hb)
    cases text with
    | none => exact statesInline_of_none htext
    | some text =>
      have hline := lineOf?_of_textFor (g := g) htext
      exact (isInline_textFor htext).1 (hls _ (mem_lines_of_lineOf? hg h hb hline))
  · intro hbs l hl
    rcases eq_emptyBody_or_lineOf? hg h hl with hempty | ⟨b, hb, hline⟩
    · rw [hempty]
      decide
    · exact (isInline_textFor (textFor_of_lineOf? hline)).2 (hbs b ((Graph.mem_preorder hg).1 hb))

/-! ## The text of a program -/

/-- **The text of a program comes apart into its lines**, the frame around one line for each block
that has one and for each empty body, if and only if what the blocks state brings no line breaks.
The object of a sensor query can be read from its line if and only if all of it is readable, and
then it is the object that the block states. -/
theorem physical_lines {blocks : List Block} {code : Text} (h : ofBlocks blocks = .ok code) :
    let g := (Graph.build blocks .empty).1
    ∃ ls, lines g = .ok ls ∧ codeLines ls = g.preorder.filterMap (lineOf? g) ∧
      (List.splitOn Text.lineBreak code = opening ++ ls.map Line.render ++ ending ↔
        ∀ b, g.Reachable b → StatesInline b) ∧
      ∀ b, g.Reachable b → b.kind = .sensorQuery → ∃ l ∈ ls, lineOf? g b = some l ∧
        ∃ argument, l.text = call (queryName b) argument ∧ Literal.read? argument =
          if (objectName (b.input? ["object"])).all Literal.isReadable then
            some (objectName (b.input? ["object"])) else none := by
  intro g
  have hg : g.Settled := Graph.settled_build blocks .empty
  obtain ⟨ls, hls, h⟩ := Outcome.bind_eq_ok.1 h
  obtain rfl : ("\n" : Text).intercalate (opening ++ ls.map Line.render ++ ending) = code :=
    Except.ok.inj h
  refine ⟨ls, hls, (codeLines_eq hg hls).2.1, ?_, fun b hb hkind => ?_⟩
  · have hopening : ∀ t ∈ opening, Text.IsInline t := by decide
    have hending : ∀ t ∈ ending, Text.IsInline t := by decide
    rw [Text.splitOn_join_iff (by simp [opening]), ← isInline_lines_iff hg hls]
    constructor
    · intro h l hl
      refine isInline_render.1 (h _ ?_)
      exact List.mem_append_left _ (List.mem_append_right _ (List.mem_map_of_mem hl))
    · intro h t ht
      rcases List.mem_append.1 ht with ht | ht
      · rcases List.mem_append.1 ht with ht | ht
        · exact hopening t ht
        · obtain ⟨l, hl, rfl⟩ := List.mem_map.1 ht
          exact isInline_render.2 (h l hl)
      · exact hending t ht
  · have htext : textFor b = .ok (some (call (queryName b) (objectText (b.input? ["object"])))) := by
      simp only [textFor, hkind]
      rfl
    have hline := lineOf?_of_textFor (g := g) htext
    exact ⟨_, mem_lines_of_lineOf? hg hls hb hline, hline, _, rfl, Literal.read?_quote _⟩

/-- A conditional around a sensor query whose object holds quotes and a backslash, and a number of
steps that is a text of two lines. -/
def labels : Data :=
  .list
    [Sample.block "if" "if" "control" 0 0 [("condition", .text " 1 < 2 ")] ["ask", "move"],
     Sample.block "ask" "distance" "sensing" 40 20 [("object", .text "the \"C:\\new\" wall")] [],
     Sample.block "move" "moveForward" "motion" 0 40 [("steps", .text "ten\ntimes")] []]

theorem physical_lines_labels :
    ∃ blocks code ls, Block.load labels = .ok blocks ∧ ofBlocks blocks = .ok code ∧
      lines (Graph.build blocks .empty).1 = .ok ls ∧
      List.splitOn Text.lineBreak code = opening ++ ls.map Line.render ++ ending ∧
      ls.map Line.text =
        (["if 1 < 2:", "robot.distance_to(\"the \\\"C:\\\\new\\\" wall\")",
          "robot.move_forward('ten\\ntimes')"] : List Text) ∧
      ∃ l ∈ ls, ∃ argument, l.text = call "robot.distance_to" argument ∧
        Literal.read? argument = some "the \"C:\\new\" wall" := by
  have hok : ((Block.load labels).toOption.any fun blocks =>
      (ofBlocks blocks).toOption.any fun _ =>
        (lines (Graph.build blocks .empty).1).toOption.any fun ls =>
          decide (ls.map Line.text =
              (["if 1 < 2:", "robot.distance_to(\"the \\\"C:\\\\new\\\" wall\")",
                "robot.move_forward('ten\\ntimes')"] : List Text) ∧
            (∀ b ∈ (Graph.build blocks .empty).1.blocks, StatesInline b) ∧
            ∃ b ∈ (Graph.build blocks .empty).1.preorder, b.kind = .sensorQuery ∧
              queryName b = "robot.distance_to" ∧
              objectName (b.input? ["object"]) = "the \"C:\\new\" wall" ∧
              (objectName (b.input? ["object"])).all Literal.isReadable = true)) = true := by
    decide +kernel
  obtain ⟨blocks, hload, hok⟩ := Outcome.any_toOption.1 hok
  obtain ⟨code, hcode, hok⟩ := Outcome.any_toOption.1 hok
  obtain ⟨ls, hlines, hok⟩ := Outcome.any_toOption.1 hok
  obtain ⟨htexts, hinline, b, hb, hkind, hname, hobject, hreadable⟩ := of_decide_eq_true hok
  have hg := Graph.settled_build blocks .empty
  obtain ⟨ls', hlines', -, hsplit, hquery⟩ := physical_lines hcode
  obtain rfl : ls = ls' := Except.ok.inj (hlines.symm.trans hlines')
  obtain ⟨l, hl, -, argument, htext, hread⟩ := hquery b ((Graph.mem_preorder hg).1 hb) hkind
  rw [if_pos hreadable, hobject] at hread
  exact ⟨blocks, code, ls, hload, hcode, hlines,
    hsplit.2 fun b hb => hinline b ((Graph.reachable_iff hg).1 hb).1, htexts, l, hl, argument,
    hname ▸ htext, hread⟩

/-- A sensor query whose object is a text of two lines. -/
def torn : Data :=
  .list [Sample.block "t" "touching" "sensing" 0 0 [("object", .text "red\nwall")] []]

/-- The object that a block states can tear its line, and then it cannot be read from there. -/
theorem not_physical_lines :
    ¬ ∀ (program : Data) (blocks : List Block) (code : Text) (ls : List Line),
      Block.load program = .ok blocks → ofBlocks blocks = .ok code →
      lines (Graph.build blocks .empty).1 = .ok ls →
      List.splitOn Text.lineBreak code = opening ++ ls.map Line.render ++ ending ∧
      ∀ b, (Graph.build blocks .empty).1.Reachable b → b.kind = .sensorQuery →
        Literal.read? (objectText (b.input? ["object"])) = some (objectName (b.input? ["object"])) := by
  intro h
  have hfails : ((Block.load torn).toOption.any fun blocks =>
      (ofBlocks blocks).toOption.any fun code =>
        (lines (Graph.build blocks .empty).1).toOption.any fun ls =>
          decide (List.splitOn Text.lineBreak code ≠ opening ++ ls.map Line.render ++ ending)) =
        true := by
    decide +kernel
  obtain ⟨blocks, hload, hfails⟩ := Outcome.any_toOption.1 hfails
  obtain ⟨code, hcode, hfails⟩ := Outcome.any_toOption.1 hfails
  obtain ⟨ls, hlines, hfails⟩ := Outcome.any_toOption.1 hfails
  exact of_decide_eq_true hfails (h torn blocks code ls hload hcode hlines).1

end Code

end RobotBlocks
