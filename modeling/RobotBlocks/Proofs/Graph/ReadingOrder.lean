import Mathlib.Data.List.Pairwise
import RobotBlocks.Proofs.Graph.Claims
import RobotBlocks.Proofs.Outcome

/-!
# Roots and children in reading order

The roots of a program and the children of every block are put in reading order, which goes by rows,
then by columns, then by names (`Block.IsBefore`). A sort that asks of two blocks whether one
precedes the other gives that order if each of its answers is right, and an undefined coordinate
makes it give wrong ones. So what has to be known of a list is that any two of its blocks are
`Comparable`: their rows are numbers, and where the rows are the same, their columns are as well.

* For comparable blocks the test of the sort and the reading order go by the same ranks
  (`Block.precedes_iff_rank_lt`, `Block.isBefore_iff_rank_lt`), so a list of comparable blocks is
  sorted into reading order (`Block.isBefore_inReadingOrder`), also if it holds an undefined column
  in a row of its own.
* `Graph.roots_and_children_in_reading_order` says it for the lists of a program. A condition on one
  list is enough for that list, whatever the coordinates of the other blocks.
* Without the condition blocks can stand in the wrong order, also those whose coordinates are
  numbers (`Graph.not_in_reading_order`).
-/

namespace RobotBlocks

theorem Float.not_lt_self (x : Float) : ¬ x < x := by
  rw [lt_iff_compare]
  rcases hnan : x.toModel.unpack.isNaN with _ | _
  · rw [Float.compare_eq hnan hnan, compare_eq_iff_eq.2 rfl]
    decide
  · generalize x.toModel.unpack = a at hnan
    cases a <;> cases hnan
    exact Bool.noConfusion

theorem Coordinate.isLess_self (a : Coordinate) : a.isLess a = false :=
  decide_eq_false (Float.not_lt_self a.value)

namespace Block

variable {a b : Block}

/-- The first block stands in a row above the second one, or in the same row further left, or at the
same place with the lesser name. -/
def IsBefore (a b : Block) : Prop :=
  a.y.value < b.y.value ∨
    (a.y.value == b.y.value) = true ∧
      (a.x.value < b.x.value ∨ (a.x.value == b.x.value) = true ∧ a.id < b.id)

instance : DecidableRel IsBefore := fun a b =>
  inferInstanceAs (Decidable (a.y.value < b.y.value ∨ (a.y.value == b.y.value) = true ∧
    (a.x.value < b.x.value ∨ (a.x.value == b.x.value) = true ∧ a.id < b.id)))

/-- Comparing the two blocks comes upon no undefined coordinate. -/
structure Comparable (a b : Block) : Prop where
  rows : a.y.IsNumber ∧ b.y.IsNumber
  columns : (a.y.value == b.y.value) = true → a.x.IsNumber ∧ b.x.IsNumber

instance : DecidableRel Comparable := fun a b =>
  decidable_of_iff ((a.y.IsNumber ∧ b.y.IsNumber) ∧
      ((a.y.value == b.y.value) = true → a.x.IsNumber ∧ b.x.IsNumber))
    ⟨fun h => ⟨h.1, h.2⟩, fun h => ⟨h.rows, h.columns⟩⟩

theorem Comparable.symm (h : a.Comparable b) : b.Comparable a := by
  refine ⟨h.rows.symm, fun hrow => (h.columns ?_).symm⟩
  rw [Float.beq_iff_rank_eq h.rows.2 h.rows.1] at hrow
  exact (Float.beq_iff_rank_eq h.rows.1 h.rows.2).2 hrow.symm

instance : Std.Symm Comparable := ⟨fun _ _ => Comparable.symm⟩

/-- **Comparable blocks stand in the order of their ranks.** -/
theorem isBefore_iff_rank_lt (h : a.Comparable b) : a.IsBefore b ↔ a.rank < b.rank := by
  rw [rank, rank, Prod.Lex.toLex_lt_toLex, Prod.Lex.toLex_lt_toLex, IsBefore,
    Float.lt_iff_rank_lt h.rows.1 h.rows.2]
  refine or_congr_right ((and_congr_right fun hrow => ?_).trans
    (and_congr_left' (Float.beq_iff_rank_eq h.rows.1 h.rows.2)))
  obtain ⟨hxa, hxb⟩ := h.columns hrow
  rw [Float.lt_iff_rank_lt hxa hxb, Float.beq_iff_rank_eq hxa hxb, Text.lt_iff_codes_lt]
  rfl

/-- **The sort compares comparable blocks by their ranks.** -/
theorem precedes_iff_rank_lt (h : a.Comparable b) : a.precedes b = true ↔ a.rank < b.rank := by
  obtain ⟨hya, hyb⟩ := h.rows
  by_cases hrow : a.y.rank = b.y.rank
  · obtain ⟨hxa, hxb⟩ := h.columns ((Float.beq_iff_rank_eq hya hyb).2 hrow)
    exact ranks_precedes.iff ⟨hxa, hya⟩ ⟨hxb, hyb⟩
  · have hagrees : a.y.agrees b.y = false :=
      Bool.eq_false_iff.2 (mt (Coordinate.agrees_iff hya hyb).1 hrow)
    rw [rank, rank, Prod.Lex.toLex_lt_toLex, precedes, hagrees]
    simp [hrow, Coordinate.isLess_iff hya hyb]

theorem precedes_self (a : Block) : a.precedes a = false := by
  have hid : ¬ a.id < a.id := fun h => lt_irrefl _ (Text.lt_iff_codes_lt.1 h)
  simp [precedes, Coordinate.isLess_self, hid]

/-- **A list of comparable blocks is sorted into reading order.** -/
theorem isBefore_inReadingOrder {xs : List Block} (hids : (xs.map Block.id).Nodup)
    (h : xs.Pairwise Comparable) : (inReadingOrder xs).Pairwise IsBefore := by
  have hranks : Sorting.Ranks precedes rank (· ∈ xs) := by
    refine ⟨fun {a b} ha hb => ?_⟩
    by_cases hab : a = b
    · subst hab
      simp [precedes_self]
    · exact precedes_iff_rank_lt (h.forall ha hb hab)
  have hperm : (inReadingOrder xs).Perm xs := Sorting.sort_perm precedes xs
  have hnodup : (inReadingOrder xs).Pairwise fun a b => a.id ≠ b.id :=
    List.pairwise_map.1 ((hperm.map Block.id).nodup_iff.2 hids)
  refine ((Sorting.ascends_sort hranks fun _ hx => hx).and hnodup).imp_of_mem
    fun {a b} ha hb hab => ?_
  have hne : a ≠ b := fun e => hab.2 (congrArg Block.id e)
  refine (isBefore_iff_rank_lt (h.forall (hperm.mem_iff.1 ha) (hperm.mem_iff.1 hb) hne)).2 ?_
  exact lt_of_le_of_ne hab.1 fun e => hab.2 (id_eq_of_rank_eq e)

end Block

namespace Graph

variable {g : Graph}

theorem topLevel_perm (g : Graph) :
    g.topLevel.Perm (g.blocks.filter fun b => (g.owner? b.id).isNone) :=
  (List.filter_append_perm (fun b : Block => b.kind == .startEvent) _).trans (Sorting.sort_perm _ _)

/-- **The roots of a program and the children of each block stand in reading order.** The roots are
start events and others behind them, either of them in reading order if any two of the roots can be
compared; and of a block of which any two children can be compared, the children in either slot are
in reading order. -/
theorem roots_and_children_in_reading_order (blocks : List Block) :
    let g := (build blocks .empty).1
    (∃ starts others, g.topLevel = starts ++ others ∧ (∀ b ∈ starts, b.kind = .startEvent) ∧
      (∀ b ∈ others, b.kind ≠ .startEvent) ∧
      (g.topLevel.Pairwise Block.Comparable →
        starts.Pairwise Block.IsBefore ∧ others.Pairwise Block.IsBefore)) ∧
    ∀ p ∈ g.blocks, (g.childrenOf p).Pairwise Block.Comparable →
      ∀ slot, (g.inSlot p slot).Pairwise Block.IsBefore := by
  intro g
  have hg : g.Settled := settled_build blocks .empty
  refine ⟨⟨_, _, rfl, fun b hb => ?_, fun b hb => ?_, fun hroots => ?_⟩,
    fun p hp hchildren slot => ?_⟩
  · simpa using (List.mem_filter.1 hb).2
  · simpa using (List.mem_filter.1 hb).2
  · have hcomparable := (g.topLevel_perm.pairwise_iff Block.Comparable.symm).1 hroots
    have hsorted := Block.isBefore_inReadingOrder
      (hg.nodup_ids.sublist (List.filter_sublist.map Block.id)) hcomparable
    exact ⟨hsorted.filter _, hsorted.filter _⟩
  · have hread : g.childrenOf p = Block.inReadingOrder (g.ownedBy p) :=
      childrenOf_build blocks .empty hp
    have hperm : (g.childrenOf p).Perm (g.ownedBy p) := hread ▸ Sorting.sort_perm _ _
    have hids : ((g.ownedBy p).map Block.id).Nodup := by
      rw [← (hperm.map Block.id).nodup_iff]
      exact nodup_ids hg (hg.nodup_childrenOf hp) fun b hb => ((hg.mem_childrenOf hp).1 hb).1
    have hsorted := Block.isBefore_inReadingOrder hids
      ((hperm.pairwise_iff Block.Comparable.symm).1 hchildren)
    exact (hread ▸ hsorted).filter _

/-- Blocks in odd places: one in a row that is no finite number, one in a row of its own whose
column is undefined, and the text of a number for a row that another block has as well. -/
def scattered : Data :=
  .list
    [.record [("id", .text "r"), ("type", .text "repeat"), ("y", .text " 1e1 "),
       ("children", .list [.text "n", .text "m"])],
     .record [("id", .text "m"), ("type", .text "turnLeft"), ("x", .integer 4), ("y", .integer 20)],
     .record [("id", .text "n"), ("type", .text "wait"), ("x", .text "nan"), ("y", .integer 15)],
     .record [("id", .text "w"), ("type", .text "wait"), ("x", .real (-1.0)), ("y", .integer 10)],
     .record [("id", .text "top"), ("type", .text "moveForward"), ("y", .text "-inf")]]

theorem roots_and_children_in_reading_order_scattered :
    ∃ blocks, Block.load scattered = .ok blocks ∧
      let g := (build blocks .empty).1
      g.topLevel.map Block.id = ["top", "w", "r"] ∧ g.topLevel.Pairwise Block.Comparable ∧
      (∃ starts others, g.topLevel = starts ++ others ∧
        starts.Pairwise Block.IsBefore ∧ others.Pairwise Block.IsBefore) ∧
      ∃ p ∈ g.blocks, (g.childrenOf p).map Block.id = ["n", "m"] ∧
        (g.childrenOf p).Pairwise Block.Comparable ∧
        ∀ slot, (g.inSlot p slot).Pairwise Block.IsBefore := by
  have hok : ((Block.load scattered).toOption.any fun blocks =>
      let g := (build blocks .empty).1
      decide (g.topLevel.map Block.id = ["top", "w", "r"] ∧ g.topLevel.Pairwise Block.Comparable ∧
        ∃ p ∈ g.blocks, (g.childrenOf p).map Block.id = ["n", "m"] ∧
          (g.childrenOf p).Pairwise Block.Comparable)) = true := by decide +kernel
  obtain ⟨blocks, hload, hok⟩ := Outcome.any_toOption.1 hok
  obtain ⟨hids, hroots, p, hp, hchildren, hcomparable⟩ := of_decide_eq_true hok
  obtain ⟨⟨starts, others, heq, -, -, hordered⟩, hslots⟩ :=
    roots_and_children_in_reading_order blocks
  exact ⟨blocks, hload, hids, hroots, ⟨starts, others, heq, hordered hroots⟩,
    p, hp, hchildren, hcomparable, hslots p hp hcomparable⟩

/-- Three blocks of which the one in the middle of the list has an undefined row. -/
def astray : Data :=
  .list
    [.record [("id", .text "low"), ("type", .text "moveForward"), ("y", .integer 2)],
     .record [("id", .text "lost"), ("type", .text "touching"), ("y", .text "nan")],
     .record [("id", .text "high"), ("type", .text "turnLeft"), ("y", .integer 1)]]

/-- Blocks whose coordinates are numbers need not stand in reading order if another one's
are not. -/
theorem not_in_reading_order :
    ¬ ∀ (program : Data) (blocks : List Block), Block.load program = .ok blocks →
      ((build blocks .empty).1.topLevel.filter fun b =>
        decide b.IsPlaced && b.kind != .startEvent).Pairwise Block.IsBefore := by
  intro h
  have hfails : ((Block.load astray).toOption.any fun blocks =>
      decide ¬((build blocks .empty).1.topLevel.filter fun b =>
        decide b.IsPlaced && b.kind != .startEvent).Pairwise Block.IsBefore) = true := by
    decide +kernel
  obtain ⟨blocks, hload, hfails⟩ := Outcome.any_toOption.1 hfails
  exact of_decide_eq_true hfails (h astray blocks hload)

end Graph

end RobotBlocks
