import RobotBlocks.Proofs.Graph.Claims
import RobotBlocks.Proofs.Graph.Rearrangement
import RobotBlocks.Proofs.Outcome
import RobotBlocks.Proofs.Program.Totality
import RobotBlocks.Proofs.Text.Faithful

/-!
# Generated names

A block that states no name is named by its place in the list, as `block-3`. Stated names are taken
as they are, so one of them can be the name that is generated for another block, earlier or later in
the list; of the two, the graph keeps the first one only.

* The names of the blocks of a list are the stated ones and the generated ones (`ids_of_load_perm`),
  and no two generated ones are equal (`nodup_generatedIds`).
* So, if no two stated names are equal, what a graph loses is one block for each generated name that
  is stated as well (`length_distinct_add`, `every_block_kept_iff`).
-/

namespace RobotBlocks

namespace Block

/-- Blocks at different places get different names. -/
theorem generatedId_injective : Function.Injective fun place : ℕ => generatedId place := by
  have hplace : ∀ place : ℕ, intText place = natText place := fun place => by
    rw [intText, if_neg (by omega), Int.natAbs_natCast]
  intro m n h
  have htexts : Text.ofString (intText m) = Text.ofString (intText n) :=
    List.append_cancel_left h
  rw [hplace, hplace] at htexts
  exact natText_injective (Text.ofString_injective htexts)

/-- The name that a raw record states for its block, if it states one. -/
def statedId? (fields : Fields) : Option Text :=
  match Data.field fields "id" with
  | .null => none
  | id => some id.shown

/-- The record of a block at its place in the list, if the item there is one. -/
def recordAt? : Data × ℕ → Option (Fields × ℕ)
  | (.record fields, place) => some (fields, place)
  | _ => none

/-- The records of the blocks in a raw value, with their places. -/
def records (value : Data) : List (Fields × ℕ) := (itemsOf value).zipIdx.filterMap recordAt?

/-- The names that are stated for blocks. -/
def statedIds (value : Data) : List Text := (records value).filterMap fun r => statedId? r.1

/-- The records that state no name. -/
def nameless (value : Data) : List (Fields × ℕ) :=
  (records value).filter fun r => (statedId? r.1).isNone

/-- The names that are generated for blocks. -/
def generatedIds (value : Data) : List Text := (nameless value).map fun r => generatedId r.2

/-- The records for whose blocks a name is generated that is stated for another block. -/
def clashes (value : Data) : List (Fields × ℕ) :=
  (nameless value).filter fun r => decide (generatedId r.2 ∈ statedIds value)

/-- The name of the block of a record. -/
def idAt (r : Fields × ℕ) : Text := (statedId? r.1).getD (generatedId r.2)

theorem id_of_ofFields {fields : Fields} {place : ℕ} {b : Block}
    (h : ofFields fields place = .ok b) : b.id = idAt (fields, place) := by
  obtain ⟨x, -, h⟩ := Outcome.bind_eq_ok.1 h
  obtain ⟨y, -, h⟩ := Outcome.bind_eq_ok.1 h
  cases h
  simp only [idAt, statedId?]
  split <;> simp_all

/-- The names of the blocks that are read. -/
theorem ids_of_ofItems {items : List Data} {index : ℕ} {blocks : List Block}
    (h : ofItems index items = .ok blocks) :
    blocks.map Block.id = ((items.zipIdx index).filterMap recordAt?).map idAt := by
  induction items generalizing index blocks with
  | nil =>
    cases h
    rfl
  | cons item items ih =>
    rw [List.zipIdx_cons]
    cases item with
    | record fields =>
      obtain ⟨b, hb, h⟩ := Outcome.bind_eq_ok.1 h
      obtain ⟨rest, hrest, h⟩ := Outcome.bind_eq_ok.1 h
      cases h
      simpa [recordAt?, id_of_ofFields hb] using ih hrest
    | _ => exact ih h

/-- The names of blocks are the stated ones and the generated ones. -/
theorem ids_perm (rs : List (Fields × ℕ)) :
    (rs.map idAt).Perm ((rs.filterMap fun r => statedId? r.1) ++
      (rs.filter fun r => (statedId? r.1).isNone).map fun r => generatedId r.2) := by
  induction rs with
  | nil => exact .refl _
  | cons r rs ih =>
    rcases hstated : statedId? r.1 with _ | id
    · simp only [List.map_cons, List.filterMap_cons, List.filter_cons, hstated, Option.isNone_none,
        if_true, idAt, Option.getD_none]
      exact (ih.cons _).trans List.perm_middle.symm
    · simpa [idAt, hstated] using ih

theorem ids_of_load {value : Data} {blocks : List Block} (h : load value = .ok blocks) :
    blocks.map Block.id = (records value).map idAt := ids_of_ofItems h

theorem ids_of_load_perm {value : Data} {blocks : List Block} (h : load value = .ok blocks) :
    (blocks.map Block.id).Perm (statedIds value ++ generatedIds value) :=
  ids_of_load h ▸ ids_perm (records value)

/-- No two generated names are equal. -/
theorem nodup_generatedIds (value : Data) : (generatedIds value).Nodup := by
  have hplaces : ((records value).map Prod.snd).Sublist ((itemsOf value).zipIdx.map Prod.snd) := by
    unfold records
    generalize (itemsOf value).zipIdx = items
    induction items with
    | nil => exact .slnil
    | cons item items ih =>
      rcases item with ⟨_ | _, place⟩
      case record => exact ih.cons_cons _
      all_goals exact ih.cons _
  have hnodup : ((nameless value).map Prod.snd).Nodup := by
    refine List.Nodup.sublist (((List.filter_sublist).map _).trans hplaces) ?_
    rw [List.zipIdx_map_snd]
    exact List.nodup_range' ..
  have := hnodup.map generatedId_injective
  rwa [List.map_map] at this

theorem length_clashes (value : Data) : (clashes value).length =
    ((generatedIds value).filter fun id => decide (id ∈ statedIds value)).length := by
  rw [generatedIds, List.filter_map, List.length_map]
  rfl

theorem clashes_eq_nil_iff (value : Data) :
    clashes value = [] ↔ (statedIds value).Disjoint (generatedIds value) := by
  rw [← List.length_eq_zero_iff, length_clashes, List.length_eq_zero_iff, List.filter_eq_nil_iff,
    List.disjoint_comm]
  simp [List.Disjoint]

end Block

namespace Graph

variable {blocks : List Block} (ds : Diagnostics) {xs ys : List Text}

/-- All blocks are kept exactly if their names are different. -/
theorem distinct_eq_iff : (distinct blocks ds).1 = blocks ↔ (blocks.map Block.id).Nodup := by
  constructor
  · intro h
    exact h ▸ nodup_distinct blocks ds
  · intro h
    rw [distinct_eq_self h]

/-- **Names from two sources**, neither of which gives a name twice: each is kept once. -/
theorem ids_distinct_perm (h : (blocks.map Block.id).Perm (xs ++ ys)) (hxs : xs.Nodup)
    (hys : ys.Nodup) : ((distinct blocks ds).1.map Block.id).Perm
      (xs ++ ys.filter fun id => !decide (id ∈ xs)) := by
  refine (List.perm_ext_iff_of_nodup (nodup_distinct blocks ds) ?_).2 fun id => ?_
  · refine List.nodup_append'.2 ⟨hxs, hys.filter _, fun id hid hfresh => ?_⟩
    simp [hid] at hfresh
  · rw [distinct, mem_ids_foldl_keep, h.mem_iff]
    by_cases hid : id ∈ xs <;> simp [hid]

/-- One block is lost for each name that both sources give. -/
theorem length_distinct_add (h : (blocks.map Block.id).Perm (xs ++ ys)) (hxs : xs.Nodup)
    (hys : ys.Nodup) : (distinct blocks ds).1.length +
      (ys.filter fun id => decide (id ∈ xs)).length = blocks.length := by
  have hkept := (ids_distinct_perm ds h hxs hys).length_eq
  have hall := h.length_eq
  have hsplit := ys.length_eq_length_filter_add fun id => decide (id ∈ xs)
  simp only [List.length_map, List.length_append] at hkept hall
  omega

/-- **Which blocks a graph loses** if no name is stated twice: one for each generated name that is
stated for another block. So all of them are blocks of the graph exactly if there is no such name. A
raw value has a block for each record, if the blocks can be read. -/
theorem every_block_kept_iff (value : Data) (hids : (Block.statedIds value).Nodup) :
    ((∃ blocks, Block.load value = .ok blocks) ↔
      ¬ ∃ fields, .record fields ∈ Block.itemsOf value ∧ Block.Misplaced fields) ∧
    ∀ blocks ds, Block.load value = .ok blocks →
      let kept := (build blocks ds).1.blocks
      blocks.length = (Block.records value).length ∧
      (kept = blocks ↔ Block.clashes value = []) ∧
      kept.length + (Block.clashes value).length = blocks.length := by
  constructor
  · rcases Block.yields_load value with ⟨hlarge, hload⟩ | ⟨hplaced, blocks, hload, -⟩
    · simp [hload, hlarge]
    · exact iff_of_true ⟨blocks, hload⟩ hplaced
  · intro blocks ds hload kept
    have hkept : kept = (distinct blocks ds).1 := (build_of_distinct blocks ds).1
    have hnames := Block.ids_of_load_perm hload
    have hgenerated := Block.nodup_generatedIds value
    refine ⟨by simpa using congrArg List.length (Block.ids_of_load hload), ?_, ?_⟩
    · rw [hkept, distinct_eq_iff, hnames.nodup_iff, List.nodup_append', Block.clashes_eq_nil_iff]
      simp [hids, hgenerated]
    · rw [hkept, Block.length_clashes]
      exact length_distinct_add ds hnames hids hgenerated

/-- Blocks with and without names, behind something that is none: the second block takes the name
that is generated for the first one. -/
def doubled : Data :=
  .list
    [.text "start", .record [("type", .text "moveForward")],
     .record [("id", .text "block-1"), ("type", .text "turnLeft"), ("y", .integer 1)],
     .record [("id", .text "block-0"), ("type", .text "wait"), ("y", .integer 2)]]

theorem every_block_kept_iff_doubled :
    (Block.statedIds doubled).Nodup ∧ ∃ blocks, Block.load doubled = .ok blocks ∧
      (Block.clashes doubled).length = 1 ∧
      (build blocks .empty).1.blocks.length + 1 = blocks.length ∧
      (build blocks .empty).1.blocks ≠ blocks := by
  have hids : (Block.statedIds doubled).Nodup := by decide +kernel
  have hclash : (Block.clashes doubled).length = 1 := by decide +kernel
  obtain ⟨blocks, hload⟩ : ∃ blocks, Block.load doubled = .ok blocks := ⟨_, rfl⟩
  obtain ⟨-, hiff, hcount⟩ := (every_block_kept_iff doubled hids).2 blocks .empty hload
  refine ⟨hids, blocks, hload, hclash, by rwa [hclash] at hcount, fun hall => ?_⟩
  rw [hiff.1 hall] at hclash
  cases hclash

/-- Not all blocks are kept, though no name is stated twice. -/
theorem not_every_block_kept :
    ¬ ∀ (value : Data) (blocks : List Block), (Block.statedIds value).Nodup →
      Block.load value = .ok blocks → ∀ b ∈ blocks, b ∈ (build blocks .empty).1.blocks := by
  intro h
  have hlost : ((Block.load doubled).toOption.any fun blocks =>
      decide ¬(blocks.map Block.type ⊆ (build blocks .empty).1.blocks.map Block.type)) = true := by
    decide +kernel
  obtain ⟨blocks, hload, hlost⟩ := Outcome.any_toOption.1 hlost
  refine of_decide_eq_true hlost (List.map_subset _ fun b hb => ?_)
  exact h doubled blocks (by decide +kernel) hload b hb

end Graph

end RobotBlocks
