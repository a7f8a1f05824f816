import Mathlib.Data.List.Nodup
import RobotBlocks.Program.Code
import RobotBlocks.Program.Compilation
import RobotBlocks.Proofs.Outcome

/-!
# Saving and loading programs

A block that was read from a raw record is tidy (`Block.Tidy`): it names every child once, and it
records at most one slot for each. The record that describes a tidy block is read back as that
block, whatever its place in the list (`Block.ofFields_toFields`), so the records of loaded blocks
load as these blocks (`Block.load_saved`). Compiling and printing the saved program is therefore
compiling and printing the loaded one (`Block.saved_program_is_the_same`).
-/

namespace RobotBlocks

/-! ## Coordinates and slots -/

/-- The value that states a coordinate is read as this coordinate, an undefined one included. -/
@[simp] theorem Coordinate.ofData_toData (a : Coordinate) : ofData a.toData = .ok a := by
  cases a with
  | «at» x => rfl
  | lost => decide

/-- The name of a slot is read as this slot. -/
@[simp] theorem Slot.ofData?_name (slot : Slot) : ofData? (.text slot.name) = some slot := by
  cases slot <;> decide

namespace Block

/-! ## Children -/

/-- The children with the one that a value names, unless it is among them. -/
def withChild (known : List Text) (item : Data) : List Text :=
  if known.contains item.shown then known else known ++ [item.shown]

theorem childrenOf_list (items : List Data) : childrenOf (.list items) = items.foldl withChild [] :=
  rfl

theorem withChild_of_notMem {known : List Text} {id : Text} (h : id ∉ known) :
    withChild known (.text id) = known ++ [id] := by
  rw [withChild, Data.shown, if_neg (by simpa using h)]

theorem nodup_withChild {known : List Text} (h : known.Nodup) (item : Data) :
    (withChild known item).Nodup := by
  unfold withChild
  split
  · exact h
  · rename_i new
    rw [List.contains_iff_mem] at new
    simpa using h.concat new

theorem nodup_childrenOf (value : Data) : (childrenOf value).Nodup := by
  cases value with
  | list items =>
    rw [childrenOf_list]
    exact List.foldlRecOn items withChild List.nodup_nil fun _ h item _ => nodup_withChild h item
  | _ => exact List.nodup_nil

/-- Children that differ are read behind those that are there. -/
theorem foldl_withChild {known ids : List Text} (h : (known ++ ids).Nodup) :
    (ids.map Data.text).foldl withChild known = known ++ ids := by
  induction ids generalizing known with
  | nil => simp
  | cons id ids ih =>
    have hnew : id ∉ known := fun hid =>
      (List.nodup_append.1 h).2.2 id hid id List.mem_cons_self rfl
    rw [List.map_cons, List.foldl_cons, withChild_of_notMem hnew, ih (by simpa using h)]
    simp

theorem childrenOf_texts {ids : List Text} (h : ids.Nodup) :
    childrenOf (.list (ids.map .text)) = ids := by
  rw [childrenOf_list, foldl_withChild (by simpa using h), List.nil_append]

/-! ## Recorded slots -/

section

variable {slots : List (Text × Slot)} {child : Text}

theorem setSlot_of_notMem (h : child ∉ slots.map Prod.fst) (slot : Slot) :
    setSlot slots child slot = slots ++ [(child, slot)] := by
  refine if_neg fun hany => h ?_
  obtain ⟨s, hs, he⟩ := List.any_eq_true.1 hany
  exact List.mem_map.2 ⟨s, hs, by simpa using he⟩

/-- Setting the slot of a child that has one leaves the children with slots the same. -/
theorem fst_setSlot_of_mem (h : child ∈ slots.map Prod.fst) (slot : Slot) :
    (setSlot slots child slot).map Prod.fst = slots.map Prod.fst := by
  have hany : (slots.any fun s => s.1 == child) = true := by
    obtain ⟨s, hs, rfl⟩ := List.mem_map.1 h
    exact List.any_eq_true.2 ⟨s, hs, by simp⟩
  rw [setSlot, if_pos hany, List.map_map]
  refine List.map_congr_left fun s hs => ?_
  by_cases he : s.1 = child
  · simp [he]
  · simp [he]

theorem nodup_setSlot (h : (slots.map Prod.fst).Nodup) (child : Text) (slot : Slot) :
    ((setSlot slots child slot).map Prod.fst).Nodup := by
  by_cases hmem : child ∈ slots.map Prod.fst
  · rw [fst_setSlot_of_mem hmem]
    exact h
  · rw [setSlot_of_notMem hmem, List.map_append]
    simpa using h.concat hmem

/-- The slots with the one that a field records, if its value names one. -/
def withSlot (slots : List (Text × Slot)) (f : Text × Data) : List (Text × Slot) :=
  match Slot.ofData? f.2 with
  | some slot => setSlot slots f.1 slot
  | none => slots

theorem slotsOf_record (fields : Fields) : slotsOf (.record fields) = fields.foldl withSlot [] :=
  rfl

theorem nodup_slotsOf (value : Data) : ((slotsOf value).map Prod.fst).Nodup := by
  cases value with
  | record fields =>
    rw [slotsOf_record]
    refine List.foldlRecOn (motive := fun slots => (slots.map Prod.fst).Nodup) fields withSlot
      ?_ fun slots h f _ => ?_
    · exact List.nodup_nil
    · unfold withSlot
      split
      · exact nodup_setSlot h _ _
      · exact h
  | _ => exact List.nodup_nil

/-- The field that records a slot. -/
def slotField (s : Text × Slot) : Text × Data := (s.1, .text s.2.name)

theorem withSlot_slotField {s : Text × Slot} (h : s.1 ∉ slots.map Prod.fst) :
    withSlot slots (slotField s) = slots ++ [s] := by
  rw [withSlot, slotField, Slot.ofData?_name]
  exact setSlot_of_notMem h s.2

/-- Slots of different children are read behind those that are there. -/
theorem foldl_withSlot {known : List (Text × Slot)} (h : ((known ++ slots).map Prod.fst).Nodup) :
    (slots.map slotField).foldl withSlot known = known ++ slots := by
  induction slots generalizing known with
  | nil => simp
  | cons s slots ih =>
    have hnew : s.1 ∉ known.map Prod.fst := by
      intro hs
      rw [List.map_append, List.map_cons] at h
      exact (List.nodup_append.1 h).2.2 _ hs _ List.mem_cons_self rfl
    rw [List.map_cons, List.foldl_cons, withSlot_slotField hnew, ih (by simpa using h)]
    simp

theorem slotsOf_slotFields (h : (slots.map Prod.fst).Nodup) :
    slotsOf (.record (slots.map slotField)) = slots := by
  rw [slotsOf_record, foldl_withSlot (by simpa using h), List.nil_append]

end

/-! ## Blocks -/

/-- A block names every child once and records at most one slot for each name. -/
structure Tidy (b : Block) : Prop where
  children : b.children.Nodup
  slots : (b.slots.map Prod.fst).Nodup

/-- **A block that was read is tidy.** -/
theorem tidy_of_ofFields {fields : Fields} {place : Int} {b : Block}
    (h : ofFields fields place = .ok b) : b.Tidy := by
  unfold ofFields at h
  obtain ⟨x, -, h⟩ := Outcome.bind_eq_ok.1 h
  obtain ⟨y, -, h⟩ := Outcome.bind_eq_ok.1 h
  cases h
  exact ⟨nodup_childrenOf _, nodup_slotsOf _⟩

/-- What is read from the record of a block. -/
theorem ofFields_toFields_eq (b : Block) (place : Int) :
    ofFields b.toFields place = do
      let x ← Coordinate.ofData b.x.toData
      let y ← Coordinate.ofData b.y.toData
      return { b with
        x, y
        children := childrenOf (.list (b.children.map .text))
        slots := slotsOf (.record (b.slots.map slotField)) } := by
  obtain ⟨id, type, category, x, y, inputs, children, slots⟩ := b
  cases slots with
  | nil => rfl
  | cons s slots => rfl

/-- **The record of a tidy block is read as this block**, whatever its place in the list. -/
theorem ofFields_toFields {b : Block} (h : b.Tidy) (place : Int) :
    ofFields b.toFields place = .ok b := by
  rw [ofFields_toFields_eq, Coordinate.ofData_toData, Coordinate.ofData_toData,
    childrenOf_texts h.children, slotsOf_slotFields h.slots]
  rfl

/-! ## Programs -/

/-- The raw program that describes the blocks. -/
def saved (blocks : List Block) : Data := .list (blocks.map fun b => .record b.toFields)

theorem tidy_of_ofItems {index : ℕ} {items : List Data} {blocks : List Block}
    (h : ofItems index items = .ok blocks) : ∀ b ∈ blocks, b.Tidy := by
  induction items generalizing index blocks with
  | nil =>
    cases h
    simp
  | cons item items ih =>
    cases item with
    | record fields =>
      obtain ⟨b, hb, h⟩ := Outcome.bind_eq_ok.1 h
      obtain ⟨rest, hrest, h⟩ := Outcome.bind_eq_ok.1 h
      cases h
      exact List.forall_mem_cons.2 ⟨tidy_of_ofFields hb, ih hrest⟩
    | _ => exact ih h

/-- The records of tidy blocks describe these blocks, from any place on. -/
theorem ofItems_records {blocks : List Block} (h : ∀ b ∈ blocks, b.Tidy) (index : ℕ) :
    ofItems index (blocks.map fun b => .record b.toFields) = .ok blocks := by
  induction blocks generalizing index with
  | nil => rfl
  | cons b blocks ih =>
    obtain ⟨hb, hrest⟩ := List.forall_mem_cons.1 h
    rw [List.map_cons, ofItems, ofFields_toFields hb, ih hrest]
    rfl

/-- **Loaded blocks are saved and loaded unchanged.** -/
theorem load_saved {program : Data} {blocks : List Block} (h : load program = .ok blocks) :
    load (saved blocks) = .ok blocks := ofItems_records (tidy_of_ofItems h) 0

variable {R : Type} [Scalar R]

/-- **Saving a loaded program and loading it again changes nothing.** The record of each of its
blocks describes this block at every place of a list, and the saved program is compiled, with the
same diagnostics, and printed as the loaded one is. -/
theorem saved_program_is_the_same {program : Data} {blocks : List Block}
    (h : load program = .ok blocks) :
    (∀ b ∈ blocks, ∀ place, ofFields b.toFields place = .ok b) ∧
      (∀ c : Config R, ∀ ds, (Compilation.ofData c (saved blocks)).run ds =
        (Compilation.ofBlocks c blocks).run ds) ∧
      Code.ofData (saved blocks) = Code.ofBlocks blocks := by
  have hload := load_saved h
  refine ⟨fun b hb place => ofFields_toFields (tidy_of_ofItems h b hb) place, fun c ds => ?_, ?_⟩
  · rw [Compilation.ofData, hload]
    rfl
  · rw [Code.ofData, hload]
    rfl

/-- A program with odd fields: a repetition at an undefined place whose identifier is a number, which
claims a child twice and records a slot for it, an item that is no block, and a block without
fields. -/
def crumpled : Data :=
  .list [
    .record [("id", .integer 7), ("type", .text "repeat"),
      ("position", .record [("x", .text "nan"), ("y", .integer 40)]),
      ("children", .list [.text "a", .integer 7, .text "a"]),
      ("childSlots", .record [("a", .text "BODY"), ("b", .text "aside")])],
    .null,
    .record []]

/-- The blocks of the program with odd fields. -/
def crumpledBlocks : List Block := [
  { id := "7", type := "repeat", category := "", x := .lost, y := .at 40, inputs := [],
    children := ["a", "7"], slots := [("a", .body)] },
  { id := "block-2", type := "", category := "", x := .at 0, y := .at 0, inputs := [],
    children := [], slots := [] }]

theorem saved_program_is_the_same_crumpled :
    load crumpled = .ok crumpledBlocks ∧
      (∀ b ∈ crumpledBlocks, ∀ place, ofFields b.toFields place = .ok b) ∧
        (∀ c : Config Float, ∀ ds, (Compilation.ofData c (saved crumpledBlocks)).run ds =
          (Compilation.ofBlocks c crumpledBlocks).run ds) ∧
        Code.ofData (saved crumpledBlocks) = Code.ofBlocks crumpledBlocks := by
  have hload : load crumpled = .ok crumpledBlocks := by rfl
  exact ⟨hload, saved_program_is_the_same hload⟩

end Block

end RobotBlocks
