import Mathlib.Data.List.Lex
import RobotBlocks.Block.Basic
import RobotBlocks.Proofs.Number.Order
import RobotBlocks.Proofs.Sorting.Order

/-!
# Reading order

Blocks whose coordinates are numbers have a rank (`Block.rank`): the rank of the one coordinate,
then of the other, then the code points of the name. The reading order compares these ranks
(`Block.ranks_precedes`), and where names tell blocks apart so do ranks. Hence a list of blocks has
one reading order, however the list is arranged and whatever else the blocks hold
(`Block.inReadingOrder_eq_map`).
-/

namespace RobotBlocks

/-! ## Names -/

namespace Piece

/-- Code points tell pieces apart: no character has that of half a pair. -/
theorem code_injective : Function.Injective code := by
  have hchar : ∀ (c : Char) (index : Fin 0x800), c.toNat ≠ 0xD800 + index := by
    intro c index h
    have hvalid : c.toNat < 0xD800 ∨ 0xDFFF < c.toNat ∧ c.toNat < 0x110000 := c.valid
    omega
  intro a b h
  cases a with
  | char c =>
    cases b with
    | char c' => exact congrArg char (Char.toNat_inj.1 h)
    | half index => exact absurd h (hchar c index)
  | half index =>
    cases b with
    | char c' => exact absurd h.symm (hchar c' index)
    | half index' => exact congrArg half (Fin.ext (Nat.add_left_cancel h))

end Piece

namespace Text

/-- The code points of a text. -/
def codes (t : Text) : List ℕ := t.map Piece.code

theorem codes_injective : Function.Injective codes := List.map_injective_iff.2 Piece.code_injective

/-- Texts are ordered by their code points. -/
theorem lt_iff_codes_lt {s t : Text} : s < t ↔ s.codes < t.codes := by
  unfold codes
  induction s generalizing t with
  | nil => cases t <;> simp
  | cons a s ih =>
    cases t with
    | nil => simp
    | cons b t =>
      rw [List.map_cons, List.map_cons, List.cons_lt_cons_iff, List.cons_lt_cons_iff, ih,
        Piece.code_injective.eq_iff]
      rfl

end Text

/-! ## Places -/

namespace Coordinate

/-- The coordinate is a number. -/
def IsNumber (a : Coordinate) : Prop := a.value.isNaN = false

instance : DecidablePred IsNumber := fun a => inferInstanceAs (Decidable (a.value.isNaN = false))

/-- The rank of the number at which a coordinate lies. -/
def rank (a : Coordinate) : ℤ ×ₗ ℤ ×ₗ ℤ := Float.rank a.value

variable {a b : Coordinate}

theorem exists_eq_at (h : a.IsNumber) : ∃ x, a = .at x ∧ x.isNaN = false := by
  rcases a with x | _
  · exact ⟨x, rfl, h⟩
  · have hnan : Float.undefined.isNaN = true := by decide
    exact absurd (hnan.symm.trans h) Bool.noConfusion

theorem agrees_iff (ha : a.IsNumber) (hb : b.IsNumber) : a.agrees b = true ↔ a.rank = b.rank := by
  obtain ⟨x, rfl, hx⟩ := exists_eq_at ha
  obtain ⟨y, rfl, hy⟩ := exists_eq_at hb
  rw [agrees, hx, Bool.false_and, Bool.or_false]
  exact Float.beq_iff_rank_eq hx hy

theorem isLess_iff (ha : a.IsNumber) (hb : b.IsNumber) : a.isLess b = true ↔ a.rank < b.rank := by
  rw [isLess, decide_eq_true_iff]
  exact Float.lt_iff_rank_lt ha hb

end Coordinate

namespace Block

/-- Both coordinates of the block are numbers. -/
def IsPlaced (b : Block) : Prop := b.x.IsNumber ∧ b.y.IsNumber

instance : DecidablePred IsPlaced := fun b =>
  inferInstanceAs (Decidable (b.x.IsNumber ∧ b.y.IsNumber))

/-- The rank of a block in reading order. -/
def rank (b : Block) : (ℤ ×ₗ ℤ ×ₗ ℤ) ×ₗ (ℤ ×ₗ ℤ ×ₗ ℤ) ×ₗ List ℕ :=
  toLex (b.y.rank, toLex (b.x.rank, b.id.codes))

/-- **The reading order compares ranks.** -/
theorem ranks_precedes : Sorting.Ranks precedes rank IsPlaced where
  iff {a b} ha hb := by
    rw [rank, rank, Prod.Lex.toLex_lt_toLex, Prod.Lex.toLex_lt_toLex, precedes]
    by_cases hy : a.y.rank = b.y.rank
    · rw [(Coordinate.agrees_iff ha.2 hb.2).2 hy]
      by_cases hx : a.x.rank = b.x.rank
      · rw [(Coordinate.agrees_iff ha.1 hb.1).2 hx]
        simp [hx, hy, Text.lt_iff_codes_lt]
      · rw [Bool.eq_false_iff.2 (mt (Coordinate.agrees_iff ha.1 hb.1).1 hx)]
        simp [hx, hy, Coordinate.isLess_iff ha.1 hb.1]
    · rw [Bool.eq_false_iff.2 (mt (Coordinate.agrees_iff ha.2 hb.2).1 hy)]
      simp [hy, Coordinate.isLess_iff ha.2 hb.2]

theorem id_eq_of_rank_eq {a b : Block} (h : a.rank = b.rank) : a.id = b.id :=
  Text.codes_injective (congrArg (fun k => (ofLex (ofLex k).2).2) h)

/-- A function keeps the place and the name of every block. -/
structure KeepsPlaces (ρ : Block → Block) : Prop where
  x : ∀ b, (ρ b).x = b.x
  y : ∀ b, (ρ b).y = b.y
  id : ∀ b, (ρ b).id = b.id

/-- **There is one reading order.** Blocks of a program in which names tell blocks apart, arranged
otherwise and with other contents at the same places, are read in the same order. -/
theorem inReadingOrder_eq_map {blocks : List Block} (hids : (blocks.map Block.id).Nodup)
    (hplaced : ∀ b ∈ blocks, b.IsPlaced) {ρ : Block → Block} (hρ : KeepsPlaces ρ)
    {xs ys : List Block} (hxs : xs ⊆ blocks) (hperm : ys.Perm (xs.map ρ)) :
    inReadingOrder ys = (inReadingOrder xs).map ρ := by
  have hrank : ∀ b, (ρ b).rank = b.rank := fun b => by rw [rank, rank, hρ.x, hρ.y, hρ.id]
  have hmem : ∀ y ∈ ys, ∃ x ∈ blocks, ρ x = y := by
    intro y hy
    obtain ⟨x, hx, rfl⟩ := List.mem_map.1 (hperm.mem_iff.1 hy)
    exact ⟨x, hxs hx, rfl⟩
  refine Sorting.sort_eq ranks_precedes (fun y hy => ?_) (fun a ha b hb hab => ?_)
    (((Sorting.sort_perm precedes xs).map ρ).trans hperm.symm) ?_
  · obtain ⟨x, hx, rfl⟩ := hmem y hy
    rw [IsPlaced, hρ.x, hρ.y]
    exact hplaced x hx
  · obtain ⟨x, hx, rfl⟩ := hmem a ha
    obtain ⟨x', hx', rfl⟩ := hmem b hb
    rw [hrank, hrank] at hab
    rw [List.inj_on_of_nodup_map hids hx hx' (id_eq_of_rank_eq hab)]
  · have hsorted := Sorting.ascends_sort ranks_precedes fun x hx => hplaced x (hxs hx)
    refine List.pairwise_map.2 (hsorted.imp fun {a b} hle => ?_)
    rwa [hrank, hrank]

end Block

end RobotBlocks
