import Mathlib.Data.List.DropRight
import Mathlib.Data.List.Induction
import Mathlib.Data.List.Pairwise
import RobotBlocks.Diagnostic
import RobotBlocks.Proofs.Block.ReadingOrder

/-!
# Collecting diagnostics

A collection of diagnostics is used by adding to it and clearing it (`Diagnostics.Action`). What it
holds after any number of such actions is told by the diagnostics that were added since it was last
cleared (`Diagnostics.added`): it keeps each of them once, in the order in which they first came
(`Diagnostics.Keeps`).

* An action keeps this relation (`Keeps.push` for a diagnostic that is added), hence so does a
  history of actions (`keeps_collected`).
* Sorting compares ranks (`Diagnostic.precedes_iff_rank_lt`) and leaves diagnostics of one rank as
  they stand (`filter_rank_sorted`), so what is sorted stands in the order that is wanted of it
  (`pairwise_sorted`).
* `Diagnostics.loses_and_repeats_nothing` puts the two together and adds the diagnostics about one
  block.
-/

namespace RobotBlocks

namespace Diagnostic

/-- The rank of a diagnostic: errors come first, then the code points of the block decide. No block
has the rank of the block with the empty name, which is less than that of any other. -/
def rank (d : Diagnostic) : ℕ ×ₗ List ℕ :=
  toLex (if d.severity = .error then 0 else 1, (d.block.getD "").codes)

/-- Sorting compares ranks. -/
theorem precedes_iff_rank_lt {a b : Diagnostic} : a.precedes b = true ↔ a.rank < b.rank := by
  rw [rank, rank, Prod.Lex.toLex_lt_toLex, precedes]
  cases ha : a.severity <;> cases hb : b.severity <;> simp [Text.lt_iff_codes_lt]

theorem not_precedes_iff_rank_le {a b : Diagnostic} :
    (!a.precedes b) = true ↔ b.rank ≤ a.rank := by
  rw [Bool.not_eq_true', ← not_lt, ← precedes_iff_rank_lt, Bool.not_eq_true]

theorem not_precedes_trans (a b c : Diagnostic) (hab : (!b.precedes a) = true)
    (hbc : (!c.precedes b) = true) : (!c.precedes a) = true := by
  rw [not_precedes_iff_rank_le] at hab hbc ⊢
  exact hab.trans hbc

theorem not_precedes_total (a b : Diagnostic) : (!b.precedes a || !a.precedes b) = true := by
  rw [Bool.or_eq_true, not_precedes_iff_rank_le, not_precedes_iff_rank_le]
  exact le_total _ _

/-- The first diagnostic stands before the second one among all: it is an error and the other one a
warning; or they are alike in this, and the name of its block is less, no block having the empty
name; or they are alike in both, and it was found first. -/
def Before (found : List Diagnostic) (a b : Diagnostic) : Prop :=
  a.severity = .error ∧ b.severity = .warning ∨
    a.severity = b.severity ∧
      ((a.block.getD "").codes < (b.block.getD "").codes ∨
        a.block.getD "" = b.block.getD "" ∧ found.idxOf a < found.idxOf b)

instance (found : List Diagnostic) : DecidableRel (Before found) := fun a b =>
  inferInstanceAs (Decidable (a.severity = .error ∧ b.severity = .warning ∨
    a.severity = b.severity ∧
      ((a.block.getD "").codes < (b.block.getD "").codes ∨
        a.block.getD "" = b.block.getD "" ∧ found.idxOf a < found.idxOf b)))

theorem before_of_rank_lt {found : List Diagnostic} {a b : Diagnostic} (h : a.rank < b.rank) :
    Before found a b := by
  rw [rank, rank, Prod.Lex.toLex_lt_toLex] at h
  unfold Before
  cases ha : a.severity <;> cases hb : b.severity <;> simp_all

theorem before_of_rank_eq {found : List Diagnostic} {a b : Diagnostic} (h : a.rank = b.rank)
    (hfound : found.idxOf a < found.idxOf b) : Before found a b := by
  obtain ⟨hseverity, hblock⟩ := Prod.mk.inj (toLex.injective h)
  refine .inr ⟨?_, .inr ⟨Text.codes_injective hblock, hfound⟩⟩
  cases ha : a.severity <;> cases hb : b.severity <;> simp_all

end Diagnostic

namespace Diagnostics

/-! ## What is kept -/

/-- A list holds the diagnostics that were found, each of them once, in the order in which they were
found first. -/
structure Keeps (found kept : List Diagnostic) : Prop where
  mem_iff : ∀ d, d ∈ kept ↔ d ∈ found
  ordered : kept.Pairwise fun a b => found.idxOf a < found.idxOf b

namespace Keeps

variable {found kept : List Diagnostic} {d : Diagnostic}

theorem nil : Keeps [] [] := ⟨fun _ => Iff.rfl, .nil⟩

theorem nodup (h : Keeps found kept) : kept.Nodup :=
  h.ordered.imp fun hlt => by
    rintro rfl
    exact Nat.lt_irrefl _ hlt

/-- A diagnostic that is found later changes no place of those that were found. -/
theorem ordered_append (h : Keeps found kept) (d : Diagnostic) :
    kept.Pairwise fun a b => (found ++ [d]).idxOf a < (found ++ [d]).idxOf b := by
  refine h.ordered.imp_of_mem fun {a b} ha hb hlt => ?_
  rwa [List.idxOf_append_of_mem ((h.mem_iff a).1 ha), List.idxOf_append_of_mem ((h.mem_iff b).1 hb)]

/-- A diagnostic that was found before is not kept again. -/
theorem again (h : Keeps found kept) (hd : d ∈ found) : Keeps (found ++ [d]) kept where
  mem_iff e := by
    have hself : e = d → e ∈ found := fun he => he ▸ hd
    rw [h.mem_iff, List.mem_append, List.mem_singleton, or_iff_left_of_imp hself]
  ordered := h.ordered_append d

/-- A diagnostic that is found for the first time is kept behind all others. -/
theorem new (h : Keeps found kept) (hd : d ∉ found) : Keeps (found ++ [d]) (kept ++ [d]) where
  mem_iff e := by rw [List.mem_append, List.mem_append, h.mem_iff]
  ordered := by
    refine List.pairwise_append.2 ⟨h.ordered_append d, List.pairwise_singleton _ _, ?_⟩
    intro a ha b hb
    obtain rfl : b = d := List.mem_singleton.1 hb
    have ha' : a ∈ found := (h.mem_iff a).1 ha
    rw [List.idxOf_append_of_mem ha', List.idxOf_append_of_notMem hd, List.idxOf_cons_self]
    exact List.idxOf_lt_length_of_mem ha'

/-- **Recording a diagnostic** keeps it with those found before. -/
theorem push {ds : Diagnostics} (h : Keeps found ds.entries) (d : Diagnostic) :
    Keeps (found ++ [d]) (ds.add d).entries := by
  unfold add
  split
  next hmem => exact h.again ((h.mem_iff d).1 hmem)
  next hmem => exact h.new (mt (h.mem_iff d).2 hmem)

end Keeps

/-! ## Histories -/

/-- What can be done to a collection of diagnostics. -/
inductive Action
  /-- Adds a diagnostic. -/
  | add (d : Diagnostic)
  /-- Takes all of them away. -/
  | clear
  deriving DecidableEq

/-- The collection after an action. -/
def act (ds : Diagnostics) : Action → Diagnostics
  | .add d => ds.add d
  | .clear => .empty

/-- The collection after a history of actions. -/
def collected (actions : List Action) : Diagnostics := actions.foldl act .empty

/-- The diagnostic that an action adds. -/
def Action.diagnostic? : Action → Option Diagnostic
  | .add d => some d
  | .clear => none

/-- The diagnostics added since the last time that the collection was cleared. -/
def added (actions : List Action) : List Diagnostic :=
  (actions.rtakeWhile (· ≠ .clear)).filterMap Action.diagnostic?

theorem added_append_add (actions : List Action) (d : Diagnostic) :
    added (actions ++ [.add d]) = added actions ++ [d] := by
  simp [added, Action.diagnostic?]

theorem added_append_clear (actions : List Action) : added (actions ++ [.clear]) = [] := by
  simp [added]

/-- **A collection holds what was added since it was cleared**, each diagnostic once, in the order
in which they were first added. -/
theorem keeps_collected (actions : List Action) :
    Keeps (added actions) (collected actions).entries := by
  induction actions using List.reverseRecOn with
  | nil => exact .nil
  | append_singleton actions action ih =>
    rw [collected, List.foldl_append, List.foldl_cons, List.foldl_nil, ← collected]
    cases action with
    | add d =>
      rw [added_append_add]
      exact ih.push d
    | clear =>
      rw [added_append_clear]
      exact .nil

/-! ## Sorting -/

section Sorting

variable (ds : Diagnostics)

theorem sorted_perm : ds.sorted.Perm ds.entries := List.mergeSort_perm _ _

theorem pairwise_rank_sorted : ds.sorted.Pairwise fun a b => a.rank ≤ b.rank := by
  have hsorted : ds.sorted.Pairwise fun a b => (!b.precedes a) = true :=
    List.pairwise_mergeSort Diagnostic.not_precedes_trans Diagnostic.not_precedes_total ds.entries
  exact hsorted.imp Diagnostic.not_precedes_iff_rank_le.1

/-- **Sorting is stable**: the diagnostics of one rank stand as they were recorded. -/
theorem filter_rank_sorted (r : ℕ ×ₗ List ℕ) :
    ds.sorted.filter (·.rank = r) = ds.entries.filter (·.rank = r) := by
  have htied : (ds.entries.filter (·.rank = r)).Pairwise fun a b => (!b.precedes a) = true := by
    refine List.pairwise_of_forall_mem_list fun a ha b hb => ?_
    simp only [List.mem_filter, decide_eq_true_eq] at ha hb
    exact Diagnostic.not_precedes_iff_rank_le.2 (ha.2.trans hb.2.symm).le
  have hsub : (ds.entries.filter (·.rank = r)).Sublist ds.sorted :=
    List.sublist_mergeSort Diagnostic.not_precedes_trans Diagnostic.not_precedes_total htied
      List.filter_sublist
  have hfilter := hsub.filter (·.rank = r)
  rw [List.filter_filter] at hfilter
  simp only [Bool.and_self] at hfilter
  exact (hfilter.eq_of_length (ds.sorted_perm.filter _).length_eq.symm).symm

/-- **What is sorted stands in order**, errors first, then by block, then as it was found. -/
theorem pairwise_sorted {found : List Diagnostic} (h : Keeps found ds.entries) :
    ds.sorted.Pairwise (Diagnostic.Before found) := by
  rw [List.pairwise_iff_forall_sublist]
  intro a b hab
  have hle : a.rank ≤ b.rank :=
    List.pairwise_iff_forall_sublist.1 ds.pairwise_rank_sorted hab
  rcases hle.lt_or_eq with hlt | heq
  · exact Diagnostic.before_of_rank_lt hlt
  · -- Both have one rank, so the one stands before the other among those of this rank.
    have hrank : [a, b].Sublist (ds.entries.filter (·.rank = b.rank)) := by
      rw [← filter_rank_sorted]
      simpa [heq] using hab.filter (·.rank = b.rank)
    exact Diagnostic.before_of_rank_eq heq
      (List.pairwise_iff_forall_sublist.1 h.ordered (hrank.trans List.filter_sublist))

end Sorting

/-- **A collection of diagnostics loses and repeats nothing.** After any history of adding and
clearing it holds the diagnostics added since it was last cleared, each of them once, in the order
in which they were first added. All of them sorted are the same diagnostics: errors before warnings,
then by the code points of the blocks, where no block counts as the empty name, then in the order in
which they were first added. Those about one block are the ones that name it, in the order of the
collection. -/
theorem loses_and_repeats_nothing (actions : List Action) :
    let ds := collected actions
    ds.entries.Nodup ∧ (∀ d, d ∈ ds.entries ↔ d ∈ added actions) ∧
      ds.entries.Pairwise (fun a b => (added actions).idxOf a < (added actions).idxOf b) ∧
      ds.sorted.Perm ds.entries ∧ ds.sorted.Pairwise (Diagnostic.Before (added actions)) ∧
      ∀ block, (ds.forBlock block).Sublist ds.entries ∧
        ∀ d, d ∈ ds.forBlock block ↔ d ∈ ds.entries ∧ d.block = block := by
  intro ds
  have h : Keeps (added actions) ds.entries := keeps_collected actions
  refine ⟨h.nodup, h.mem_iff, h.ordered, ds.sorted_perm, ds.pairwise_sorted h, fun block => ?_⟩
  refine ⟨List.filter_sublist, fun d => ?_⟩
  rw [forBlock, List.mem_filter, beq_iff_eq]

/-- Two warnings that are as good as about no block keep their places behind an error that came
later; one that is added again after the collection was cleared is kept once. -/
example :
    let warning (block : Option Text) : Diagnostic := ⟨block, "m", .input, .warning⟩
    let error : Diagnostic := ⟨some "z", "m", .input, .error⟩
    let ds := collected [.add (warning (some "a")), .clear, .add (warning (some "")),
      .add (warning (some "a")), .add (warning none), .add error, .add (warning (some ""))]
    ds.sorted = [error, warning (some ""), warning none, warning (some "a")] := by
  cbv

end Diagnostics

end RobotBlocks
