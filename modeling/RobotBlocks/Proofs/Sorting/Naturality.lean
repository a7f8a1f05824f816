import Mathlib.Data.List.Forall2
import Mathlib.Logic.Function.Basic
import RobotBlocks.Sorting.Runs

/-!
# Sorting looks at nothing but the answers of its test

Elements that are exchanged for others of which the test gives the same answers are sorted into the
same places. Sorting the images of some elements gives the images of the elements sorted by the test
of their images (`sort_map`), with one lemma for each operation on the way, and from that two lists
whose elements answer alike are sorted alike (`forall₂_sort`). This holds for tests that are no
order, too.
-/

namespace RobotBlocks

namespace Sorting

open Function (onFun)

variable {α β : Type} (f : β → α) (precedes : α → α → Bool)

theorem holdsAt_map (test : α → Bool) (xs : List β) :
    holdsAt test (xs.map f) = holdsAt (fun x => test (f x)) xs := by
  funext place
  rw [holdsAt, holdsAt, List.getElem?_map, Option.any_map]

/-! ## Merging two runs -/

namespace Merge

/-- The merge of the images. -/
def map (m : Merge β) : Merge α := ⟨m.left.map f, m.right.map f, m.taken.map f⟩

variable (side : Side) (m : Merge β)

theorem takeLeft_map (count : ℕ) : (m.map f).takeLeft count = (m.takeLeft count).map f := by
  simp [map, takeLeft, List.map_take, List.map_drop]

theorem takeRight_map (count : ℕ) : (m.map f).takeRight count = (m.takeRight count).map f := by
  simp [map, takeRight, List.map_take, List.map_drop]

theorem isOver_map : (m.map f).isOver side = m.isOver side := by
  cases side <;> simp [map, isOver]

theorem step_map {h : Merge α → Merge α} {k : Merge β → Merge β}
    (hk : ∀ m, h (m.map f) = (k m).map f) : step side h (m.map f) = (step side k m).map f := by
  rw [step, step, isOver_map, hk]
  split <;> rfl

theorem result_map : (m.map f).result side = (m.result side).map f := by
  cases side <;> simp [map, result]

theorem row_map (test : α → Bool) (run : List β) :
    row side test (run.map f) = row side (fun x => test (f x)) run := by
  simp only [row, holdsAt_map, List.length_map]

theorem leftRow_map : (m.map f).leftRow precedes side = m.leftRow (onFun precedes f) side := by
  obtain ⟨left, _ | ⟨b, right⟩, taken⟩ := m
  · rfl
  · exact row_map f side _ left

theorem rightRow_map : (m.map f).rightRow precedes side = m.rightRow (onFun precedes f) side := by
  obtain ⟨_ | ⟨a, left⟩, right, taken⟩ := m
  · rfl
  · exact row_map f side _ right

theorem takeRows_map : (m.map f).takeRows precedes side =
    Prod.map (map f) id (m.takeRows (onFun precedes f) side) := by
  simp only [takeRows, leftRow_map, takeLeft_map,
    step_map f side _ fun m => takeRight_map f m 1, rightRow_map,
    step_map f side _ fun m => takeRight_map f m _, step_map f side _ fun m => takeLeft_map f m 1,
    Prod.map_apply, id_eq]

theorem finish_map (fuel : ℕ) (mode : Mode) (patience : ℕ) :
    finish precedes side fuel mode patience (m.map f) =
      Prod.map (List.map f) id (finish (onFun precedes f) side fuel mode patience m) := by
  induction fuel generalizing mode patience m with
  | zero => simp [finish, result_map]
  | succ fuel ih =>
    have hover : ∀ m : Merge β, ((m.map f).result side, patience) =
        Prod.map (List.map f) id (m.result side, patience) := fun m => by
      rw [result_map, Prod.map_apply, id_eq]
    unfold finish
    rw [isOver_map]
    split
    · exact hover m
    · cases mode with
      | single lefts rights =>
        obtain ⟨_ | ⟨a, left⟩, right, taken⟩ := m
        · exact hover _
        · rcases right with _ | ⟨b, right⟩
          · exact hover _
          · simp only [takeRight_map, takeLeft_map, ih]
            dsimp only [map, List.map_cons]
            rw [apply_ite (Prod.map (List.map f) id)]
            rfl
      | rows =>
        simp only [takeRows_map, Prod.map_fst, Prod.map_snd, isOver_map, id_eq, ih, hover]
        rw [apply_ite (Prod.map (List.map f) id), apply_ite (Prod.map (List.map f) id)]

theorem overlap_map (patience : ℕ) (xs ys : List β) :
    overlap precedes patience (xs.map f) (ys.map f) =
      Prod.map (List.map f) id (overlap (onFun precedes f) patience xs ys) := by
  have hfront : (⟨xs.map f, ys.map f, []⟩ : Merge α) = map f ⟨xs, ys, []⟩ := rfl
  have hback : (⟨(xs.map f).reverse, (ys.map f).reverse, []⟩ : Merge α) =
      map f ⟨xs.reverse, ys.reverse, []⟩ := by
    simp [map]
  simp only [overlap, List.length_map, hfront, hback, takeRight_map, takeLeft_map, finish_map]
  rw [apply_ite (Prod.map (List.map f) id)]

end Merge

theorem merge_map (patience : ℕ) (xs ys : List β) :
    merge precedes patience (xs.map f) (ys.map f) =
      Prod.map (List.map f) id (merge (onFun precedes f) patience xs ys) := by
  rcases ys with _ | ⟨y, ys⟩
  · rfl
  · have hstop : ∀ x, holdsAt (fun z => precedes z (f x)) ((y :: ys).map f) =
        holdsAt (fun z => onFun precedes f z x) (y :: ys) := fun x => holdsAt_map f _ _
    rw [List.map_cons]
    simp only [merge, holdsAt_map, List.length_map, ← List.map_drop, List.getLast?_map]
    rw [show (fun x => !precedes (f y) (f x)) = fun x => !onFun precedes f y x from rfl]
    generalize boundary _ xs.length 0 = begin'
    rcases (xs.drop begin').getLast? with _ | x
    · simp
    · simp only [Option.map_some, ← List.map_cons, hstop, List.length_map]
      generalize boundary _ (y :: ys).length _ = stop
      simp only [← List.map_drop, ← List.map_take, Merge.overlap_map, Prod.map_fst, Prod.map_snd,
        id_eq, ← List.map_append]
      rw [apply_ite (Prod.map (List.map f) id)]
      rfl

/-! ## Cutting a list into runs -/

theorem run_map (follows : α → α → Bool) (x : β) (xs : List β) :
    run follows (f x) (xs.map f) =
      Prod.map (List.map f) (List.map f) (run (onFun follows f) x xs) := by
  induction xs generalizing x with
  | nil => rfl
  | cons y xs ih =>
    simp only [List.map_cons, run, ih]
    rw [apply_ite (Prod.map (List.map f) (List.map f))]
    rfl

theorem frontRun_map (xs : List β) : frontRun precedes (xs.map f) =
    Prod.map (List.map f) (List.map f) (frontRun (onFun precedes f) xs) := by
  rcases xs with _ | ⟨a, _ | ⟨b, xs⟩⟩
  · rfl
  · rfl
  · simp only [List.map_cons, frontRun, run_map]
    rw [apply_ite (Prod.map (List.map f) (List.map f))]
    simp [onFun]

theorem insert_map (xs : List β) (x : β) :
    insert precedes (xs.map f) (f x) = (insert (onFun precedes f) xs x).map f := by
  simp only [insert, holdsAt_map, List.length_map, List.map_append, List.map_take, List.map_cons,
    List.map_drop]

theorem nextRun_map (least : ℕ) (xs : List β) : nextRun precedes least (xs.map f) =
    Prod.map (List.map f) (List.map f) (nextRun (onFun precedes f) least xs) := by
  have hfold : ∀ (ys : List β) (first : List β), (ys.map f).foldl (insert precedes) (first.map f) =
      (ys.foldl (insert (onFun precedes f)) first).map f := by
    intro ys
    induction ys with
    | nil => exact fun first => rfl
    | cons y ys ih =>
      intro first
      rw [List.map_cons, List.foldl_cons, List.foldl_cons, insert_map, ih]
  simp only [nextRun, frontRun_map, Prod.map_fst, Prod.map_snd, List.length_map, ← List.map_take,
    ← List.map_drop, hfold, Prod.map_apply]

/-! ## The stack of runs -/

namespace Stack

/-- The stack of the images. -/
def map (s : Stack β) : Stack α := ⟨s.top.map f, s.below.map (Prod.map (List.map f) id), s.patience⟩

theorem mergeDeeper_map (depth : ℕ) (top : List β) (below : List (List β × ℕ)) (patience : ℕ) :
    mergeDeeper precedes depth (top.map f) (below.map (Prod.map (List.map f) id)) patience =
      (mergeDeeper (onFun precedes f) depth top below patience).map f := by
  induction below generalizing top patience with
  | nil => rfl
  | cons r below ih =>
    obtain ⟨xs, border⟩ := r
    simp only [List.map_cons, mergeDeeper, Prod.map_apply, Prod.map_fst, Prod.map_snd, id_eq,
      merge_map, ih]
    split <;> rfl

theorem push_map (whole : ℕ) (s : Stack β) (next : List β) :
    (s.map f).push precedes whole (next.map f) = (s.push (onFun precedes f) whole next).map f := by
  simp only [push, map, List.length_map, List.foldl_map, Prod.map_fst, mergeDeeper_map]
  rfl

theorem mergeAll_map (fuel patience : ℕ) (runs : List (List β)) :
    mergeAll precedes fuel patience (runs.map (List.map f)) =
      (mergeAll (onFun precedes f) fuel patience runs).map f := by
  induction fuel generalizing patience runs with
  | zero =>
    rcases runs with _ | ⟨x, _ | ⟨y, _ | ⟨z, below⟩⟩⟩ <;>
      simp [mergeAll, merge_map]
  | succ fuel ih =>
    rcases runs with _ | ⟨x, _ | ⟨y, _ | ⟨z, below⟩⟩⟩
    · rfl
    · simp [mergeAll]
    · simp [mergeAll, merge_map]
    · simp only [List.map_cons, mergeAll, List.length_map, merge_map, Prod.map_fst, Prod.map_snd,
        id_eq]
      split
      · exact ih _ (x :: _ :: below)
      · exact ih _ (_ :: z :: below)

theorem toList_map (s : Stack β) :
    (s.map f).toList precedes = (s.toList (onFun precedes f)).map f := by
  rw [toList, toList, ← mergeAll_map]
  simp [map, Function.comp_def]

theorem extend_map (whole least fuel : ℕ) (s : Stack β) (xs : List β) :
    extend precedes whole least fuel (s.map f) (xs.map f) =
      (extend (onFun precedes f) whole least fuel s xs).map f := by
  induction fuel generalizing s xs with
  | zero => rfl
  | succ fuel ih =>
    rcases xs with _ | ⟨x, xs⟩
    · rfl
    · rw [List.map_cons, extend, extend, ← List.map_cons, nextRun_map]
      simp only [Prod.map_fst, Prod.map_snd, push_map, ih]

end Stack

/-- **Sorting images gives the images of the sorted elements.** -/
theorem sort_map (xs : List β) :
    sort precedes (xs.map f) = (sort (onFun precedes f) xs).map f := by
  simp only [sort, List.length_map, nextRun_map, Prod.map_fst, Prod.map_snd]
  rw [← Stack.toList_map, ← Stack.extend_map]
  rfl

variable {precedes}

/-- **Elements that answer alike are sorted alike.** -/
theorem forall₂_sort {R : α → β → Prop} {precedes' : β → β → Bool}
    (h : ∀ {a a' b b'}, R a b → R a' b' → precedes a a' = precedes' b b') {xs : List α}
    {ys : List β} (hxs : List.Forall₂ R xs ys) : List.Forall₂ R (sort precedes xs) (sort precedes' ys) := by
  -- Related elements are the two parts of one pair, and the lists of both parts are images.
  obtain ⟨pairs, rfl, rfl⟩ : ∃ pairs : List {p : α × β // R p.1 p.2},
      xs = pairs.map (·.1.1) ∧ ys = pairs.map (·.1.2) := by
    induction hxs with
    | nil => exact ⟨[], rfl, rfl⟩
    | cons hab _ ih =>
      obtain ⟨pairs, rfl, rfl⟩ := ih
      exact ⟨⟨(_, _), hab⟩ :: pairs, rfl, rfl⟩
  have hsame : onFun precedes (fun p : {p : α × β // R p.1 p.2} => p.1.1) =
      onFun precedes' fun p => p.1.2 := by
    funext p q
    exact h p.2 q.2
  rw [sort_map, sort_map, hsame, List.forall₂_map_left_iff, List.forall₂_map_right_iff,
    List.forall₂_same]
  exact fun p _ => p.2

end Sorting

end RobotBlocks
