import RobotBlocks.Number.Binary
import RobotBlocks.Sorting.Merge

/-!
# Sorting by runs

A stable sort that asks of two elements only whether the later one stands before the earlier one. It
goes through the list once and cuts it into runs: elements that already ascend, or all descend, and
short runs are made longer by putting the elements behind them in their places. Neighbouring runs
are merged as soon as the run behind them lies deep enough (`power`), and all that are left at the
end.

Any stable sort gives the same for a test that orders the elements. A test that is no order (a
coordinate that is no number stands neither before nor behind any other) still has one answer, which
depends on the pairs that are compared, and this is the sort that settles it.
-/

namespace RobotBlocks

namespace Sorting

variable {α : Type}

/-! ## Runs -/

/-- The elements that follow each other in the given sense, and the rest. -/
def run (follows : α → α → Bool) : α → List α → List α × List α
  | _, [] => ([], [])
  | previous, x :: rest =>
    if follows previous x then
      let (taken, left) := run follows x rest
      (x :: taken, left)
    else ([], x :: rest)

/-- The run at the front of a list, a descending one turned round, and the rest. -/
def frontRun (precedes : α → α → Bool) : List α → List α × List α
  | a :: b :: rest =>
    if precedes b a then
      let (taken, left) := run (fun x y => precedes y x) b rest
      ((a :: b :: taken).reverse, left)
    else
      let (taken, left) := run (fun x y => !precedes y x) b rest
      (a :: b :: taken, left)
  | xs => (xs, [])

/-- The list with an element put in its place, behind every element that it does not precede. -/
def insert (precedes : α → α → Bool) (xs : List α) (x : α) : List α :=
  let place := halve (holdsAt (fun y => !precedes x y) xs) xs.length 0 xs.length
  xs.take place ++ x :: xs.drop place

/-- The length that runs are brought to in a list of so many elements: all of a short list, and
else between 32 and 64, so that the list has about a power of two of such runs. -/
def leastRun (count : Nat) : Nat :=
  if count < 64 then count
  else
    let parts := powerOfTwo (count.log2 - 5)
    (count + parts - 1) / parts

/-- The run at the front of a list, brought to the given length if the list has so many elements,
and the rest. -/
def nextRun (precedes : α → α → Bool) (least : Nat) (xs : List α) : List α × List α :=
  let (first, rest) := frontRun precedes xs
  let missing := least - first.length
  ((rest.take missing).foldl (insert precedes) first, rest.drop missing)

/-! ## Merging runs -/

/-- The first binary place in which `a` and `b`, as parts of twice `whole`, differ. `fuel` bounds
the number of places. -/
def firstDifference (whole : Nat) : (fuel a b : Nat) → Nat
  | 0, _, _ => 1
  | fuel + 1, a, b =>
    if whole ≤ a then firstDifference whole fuel (2 * (a - whole)) (2 * (b - whole)) + 1
    else if whole ≤ b then 1
    else firstDifference whole fuel (2 * a) (2 * b) + 1

/-- How deep the border between two neighbouring runs lies: the first binary place in which their
middles, as parts of the whole list, differ. The left run begins at `start`. -/
def power (whole start left right : Nat) : Nat :=
  let a := 2 * start + left
  firstDifference whole whole a (a + left + right)

/-- The runs so far. -/
structure Stack (α : Type) where
  /-- The last run. -/
  top : List α
  /-- The runs before it, the nearest first, each with the depth of its border to the next one. -/
  below : List (List α × Nat)
  patience : Nat

namespace Stack

/-- Merges the last run with those before it whose borders lie deeper than the given depth. -/
def mergeDeeper (precedes : α → α → Bool) (depth : Nat) (top : List α) :
    List (List α × Nat) → (patience : Nat) → Stack α
  | [], patience => ⟨top, [], patience⟩
  | (xs, border) :: below, patience =>
    if depth < border then
      let (merged, patience) := merge precedes patience xs top
      mergeDeeper precedes depth merged below patience
    else ⟨top, (xs, border) :: below, patience⟩

/-- The stack with one more run; `whole` is the length of the list. -/
def push (precedes : α → α → Bool) (whole : Nat) (s : Stack α) (next : List α) : Stack α :=
  let start := s.below.foldl (fun count r => count + r.1.length) 0
  let depth := power whole start s.top.length next.length
  let s := mergeDeeper precedes depth s.top s.below s.patience
  ⟨next, (s.top, depth) :: s.below, s.patience⟩

/-- Merges all runs, the last one first, into one: two neighbours at a time, the last two unless the
run before them is shorter than the last one. `fuel` is the number of runs. -/
def mergeAll (precedes : α → α → Bool) : (fuel patience : Nat) → List (List α) → List α
  | fuel + 1, patience, x :: y :: z :: below =>
    if z.length < x.length then
      let (merged, patience) := merge precedes patience z y
      mergeAll precedes fuel patience (x :: merged :: below)
    else
      let (merged, patience) := merge precedes patience y x
      mergeAll precedes fuel patience (merged :: z :: below)
  | _, patience, [x, y] => (merge precedes patience y x).1
  | _, _, runs => runs.reverse.flatten

/-- The elements of all runs in order. -/
def toList (precedes : α → α → Bool) (s : Stack α) : List α :=
  let runs := s.top :: s.below.map (·.1)
  mergeAll precedes runs.length s.patience runs

/-- The stack after the rest of the list is cut into runs, each brought to the given length. -/
def extend (precedes : α → α → Bool) (whole least : Nat) : (fuel : Nat) → Stack α → List α → Stack α
  | fuel + 1, s, x :: xs =>
    let (next, rest) := nextRun precedes least (x :: xs)
    extend precedes whole least fuel (s.push precedes whole next) rest
  | _, s, _ => s

end Stack

/-- The patience of the first merge. -/
def firstPatience : Nat := 7

/-- The list in order. -/
def sort (precedes : α → α → Bool) (xs : List α) : List α :=
  let whole := xs.length
  let least := leastRun whole
  let (first, rest) := nextRun precedes least xs
  (Stack.extend precedes whole least whole ⟨first, [], firstPatience⟩ rest).toList precedes

end Sorting

end RobotBlocks
