import RobotBlocks.Sorting.Boundary

/-!
# Merging runs

Two neighbouring runs are merged by a test that tells whether one element stands before another; of
elements that stand neither before nor behind each other, those of the left run come first. What is
in place already at either end stays there, and the rest is merged from the end at which the shorter
run lies. Elements are taken one at a time, until one run has given so many in a row that it pays to
search how many more it gives: then both runs are searched in turn, as long as that finds long rows.

How many in a row are asked for is the `patience` of the merge. It is handed on from one merge to
the next, since rows that were long so far are likely to be long again.
-/

namespace RobotBlocks

namespace Sorting

/-- The end from which two runs are merged. -/
inductive Side
  | front
  | back
  deriving DecidableEq, Repr

/-- Two runs that are being merged. From the back, both are listed with their last element first. -/
structure Merge (α : Type) where
  left : List α
  right : List α
  /-- What has been taken, the last element taken first. -/
  taken : List α

namespace Merge

variable {α : Type}

/-- Takes so many elements of the left run. -/
def takeLeft (count : Nat) (m : Merge α) : Merge α :=
  { m with left := m.left.drop count, taken := (m.left.take count).reverse ++ m.taken }

/-- Takes so many elements of the right run. -/
def takeRight (count : Nat) (m : Merge α) : Merge α :=
  { m with right := m.right.drop count, taken := (m.right.take count).reverse ++ m.taken }

/-- Whether nothing is left to compare: the run that gave the first element is used up, or of the
other one at most that element is left which comes behind all others. -/
def isOver (side : Side) (m : Merge α) : Bool :=
  match side with
  | .front => m.left.length ≤ 1 || m.right.isEmpty
  | .back => m.right.length ≤ 1 || m.left.isEmpty

/-- Makes a step unless the merge is over. -/
def step (side : Side) (f : Merge α → Merge α) (m : Merge α) : Merge α :=
  if m.isOver side then m else f m

/-- The merged run. -/
def result (side : Side) (m : Merge α) : List α :=
  match side with
  | .front => m.taken.reverse ++ m.right ++ m.left
  | .back => m.right.reverse ++ m.left.reverse ++ m.taken

/-- How many elements a run gives in a row. In their proper order its elements pass the test up to
some place: from the front the row are those that pass, from the back those that fail. -/
def row (side : Side) (test : α → Bool) (run : List α) : Nat :=
  let count := run.length
  match side with
  | .front => boundary (holdsAt test run) count 0
  | .back => count - boundary (fun place => holdsAt test run (count - 1 - place)) count (count - 1)

/-- How many elements the left run gives before the next one of the right run. -/
def leftRow (precedes : α → α → Bool) (side : Side) (m : Merge α) : Nat :=
  match m.right with
  | b :: _ => row side (fun a => !precedes b a) m.left
  | [] => 0

/-- How many elements the right run gives before the next one of the left run. -/
def rightRow (precedes : α → α → Bool) (side : Side) (m : Merge α) : Nat :=
  match m.left with
  | a :: _ => row side (fun b => precedes b a) m.right
  | [] => 0

/-- Rows from which on it pays to search again. -/
def longRow : Nat := 7

/-- How elements are taken. -/
inductive Mode
  /-- One at a time, after so many in a row from the left and from the right run. -/
  | single (lefts rights : Nat)
  /-- In rows. -/
  | rows

/-- Takes a row of each run, the next element of the other run after each; the lengths of both rows
tell whether to go on so. -/
def takeRows (precedes : α → α → Bool) (side : Side) (m : Merge α) : Merge α × Nat × Nat :=
  let lefts := m.leftRow precedes side
  let m := step side (takeRight 1) (m.takeLeft lefts)
  let rights := m.rightRow precedes side
  (step side (takeLeft 1) (step side (takeRight rights) m), lefts, rights)

/-- Goes on with a merge until it is over; the result comes with the patience then. Every round
takes an element and one of `fuel`. -/
def finish (precedes : α → α → Bool) (side : Side) :
    (fuel : Nat) → Mode → (patience : Nat) → Merge α → List α × Nat
  | 0, _, patience, m => (m.result side, patience)
  | fuel + 1, mode, patience, m =>
    if m.isOver side then (m.result side, patience)
    else
      match mode with
      | .single lefts rights =>
        match m.left, m.right with
        | a :: _, b :: _ =>
          if precedes b a == decide (side = .front) then
            let mode := if patience ≤ rights + 1 then Mode.rows else .single 0 (rights + 1)
            finish precedes side fuel mode patience (m.takeRight 1)
          else
            let mode := if patience ≤ lefts + 1 then Mode.rows else .single (lefts + 1) 0
            finish precedes side fuel mode patience (m.takeLeft 1)
        | _, _ => (m.result side, patience)
      | .rows =>
        let (m, lefts, rights) := m.takeRows precedes side
        if m.isOver side then (m.result side, patience)
        else if longRow ≤ lefts || longRow ≤ rights then
          finish precedes side fuel .rows (if 1 < patience then patience - 1 else patience) m
        else finish precedes side fuel (.single 0 0) (patience + 1) m

/-- Merges two runs of which the right one gives the first element and the left one the last. -/
def overlap (precedes : α → α → Bool) (patience : Nat) (xs ys : List α) : List α × Nat :=
  let fuel := xs.length + ys.length
  if xs.length ≤ ys.length then
    finish precedes .front fuel (.single 0 0) patience (takeRight 1 ⟨xs, ys, []⟩)
  else
    finish precedes .back fuel (.single 0 0) patience (takeLeft 1 ⟨xs.reverse, ys.reverse, []⟩)

end Merge

variable {α : Type}

/-- Merges two neighbouring runs; the result comes with the patience for the next merge. -/
def merge (precedes : α → α → Bool) (patience : Nat) (xs ys : List α) : List α × Nat :=
  match ys with
  | [] => (xs, patience)
  | y :: _ =>
    let begin := boundary (holdsAt (fun x => !precedes y x) xs) xs.length 0
    match (xs.drop begin).getLast? with
    | none => (xs ++ ys, patience)
    | some x =>
      let stop := boundary (holdsAt (fun y => precedes y x) ys) ys.length (ys.length - 1)
      if stop == 0 then (xs ++ ys, patience)
      else
        let (merged, patience) :=
          Merge.overlap precedes patience (xs.drop begin) (ys.take stop)
        (xs.take begin ++ merged ++ ys.drop stop, patience)

end Sorting

end RobotBlocks
