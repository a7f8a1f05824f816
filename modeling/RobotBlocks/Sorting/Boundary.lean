/-!
# Boundaries

Searching the place up to which a test holds among numbered places. If the test holds up to some
place and fails from there on, `Sorting.boundary` is that place, whatever hint it starts from. A
test that is no such thing still has one answer, which depends on the places that are looked at:
first the hint, then places at doubling distances from it, and at last those that halving leads to.
-/

namespace RobotBlocks

namespace Sorting

/-- The place between two places up to which the test holds, by halving. `fuel` bounds the number
of steps. -/
def halve (holds : Nat → Bool) : (fuel low high : Nat) → Nat
  | 0, low, _ => low
  | fuel + 1, low, high =>
    if low < high then
      let middle := low + (high - low) / 2
      if holds middle then halve holds fuel (middle + 1) high else halve holds fuel low middle
    else low

/-- Distances that double as long as the test holds at them: the last one at which it held and the
one behind it, neither beyond `most`. `fuel` bounds the number of steps. -/
def stride (holds : Nat → Bool) (most : Nat) : (fuel last next : Nat) → Nat × Nat
  | 0, last, next => (last, min next most)
  | fuel + 1, last, next =>
    if decide (next < most) && holds next then stride holds most fuel next (2 * next + 1)
    else (last, min next most)

/-- The place among so many up to which the test holds, searched from a hint. -/
def boundary (holds : Nat → Bool) (count hint : Nat) : Nat :=
  if holds hint then
    let (last, next) := stride (fun distance => holds (hint + distance)) (count - hint) count 0 1
    halve holds count (hint + last + 1) (hint + next)
  else
    let (last, next) := stride (fun distance => !holds (hint - distance)) (hint + 1) count 0 1
    halve holds count (hint + 1 - next) (hint - last)

/-- Whether a list has an element at a place and the test holds of it. -/
def holdsAt {α : Type} (test : α → Bool) (xs : List α) (place : Nat) : Bool := xs[place]?.any test

end Sorting

end RobotBlocks
