import RobotBlocks.Scene.Agent

/-!
# Collisions

An agent touches an obstacle exactly if its position lies in the obstacle grown by the agent's
footprint, so both tests here ask about a point and grown boxes:

* `Footprint.touches` asks about one position;
* `Footprint.sweep` asks for the first contact on a straight move over the ground.

A `Scene` holds the obstacles and the size of the agent. Each obstacle put into a scene gets a tag
of its own, by which a move can pass through obstacles that the agent touched when it set out.
-/

namespace RobotBlocks

/-- The time during which a moving coordinate stays between two limits, as parts of the move. -/
inductive Span (R : Type)
  /-- It does not move and is between them. -/
  | always
  /-- It comes in and goes out at these times. -/
  | between (enter leave : R)

namespace Span

variable {R : Type} [Scalar R]

/-- The time during which a coordinate on its way from `start` to `finish` stays between `low` and
`high`; none if it stands still outside. -/
def of (start finish low high : R) : Option (Span R) :=
  let delta := finish - start
  if delta == Scalar.ofNat 0 then
    if decide (low ≤ start) && decide (start ≤ high) then some .always else none
  else
    let first := (low - start) / delta
    let second := (high - start) / delta
    some (if first ≤ second then .between first second else .between second first)

/-- The later of the times at which two coordinates come in, but not before the move begins. A
coordinate that stands still between its limits does not count, and neither does an undefined time
behind it. -/
def enter (a b : Span R) : R :=
  match a, b with
  | .always, .always => Scalar.ofNat 0
  | .always, .between t _ =>
    if Scalar.isUndefined t then Scalar.ofNat 0 else Scalar.max t (Scalar.ofNat 0)
  | .between t _, .always => Scalar.max t (Scalar.ofNat 0)
  | .between s _, .between t _ => Scalar.max (Scalar.max s t) (Scalar.ofNat 0)

/-- The earlier of the times at which two coordinates go out, but not after the move ends. -/
def leave (a b : Span R) : R :=
  match a, b with
  | .always, .always => Scalar.ofNat 1
  | .always, .between _ t =>
    if Scalar.isUndefined t then Scalar.ofNat 1 else Scalar.min t (Scalar.ofNat 1)
  | .between _ t, .always => Scalar.min t (Scalar.ofNat 1)
  | .between _ s, .between _ t => Scalar.min (Scalar.min s t) (Scalar.ofNat 1)

end Span

namespace Footprint

variable {R : Type} [Scalar R]

/-- An obstacle grown by the footprint: the positions at which the agent touches it. -/
def grow (f : Footprint R) (o : Obstacle R) : Box R :=
  let b := o.bounds
  ⟨⟨b.least.x - f.half, b.least.y - f.height, b.least.z - f.half⟩,
   ⟨b.greatest.x + f.half, b.greatest.y, b.greatest.z + f.half⟩⟩

/-- Whether the agent at a position touches an obstacle. -/
def touches (f : Footprint R) (p : Point R) (o : Obstacle R) : Bool := (f.grow o).contains p

/-- The part of a move until its first contact with one obstacle. The height at which the move
begins counts for the whole of it. -/
def contact (f : Footprint R) (start finish : Point R) (o : Obstacle R) : Option R :=
  let box := f.grow o
  if decide (box.least.y ≤ start.y) && decide (start.y ≤ box.greatest.y) then do
    let along ← Span.of start.x finish.x box.least.x box.greatest.x
    let across ← Span.of start.z finish.z box.least.z box.greatest.z
    let enter := along.enter across
    if enter ≤ along.leave across then some enter else none
  else none

/-- The earlier of two contacts, the one known first if neither is. -/
def earlier (known found : Option R) : Option R :=
  match known, found with
  | none, found => found
  | known, none => known
  | some known, some found => some (if found < known then found else known)

/-- The part of a move until its first contact with one of the obstacles. -/
def sweep (f : Footprint R) (obstacles : List (Obstacle R)) (start finish : Point R) : Option R :=
  obstacles.foldl (fun known o => earlier known (f.contact start finish o)) none

end Footprint

/-- The obstacles around an agent, and its size. -/
structure Scene (R : Type) where
  obstacles : List (Obstacle R)
  /-- The tag of the first obstacle; the others follow. -/
  firstTag : Nat
  agent : AgentSize R

namespace Scene

variable {R : Type} [Scalar R]

/-- A scene with the given obstacles and size. -/
def of (obstacles : List (Obstacle R)) (agent : AgentSize R) : Scene R := ⟨obstacles, 0, agent⟩

/-- The scene with other obstacles, all of them with new tags. The obstacles that are handed in count
as new objects. Were they told apart by identity, one that is set again while a move ignores it would
stay ignored; here the move ignores it no longer. -/
def setObstacles (s : Scene R) (obstacles : List (Obstacle R)) : Scene R :=
  { s with obstacles, firstTag := s.firstTag + s.obstacles.length }

/-- The obstacles with their tags. -/
def tagged (s : Scene R) : List (Obstacle R × Nat) := s.obstacles.zipIdx s.firstTag

/-- The tags of the obstacles that the agent at a position touches. Its height only matters if there
is an obstacle. -/
def overlapping (s : Scene R) (p : Point R) : Except Fault (List Nat) :=
  if s.obstacles.isEmpty then .ok []
  else do
    let f ← s.agent.footprint "-"
    return (s.tagged.filter fun o => f.touches p o.1).map (·.2)

/-- Whether the agent at a position touches an obstacle. -/
def collides (s : Scene R) (p : Point R) : Except Fault Bool :=
  (s.overlapping p).map fun tags => !tags.isEmpty

/-- The part of a move until its first contact with an obstacle that is not ignored. -/
def sweep (s : Scene R) (start finish : Point R) (ignored : List Nat) : Except Fault (Option R) :=
  let others := (s.tagged.filter fun o => !ignored.contains o.2).map (·.1)
  if others.isEmpty then .ok none
  else do
    let f ← s.agent.footprint "-"
    return f.sweep others start finish

/-- The box of the agent at a position. -/
def agentBounds (s : Scene R) (p : Point R) : Except Fault (Box R) :=
  (s.agent.footprint "+").map fun f => f.bounds p

end Scene

end RobotBlocks
