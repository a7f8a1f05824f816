import RobotBlocks.Block.Graph
import RobotBlocks.Config.Basic
import RobotBlocks.Guard.Evaluation

/-!
# Compiling programs

A program is compiled to the list of its commands by walking its graph. Visiting a block emits its
command, if its kind has one, and then leads to its body as many times as the block runs it and to
its continuation. The walk keeps a stack of frames, one for each block on the current path with the
blocks that it has still to visit, and stops when the budget of visits is used up. A block that is on
the current path already is passed over.

Inputs that are missing or make no sense are replaced, and what was replaced is recorded.
Compiling fails only where a number has no integer or no double, where a loop is to run more often
than can be counted, or where the configuration lacks a default; the diagnostics recorded until then
remain.
-/

namespace RobotBlocks

/-- A computation that records diagnostics and may fail, keeping what it had recorded. -/
abbrev Recording := EStateM Fault Diagnostics

/-- Records a warning about a block. -/
def Recording.warn (b : Block) (message : Text) (category : Diagnostic.Category) :
    Recording Unit :=
  modify fun ds => ds.warn b.id message category

namespace Compilation

variable {R : Type} [Scalar R]

/-! ## Inputs -/

/-- The names of the inputs that hold a quantity, in the order in which they are tried, and the
name of its default. -/
structure Quantity where
  inputs : List Text
  default : String

/-- How far a block moves. -/
def steps : Quantity := ⟨["steps", "distance"], "distance"⟩

/-- How far a block turns. -/
def degrees : Quantity := ⟨["degrees", "angle"], "angle"⟩

/-- How long a block waits. -/
def seconds : Quantity := ⟨["seconds", "duration"], "seconds"⟩

/-- How often a block runs its body. -/
def rounds : Quantity := ⟨["times", "count"], "times"⟩

/-- The name under which messages speak of a quantity. -/
def Quantity.title (q : Quantity) : String := quoted (q.inputs.headD "")

/-- The finite number that a raw input stands for; none if it stands for no finite number. Truth
values are no numbers here. -/
def finiteNumber (raw : Data) : Except Fault (Option Float) :=
  match raw with
  | .flag _ => .ok none
  | raw =>
    match raw.toNumber with
    | .ok x => .ok (if x.isFinite then some x else none)
    | .error .integerTooLarge => .error .integerTooLarge
    | .error _ => .ok none

/-- The quantity that a block states: the default in place of a missing one or of one that is no
number, and zero in place of a negative one. -/
def resolve (c : Config R) (b : Block) (q : Quantity) : Recording Float := do
  match c.default? q.default with
  | none => throw (.missingKey q.default)
  | some default =>
    match b.input? q.inputs with
    | none => return default
    | some raw =>
      match finiteNumber raw with
      | .error fault => throw fault
      | .ok none =>
        Recording.warn b
          ("Input " ++ q.title ++ " is not a number (" ++ raw.inspected ++ "); using " ++
            Float.generalText default) .input
        return default
      | .ok (some x) =>
        if x < 0.0 then
          Recording.warn b
            ("Input " ++ q.title ++ " is negative (" ++ Float.generalText x ++ "); using 0") .input
          return 0.0
        else return x

/-! ## What a visit does -/

/-- The movement that a kind of block stands for and the quantity that it states. -/
def movement? : Kind → Option (Movement × Quantity)
  | .moveForward => some (.forward, steps)
  | .moveBackward => some (.backward, steps)
  | .turnLeft => some (.turnLeft, degrees)
  | .turnRight => some (.turnRight, degrees)
  | .wait => some (.wait, seconds)
  | _ => none

/-- The time that a movement takes at speed one. -/
def duration (c : Config R) (m : Movement) (value : R) : R :=
  match m with
  | .forward | .backward => c.moveDuration
  | .wait => value * c.waitPerSecond
  | .turnLeft | .turnRight => c.turnDuration

/-- The command that a block emits, if its kind has one. -/
def commandFor (c : Config R) (b : Block) : Recording (Option (Command R)) := do
  match movement? b.kind with
  | none => return none
  | some (m, q) =>
    let value : R := Scalar.ofFloat (← resolve c b q)
    return some ⟨m, value, duration c m value, some b.id⟩

/-- How often a loop runs its body: the stated number without the digits behind the point, within
the limit. -/
def loopCount (c : Config R) (b : Block) : Recording Int := do
  let stated ← resolve c b rounds
  match Float.toInteger stated with
  | .error fault => throw fault
  | .ok times =>
    if c.maxRepeat < times then
      Recording.warn b
        ("Repeat count " ++ intText times ++ " limited to " ++ intText c.maxRepeat) .input
      return c.maxRepeat
    else return times

/-- The greatest number of rounds that can be counted. -/
def greatestCount : Nat := powerOfTwo 63 - 1

/-- The number of rounds that a count stands for: none for a negative one. A count whose size
cannot be counted is refused. -/
def roundsOf (count : Int) : Except Fault Nat :=
  if Int.ofNat greatestCount < count || count < -Int.ofNat greatestCount - 1 then
    .error .uncountable
  else .ok count.toNat

/-- How often a block runs its body; blocks without a body run it never. -/
def timesFor (c : Config R) (b : Block) : Recording Nat := do
  match b.kind with
  | .loop =>
    match roundsOf (← loopCount c b) with
    | .error fault => throw fault
    | .ok rounds => return rounds
  | .conditional =>
    let (holds, ds) := Guard.holds (b.input? ["condition"]) b.id (← get)
    set ds
    return if holds then 1 else 0
  | _ => return 0

/-- Records a block of unknown kind. -/
def noteUnknown (b : Block) : Recording Unit := do
  if b.kind == .unknown then
    Recording.warn b ("Unknown block type: " ++ quoted b.type) .unknownBlock

/-! ## The walk -/

/-- A block on the current path with the blocks that it has still to visit: those that are left of
the current round of its body, then so many more rounds, then its continuation. -/
structure Frame where
  /-- The name of the block; the roots of the program are visited from none. -/
  owner : Option Text
  pending : List Block
  body : List Block
  rounds : Nat
  following : List Block

namespace Frame

/-- The frame that visits the roots of a program. -/
def ofRoots (roots : List Block) : Frame := ⟨none, roots, [], 0, []⟩

/-- The next block to visit, and what is left then. -/
def next? (f : Frame) : Option (Block × Frame) :=
  match f.pending with
  | b :: rest => some (b, { f with pending := rest })
  | [] =>
    match f.rounds, f.body with
    | rounds + 1, b :: rest => some (b, { f with pending := rest, rounds })
    | _, _ =>
      match f.following with
      | b :: rest => some (b, ⟨f.owner, rest, [], 0, []⟩)
      | [] => none

/-- How many blocks are still to visit. -/
def left (f : Frame) : Nat := f.pending.length + f.rounds * f.body.length + f.following.length

theorem left_of_next? {f f' : Frame} {b : Block} (h : f.next? = some (b, f')) :
    f'.left + 1 = f.left := by
  obtain ⟨owner, pending, body, rounds, following⟩ := f
  rcases pending with _ | ⟨p, pending⟩
  · rcases rounds with _ | rounds <;> rcases body with _ | ⟨q, body⟩ <;>
      rcases following with _ | ⟨r, following⟩ <;>
      simp only [next?, reduceCtorEq, Option.some.injEq, Prod.mk.injEq] at h <;>
      obtain ⟨rfl, rfl⟩ := h <;>
      simp only [left, List.length_cons, List.length_nil, Nat.add_mul] <;> omega
  · simp only [next?, Option.some.injEq, Prod.mk.injEq] at h
    obtain ⟨rfl, rfl⟩ := h
    simp only [left, List.length_cons]
    omega

end Frame

/-- Whether a block is on the path that the frames of a stack make. -/
def onPath (stack : List Frame) (b : Block) : Bool := stack.any fun f => f.owner == some b.id

/-- What is recorded about a block that is on the path already. -/
def cycleMessage : Text := "Cycle detected; block skipped"

/-- The next block to visit: that of the innermost frame that has one. Frames without any are left
behind. A block that is on the path already is recorded and passed over. -/
def nextVisit : List Frame → Recording (Option (Block × List Frame))
  | [] => return none
  | f :: outer =>
    match _h : f.next? with
    | none => nextVisit outer
    | some (b, f') =>
      if onPath (f' :: outer) b then do
        Recording.warn b cycleMessage .structural
        nextVisit (f' :: outer)
      else return some (b, f' :: outer)
termination_by stack => stack.foldr (fun f count => f.left + 1 + count) 0
decreasing_by
  · simp only [List.foldr_cons]
    omega
  · have := Frame.left_of_next? _h
    simp only [List.foldr_cons]
    omega

/-- Visits a block: its command, if it has one, and the frame of the blocks to visit from it. -/
def visit (c : Config R) (g : Graph) (b : Block) : Recording (Option (Command R) × Frame) := do
  noteUnknown b
  let command ← commandFor c b
  let times ← timesFor c b
  return (command, ⟨some b.id, [], g.inSlot b .body, times, g.inSlot b .next⟩)

/-- What is recorded about the first block that is left out because the budget is used up. -/
def overrunMessage (c : Config R) : Text :=
  "Program unrolls to more than " ++ intText c.maxVisits ++ " blocks; the rest is skipped"

/-- The commands of the walk from a stack on, with so many visits left. -/
def walk (c : Config R) (g : Graph) : (budget : Nat) → List Frame → Recording (List (Command R))
  | 0, stack => do
    match ← nextVisit stack with
    | none => return []
    | some (b, _) =>
      Recording.warn b (overrunMessage c) .input
      return []
  | budget + 1, stack => do
    match ← nextVisit stack with
    | none => return []
    | some (b, stack) =>
      let (command, frame) ← visit c g b
      let rest ← walk c g budget (frame :: stack)
      return command.toList ++ rest

/-- The commands of a list of blocks. Diagnostics of earlier compilations are dropped. -/
def ofBlocks (c : Config R) (blocks : List Block) : Recording (List (Command R)) := do
  let (g, ds) := Graph.build blocks .empty
  set ds
  walk c g c.maxVisits.toNat [.ofRoots g.topLevel]

/-- The commands of a raw program. -/
def ofData (c : Config R) (program : Data) : Recording (List (Command R)) := do
  set Diagnostics.empty
  match Block.load program with
  | .error fault => throw fault
  | .ok blocks => ofBlocks c blocks

end Compilation

end RobotBlocks
