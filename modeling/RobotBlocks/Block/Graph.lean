import RobotBlocks.Block.Basic
import RobotBlocks.Diagnostic

/-!
# The graph of a program

Every block has at most one owner. The claims of the blocks on their children are settled in the
reading order of the claiming blocks: the first claim wins, and every claim that is not honoured (on
the block itself, on a block that is not there, on one that is owned already) is recorded. Blocks
that nobody owns are the roots of the program.
-/

namespace RobotBlocks

/-- The blocks of a program with their owners. -/
structure Graph where
  /-- The blocks, no two with one name. -/
  blocks : List Block
  /-- Each owned block with its owner, in the order of the claims. -/
  owner : List (Text × Text)
  /-- Each block with the blocks that it owns, in reading order. -/
  children : List (Text × List Block)

namespace Graph

/-- Keeps a block behind others unless one of them has its name; a block that is not kept is
recorded. -/
def keep (state : List Block × Diagnostics) (b : Block) : List Block × Diagnostics :=
  if state.1.any fun k => k.id == b.id then
    (state.1, state.2.warn b.id "Duplicate block id; keeping the first occurrence" .structural)
  else (state.1 ++ [b], state.2)

/-- The blocks without those whose name an earlier one has; each of these is recorded. -/
def distinct (blocks : List Block) (ds : Diagnostics) : List Block × Diagnostics :=
  blocks.foldl keep ([], ds)

/-- The owner of a block. -/
def ownerIn? (owner : List (Text × Text)) (id : Text) : Option Text :=
  (owner.find? fun o => o.1 == id).map (·.2)

/-- What the claims of one block have led to so far. -/
structure Claims where
  owner : List (Text × Text)
  owned : List Block
  diagnostics : Diagnostics

/-- Records a claim that is not honoured. -/
def Claims.reject (c : Claims) (id message : Text) : Claims :=
  { c with diagnostics := c.diagnostics.warn id message .structural }

/-- Settles the claim of a block on the child with the given name. -/
def claim (blocks : List Block) (parent : Block) (c : Claims) (id : Text) : Claims :=
  if id == parent.id then c.reject id "Block lists itself as a child"
  else
    match Block.find? blocks id with
    | none => c.reject parent.id ("Unknown child block: " ++ id)
    | some child =>
      match ownerIn? c.owner id with
      | some other =>
        let message := "Already nested in block " ++ other ++ "; ignoring claim by " ++ parent.id
        c.reject id message
      | none => { c with owner := c.owner ++ [(id, parent.id)], owned := c.owned ++ [child] }

/-- Settles the claims of one block after those of the blocks before it. -/
def adopt (blocks : List Block) (state : Graph × Diagnostics) (parent : Block) :
    Graph × Diagnostics :=
  let c := parent.children.foldl (claim blocks parent) ⟨state.1.owner, [], state.2⟩
  ({ state.1 with
      owner := c.owner
      children := state.1.children ++ [(parent.id, Block.inReadingOrder c.owned)] },
   c.diagnostics)

/-- The graph of a list of blocks. -/
def build (blocks : List Block) (ds : Diagnostics) : Graph × Diagnostics :=
  let (known, ds) := distinct blocks ds
  (Block.inReadingOrder known).foldl (adopt known) (⟨known, [], []⟩, ds)

/-- The owner of a block. -/
def owner? (g : Graph) (id : Text) : Option Text := ownerIn? g.owner id

/-- The blocks that a block owns. -/
def childrenOf (g : Graph) (b : Block) : List Block :=
  ((g.children.find? fun c => c.1 == b.id).map (·.2)).getD []

/-- The blocks that a block owns in one of its slots. -/
def inSlot (g : Graph) (b : Block) (slot : Slot) : List Block :=
  (g.childrenOf b).filter fun child => b.slotFor child == slot

/-- The roots of the program in the order in which they run: start events first, and reading order
within the start events and within the others. -/
def topLevel (g : Graph) : List Block :=
  let roots := Block.inReadingOrder (g.blocks.filter fun b => (g.owner? b.id).isNone)
  (roots.filter fun b => b.kind == .startEvent) ++ roots.filter fun b => b.kind != .startEvent

end Graph

end RobotBlocks
