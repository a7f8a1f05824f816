import RobotBlocks.Fault

/-!
# Diagnostics

A learner's program is never refused as a whole. What is wrong with one of its blocks is recorded
as a diagnostic, and the program is compiled without the part in question. `Diagnostics` keeps each
diagnostic once, in the order in which they were first added; `Diagnostics.sorted` shows the errors
first and then goes by block.
-/

namespace RobotBlocks

/-- What a diagnostic is about. -/
inductive Diagnostic.Category
  /-- The place of the block in the program. -/
  | structural
  /-- An input of the block. -/
  | input
  /-- A block of no known kind. -/
  | unknownBlock
  /-- The guard of a conditional. -/
  | condition
  deriving DecidableEq, Repr

/-- How bad it is. -/
inductive Diagnostic.Severity
  | warning
  | error
  deriving DecidableEq, Repr

/-- A problem found in one block, or in none of them in particular. -/
structure Diagnostic where
  block : Option Text
  message : Text
  category : Diagnostic.Category
  severity : Diagnostic.Severity
  deriving DecidableEq, Repr

namespace Diagnostic

/-- The name of a category. -/
def Category.name : Category → String
  | .structural => "structure"
  | .input => "input"
  | .unknownBlock => "unknown_block"
  | .condition => "condition"

/-- The category of a name. -/
def Category.ofName? (name : Text) : Option Category :=
  [Category.structural, .input, .unknownBlock, .condition].find? fun c => (c.name : Text) == name

/-- The category that a raw value names. -/
def Category.ofData (value : Data) : Except Fault Category :=
  match value with
  | .text name =>
    match Category.ofName? name with
    | some c => .ok c
    | none => .error (.unknownLabel value.inspected "DiagnosticType")
  | value => .error (.unknownLabel value.inspected "DiagnosticType")

/-- The name of a severity. -/
def Severity.name : Severity → String
  | .warning => "warning"
  | .error => "error"

/-- The severity of a name. -/
def Severity.ofName? (name : Text) : Option Severity :=
  [Severity.warning, .error].find? fun s => (s.name : Text) == name

/-- The severity that a raw value names. -/
def Severity.ofData (value : Data) : Except Fault Severity :=
  match value with
  | .text name =>
    match Severity.ofName? name with
    | some s => .ok s
    | none => .error (.unknownLabel value.inspected "DiagnosticSeverity")
  | value => .error (.unknownLabel value.inspected "DiagnosticSeverity")

/-- The message, with its block in front if it has one. -/
def text (d : Diagnostic) : Text :=
  match d.block with
  | none => d.message
  | some block => "Block " ++ block ++ ": " ++ d.message

/-- Errors stand before warnings, and within a severity the blocks ascend; no block counts as the
block with the empty name. -/
def precedes (a b : Diagnostic) : Bool :=
  match a.severity, b.severity with
  | .error, .warning => true
  | .warning, .error => false
  | _, _ => decide (a.block.getD "" < b.block.getD "")

end Diagnostic

/-- The diagnostics recorded so far, in the order in which they were first added. -/
structure Diagnostics where
  entries : List Diagnostic
  deriving DecidableEq, Repr

namespace Diagnostics

/-- No diagnostics. -/
def empty : Diagnostics := ⟨[]⟩

/-- Records a diagnostic, unless it is there already. -/
def add (ds : Diagnostics) (d : Diagnostic) : Diagnostics :=
  if d ∈ ds.entries then ds else ⟨ds.entries ++ [d]⟩

/-- Records a warning about a block. -/
def warn (ds : Diagnostics) (block : Option Text) (message : Text)
    (category : Diagnostic.Category) : Diagnostics :=
  ds.add ⟨block, message, category, .warning⟩

@[simp] theorem mem_add {ds : Diagnostics} {d e : Diagnostic} :
    e ∈ (ds.add d).entries ↔ e ∈ ds.entries ∨ e = d := by
  unfold add
  split
  · exact ⟨.inl, fun h => h.elim id fun h => h ▸ ‹d ∈ ds.entries›⟩
  · simp

@[simp] theorem mem_warn {ds : Diagnostics} {block : Option Text} {message : Text}
    {category : Diagnostic.Category} {e : Diagnostic} :
    e ∈ (ds.warn block message category).entries ↔
      e ∈ ds.entries ∨ e = ⟨block, message, category, .warning⟩ := mem_add

/-- The diagnostics about one block. -/
def forBlock (ds : Diagnostics) (block : Option Text) : List Diagnostic :=
  ds.entries.filter fun d => d.block == block

/-- Whether one of them is an error. -/
def hasErrors (ds : Diagnostics) : Bool := ds.entries.any fun d => d.severity == .error

/-- Whether one of them is a warning. -/
def hasWarnings (ds : Diagnostics) : Bool := ds.entries.any fun d => d.severity == .warning

/-- All of them, errors first, then by block; equal ones in both respects in the order of their
recording. -/
def sorted (ds : Diagnostics) : List Diagnostic :=
  ds.entries.mergeSort fun a b => !Diagnostic.precedes b a

end Diagnostics

end RobotBlocks
