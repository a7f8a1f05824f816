import Mathlib.Data.Nat.Notation
import RobotBlocks.Proofs.Program.Recording

/-!
# What a visit does

A visit to a block has an outcome of its own, whatever has been recorded before it, and records only
remarks about inputs, loops, guards and unknown kinds (`visit_logs`). If it succeeds, it gives the
command of the block (`commandOf`) and leads to its children, those of its body in `roundsIn`
rounds (`visit_outcome`).
-/

namespace RobotBlocks

/-- The first two pieces of the message, by which the diagnostics of a compilation can be told
apart. -/
def Diagnostic.opening (d : Diagnostic) : Text := d.message.take 2

namespace Compilation

open Recording

variable {R : Type} [Scalar R] (c : Config R)

/-- A diagnostic that a visit can record: about an input, a loop, a kind or a guard. -/
def Remark (d : Diagnostic) : Prop :=
  d.opening = "In" ∨ d.opening = "Re" ∨ d.opening = "Un" ∨ d.opening = "Ca"

omit [Scalar R] in
theorem resolve_logs (b : Block) (q : Quantity) : Logs Remark (resolve c b q) := by
  unfold resolve
  split
  · exact .throw _
  · split
    · exact .pure _
    · split
      · exact .throw _
      · exact .bind (.warn (.inl rfl)) fun _ => .pure _
      · split
        · exact .bind (.warn (.inl rfl)) fun _ => .pure _
        · exact .pure _

theorem commandFor_logs (b : Block) : Logs Remark (commandFor c b) := by
  unfold commandFor
  split
  · exact .pure _
  · exact .bind (resolve_logs c b _) fun _ => .pure _

omit [Scalar R] in
theorem loopCount_logs (b : Block) : Logs Remark (loopCount c b) := by
  unfold loopCount
  refine .bind (resolve_logs c b _) fun stated => ?_
  split
  · exact .throw _
  · split
    · exact .bind (.warn (.inr (.inl rfl))) fun _ => .pure _
    · exact .pure _

theorem noteUnknown_logs (b : Block) : Logs Remark (noteUnknown b) := by
  unfold noteUnknown
  split
  · exact .warn (.inr (.inr (.inl rfl)))
  · exact .pure _

/-- The value of a guard is its own, and it records at most that it cannot be read. -/
theorem holds_eq (condition : Option Data) (block : Option Text) :
    ∃ value found, (∀ d ∈ found, Remark d) ∧
      ∀ ds, Guard.holds condition block ds = (value, Diagnostics.addAll ds found) := by
  unfold Guard.holds
  split
  · exact ⟨true, [], by simp, fun ds => rfl⟩
  · exact ⟨_, [], by simp, fun ds => rfl⟩
  · exact ⟨_, [], by simp, fun ds => rfl⟩
  · exact ⟨_, [], by simp, fun ds => rfl⟩
  · dsimp only
    split
    · exact ⟨true, [], by simp, fun ds => rfl⟩
    · split
      · exact ⟨_, [], by simp, fun ds => rfl⟩
      · refine ⟨false, [_], ?_, fun ds => rfl⟩
        simp only [List.mem_singleton, forall_eq]
        exact .inr (.inr (.inr rfl))

/-- How many rounds of its body a block runs: for a loop the stated number without the digits behind
the point, within the limit and not below zero; for a conditional one if its guard holds; none for
any other block. -/
def roundsIn (b : Block) : ℕ :=
  match b.kind with
  | .loop =>
    match (resolve c b rounds).outcome >>= Float.toInteger with
    | .ok stated => (min stated c.maxRepeat).toNat
    | .error _ => 0
  | .conditional => if (Guard.holds (b.input? ["condition"]) b.id .empty).1 then 1 else 0
  | _ => 0

omit [Scalar R] in
theorem timesFor_logs (b : Block) : Logs Remark (timesFor c b) := by
  unfold timesFor
  split
  · refine .bind (loopCount_logs c b) fun count => ?_
    split
    · exact .throw _
    · exact .pure _
  · obtain ⟨value, found, hfound, heq⟩ := holds_eq (b.input? ["condition"]) b.id
    refine ⟨.ok (if value then 1 else 0), found, hfound, ?_⟩
    funext ds
    rw [get_bind, heq]
    rfl
  · exact .pure _

/-! ## Outcomes -/

omit [Scalar R] in
/-- A count of rounds is the number that the loop states, within the limit. -/
theorem loopCount_eq_ok {b : Block} {count : Int} {ds ds' : Diagnostics}
    (h : loopCount c b ds = .ok count ds') :
    ∃ stated, (resolve c b rounds).outcome >>= Float.toInteger = .ok stated ∧
      count = min stated c.maxRepeat := by
  obtain ⟨x, between, hx, h⟩ := bind_eq_ok.1 h
  rcases hstated : Float.toInteger x with fault | stated
  · simp only [hstated] at h
    cases h
  · refine ⟨stated, ?_, ?_⟩
    · rw [(resolve_logs c b rounds).outcome_of_run hx]
      exact hstated
    · simp only [hstated] at h
      split at h
      · obtain ⟨-, -, -, h⟩ := bind_eq_ok.1 h
        cases h
        omega
      · cases h
        omega

/-- A count of rounds that is not refused is the number of rounds. -/
theorem eq_toNat_of_roundsOf {count : Int} {n : ℕ} (h : roundsOf count = .ok n) :
    n = count.toNat := by
  unfold roundsOf at h
  split at h
  · cases h
  · exact (Except.ok.inj h).symm

omit [Scalar R] in
theorem timesFor_eq_ok {b : Block} {n : ℕ} {ds ds' : Diagnostics}
    (h : timesFor c b ds = .ok n ds') : n = roundsIn c b := by
  cases hkind : b.kind <;> simp only [timesFor, roundsIn, hkind] at h ⊢
  case loop =>
    obtain ⟨count, between, hcount, h⟩ := bind_eq_ok.1 h
    obtain ⟨stated, hstated, rfl⟩ := loopCount_eq_ok c hcount
    rw [hstated]
    rcases hrounds : roundsOf (min stated c.maxRepeat) with fault | rounds
    · simp only [hrounds] at h
      cases h
    · simp only [hrounds] at h
      cases h
      exact eq_toNat_of_roundsOf hrounds
  case conditional =>
    obtain ⟨value, found, -, heq⟩ := holds_eq (b.input? ["condition"]) b.id
    rw [get_bind, heq] at h
    rw [heq]
    cases h
    rfl
  all_goals
    cases h
    rfl

/-- The command that a visit to a block gives, if it gives one. -/
def commandOf (b : Block) : Option (Command R) :=
  match (commandFor c b).outcome with
  | .ok command => command
  | .error _ => none

variable (g : Graph)

theorem visit_logs (b : Block) : Logs Remark (visit c g b) :=
  .bind (noteUnknown_logs b) fun _ => .bind (commandFor_logs c b) fun _ =>
    .bind (timesFor_logs c b) fun _ => .pure _

/-- **A visit that succeeds** gives the command of the block and the frame of its children, with
the number of rounds that its body is run. -/
theorem visit_eq_ok {b : Block} {command : Option (Command R)} {frame : Frame}
    {ds ds' : Diagnostics} (h : visit c g b ds = .ok (command, frame) ds') :
    command = commandOf c b ∧
      frame = ⟨some b.id, [], g.inSlot b .body, roundsIn c b, g.inSlot b .next⟩ := by
  obtain ⟨-, ds₁, -, h⟩ := bind_eq_ok.1 h
  obtain ⟨command', ds₂, hcommand, h⟩ := bind_eq_ok.1 h
  obtain ⟨times, ds₃, htimes, h⟩ := bind_eq_ok.1 h
  obtain rfl := timesFor_eq_ok c htimes
  cases h
  exact ⟨by rw [commandOf, (commandFor_logs c b).outcome_of_run hcommand], rfl⟩

end Compilation

end RobotBlocks
