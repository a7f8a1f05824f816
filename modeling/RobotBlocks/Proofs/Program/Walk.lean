import RobotBlocks.Project.Sample
import RobotBlocks.Proofs.Graph.Forest
import RobotBlocks.Proofs.Outcome
import RobotBlocks.Proofs.Program.Visit

/-!
# The walk follows the unrolling

The walk of a compilation goes through the blocks with a stack of frames and a budget; the meaning
of the program is its unrolling, a recursion over the forest of its blocks. The two agree:

* the frames stand on owner links (`OnTrack`), so the next block of a frame is deeper than all
  blocks of the path, and the guard against cycles never holds (`nextVisit_onTrack`);
* what a stack has still to visit is its `agenda`, and taking the next visit from the stack is
  taking the first block from the agenda;
* hence the walk is the walk along the unrolled program (`walk_eq_walkAlong`), cut at the budget.

`ofBlocks_eq_unrolling` draws the conclusion for whole compilations.
-/

namespace RobotBlocks

namespace Compilation

open Recording

variable {R : Type} [Scalar R] {c : Config R} {g : Graph}

/-! ## Frames -/

namespace Frame

/-- The blocks that a frame has still to visit at least once. -/
def blocks (f : Frame) : List Block := f.pending ++ f.body ++ f.following

/-- All visits that a frame leads to, if `visits` are those that a block leads to. -/
def agenda (visits : Block → List Block) (f : Frame) : List Block :=
  f.pending.flatMap visits ++ (List.replicate f.rounds (f.body.flatMap visits)).flatten ++
    f.following.flatMap visits

theorem agenda_of_next?_eq_none {f : Frame} (visits : Block → List Block) (h : f.next? = none) :
    f.agenda visits = [] := by
  obtain ⟨owner, pending, body, rounds, following⟩ := f
  rcases pending with _ | ⟨p, pending⟩ <;> rcases rounds with _ | rounds <;>
    rcases body with _ | ⟨q, body⟩ <;> rcases following with _ | ⟨r, following⟩ <;>
    simp_all [next?, agenda]

/-- Taking the next block of a frame takes its visits from the front of the agenda. -/
theorem agenda_of_next? {f f' : Frame} {b : Block} (visits : Block → List Block)
    (h : f.next? = some (b, f')) : f.agenda visits = visits b ++ f'.agenda visits := by
  obtain ⟨owner, pending, body, rounds, following⟩ := f
  rcases pending with _ | ⟨p, pending⟩ <;> rcases rounds with _ | rounds <;>
    rcases body with _ | ⟨q, body⟩ <;> rcases following with _ | ⟨r, following⟩ <;>
    simp only [next?, Option.some.injEq, Prod.mk.injEq, reduceCtorEq] at h <;>
    obtain ⟨rfl, rfl⟩ := h <;>
    simp [agenda, List.replicate_succ]

/-- The next block of a frame and the blocks after it were among its blocks, and its owner stays. -/
theorem blocks_of_next? {f f' : Frame} {b : Block} (h : f.next? = some (b, f')) :
    b ∈ f.blocks ∧ f'.blocks ⊆ f.blocks ∧ f'.owner = f.owner := by
  obtain ⟨owner, pending, body, rounds, following⟩ := f
  rcases pending with _ | ⟨p, pending⟩ <;> rcases rounds with _ | rounds <;>
    rcases body with _ | ⟨q, body⟩ <;> rcases following with _ | ⟨r, following⟩ <;>
    simp only [next?, Option.some.injEq, Prod.mk.injEq, reduceCtorEq] at h <;>
    obtain ⟨rfl, rfl⟩ := h <;>
    refine ⟨by simp [blocks], fun x hx => ?_, rfl⟩ <;>
    simp only [blocks, List.mem_append, List.mem_cons, List.not_mem_nil] at hx ⊢ <;>
    tauto

end Frame

/-- The visits that a stack of frames leads to, the innermost frame first. -/
def agenda (visits : Block → List Block) (stack : List Frame) : List Block :=
  stack.flatMap (Frame.agenda visits)

/-! ## The path -/

/-- The frames of a stack stand on owner links: the outermost one is that of the roots, and the
owner of every other frame lies as deep as the blocks of the frame outside it. The number is the
depth of the blocks of the innermost frame. -/
inductive OnTrack (g : Graph) : ℕ → List Frame → Prop
  | roots {f : Frame} (howner : f.owner = none)
    (h : ∀ b ∈ f.blocks, b ∈ g.blocks ∧ g.AtDepth 0 b.id) : OnTrack g 0 [f]
  | child {n : ℕ} {f : Frame} {outer : List Frame} {id : Text} (howner : f.owner = some id)
    (hid : g.AtDepth n id) (h : ∀ b ∈ f.blocks, b ∈ g.blocks ∧ g.AtDepth (n + 1) b.id)
    (houter : OnTrack g n outer) : OnTrack g (n + 1) (f :: outer)

namespace OnTrack

/-- Every block of the path lies above the blocks of the innermost frame. -/
theorem owner_lt {n : ℕ} {stack : List Frame} (h : OnTrack g n stack) :
    ∀ f ∈ stack, ∀ id, f.owner = some id → ∃ m < n, g.AtDepth m id := by
  induction h with
  | roots howner => simp [howner]
  | @child n f outer id howner hid _ _ ih =>
    intro f' hf' id' hid'
    rcases List.mem_cons.1 hf' with rfl | hf'
    · obtain rfl : id = id' := Option.some.inj (howner.symm.trans hid')
      exact ⟨n, Nat.lt_succ_self n, hid⟩
    · obtain ⟨m, hm, hat⟩ := ih f' hf' id' hid'
      exact ⟨m, Nat.lt_succ_of_lt hm, hat⟩

/-- **No block of the innermost frame is on the path.** -/
theorem onPath_eq_false {n : ℕ} {stack : List Frame} (h : OnTrack g n stack) {b : Block}
    (hb : g.AtDepth n b.id) : onPath stack b = false := by
  rw [onPath, List.any_eq_false]
  intro f hf howner
  obtain ⟨m, hm, hat⟩ := h.owner_lt f hf b.id (by simpa using howner)
  have := hat.unique hb
  omega

/-- Passing to what a frame has left after its next block stays on track. -/
theorem next {n : ℕ} {f f' : Frame} {outer : List Frame} {b : Block}
    (h : OnTrack g n (f :: outer)) (hnext : f.next? = some (b, f')) :
    OnTrack g n (f' :: outer) ∧ b ∈ g.blocks ∧ g.AtDepth n b.id := by
  obtain ⟨hb, hsub, howner'⟩ := Frame.blocks_of_next? hnext
  cases h with
  | roots howner h =>
    exact ⟨.roots (howner'.trans howner) fun x hx => h x (hsub hx), h b hb⟩
  | child howner hid h houter =>
    exact ⟨.child (howner'.trans howner) hid (fun x hx => h x (hsub hx)) houter, h b hb⟩

/-- Visiting a block at the depth of the innermost frame puts a frame of its children on top. -/
theorem push (hg : g.Settled) {n : ℕ} {stack : List Frame} (h : OnTrack g n stack) {b : Block}
    (hmem : b ∈ g.blocks) (hb : g.AtDepth n b.id) (rounds : ℕ) :
    OnTrack g (n + 1)
      (⟨some b.id, [], g.inSlot b .body, rounds, g.inSlot b .next⟩ :: stack) := by
  refine .child rfl hb (fun x hx => ?_) h
  rcases List.mem_append.1 hx with hx | hx
  · exact hb.child hg hmem (by simpa using hx)
  · exact hb.child hg hmem hx

end OnTrack

theorem onTrack_roots (g : Graph) : OnTrack g 0 [.ofRoots g.topLevel] := by
  refine .roots rfl fun b hb => ?_
  obtain ⟨hmem, hnone⟩ := Graph.mem_topLevel.1 (by simpa [Frame.blocks, Frame.ofRoots] using hb)
  exact ⟨hmem, .root hnone⟩

theorem nextVisit_of_none {f : Frame} {outer : List Frame} (h : f.next? = none) :
    nextVisit (f :: outer) = nextVisit outer := by
  rw [nextVisit]
  split
  · rfl
  · simp_all

theorem nextVisit_of_some {f f' : Frame} {outer : List Frame} {b : Block}
    (h : f.next? = some (b, f')) (hpath : onPath (f' :: outer) b = false) :
    nextVisit (f :: outer) = pure (some (b, f' :: outer)) := by
  rw [nextVisit]
  split
  · simp_all
  · rename_i b' f'' h'
    obtain ⟨rfl, rfl⟩ : b = b' ∧ f' = f'' := by simpa [h] using h'
    rw [hpath]
    rfl

/-- **The next visit of a stack on track** is the first block of its agenda; nothing is recorded. -/
theorem nextVisit_onTrack (visits : Block → List Block) {n : ℕ} {stack : List Frame}
    (h : OnTrack g n stack) :
    (nextVisit stack = pure none ∧ agenda visits stack = []) ∨
      ∃ b rest m, nextVisit stack = pure (some (b, rest)) ∧ OnTrack g m rest ∧ b ∈ g.blocks ∧
        g.AtDepth m b.id ∧ agenda visits stack = visits b ++ agenda visits rest := by
  -- Frames that have nothing left are passed over from the innermost one outward.
  have hstep : ∀ {n : ℕ} {f : Frame} {outer : List Frame}, OnTrack g n (f :: outer) →
      ∀ b f', f.next? = some (b, f') →
        ∃ b rest m, nextVisit (f :: outer) = pure (some (b, rest)) ∧ OnTrack g m rest ∧
          b ∈ g.blocks ∧ g.AtDepth m b.id ∧
          agenda visits (f :: outer) = visits b ++ agenda visits rest := by
    intro n f outer h b f' hnext
    obtain ⟨h', hmem, hb⟩ := h.next hnext
    refine ⟨b, f' :: outer, n, nextVisit_of_some hnext (h'.onPath_eq_false hb), h', hmem, hb, ?_⟩
    simp [agenda, Frame.agenda_of_next? visits hnext]
  induction h with
  | @roots f howner h =>
    rcases hnext : f.next? with _ | ⟨b, f'⟩
    · refine .inl ⟨?_, by simp [agenda, Frame.agenda_of_next?_eq_none visits hnext]⟩
      rw [nextVisit_of_none hnext, nextVisit]
    · exact .inr (hstep (.roots howner h) b f' hnext)
  | @child n f outer id howner hid h houter ih =>
    rcases hnext : f.next? with _ | ⟨b, f'⟩
    · have hagenda : agenda visits (f :: outer) = agenda visits outer := by
        simp [agenda, Frame.agenda_of_next?_eq_none visits hnext]
      rwa [nextVisit_of_none hnext, hagenda]
    · exact .inr (hstep (.child howner hid h houter) b f' hnext)

/-! ## The walk -/

/-- The walk along visits that are listed in advance, with so many of them allowed. -/
def walkAlong (c : Config R) (g : Graph) :
    (budget : ℕ) → List Block → Recording (List (Command R))
  | _, [] => return []
  | 0, b :: _ => do
    Recording.warn b (overrunMessage c) .input
    return []
  | budget + 1, b :: bs => do
    let (command, _) ← visit c g b
    let rest ← walkAlong c g budget bs
    return command.toList ++ rest

/-- **The walk of a stack on track is the walk along its agenda**, also where a visit fails. -/
theorem walk_eq_walkAlong (hg : g.Settled) (budget : ℕ) {n : ℕ} {stack : List Frame}
    (h : OnTrack g n stack) :
    walk c g budget stack = walkAlong c g budget (agenda (g.unroll (roundsIn c)) stack) := by
  induction budget generalizing n stack with
  | zero =>
    rcases nextVisit_onTrack (g.unroll (roundsIn c)) h with
      ⟨hnext, hagenda⟩ | ⟨b, rest, m, hnext, hrest, hmem, hb, hagenda⟩
    · rw [walk, hnext, hagenda, walkAlong]
      rfl
    · have hreach : g.Reachable b := (Graph.reachable_iff hg).2 ⟨hmem, m, hb⟩
      rw [walk, hnext, hagenda, Graph.unroll_eq _ hg hreach]
      rfl
  | succ budget ih =>
    rcases nextVisit_onTrack (g.unroll (roundsIn c)) h with
      ⟨hnext, hagenda⟩ | ⟨b, rest, m, hnext, hrest, hmem, hb, hagenda⟩
    · rw [walk, hnext, hagenda, walkAlong]
      rfl
    · have hreach : g.Reachable b := (Graph.reachable_iff hg).2 ⟨hmem, m, hb⟩
      have hpush := hrest.push hg hmem hb (roundsIn c b)
      have hcons : agenda (g.unroll (roundsIn c)) stack = b :: agenda (g.unroll (roundsIn c))
          (⟨some b.id, [], g.inSlot b .body, roundsIn c b, g.inSlot b .next⟩ :: rest) := by
        rw [hagenda, Graph.unroll_eq _ hg hreach]
        simp [agenda, Frame.agenda]
      rw [walk, hnext, pure_bind, hcons, walkAlong, ← ih hpush]
      -- The frame is known only where the visit succeeds.
      funext ds
      simp only [bind, EStateM.bind]
      rcases hvisit : visit c g b ds with ⟨⟨command, frame⟩, ds'⟩ | ⟨fault, ds'⟩
      · obtain ⟨-, rfl⟩ := visit_eq_ok c g hvisit
        rfl
      · rfl

/-! ## What the walk gives -/

/-- The diagnostic tells neither of a cycle nor of a budget that is used up. -/
def IsOrdinary (d : Diagnostic) : Prop := d.opening ≠ "Cy" ∧ d.opening ≠ "Pr"

namespace IsOrdinary

theorem of_remark {d : Diagnostic} (h : Remark d) : IsOrdinary d := by
  rcases h with h | h | h | h <;> rw [IsOrdinary, h] <;> decide

theorem of_noted {d : Diagnostic} (h : Graph.Noted d) : IsOrdinary d := by
  have hopening : d.opening = "Du" ∨ d.opening = "Bl" ∨ d.opening = "Un" ∨ d.opening = "Al" := by
    cases h with
    | duplicate => exact .inl rfl
    | self => exact .inr (.inl rfl)
    | unknown => exact .inr (.inr (.inl rfl))
    | owned => exact .inr (.inr (.inr rfl))
  rcases hopening with h | h | h | h <;> rw [IsOrdinary, h] <;> decide

theorem ne_cycleMessage {d : Diagnostic} (h : IsOrdinary d) : d.message ≠ cycleMessage :=
  fun e => h.1 (by rw [Diagnostic.opening, e]; rfl)

omit [Scalar R] in
theorem ne_overrunMessage {d : Diagnostic} (h : IsOrdinary d) : d.message ≠ overrunMessage c :=
  fun e => h.2 (by rw [Diagnostic.opening, e]; rfl)

/-- Settling the claims of a program records nothing else. -/
theorem of_build {blocks : List Block} :
    ∀ d ∈ (Graph.build blocks .empty).2.entries, IsOrdinary d := fun d hd =>
  (Graph.noted_build blocks .empty d hd).elim (fun h => absurd h List.not_mem_nil) of_noted

/-- A visit adds nothing else. -/
theorem of_visit {b : Block} {ds ds' : Diagnostics} {a : Option (Command R) × Frame}
    (h : visit c g b ds = .ok a ds') : ∀ d ∈ ds'.entries, d ∈ ds.entries ∨ IsOrdinary d := by
  intro d hd
  have hrecorded : (visit c g b).recorded ds = ds' := by rw [recorded, h]
  exact ((visit_logs c g b).mem_recorded (hrecorded ▸ hd)).imp_right of_remark

end IsOrdinary

/-- What is recorded about the first block beyond the budget. -/
def overrun (c : Config R) (b : Block) : Diagnostic :=
  ⟨some b.id, overrunMessage c, .input, .warning⟩

omit [Scalar R] in
theorem overrun_ne_cycleMessage (c : Config R) (b : Block) :
    (overrun c b).message ≠ cycleMessage := fun e => by
  have hcycle : (overrun c b).opening = "Cy" := by
    rw [Diagnostic.opening, e]
    rfl
  have hoverrun : (overrun c b).opening = "Pr" := rfl
  exact absurd (hoverrun.symm.trans hcycle) (by decide)

/-- A walk along listed visits records remarks and, if there is a visit beyond the budget, that it
is used up. -/
theorem walkAlong_logs (budget : ℕ) (bs : List Block) :
    Logs (fun d => Remark d ∨ ∃ b, bs[budget]? = some b ∧ d = overrun c b)
      (walkAlong c g budget bs) := by
  induction bs generalizing budget with
  | nil =>
    rw [walkAlong]
    exact .pure _
  | cons b bs ih =>
    rcases budget with _ | budget
    · exact .bind (.warn (.inr ⟨b, rfl, rfl⟩)) fun _ => .pure _
    · exact .bind ((visit_logs c g b).mono fun d hd => .inl hd) fun _ =>
        .bind ((ih budget).mono fun d hd => by simpa using hd) fun _ => .pure _

/-- A walk along listed visits that succeeds gives the commands of as many of them as are allowed,
and tells of an overrun if there is one more. -/
theorem walkAlong_eq_ok {budget : ℕ} {bs : List Block} {commands : List (Command R)}
    {ds ds' : Diagnostics} (h : walkAlong c g budget bs ds = .ok commands ds')
    (hds : ∀ d ∈ ds.entries, d.message ≠ overrunMessage c) :
    commands = (bs.take budget).filterMap (commandOf c) ∧
      ds'.entries.filter (fun d => d.message = overrunMessage c) =
        (bs[budget]?.map (overrun c)).toList := by
  have hnone : ∀ {ds : Diagnostics}, (∀ d ∈ ds.entries, d.message ≠ overrunMessage c) →
      ds.entries.filter (fun d => d.message = overrunMessage c) = [] := fun h => by
    simpa using h
  induction bs generalizing budget commands ds with
  | nil =>
    rw [walkAlong] at h
    cases h
    exact ⟨by simp, by simpa using hds⟩
  | cons b bs ih =>
    rcases budget with _ | budget
    · rw [walkAlong, Recording.warn_eq_of] at h
      cases h
      have hnew : overrun c b ∉ ds.entries := fun hmem => hds _ hmem rfl
      refine ⟨by simp, ?_⟩
      change ((ds.add (overrun c b)).entries.filter _) = [overrun c b]
      rw [Diagnostics.add, if_neg hnew, List.filter_append, hnone hds]
      simp [overrun]
    · rw [walkAlong] at h
      obtain ⟨⟨command, frame⟩, ds₁, hvisit, h⟩ := bind_eq_ok.1 h
      obtain ⟨rest, ds₂, hrest, h⟩ := bind_eq_ok.1 h
      obtain ⟨rfl, -⟩ := visit_eq_ok c g hvisit
      have hds₁ : ∀ d ∈ ds₁.entries, d.message ≠ overrunMessage c := fun d hd =>
        (IsOrdinary.of_visit hvisit d hd).elim (hds d) IsOrdinary.ne_overrunMessage
      cases h
      obtain ⟨rfl, hentries⟩ := ih hrest hds₁
      refine ⟨?_, by simpa using hentries⟩
      rw [List.take_succ_cons, List.filterMap_cons]
      cases commandOf c b <;> rfl

/-- Compiling is the walk along the unrolled program. -/
theorem ofBlocks_eq_walkAlong (c : Config R) (blocks : List Block) (ds₀ : Diagnostics) :
    let g := (Graph.build blocks .empty).1
    (ofBlocks c blocks) ds₀ = walkAlong c g c.maxVisits.toNat
      (g.topLevel.flatMap (g.unroll (roundsIn c))) (Graph.build blocks .empty).2 := by
  intro g
  have hagenda : agenda (g.unroll (roundsIn c)) [.ofRoots g.topLevel] =
      g.topLevel.flatMap (g.unroll (roundsIn c)) := by
    simp [agenda, Frame.agenda, Frame.ofRoots]
  rw [← hagenda, ← walk_eq_walkAlong (Graph.settled_build blocks .empty) _ (onTrack_roots g)]
  rfl

/-- **No cycle is ever recorded**, also if compiling fails. -/
theorem ne_cycleMessage_of_recorded {blocks : List Block} {ds₀ : Diagnostics} {d : Diagnostic}
    (hd : d ∈ ((ofBlocks c blocks).recorded ds₀).entries) : d.message ≠ cycleMessage := by
  change d ∈ ((walk c (Graph.build blocks .empty).1 c.maxVisits.toNat
    [.ofRoots (Graph.build blocks .empty).1.topLevel]).recorded
      (Graph.build blocks .empty).2).entries at hd
  rw [walk_eq_walkAlong (Graph.settled_build blocks .empty) _ (onTrack_roots _)] at hd
  rcases (walkAlong_logs _ _).mem_recorded hd with hd | hd | ⟨b, -, rfl⟩
  · exact (IsOrdinary.of_build d hd).ne_cycleMessage
  · exact (IsOrdinary.of_remark hd).ne_cycleMessage
  · exact overrun_ne_cycleMessage c b

/-- **Compiling follows the unrolled program up to the budget.** The visits of a program are those
of its roots; the visits of a block are the block, its body in as many rounds as it runs, and its
continuation. A compilation that succeeds gives the commands of the first visits, as many as the
budget allows, and tells of an overrun if and only if there is one more visit, about its block. -/
theorem ofBlocks_eq_unrolling {blocks : List Block} {commands : List (Command R)}
    {ds₀ ds : Diagnostics} (h : (ofBlocks c blocks).run ds₀ = .ok commands ds) :
    let g := (Graph.build blocks .empty).1
    let visits := g.topLevel.flatMap (g.unroll (roundsIn c))
    (∀ b, g.Reachable b → g.unroll (roundsIn c) b =
      b :: (List.replicate (roundsIn c b)
          ((g.inSlot b .body).flatMap (g.unroll (roundsIn c)))).flatten ++
        (g.inSlot b .next).flatMap (g.unroll (roundsIn c))) ∧
    commands = (visits.take c.maxVisits.toNat).filterMap (commandOf c) ∧
    ds.entries.filter (fun d => d.message = overrunMessage c) =
      (visits[c.maxVisits.toNat]?.map (overrun c)).toList := by
  intro g visits
  have hg : g.Settled := Graph.settled_build blocks .empty
  have hwalk : walkAlong c g c.maxVisits.toNat visits (Graph.build blocks .empty).2 =
      .ok commands ds := (ofBlocks_eq_walkAlong c blocks ds₀).symm.trans h
  exact ⟨fun b hb => Graph.unroll_eq _ hg hb,
    walkAlong_eq_ok hwalk fun d hd => (IsOrdinary.of_build d hd).ne_overrunMessage⟩

/-- The box robot with a budget of six visits. -/
def sixVisits : Config Float := { (Config.robot : Config Float) with maxVisits := 6 }

/-- The sample program unrolls to eleven visits. With a budget of six it is cut in the second round
of its loop, which the diagnostics tell once. -/
theorem ofBlocks_eq_unrolling_sample :
    ∃ blocks commands ds, Block.load Sample.project = .ok blocks ∧
      (ofBlocks sixVisits blocks).run .empty = .ok commands ds ∧
      let g := (Graph.build blocks .empty).1
      let visits := g.topLevel.flatMap (g.unroll (roundsIn sixVisits))
      (∀ b, g.Reachable b → g.unroll (roundsIn sixVisits) b =
        b :: (List.replicate (roundsIn sixVisits b)
            ((g.inSlot b .body).flatMap (g.unroll (roundsIn sixVisits)))).flatten ++
          (g.inSlot b .next).flatMap (g.unroll (roundsIn sixVisits))) ∧
      commands = (visits.take 6).filterMap (commandOf sixVisits) ∧
      ds.entries.filter (fun d => d.message = overrunMessage sixVisits) =
        (visits[6]?.map (overrun sixVisits)).toList := by
  have hok : ((Block.load Sample.project).toOption.any fun blocks =>
      Outcome.returned ((ofBlocks sixVisits blocks).run .empty) fun commands ds =>
        commands.length == 4 && ds.entries.length == 1) = true := by decide +kernel
  obtain ⟨blocks, hload, hreturned⟩ := Outcome.any_toOption.1 hok
  obtain ⟨commands, ds, hrun, -⟩ := Outcome.returned_eq_true.1 hreturned
  exact ⟨blocks, commands, ds, hload, hrun, ofBlocks_eq_unrolling hrun⟩

end Compilation

end RobotBlocks
