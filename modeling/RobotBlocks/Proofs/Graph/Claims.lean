import Mathlib.Data.List.Induction
import RobotBlocks.Proofs.Block.ReadingOrder
import RobotBlocks.Proofs.Graph.FirstVisits

/-!
# Which claims are honoured

Every block of the graph of a program has one place: it is a root, or it hangs in one slot of one
owner (`blocks_have_one_place`). Which of the two, and what is recorded on the way, is decided by a
pass over all blocks in reading order and over the names that each of them lists.

* `ownerIn?_claim` says who owns a block after one more claim. From that, by induction over the names
  that a block lists and over the blocks, `owner?_build` says who owns it in the end: the first block
  in reading order that claims it.
* `mem_entries_foldl` says what a pass records, if each of its steps adds what the state before it
  decides. It is applied to the names of the blocks (`mem_entries_distinct`), to the claims of one
  block and to those of all blocks (`mem_entries_build`).
* `childrenOf_build` says which blocks hang off an owner, and in which order.
-/

namespace RobotBlocks

/-- The places of a list at which something holds of what stands before and of what stands there: the
first one, or those of the rest. -/
theorem exists_place_cons {α : Type} {P : List α → α → Prop} {x : α} {xs : List α} :
    (∃ before y after, x :: xs = before ++ y :: after ∧ P before y) ↔
      P [] x ∨ ∃ before y after, xs = before ++ y :: after ∧ P (x :: before) y := by
  constructor
  · rintro ⟨_ | ⟨z, before⟩, y, after, h, hP⟩
    · obtain ⟨rfl, -⟩ := List.cons.inj h
      exact .inl hP
    · obtain ⟨rfl, rfl⟩ := List.cons.inj h
      exact .inr ⟨before, y, after, rfl, hP⟩
  · rintro (hP | ⟨before, y, after, rfl, hP⟩)
    · exact ⟨[], x, xs, rfl, hP⟩
    · exact ⟨x :: before, y, after, rfl, hP⟩

namespace Graph

/-! ## Blocks that are kept -/

/-- What is recorded about a block if an earlier one has its name. -/
def namesake (b : Block) : Diagnostic :=
  ⟨some b.id, "Duplicate block id; keeping the first occurrence", .structural, .warning⟩

/-- Keeping a block or not, its name is there. -/
theorem mem_ids_keep {state : List Block × Diagnostics} {b : Block} {id : Text} :
    id ∈ (keep state b).1.map Block.id ↔ id ∈ state.1.map Block.id ∨ id = b.id := by
  unfold keep
  split
  next h =>
    obtain ⟨k, hk, hid⟩ := List.any_eq_true.1 h
    refine ⟨.inl, fun h => h.elim (fun h => h) ?_⟩
    rintro rfl
    exact List.mem_map.2 ⟨k, hk, by simpa using hid⟩
  · simp

theorem mem_ids_foldl_keep {blocks : List Block} {state : List Block × Diagnostics} {id : Text} :
    id ∈ (blocks.foldl keep state).1.map Block.id ↔
      id ∈ state.1.map Block.id ∨ id ∈ blocks.map Block.id := by
  induction blocks generalizing state with
  | nil => simp
  | cons b blocks ih =>
    rw [List.foldl_cons, ih, mem_ids_keep, List.map_cons, List.mem_cons, or_assoc]

/-- What was kept stays. -/
theorem subset_foldl_keep (blocks : List Block) (state : List Block × Diagnostics) :
    state.1 ⊆ (blocks.foldl keep state).1 := by
  refine List.foldlRecOn (motive := fun s => state.1 ⊆ s.1) blocks keep (fun _ h => h)
    fun s hs b _ => ?_
  unfold keep
  split
  · exact hs
  · exact fun k hk => List.mem_append_left _ (hs hk)

variable {before after : List Block} {b : Block}

/-- **The first block of a name is kept.** -/
theorem mem_distinct (ds : Diagnostics) (h : ∀ k ∈ before, k.id ≠ b.id) :
    b ∈ (distinct (before ++ b :: after) ds).1 := by
  rw [distinct, List.foldl_append, List.foldl_cons]
  refine subset_foldl_keep after _ ?_
  have hnew : ¬ ((before.foldl keep ([], ds)).1.any fun k => k.id == b.id) = true := fun hany => by
    obtain ⟨k, hk, hid⟩ := List.any_eq_true.1 hany
    have hmem := mem_ids_foldl_keep.1 (List.mem_map_of_mem hk)
    simp only [List.map_nil, List.not_mem_nil, false_or] at hmem
    obtain ⟨k', hk', hid'⟩ := List.mem_map.1 hmem
    exact h k' hk' (by simpa [hid'] using hid)
  rw [keep, if_neg hnew]
  simp

/-- **The blocks that are kept** are the first of their names. -/
theorem mem_distinct_iff {blocks : List Block} {ds : Diagnostics} {b : Block} :
    b ∈ (distinct blocks ds).1 ↔
      ∃ before after, blocks = before ++ b :: after ∧ ∀ k ∈ before, k.id ≠ b.id := by
  constructor
  · intro h
    induction blocks using List.reverseRecOn with
    | nil => simp [distinct] at h
    | append_singleton blocks x ih =>
      rw [distinct, List.foldl_append, List.foldl_cons, List.foldl_nil, keep] at h
      split at h
      · obtain ⟨before, after, rfl, hfirst⟩ := ih h
        exact ⟨before, after ++ [x], by simp, hfirst⟩
      next hnew =>
        rcases List.mem_append.1 h with h | h
        · obtain ⟨before, after, rfl, hfirst⟩ := ih h
          exact ⟨before, after ++ [x], by simp, hfirst⟩
        · obtain rfl := List.mem_singleton.1 h
          refine ⟨blocks, [], rfl, fun k hk hid => hnew ?_⟩
          have hmem : b.id ∈ (blocks.foldl keep ([], ds)).1.map Block.id :=
            mem_ids_foldl_keep.2 (.inr (List.mem_map.2 ⟨k, hk, hid⟩))
          obtain ⟨k', hk', hid'⟩ := List.mem_map.1 hmem
          exact List.any_eq_true.2 ⟨k', hk', by simpa using hid'⟩
  · rintro ⟨before, after, rfl, hfirst⟩
    exact mem_distinct ds hfirst

/-! ## What a pass records -/

/-- **What a pass over a list records**: what was there at the start, and at each place what the step
there adds to the state that the steps before it have led to. -/
theorem mem_entries_foldl {σ β : Type} (recorded : σ → Diagnostics) {f : σ → β → σ}
    {Adds : σ → β → Diagnostic → Prop}
    (hf : ∀ s b d, d ∈ (recorded (f s b)).entries ↔ d ∈ (recorded s).entries ∨ Adds s b d)
    (bs : List β) (s : σ) (d : Diagnostic) :
    d ∈ (recorded (bs.foldl f s)).entries ↔ d ∈ (recorded s).entries ∨
      ∃ before b after, bs = before ++ b :: after ∧ Adds (before.foldl f s) b d := by
  induction bs generalizing s with
  | nil => simp
  | cons b bs ih => rw [List.foldl_cons, ih, hf, or_assoc, exists_place_cons]; rfl

theorem mem_entries_keep (state : List Block × Diagnostics) (b : Block) (d : Diagnostic) :
    d ∈ (keep state b).2.entries ↔
      d ∈ state.2.entries ∨ (b.id ∈ state.1.map Block.id ∧ d = namesake b) := by
  have hany : (state.1.any fun k => k.id == b.id) = true ↔ b.id ∈ state.1.map Block.id := by
    simp [List.any_eq_true, List.mem_map]
  unfold keep
  split
  next h => simp [hany.1 h, namesake]
  next h => simp [mt hany.2 h]

/-- **What is recorded about names**: every block that has the name of an earlier one, and nothing
else. -/
theorem mem_entries_distinct (blocks : List Block) (ds : Diagnostics) (d : Diagnostic) :
    d ∈ (distinct blocks ds).2.entries ↔ d ∈ ds.entries ∨
      ∃ before b after, blocks = before ++ b :: after ∧
        (∃ k ∈ before, k.id = b.id) ∧ d = namesake b := by
  rw [distinct, mem_entries_foldl Prod.snd mem_entries_keep]
  refine or_congr_right (exists₃_congr fun before b after => and_congr_right fun _ => ?_)
  rw [mem_ids_foldl_keep, List.map_nil, List.mem_map]
  simp

/-- **Further blocks of a name are recorded.** -/
theorem namesake_mem_distinct (ds : Diagnostics) {k : Block} (hk : k ∈ before) (h : k.id = b.id) :
    namesake b ∈ (distinct (before ++ b :: after) ds).2.entries :=
  (mem_entries_distinct _ ds _).2 (.inr ⟨before, b, after, rfl, ⟨k, hk, h⟩, rfl⟩)

/-! ## The claims of one block -/

variable {known : List Block} {parent : Block}

theorem find?_eq_none_iff {id : Text} : Block.find? known id = none ↔ id ∉ known.map Block.id := by
  simp [Block.find?, List.find?_eq_none, List.mem_map]

theorem mem_ids_of_find? {id : Text} {child : Block} (h : Block.find? known id = some child) :
    id ∈ known.map Block.id := by
  by_contra hnot
  rw [find?_eq_none_iff.2 hnot] at h
  cases h

/-- What is recorded if a claim of a block is refused: on itself, on a block that is not known, or on
one that is taken by another or by the block itself. -/
inductive Refusal (known : List Block) (parent : Block) (TakenBy : Text → Prop) (id : Text) :
    Diagnostic → Prop
  | self (h : id = parent.id) : Refusal known parent TakenBy id
    ⟨some id, "Block lists itself as a child", .structural, .warning⟩
  | unknown (hne : id ≠ parent.id) (h : id ∉ known.map Block.id) : Refusal known parent TakenBy id
    ⟨some parent.id, "Unknown child block: " ++ id, .structural, .warning⟩
  | taken {other : Text} (hne : id ≠ parent.id) (h : id ∈ known.map Block.id)
    (hother : TakenBy other) : Refusal known parent TakenBy id
    ⟨some id, "Already nested in block " ++ other ++ "; ignoring claim by " ++ parent.id,
      .structural, .warning⟩

theorem Refusal.mono {P Q : Text → Prop} {id : Text} {d : Diagnostic}
    (h : Refusal known parent P id d)
    (hPQ : id ≠ parent.id → id ∈ known.map Block.id → ∀ other, P other → Q other) :
    Refusal known parent Q id d := by
  cases h with
  | self h => exact .self h
  | unknown hne h => exact .unknown hne h
  | taken hne h hother => exact .taken hne h (hPQ hne h _ hother)

/-- A claim that is refused is recorded, and nothing is if it is granted. -/
theorem mem_entries_claim (known : List Block) (parent : Block) (c : Claims) (id : Text)
    (d : Diagnostic) :
    d ∈ (claim known parent c id).diagnostics.entries ↔ d ∈ c.diagnostics.entries ∨
      Refusal known parent (fun other => ownerIn? c.owner id = some other) id d := by
  by_cases hself : id = parent.id
  · rw [claim_of_self hself, Claims.reject, Diagnostics.mem_warn]
    refine or_congr_right ⟨?_, fun h => ?_⟩
    · rintro rfl
      exact .self hself
    · cases h with
      | self => rfl
      | unknown hne | taken hne => exact absurd hself hne
  rcases hfind : Block.find? known id with _ | child
  · rw [claim_of_unknown hself hfind, Claims.reject, Diagnostics.mem_warn]
    refine or_congr_right ⟨?_, fun h => ?_⟩
    · rintro rfl
      exact .unknown hself (find?_eq_none_iff.1 hfind)
    · cases h with
      | self h => exact absurd h hself
      | unknown => rfl
      | taken _ h => exact absurd h (find?_eq_none_iff.1 hfind)
  have hknown : id ∈ known.map Block.id := mem_ids_of_find? hfind
  rcases hfree : ownerIn? c.owner id with _ | other
  · rw [claim_of_free hself hfind hfree]
    refine ⟨.inl, fun hd => hd.resolve_right fun hrefusal => ?_⟩
    cases hrefusal with
    | self h => exact hself h
    | unknown _ h => exact h hknown
    | taken _ _ h => cases h
  · rw [claim_of_owned hself hfind hfree, Claims.reject, Diagnostics.mem_warn]
    refine or_congr_right ⟨?_, fun h => ?_⟩
    · rintro rfl
      exact .taken hself hknown rfl
    · cases h with
      | self h => exact absurd h hself
      | unknown _ h => exact absurd hknown h
      | taken _ _ h =>
        cases h
        rfl

/-- What settling the claims of one block records. -/
theorem mem_entries_adopt (known : List Block) (state : Graph × Diagnostics) (p : Block)
    (d : Diagnostic) :
    d ∈ (adopt known state p).2.entries ↔ d ∈ state.2.entries ∨
      ∃ earlier id later, p.children = earlier ++ id :: later ∧
        Refusal known p (fun other => ownerIn? (earlier.foldl (claim known p)
          ⟨state.1.owner, [], state.2⟩).owner id = some other) id d :=
  mem_entries_foldl Claims.diagnostics (mem_entries_claim known p) p.children
    ⟨state.1.owner, [], state.2⟩ d

/-- The blocks of a graph are those of the list without later namesakes, and what was recorded
about these stays. -/
theorem build_of_distinct (blocks : List Block) (ds : Diagnostics) :
    (build blocks ds).1.blocks = (distinct blocks ds).1 ∧
      (distinct blocks ds).2.entries ⊆ (build blocks ds).2.entries := by
  unfold build
  refine List.foldlRecOn (motive := fun s : Graph × Diagnostics =>
    s.1.blocks = (distinct blocks ds).1 ∧ (distinct blocks ds).2.entries ⊆ s.2.entries)
    _ (adopt _) ⟨rfl, fun _ h => h⟩ fun s hs b _ => ⟨hs.1, fun d hd => ?_⟩
  exact (mem_entries_adopt _ s b d).2 (.inl (hs.2 hd))

/-- Who owns a block after one more claim: nobody else than before, unless it had no owner. -/
theorem ownerIn?_claim (known : List Block) (parent : Block) (c : Claims) (id x : Text) :
    ownerIn? (claim known parent c id).owner x = (ownerIn? c.owner x).or
      (if x = id ∧ x ≠ parent.id ∧ x ∈ known.map Block.id then some parent.id else none) := by
  by_cases hself : id = parent.id
  · rw [claim_of_self hself, if_neg fun h => h.2.1 (h.1.trans hself), Option.or_none]
    rfl
  rcases hfind : Block.find? known id with _ | child
  · have hnot := find?_eq_none_iff.1 hfind
    rw [claim_of_unknown hself hfind, if_neg (by rintro ⟨rfl, -, h⟩; exact hnot h),
      Option.or_none]
    rfl
  have hknown : id ∈ known.map Block.id := mem_ids_of_find? hfind
  rcases hfree : ownerIn? c.owner id with _ | other
  · rw [claim_of_free hself hfind hfree, ownerIn?, ownerIn?, List.find?_append, Option.map_or]
    by_cases hx : x = id
    · subst hx
      simp [hself, hknown]
    · simp [hx, Ne.symm hx]
  · rw [claim_of_owned hself hfind hfree]
    by_cases hx : x = id
    · subst hx
      simp [Claims.reject, hfree]
    · simp [Claims.reject, hx]

/-- Who owns a block after all claims of one block. -/
theorem ownerIn?_claims (known : List Block) (parent : Block) (ids : List Text) (c : Claims)
    (x : Text) :
    ownerIn? (ids.foldl (claim known parent) c).owner x = (ownerIn? c.owner x).or
      (if x ∈ ids ∧ x ≠ parent.id ∧ x ∈ known.map Block.id then some parent.id else none) := by
  induction ids generalizing c with
  | nil => simp
  | cons id ids ih =>
    rw [List.foldl_cons, ih, ownerIn?_claim, Option.or_assoc]
    by_cases hx : x = id
    · subst hx
      by_cases h : x ≠ parent.id ∧ x ∈ known.map Block.id
      · rw [if_pos ⟨rfl, h⟩, Option.some_or, if_pos ⟨List.mem_cons_self, h⟩]
      · rw [if_neg fun h' => h h'.2, if_neg fun h' => h h'.2, if_neg fun h' => h h'.2,
          Option.none_or]
    · simp [hx]

/-- The blocks that a block gets by its claims: those that it lists, in the order in which it first
does so, if they are known, other ones and had no owner before. -/
theorem owned_claims (known : List Block) (parent : Block) (ids : List Text) (c : Claims) :
    (ids.foldl (claim known parent) c).owned = c.owned ++ ids.eraseDups.filterMap fun id =>
      if id = parent.id ∨ (ownerIn? c.owner id).isSome then none else Block.find? known id := by
  induction ids using List.reverseRecOn with
  | nil => simp
  | append_singleton ids id ih =>
    rw [List.foldl_append, List.foldl_cons, List.foldl_nil, List.eraseDups_append,
      List.filterMap_append, ← List.append_assoc, ← ih]
    have howner := ownerIn?_claims known parent ids c id
    have hnew : ([id].removeAll ids).eraseDups = if id ∈ ids then [] else [id] := by
      by_cases h : id ∈ ids <;> simp [List.removeAll, h, List.eraseDups_cons]
    rw [hnew]
    by_cases hself : id = parent.id
    · rw [claim_of_self hself]
      split <;> simp [Claims.reject, hself]
    rcases hfind : Block.find? known id with _ | child
    · rw [claim_of_unknown hself hfind]
      split <;> simp [Claims.reject, hfind]
    have hknown : id ∈ known.map Block.id := mem_ids_of_find? hfind
    rcases hfree : ownerIn? (ids.foldl (claim known parent) c).owner id with _ | other
    · rw [claim_of_free hself hfind hfree]
      rw [hfree, eq_comm, Option.or_eq_none_iff] at howner
      have hfirst : id ∉ ids := fun h => by simp [h, hself, hknown] at howner
      simp [hfirst, hself, howner.1, hfind]
    · rw [claim_of_owned hself hfind hfree]
      rcases hbefore : ownerIn? c.owner id with _ | other'
      · have hagain : id ∈ ids := by
          by_contra h
          simp [hfree, hbefore, h] at howner
        simp [hagain, Claims.reject]
      · split <;> simp [Claims.reject, hbefore]

/-! ## The claims of all blocks -/

/-- A block claims the one of the given name: it lists the name, and the name is not its own. -/
def LaysClaim (p : Block) (id : Text) : Prop := id ≠ p.id ∧ id ∈ p.children

instance (p : Block) (id : Text) : Decidable (LaysClaim p id) :=
  inferInstanceAs (Decidable (_ ∧ _))

/-- The first of some blocks that claims the one of the given name. -/
def claimant? (parents : List Block) (id : Text) : Option Block :=
  parents.find? fun p => decide (LaysClaim p id)

theorem claimant?_eq_some_iff {parents : List Block} {id : Text} {p : Block} :
    claimant? parents id = some p ↔ LaysClaim p id ∧
      ∃ before after, parents = before ++ p :: after ∧ ∀ q ∈ before, ¬ LaysClaim q id := by
  simp [claimant?, List.find?_eq_some_iff_append]

/-- Who owns a block after the claims of several blocks: the first of them that claims it, if it had
no owner before. -/
theorem ownerIn?_adoptions (known parents : List Block) (state : Graph × Diagnostics) (x : Text) :
    ownerIn? (parents.foldl (adopt known) state).1.owner x = (ownerIn? state.1.owner x).or
      (if x ∈ known.map Block.id then (claimant? parents x).map Block.id else none) := by
  induction parents generalizing state with
  | nil => simp [claimant?]
  | cons p parents ih =>
    have hstep : ownerIn? (adopt known state p).1.owner x = (ownerIn? state.1.owner x).or
        (if x ∈ p.children ∧ x ≠ p.id ∧ x ∈ known.map Block.id then some p.id else none) :=
      ownerIn?_claims known p p.children ⟨state.1.owner, [], state.2⟩ x
    rw [List.foldl_cons, ih, hstep, Option.or_assoc]
    by_cases hknown : x ∈ known.map Block.id
    · by_cases hclaim : LaysClaim p x
      · rw [if_pos ⟨hclaim.2, hclaim.1, hknown⟩, if_pos hknown, if_pos hknown, Option.some_or]
        simp [claimant?, hclaim]
      · rw [if_neg fun h => hclaim ⟨h.2.1, h.1⟩, if_pos hknown, if_pos hknown, Option.none_or]
        simp [claimant?, hclaim]
    · rw [if_neg fun h => hknown h.2.2, if_neg hknown, if_neg hknown, Option.none_or]

/-- The claims of the blocks of the graph are settled in reading order. -/
theorem build_eq (blocks : List Block) (ds : Diagnostics) :
    let g := (build blocks ds).1
    build blocks ds = (Block.inReadingOrder g.blocks).foldl (adopt g.blocks)
      (⟨g.blocks, [], []⟩, (distinct blocks ds).2) := by
  intro g
  rw [(build_of_distinct blocks ds).1]
  rfl

/-- **Who owns a block**: the first block in reading order that claims it. -/
theorem owner?_build (blocks : List Block) (ds : Diagnostics) (id : Text) :
    let g := (build blocks ds).1
    g.owner? id = if id ∈ g.blocks.map Block.id then
      (claimant? (Block.inReadingOrder g.blocks) id).map Block.id else none := by
  intro g
  have howner : g.owner = ((Block.inReadingOrder g.blocks).foldl (adopt g.blocks)
      (⟨g.blocks, [], []⟩, (distinct blocks ds).2)).1.owner :=
    congrArg (fun built => built.1.owner) (build_eq blocks ds)
  rw [owner?, howner, ownerIn?_adoptions]
  exact Option.none_or

theorem owner?_build_eq_some_iff {blocks : List Block} {ds : Diagnostics} {id other : Text} :
    let g := (build blocks ds).1
    g.owner? id = some other ↔ id ∈ g.blocks.map Block.id ∧ ∃ p before after,
      p.id = other ∧ LaysClaim p id ∧ Block.inReadingOrder g.blocks = before ++ p :: after ∧
        ∀ q ∈ before, ¬ LaysClaim q id := by
  intro g
  rw [owner?_build, Option.ite_none_right_eq_some, Option.map_eq_some_iff]
  refine and_congr_right fun _ => ⟨?_, ?_⟩
  · rintro ⟨p, hp, hid⟩
    obtain ⟨hclaim, before, after, hsplit, hfirst⟩ := claimant?_eq_some_iff.1 hp
    exact ⟨p, before, after, hid, hclaim, hsplit, hfirst⟩
  · rintro ⟨p, before, after, hid, hclaim, hsplit, hfirst⟩
    exact ⟨p, claimant?_eq_some_iff.2 ⟨hclaim, before, after, hsplit, hfirst⟩, hid⟩

/-- A block is taken when a claim of the given block on it is settled, behind those on the given
names: another block owns it in the end, or this one does and has claimed it before. -/
def Taken (g : Graph) (p : Block) (earlier : List Text) (id other : Text) : Prop :=
  g.owner? id = some other ∧ (other = p.id → id ∈ earlier)

theorem claimant?_append {before after : List Block} {p : Block} {id : Text}
    (hclaim : LaysClaim p id) :
    claimant? (before ++ p :: after) id = (claimant? before id).or (some p) := by
  simp [claimant?, List.find?_append, hclaim]

/-- A block that claims another one gets it if no block before it claims it. -/
theorem claimant?_append_eq_iff {before after : List Block} {p : Block} {id : Text}
    (hids : ((before ++ p :: after).map Block.id).Nodup) (hclaim : LaysClaim p id) :
    (claimant? (before ++ p :: after) id).map Block.id = some p.id ↔ claimant? before id = none := by
  rw [claimant?_append hclaim]
  rcases hbefore : claimant? before id with _ | q
  · simp
  · have hq : q ∈ before := List.mem_of_find?_eq_some hbefore
    rw [List.map_append, List.map_cons] at hids
    have hne : q.id ≠ p.id :=
      (List.nodup_append.1 hids).2.2 q.id (List.mem_map_of_mem hq) p.id List.mem_cons_self
    simp [hne]

/-- The place of a claim in the pass over all blocks decides whether it comes too late. -/
theorem taken_iff {before after : List Block} {p : Block} {earlier : List Text} {id other : Text}
    (hids : ((before ++ p :: after).map Block.id).Nodup) (hclaim : LaysClaim p id) :
    ((claimant? before id).map Block.id).or (if id ∈ earlier then some p.id else none) = some other ↔
      (claimant? (before ++ p :: after) id).map Block.id = some other ∧
        (other = p.id → id ∈ earlier) := by
  have hfirst := claimant?_append_eq_iff hids hclaim
  rw [claimant?_append hclaim] at hfirst ⊢
  rcases hbefore : claimant? before id with _ | q
  · by_cases hearlier : id ∈ earlier <;> simp [hearlier, eq_comm]
  · have hne : q.id ≠ p.id := by simpa [hbefore] using hfirst
    simp only [Option.map_some, Option.some_or, Option.some.injEq]
    exact ⟨fun h => ⟨h, fun hother => absurd (h.trans hother) hne⟩, fun h => h.1⟩

/-- **What is recorded in the end**: what was there, the blocks with the name of an earlier one, and
the claims that are refused. -/
theorem mem_entries_build (blocks : List Block) (ds : Diagnostics) (d : Diagnostic) :
    let g := (build blocks ds).1
    d ∈ (build blocks ds).2.entries ↔ d ∈ ds.entries ∨
      (∃ before b after, blocks = before ++ b :: after ∧
        (∃ k ∈ before, k.id = b.id) ∧ d = namesake b) ∨
      ∃ p ∈ g.blocks, ∃ earlier id later, p.children = earlier ++ id :: later ∧
        Refusal g.blocks p (g.Taken p earlier id) id d := by
  intro g
  have hg : g.Settled := settled_build blocks ds
  have hperm : (Block.inReadingOrder g.blocks).Perm g.blocks := Sorting.sort_perm _ _
  have hids : ((Block.inReadingOrder g.blocks).map Block.id).Nodup :=
    (hperm.map Block.id).nodup_iff.2 hg.nodup_ids
  -- Whoever owns a block when a claim on it is settled is known from who owns it in the end.
  have htaken : ∀ {before p after earlier id later},
      Block.inReadingOrder g.blocks = before ++ p :: after →
      p.children = earlier ++ id :: later → id ≠ p.id → id ∈ g.blocks.map Block.id → ∀ other,
      ownerIn? (earlier.foldl (claim g.blocks p) ⟨(before.foldl (adopt g.blocks)
        (⟨g.blocks, [], []⟩, (distinct blocks ds).2)).1.owner, [], (before.foldl (adopt g.blocks)
        (⟨g.blocks, [], []⟩, (distinct blocks ds).2)).2⟩).owner id = some other ↔
      g.Taken p earlier id other := by
    intro before p after earlier id later hsplit hchildren hne hknown other
    have hclaim : LaysClaim p id := ⟨hne, by simp [hchildren]⟩
    rw [hsplit] at hids
    rw [Taken, owner?_build, if_pos hknown, hsplit, ← taken_iff hids hclaim, ownerIn?_claims,
      ownerIn?_adoptions, if_pos hknown]
    simp only [ownerIn?, List.find?_nil, Option.map_none, Option.none_or, ne_eq, hne,
      not_false_eq_true, hknown, and_self, and_true]
  rw [show build blocks ds = _ from build_eq blocks ds,
    mem_entries_foldl Prod.snd (mem_entries_adopt g.blocks), mem_entries_distinct, or_assoc]
  refine or_congr_right (or_congr_right ⟨?_, ?_⟩)
  · rintro ⟨before, p, after, hsplit, earlier, id, later, hchildren, hrefusal⟩
    have hp : p ∈ Block.inReadingOrder g.blocks :=
      hsplit ▸ List.mem_append_right before List.mem_cons_self
    refine ⟨p, hperm.mem_iff.1 hp, earlier, id, later, hchildren, ?_⟩
    exact hrefusal.mono fun hne hknown other => (htaken hsplit hchildren hne hknown other).1
  · rintro ⟨p, hp, earlier, id, later, hchildren, hrefusal⟩
    obtain ⟨before, after, hsplit⟩ := List.append_of_mem (hperm.mem_iff.2 hp)
    refine ⟨before, p, after, hsplit, earlier, id, later, hchildren, ?_⟩
    exact hrefusal.mono fun hne hknown other => (htaken hsplit hchildren hne hknown other).2

/-- **Every claim is honoured or refused**, and then recorded. It is honoured if the block gets what
it claims and has not claimed it before. -/
theorem honoured_or_refused (blocks : List Block) (ds : Diagnostics) {p : Block}
    {earlier : List Text} {id : Text} {later : List Text} :
    let g := (build blocks ds).1
    p ∈ g.blocks → p.children = earlier ++ id :: later →
      (g.owner? id = some p.id ∧ id ∉ earlier) ∨
      ∃ d ∈ (build blocks ds).2.entries, d.category = .structural ∧
        Refusal g.blocks p (g.Taken p earlier id) id d := by
  intro g hp hchildren
  have hrecorded : ∀ d, Refusal g.blocks p (g.Taken p earlier id) id d →
      d ∈ (build blocks ds).2.entries := fun d hd =>
    (mem_entries_build blocks ds d).2 (.inr (.inr ⟨p, hp, earlier, id, later, hchildren, hd⟩))
  by_cases hself : id = p.id
  · exact .inr ⟨_, hrecorded _ (.self hself), rfl, .self hself⟩
  by_cases hknown : id ∈ g.blocks.map Block.id
  · -- Somebody owns the block, for at least this one claims it.
    obtain ⟨other, howner⟩ : ∃ other, g.owner? id = some other := by
      rw [owner?_build, if_pos hknown, ← Option.isSome_iff_exists, Option.isSome_map, claimant?,
        List.find?_isSome]
      refine ⟨p, (Sorting.sort_perm _ _).mem_iff.2 hp, ?_⟩
      simp [LaysClaim, hself, hchildren]
    by_cases htaken : other = p.id → id ∈ earlier
    · have hrefusal : Refusal g.blocks p (g.Taken p earlier id) id _ :=
        .taken hself hknown ⟨howner, htaken⟩
      exact .inr ⟨_, hrecorded _ hrefusal, rfl, hrefusal⟩
    · push Not at htaken
      exact .inl ⟨htaken.1 ▸ howner, htaken.2⟩
  · exact .inr ⟨_, hrecorded _ (.unknown hself hknown), rfl, .unknown hself hknown⟩

/-! ## What hangs off an owner -/

/-- The blocks that a block owns, in the order in which it first lists them. -/
def ownedBy (g : Graph) (p : Block) : List Block :=
  (p.children.eraseDups.filter fun id => decide (g.owner? id = some p.id)).filterMap
    (Block.find? g.blocks)

/-- Settling the claims of one block after others leaves an entry with what it gets. -/
theorem mem_children_adoptions (known before : List Block) (p : Block) (after : List Block)
    (state : Graph × Diagnostics) :
    let s := before.foldl (adopt known) state
    (p.id, Block.inReadingOrder (p.children.foldl (claim known p) ⟨s.1.owner, [], s.2⟩).owned) ∈
      ((before ++ p :: after).foldl (adopt known) state).1.children := by
  intro s
  rw [List.foldl_append, List.foldl_cons]
  refine List.foldlRecOn (motive := fun built : Graph × Diagnostics => _ ∈ built.1.children) after
    (adopt known) ?_ fun built h q _ => List.mem_append_left _ h
  exact List.mem_append_right _ (List.mem_singleton_self _)

theorem ids_children_adoptions (known parents : List Block) (state : Graph × Diagnostics) :
    (parents.foldl (adopt known) state).1.children.map Prod.fst =
      state.1.children.map Prod.fst ++ parents.map Block.id := by
  induction parents generalizing state with
  | nil => simp
  | cons p parents ih =>
    rw [List.foldl_cons, ih, adopt, List.map_append, List.map_cons, List.append_assoc]
    rfl

/-- **What hangs off an owner**: the blocks that it owns, in reading order. -/
theorem childrenOf_build (blocks : List Block) (ds : Diagnostics) {p : Block} :
    let g := (build blocks ds).1
    p ∈ g.blocks → g.childrenOf p = Block.inReadingOrder (g.ownedBy p) := by
  intro g hp
  have hg : g.Settled := settled_build blocks ds
  have hperm : (Block.inReadingOrder g.blocks).Perm g.blocks := Sorting.sort_perm _ _
  obtain ⟨before, after, hsplit⟩ := List.append_of_mem (hperm.mem_iff.2 hp)
  have hids : ((before ++ p :: after).map Block.id).Nodup :=
    hsplit ▸ (hperm.map Block.id).nodup_iff.2 hg.nodup_ids
  have hchildren : g.children = ((before ++ p :: after).foldl (adopt g.blocks)
      (⟨g.blocks, [], []⟩, (distinct blocks ds).2)).1.children :=
    hsplit ▸ congrArg (fun built => built.1.children) (build_eq blocks ds)
  have hentry := mem_children_adoptions g.blocks before p after
    (⟨g.blocks, [], []⟩, (distinct blocks ds).2)
  rw [← hchildren] at hentry
  have hkeys : (g.children.map Prod.fst).Nodup := by
    rw [hchildren, ids_children_adoptions]
    exact hids
  rw [childrenOf, find?_eq_some_of_nodup Prod.fst hkeys hentry, Option.map_some, Option.getD_some,
    owned_claims, ownedBy, List.nil_append, List.filterMap_filter]
  refine congrArg Block.inReadingOrder (List.filterMap_congr fun id hid => ?_)
  by_cases hknown : id ∈ g.blocks.map Block.id
  · by_cases hself : id = p.id
    · have hnot : g.owner? id ≠ some p.id := fun h => by
        obtain ⟨-, q, -, -, hq, hclaim, -⟩ := owner?_build_eq_some_iff.1 h
        exact hclaim.1 (hself.trans hq.symm)
      simp [hself, hself ▸ hnot]
    · have howner : g.owner? id = some p.id ↔ claimant? before id = none := by
        rw [owner?_build, if_pos hknown, hsplit]
        exact claimant?_append_eq_iff hids ⟨hself, List.mem_eraseDups.1 hid⟩
      rw [ownerIn?_adoptions, if_pos hknown]
      simp only [howner]
      rcases claimant? before id with _ | q <;> simp [ownerIn?, hself]
  · simp [find?_eq_none_iff.2 hknown]

/-! ## Places -/

variable {g : Graph}

/-- The slots of a block divide what it owns. -/
theorem perm_inSlot (p : Block) :
    (g.inSlot p .body ++ g.inSlot p .next).Perm (g.childrenOf p) := by
  have hnext : g.inSlot p .next = (g.childrenOf p).filter fun b => !(p.slotFor b == .body) :=
    List.filter_congr fun b _ => by cases p.slotFor b <;> rfl
  rw [hnext]
  exact List.filter_append_perm _ _

/-- A block of a settled graph stands at the roots and in no slot, or in one slot of one owner and
not at the roots, each time once. -/
theorem exists_place (hg : g.Settled) {b : Block} (hb : b ∈ g.blocks) :
    ((g.topLevel.map Block.id).count b.id = 1 ∧
      ∀ p ∈ g.blocks, ∀ slot, b.id ∉ (g.inSlot p slot).map Block.id) ∨
    (b.id ∉ g.topLevel.map Block.id ∧ ∃ p ∈ g.blocks, ∃ slot,
      ((g.inSlot p slot).map Block.id).count b.id = 1 ∧
      ∀ q ∈ g.blocks, ∀ slot', b.id ∈ (g.inSlot q slot').map Block.id → q = p ∧ slot' = slot) := by
  have heq : ∀ {x : Block}, x ∈ g.blocks → x.id = b.id → x = b := fun hx hid =>
    List.inj_on_of_nodup_map hg.nodup_ids hx hb hid
  have hslot : ∀ q ∈ g.blocks, ∀ slot, b.id ∈ (g.inSlot q slot).map Block.id →
      g.owner? b.id = some q.id ∧ q.slotFor b = slot := by
    intro q hq slot h
    obtain ⟨x, hx, hid⟩ := List.mem_map.1 h
    obtain ⟨hchild, hslot⟩ := mem_inSlot.1 hx
    obtain ⟨hx, howner⟩ := (hg.mem_childrenOf hq).1 hchild
    obtain rfl := heq hx hid
    exact ⟨howner, hslot⟩
  rcases howner : g.owner? b.id with _ | other
  · refine .inl ⟨List.count_eq_one_of_mem ?_ ?_, fun p hp slot h => ?_⟩
    · exact nodup_ids hg (nodup_topLevel hg) fun r hr => (mem_topLevel.1 hr).1
    · exact List.mem_map_of_mem (mem_topLevel.2 ⟨hb, howner⟩)
    · rw [(hslot p hp slot h).1] at howner
      cases howner
  · obtain ⟨p, hp, rfl⟩ := hg.owner_mem howner
    refine .inr ⟨fun h => ?_, p, hp, p.slotFor b, List.count_eq_one_of_mem ?_ ?_, ?_⟩
    · obtain ⟨x, hx, hid⟩ := List.mem_map.1 h
      obtain ⟨-, hnone⟩ := mem_topLevel.1 hx
      rw [hid, howner] at hnone
      cases hnone
    · exact nodup_ids hg ((hg.nodup_childrenOf hp).filter _) fun x hx =>
        ((hg.mem_childrenOf hp).1 (List.mem_filter.1 hx).1).1
    · exact List.mem_map_of_mem (mem_inSlot.2 ⟨(hg.mem_childrenOf hp).2 ⟨hb, howner⟩, rfl⟩)
    · intro q hq slot h
      obtain ⟨hq', hslot'⟩ := hslot q hq slot h
      obtain rfl : q = p := List.inj_on_of_nodup_map hg.nodup_ids hq hp
        (Option.some.inj (hq'.symm.trans howner))
      exact ⟨rfl, hslot'.symm⟩

/-- **Every block has one place.** Whatever a list of blocks claims, the graph holds the first block
of each name, and

* a block is owned by the first block in reading order that claims it and is another one;
* the children of a block are the blocks that it owns, each once, in reading order, and its two slots
  divide them and keep their order;
* a block stands once at the roots, or once in one slot of one owner;
* each claim is honoured or recorded as refused, each block with the name of an earlier one is
  recorded, and nothing else is. -/
theorem blocks_have_one_place (blocks : List Block) (ds₀ : Diagnostics) :
    let g := (build blocks ds₀).1
    let ds := (build blocks ds₀).2
    (∀ b, b ∈ g.blocks ↔
      ∃ before after, blocks = before ++ b :: after ∧ ∀ k ∈ before, k.id ≠ b.id) ∧
    (∀ id other, g.owner? id = some other ↔ ∃ c ∈ g.blocks, ∃ p before after,
      c.id = id ∧ p.id = other ∧ c.id ≠ p.id ∧ c.id ∈ p.children ∧
      Block.inReadingOrder g.blocks = before ++ p :: after ∧
      ∀ q ∈ before, c.id ∈ q.children → c.id = q.id) ∧
    (∀ p ∈ g.blocks,
      (∀ b, b ∈ g.childrenOf p ↔ b ∈ g.blocks ∧ g.owner? b.id = some p.id) ∧
      (g.childrenOf p).Nodup ∧ g.childrenOf p = Block.inReadingOrder (g.ownedBy p) ∧
      ((∀ b ∈ g.blocks, b.IsPlaced) →
        (g.childrenOf p).Pairwise fun a b => a.rank ≤ b.rank) ∧
      (∀ slot, (g.inSlot p slot).Sublist (g.childrenOf p)) ∧
      (g.inSlot p .body ++ g.inSlot p .next).Perm (g.childrenOf p)) ∧
    (∀ b ∈ g.blocks,
      ((g.topLevel.map Block.id).count b.id = 1 ∧
        ∀ p ∈ g.blocks, ∀ slot, b.id ∉ (g.inSlot p slot).map Block.id) ∨
      (b.id ∉ g.topLevel.map Block.id ∧ ∃ p ∈ g.blocks, ∃ slot,
        ((g.inSlot p slot).map Block.id).count b.id = 1 ∧
        ∀ q ∈ g.blocks, ∀ slot', b.id ∈ (g.inSlot q slot').map Block.id →
          q = p ∧ slot' = slot)) ∧
    (∀ p ∈ g.blocks, ∀ earlier id later, p.children = earlier ++ id :: later →
      (g.owner? id = some p.id ∧ id ∉ earlier) ∨
      ∃ d ∈ ds.entries, d.category = .structural ∧
        Refusal g.blocks p (g.Taken p earlier id) id d) ∧
    ∀ d, d ∈ ds.entries ↔ d ∈ ds₀.entries ∨
      (∃ before b after, blocks = before ++ b :: after ∧
        (∃ k ∈ before, k.id = b.id) ∧ d = namesake b) ∨
      ∃ p ∈ g.blocks, ∃ earlier id later, p.children = earlier ++ id :: later ∧
        Refusal g.blocks p (g.Taken p earlier id) id d := by
  intro g ds
  have hg : g.Settled := settled_build blocks ds₀
  refine ⟨fun b => ?_, fun id other => ?_, fun p hp => ?_, fun b hb => exists_place hg hb,
    fun p hp earlier id later hchildren => ?_, mem_entries_build blocks ds₀⟩
  · rw [show g.blocks = _ from (build_of_distinct blocks ds₀).1, mem_distinct_iff]
  · refine Iff.trans owner?_build_eq_some_iff ⟨?_, ?_⟩
    · rintro ⟨hknown, p, before, after, hid, hclaim, hsplit, hfirst⟩
      obtain ⟨c, hc, rfl⟩ := List.mem_map.1 hknown
      exact ⟨c, hc, p, before, after, rfl, hid, hclaim.1, hclaim.2, hsplit, fun q hq hlists =>
        by_contra fun hne => hfirst q hq ⟨hne, hlists⟩⟩
    · rintro ⟨c, hc, p, before, after, rfl, hid, hne, hlists, hsplit, hfirst⟩
      exact ⟨List.mem_map_of_mem hc, p, before, after, hid, ⟨hne, hlists⟩, hsplit,
        fun q hq hclaim => hclaim.1 (hfirst q hq hclaim.2)⟩
  · have hchildren := childrenOf_build blocks ds₀ hp
    refine ⟨fun b => hg.mem_childrenOf hp, hg.nodup_childrenOf hp, hchildren, fun hplaced => ?_,
      fun slot => List.filter_sublist, perm_inSlot p⟩
    rw [hchildren]
    refine Sorting.ascends_sort Block.ranks_precedes fun b hb => hplaced b ?_
    obtain ⟨id, -, hfind⟩ := List.mem_filterMap.1 hb
    exact List.mem_of_find?_eq_some hfind
  · exact honoured_or_refused blocks ds₀ hp hchildren

end Graph

end RobotBlocks
