import Mathlib.Order.Defs.LinearOrder
import RobotBlocks.Proofs.Sorting.Permutation
import RobotBlocks.Proofs.Sorting.Search

/-!
# Sorting puts in order

If the test of two elements compares ranks in a linear order (`Ranks`), sorting by runs gives a list
of ascending ranks (`ascends_sort`). The test has to do so only for the elements of the list, so the
lemmas carry a property `P` of these.

Merging from the back is merging the reversed runs with the ranks the other way round, so the lemmas
on merges speak of the elements as they are seen from the side of the merge (`Side.before`):

* a merge under way stays in order (`Merge.Ordered`): what has been taken ascends and comes before
  what is left of both runs, and the run that was to give the last element still has it;
* taking elements of one run that come before all of the other keeps that up (`Ordered.takeLeft`,
  `Ordered.takeRight`), and rows are such elements (`row_before`);
* when the merge is over, what is left can be put behind (`Ordered.result`).
-/

namespace RobotBlocks

namespace Sorting

variable {α K : Type} [LinearOrder K] {precedes : α → α → Bool} {rank : α → K} {P : α → Prop}

/-- The test compares the ranks of elements with the property. -/
structure Ranks (precedes : α → α → Bool) (rank : α → K) (P : α → Prop) : Prop where
  iff : ∀ {a b}, P a → P b → (precedes a b = true ↔ rank a < rank b)

theorem Ranks.eq_false_iff (h : Ranks precedes rank P) {a b : α} (ha : P a) (hb : P b) :
    precedes a b = false ↔ rank b ≤ rank a := by
  rw [← Bool.not_eq_true, h.iff ha hb, not_lt]

/-- The ranks of a list ascend. -/
def Ascends (rank : α → K) (xs : List α) : Prop := xs.Pairwise fun a b => rank a ≤ rank b

/-! ## Tests against one element -/

/-- The test holds of elements up to the rank of `p`, and of all below it. Elements of this very
rank pass together or fail together. -/
structure Threshold (test : α → Bool) (rank : α → K) (P : α → Prop) (p : α) : Prop where
  le : ∀ {x}, P x → test x = true → rank x ≤ rank p
  ge : ∀ {x}, P x → test x = false → rank p ≤ rank x
  mono : ∀ {x y}, P x → P y → rank x ≤ rank y → test y = true → test x = true

/-- Not to stand behind an element. -/
theorem Ranks.threshold_not (h : Ranks precedes rank P) {p : α} (hp : P p) :
    Threshold (fun x => !precedes p x) rank P p where
  le hx htest := (h.eq_false_iff hp hx).1 (by simpa using htest)
  ge hx htest := ((h.iff hp hx).1 (by simpa using htest)).le
  mono hx hy hle htest := by
    simp only [Bool.not_eq_true', h.eq_false_iff hp hx, h.eq_false_iff hp hy] at htest ⊢
    exact hle.trans htest

/-- To stand before an element. -/
theorem Ranks.threshold (h : Ranks precedes rank P) {p : α} (hp : P p) :
    Threshold (fun x => precedes x p) rank P p where
  le hx htest := ((h.iff hx hp).1 htest).le
  ge hx htest := (h.eq_false_iff hx hp).1 htest
  mono hx hy hle htest := (h.iff hx hp).2 (hle.trans_lt ((h.iff hy hp).1 htest))

theorem Threshold.pairwise {test : α → Bool} {p : α} (h : Threshold test rank P p) {xs : List α}
    (hxs : Ascends rank xs) (hP : ∀ x ∈ xs, P x) :
    xs.Pairwise fun x y => test y = true → test x = true :=
  hxs.imp_of_mem fun hx hy hle => h.mono (hP _ hx) (hP _ hy) hle

/-- The cut of the test parts what comes before the element from what comes behind. -/
theorem Threshold.split {test : α → Bool} {p : α} (h : Threshold test rank P p) {xs : List α}
    {cut : ℕ} (hcuts : Cuts test xs cut) (hP : ∀ x ∈ xs, P x) :
    (∀ x ∈ xs.take cut, rank x ≤ rank p) ∧ ∀ x ∈ xs.drop cut, rank p ≤ rank x :=
  ⟨fun x hx => h.le (hP x (List.mem_of_mem_take hx)) (hcuts.take x hx),
    fun x hx => h.ge (hP x (List.mem_of_mem_drop hx)) (hcuts.drop x hx)⟩

/-! ## Merges -/

/-- Seen from the side of a merge, the first element comes before the second one or stands level
with it. -/
def Side.before (rank : α → K) : Side → α → α → Prop
  | .front, a, b => rank a ≤ rank b
  | .back, a, b => rank b ≤ rank a

theorem Side.before_refl (side : Side) (a : α) : side.before rank a a := by
  cases side <;> exact le_refl (rank a)

theorem Side.before_trans {side : Side} {a b c : α} (hab : side.before rank a b)
    (hbc : side.before rank b c) : side.before rank a c := by
  cases side
  · exact le_trans hab hbc
  · exact le_trans hbc hab

namespace Merge

/-- A row of a run against an element: what is in it comes before the element, and the element
before what is not. -/
theorem row_before {side : Side} {test : α → Bool} {p : α} (h : Threshold test rank P p)
    {run : List α} (hrun : run.Pairwise (side.before rank)) (hP : ∀ x ∈ run, P x) :
    (∀ x ∈ run.take (row side test run), side.before rank x p) ∧
      ∀ x ∈ run.drop (row side test run), side.before rank p x := by
  cases side with
  | front => exact h.split (cuts_row_front (h.pairwise hrun hP)) hP
  | back =>
    have hmono : run.Pairwise fun x y => test x = true → test y = true :=
      hrun.imp_of_mem fun hx hy hle => h.mono (hP _ hy) (hP _ hx) hle
    have hcuts := cuts_row_back hmono
    refine ⟨fun x hx => ?_, fun x hx => ?_⟩
    · exact h.ge (hP x (List.mem_of_mem_take hx)) (by simpa using hcuts.take x hx)
    · exact h.le (hP x (List.mem_of_mem_drop hx)) (by simpa using hcuts.drop x hx)

/-- A merge under way is in order, seen from its side. -/
structure Ordered (rank : α → K) (P : α → Prop) (side : Side) (m : Merge α) : Prop where
  left : m.left.Pairwise (side.before rank)
  right : m.right.Pairwise (side.before rank)
  taken : m.taken.reverse.Pairwise (side.before rank)
  taken_left : ∀ t ∈ m.taken, ∀ x ∈ m.left, side.before rank t x
  taken_right : ∀ t ∈ m.taken, ∀ x ∈ m.right, side.before rank t x
  /-- From the front the left run gives the last element. -/
  last_left : side = .front → ∀ l ∈ m.left.getLast?, ∀ x ∈ m.right, side.before rank x l
  /-- From the back the right run gives it. -/
  last_right : side = .back → ∀ l ∈ m.right.getLast?, ∀ x ∈ m.left, side.before rank x l
  all_left : ∀ x ∈ m.left, P x
  all_right : ∀ x ∈ m.right, P x

variable {side : Side} {m : Merge α}

/-- What is left of a list, if anything, ends as the list does. -/
theorem getLast?_of_drop {count : ℕ} {xs : List α} {l : α} (h : l ∈ (xs.drop count).getLast?) :
    l ∈ xs.getLast? := by
  rw [List.getLast?_drop] at h
  split at h
  · cases h
  · exact h

namespace Ordered

/-- **Taking elements of the left run** that come before all of the right run keeps the order. -/
theorem takeLeft (h : Ordered rank P side m) (count : ℕ)
    (hbefore : ∀ a ∈ m.left.take count, ∀ x ∈ m.right, side.before rank a x) :
    Ordered rank P side (m.takeLeft count) := by
  have hsplit := h.left
  rw [← List.take_append_drop count m.left, List.pairwise_append] at hsplit
  obtain ⟨htake, hdrop, hacross⟩ := hsplit
  have htaken : ∀ t ∈ (m.takeLeft count).taken, t ∈ m.left.take count ∨ t ∈ m.taken := by
    intro t ht
    simpa [Merge.takeLeft] using ht
  refine ⟨hdrop, h.right, ?_, fun t ht x hx => ?_, fun t ht x hx => ?_,
    fun hside l hl => h.last_left hside l (getLast?_of_drop hl),
    fun hside l hl x hx => h.last_right hside l hl x (List.mem_of_mem_drop hx),
    fun x hx => h.all_left x (List.mem_of_mem_drop hx), h.all_right⟩
  · simp only [Merge.takeLeft, List.reverse_append, List.reverse_reverse]
    exact List.pairwise_append.2 ⟨h.taken, htake, fun t ht x hx =>
      h.taken_left t (List.mem_reverse.1 ht) x (List.mem_of_mem_take hx)⟩
  · rcases htaken t ht with ht | ht
    · exact hacross t ht x hx
    · exact h.taken_left t ht x (List.mem_of_mem_drop hx)
  · rcases htaken t ht with ht | ht
    · exact hbefore t ht x hx
    · exact h.taken_right t ht x hx

/-- **Taking elements of the right run** that come before all of the left run keeps the order. -/
theorem takeRight (h : Ordered rank P side m) (count : ℕ)
    (hbefore : ∀ b ∈ m.right.take count, ∀ x ∈ m.left, side.before rank b x) :
    Ordered rank P side (m.takeRight count) := by
  have hsplit := h.right
  rw [← List.take_append_drop count m.right, List.pairwise_append] at hsplit
  obtain ⟨htake, hdrop, hacross⟩ := hsplit
  have htaken : ∀ t ∈ (m.takeRight count).taken, t ∈ m.right.take count ∨ t ∈ m.taken := by
    intro t ht
    simpa [Merge.takeRight] using ht
  refine ⟨h.left, hdrop, ?_, fun t ht x hx => ?_, fun t ht x hx => ?_,
    fun hside l hl x hx => h.last_left hside l hl x (List.mem_of_mem_drop hx),
    fun hside l hl => h.last_right hside l (getLast?_of_drop hl),
    h.all_left, fun x hx => h.all_right x (List.mem_of_mem_drop hx)⟩
  · simp only [Merge.takeRight, List.reverse_append, List.reverse_reverse]
    exact List.pairwise_append.2 ⟨h.taken, htake, fun t ht x hx =>
      h.taken_right t (List.mem_reverse.1 ht) x (List.mem_of_mem_take hx)⟩
  · rcases htaken t ht with ht | ht
    · exact hbefore t ht x hx
    · exact h.taken_left t ht x hx
  · rcases htaken t ht with ht | ht
    · exact hacross t ht x hx
    · exact h.taken_right t ht x (List.mem_of_mem_drop hx)

/-- **When a merge is over**, the runs can be put behind what has been taken. -/
theorem result (h : Ordered rank P side m) (hover : m.isOver side = true) :
    Ascends rank (m.result side) := by
  cases side with
  | front =>
    have hright : ∀ b ∈ m.right, ∀ a ∈ m.left, rank b ≤ rank a := by
      intro b hb a ha
      simp only [isOver, Bool.or_eq_true, decide_eq_true_eq, List.isEmpty_iff] at hover
      rcases hover with hshort | hempty
      · obtain ⟨l, hl⟩ := List.length_eq_one_iff.1
          (Nat.le_antisymm hshort (List.length_pos_of_mem ha))
        rw [hl] at ha
        obtain rfl := List.mem_singleton.1 ha
        exact h.last_left rfl a (by simp [hl]) b hb
      · rw [hempty] at hb
        cases hb
    refine List.pairwise_append.2 ⟨List.pairwise_append.2 ⟨h.taken, h.right, ?_⟩, h.left, ?_⟩
    · exact fun t ht x hx => h.taken_right t (List.mem_reverse.1 ht) x hx
    · intro x hx a ha
      rcases List.mem_append.1 hx with hx | hx
      · exact h.taken_left x (List.mem_reverse.1 hx) a ha
      · exact hright x hx a ha
  | back =>
    have hleft : ∀ b ∈ m.right, ∀ a ∈ m.left, rank b ≤ rank a := by
      intro b hb a ha
      simp only [isOver, Bool.or_eq_true, decide_eq_true_eq, List.isEmpty_iff] at hover
      rcases hover with hshort | hempty
      · obtain ⟨l, hl⟩ := List.length_eq_one_iff.1
          (Nat.le_antisymm hshort (List.length_pos_of_mem hb))
        rw [hl] at hb
        obtain rfl := List.mem_singleton.1 hb
        exact h.last_right rfl b (by simp [hl]) a ha
      · rw [hempty] at ha
        cases ha
    refine List.pairwise_append.2 ⟨List.pairwise_append.2
      ⟨List.pairwise_reverse.2 h.right, List.pairwise_reverse.2 h.left, ?_⟩,
      List.pairwise_reverse.1 h.taken, ?_⟩
    · exact fun b hb a ha => hleft b (List.mem_reverse.1 hb) a (List.mem_reverse.1 ha)
    · intro x hx t ht
      rcases List.mem_append.1 hx with hx | hx
      · exact h.taken_right t ht x (List.mem_reverse.1 hx)
      · exact h.taken_left t ht x (List.mem_reverse.1 hx)

end Ordered

/-- How many elements are left of both runs. -/
def remaining (m : Merge α) : ℕ := m.left.length + m.right.length

theorem isOver_of_left_eq_nil (h : m.left = []) : m.isOver side = true := by
  cases side <;> simp [isOver, h]

theorem isOver_of_right_eq_nil (h : m.right = []) : m.isOver side = true := by
  cases side <;> simp [isOver, h]

/-- A merge that is not over has an element of each run to compare. -/
theorem exists_cons_of_not_isOver (h : ¬ m.isOver side = true) :
    ∃ a as b bs, m.left = a :: as ∧ m.right = b :: bs := by
  rcases hleft : m.left with _ | ⟨a, as⟩
  · exact absurd (isOver_of_left_eq_nil hleft) h
  · rcases hright : m.right with _ | ⟨b, bs⟩
    · exact absurd (isOver_of_right_eq_nil hright) h
    · exact ⟨a, as, b, bs, rfl, rfl⟩

theorem remaining_step_le {f : Merge α → Merge α} (hf : ∀ m, (f m).remaining ≤ m.remaining)
    (m : Merge α) : (step side f m).remaining ≤ m.remaining := by
  unfold step
  split
  · exact le_rfl
  · exact hf m

theorem remaining_takeLeft_le (count : ℕ) (m : Merge α) :
    (m.takeLeft count).remaining ≤ m.remaining := by
  simp only [remaining, Merge.takeLeft, List.length_drop]
  omega

theorem remaining_takeRight_le (count : ℕ) (m : Merge α) :
    (m.takeRight count).remaining ≤ m.remaining := by
  simp only [remaining, Merge.takeRight, List.length_drop]
  omega

/-- Taking rows takes an element. -/
theorem remaining_takeRows_lt (precedes : α → α → Bool) (h : ¬ m.isOver side = true) :
    (m.takeRows precedes side).1.remaining < m.remaining := by
  obtain ⟨a, as, b, bs, hleft, hright⟩ := exists_cons_of_not_isOver h
  have hfirst : ∀ lefts, (step side (takeRight 1) (m.takeLeft lefts)).remaining < m.remaining := by
    intro lefts
    rcases Nat.eq_zero_or_pos lefts with rfl | hpos
    · have hzero : m.takeLeft 0 = m := by simp [Merge.takeLeft]
      rw [hzero, step, if_neg h]
      simp [remaining, Merge.takeRight, hright]
    · refine (remaining_step_le (remaining_takeRight_le 1) _).trans_lt ?_
      simp only [remaining, Merge.takeLeft, List.length_drop, hleft, List.length_cons]
      omega
  refine lt_of_le_of_lt ?_ (hfirst (m.leftRow precedes side))
  exact (remaining_step_le (remaining_takeLeft_le 1) _).trans
    (remaining_step_le (remaining_takeRight_le _) _)

/-- The head of a run comes before all of it. -/
theorem head_before {x : α} {xs run : List α} (hrun : run.Pairwise (side.before rank))
    (hcons : run = x :: xs) : ∀ y ∈ run, side.before rank x y := by
  subst hcons
  intro y hy
  rcases List.mem_cons.1 hy with rfl | hy
  · exact side.before_refl y
  · exact (List.pairwise_cons.1 hrun).1 y hy

theorem Ordered.step (h : Ordered rank P side m) {f : Merge α → Merge α}
    (hf : ¬ m.isOver side = true → Ordered rank P side (f m)) :
    Ordered rank P side (step side f m) := by
  unfold Merge.step
  split
  · exact h
  · exact hf ‹_›

/-- **Taking rows keeps the order.** -/
theorem Ordered.takeRows (hP : Ranks precedes rank P) (h : Ordered rank P side m)
    (hnot : ¬ m.isOver side = true) : Ordered rank P side (m.takeRows precedes side).1 := by
  obtain ⟨a, as, b, bs, hleft, hright⟩ := exists_cons_of_not_isOver hnot
  have hb : P b := h.all_right b (by simp [hright])
  -- The row of the left run, and the element of the right run behind it.
  have hlefts : m.leftRow precedes side = row side (fun x => !precedes b x) m.left := by
    simp [leftRow, hright]
  obtain ⟨hrow, hrest⟩ := row_before (hP.threshold_not hb) h.left h.all_left
  rw [← hlefts] at hrow hrest
  have h₁ : Ordered rank P side (m.takeLeft (m.leftRow precedes side)) :=
    h.takeLeft _ fun x hx y hy => Side.before_trans (hrow x hx) (head_before h.right hright y hy)
  have h₂ := h₁.step fun _ => h₁.takeRight 1 fun x hx y hy => by
    obtain rfl : x = b := by simpa [Merge.takeLeft, hright] using hx
    exact hrest y hy
  simp only [Merge.takeRows]
  generalize Merge.step side (Merge.takeRight 1) (m.takeLeft (m.leftRow precedes side)) = m₂ at h₂ ⊢
  by_cases hover : m₂.isOver side = true
  · simpa [Merge.step, hover] using h₂
  · obtain ⟨a', as', b', bs', hleft', hright'⟩ := exists_cons_of_not_isOver hover
    have ha' : P a' := h₂.all_left a' (by simp [hleft'])
    -- The row of the right run, and the element of the left run behind it.
    have hrights : m₂.rightRow precedes side = row side (fun x => precedes x a') m₂.right := by
      simp [rightRow, hleft']
    obtain ⟨hrow', hrest'⟩ := row_before (hP.threshold ha') h₂.right h₂.all_right
    rw [← hrights] at hrow' hrest'
    have h₃ : Ordered rank P side (m₂.takeRight (m₂.rightRow precedes side)) :=
      h₂.takeRight _ fun x hx y hy => Side.before_trans (hrow' x hx) (head_before h₂.left hleft' y hy)
    have hstep : Merge.step side (Merge.takeRight (m₂.rightRow precedes side)) m₂ =
        m₂.takeRight (m₂.rightRow precedes side) := if_neg hover
    rw [hstep]
    refine h₃.step fun _ => h₃.takeLeft 1 fun x hx y hy => ?_
    obtain rfl : x = a' := by simpa [Merge.takeRight, hleft'] using hx
    exact hrest' y hy

/-- **A merge puts two runs in order**, however often it changes its mode. -/
theorem ascends_finish (hP : Ranks precedes rank P) {fuel : ℕ} (h : Ordered rank P side m)
    (hfuel : m.remaining ≤ fuel) (mode : Mode) (patience : ℕ) :
    Ascends rank (finish precedes side fuel mode patience m).1 := by
  induction fuel generalizing mode patience m with
  | zero =>
    have hleft : m.left = [] := by
      apply List.eq_nil_of_length_eq_zero
      simp only [remaining] at hfuel
      omega
    exact h.result (isOver_of_left_eq_nil hleft)
  | succ fuel ih =>
    unfold finish
    split
    · rename_i hover
      exact h.result hover
    · rename_i hnot
      obtain ⟨a, as, b, bs, hleft, hright⟩ := exists_cons_of_not_isOver hnot
      cases mode with
      | single lefts rights =>
        have ha : P a := h.all_left a (by simp [hleft])
        have hb : P b := h.all_right b (by simp [hright])
        simp only [hleft, hright]
        split
        · rename_i hfirst
          have hbefore : side.before rank b a := by
            cases side with
            | front => exact ((hP.iff hb ha).1 (by simpa using hfirst)).le
            | back => exact (hP.eq_false_iff hb ha).1 (by simpa using hfirst)
          refine ih (h.takeRight 1 fun x hx y hy => ?_) ?_ _ _
          · obtain rfl : x = b := by simpa [hright] using hx
            exact Side.before_trans hbefore (head_before h.left hleft y hy)
          · simp only [remaining, Merge.takeRight, hright, List.length_drop, List.length_cons]
              at hfuel ⊢
            omega
        · rename_i hfirst
          have hbefore : side.before rank a b := by
            cases side with
            | front => exact (hP.eq_false_iff hb ha).1 (by simpa using hfirst)
            | back => exact ((hP.iff hb ha).1 (by simpa using hfirst)).le
          refine ih (h.takeLeft 1 fun x hx y hy => ?_) ?_ _ _
          · obtain rfl : x = a := by simpa [hleft] using hx
            exact Side.before_trans hbefore (head_before h.right hright y hy)
          · simp only [remaining, Merge.takeLeft, hleft, List.length_drop, List.length_cons]
              at hfuel ⊢
            omega
      | rows =>
        have hrows := h.takeRows hP hnot
        have hlt := remaining_takeRows_lt precedes hnot
        dsimp only
        split
        · rename_i hover
          exact hrows.result hover
        · split
          · exact ih hrows (by omega) _ _
          · exact ih hrows (by omega) _ _

theorem mem_head?_of_mem_take_one {x : α} {xs : List α} (h : x ∈ xs.take 1) : x ∈ xs.head? := by
  cases xs with
  | nil => cases h
  | cons y xs => simpa [eq_comm] using h

/-- Overlapping runs are put in order: the first element of the right run comes before all of the
left run, and the last element of the left run behind all of the right run. -/
theorem ascends_overlap (hP : Ranks precedes rank P) {xs ys : List α} (hxs : Ascends rank xs)
    (hys : Ascends rank ys) (hPxs : ∀ x ∈ xs, P x) (hPys : ∀ y ∈ ys, P y)
    (hfirst : ∀ y ∈ ys.head?, ∀ x ∈ xs, rank y ≤ rank x)
    (hlast : ∀ x ∈ xs.getLast?, ∀ y ∈ ys, rank y ≤ rank x) (patience : ℕ) :
    Ascends rank (overlap precedes patience xs ys).1 := by
  unfold overlap
  dsimp only
  split
  · have h : Ordered rank P .front ⟨xs, ys, []⟩ :=
      ⟨hxs, hys, by simp, by simp, by simp, fun _ => hlast, nofun, hPxs, hPys⟩
    exact ascends_finish hP (h.takeRight 1 fun b hb x hx =>
      hfirst b (mem_head?_of_mem_take_one hb) x hx) (remaining_takeRight_le 1 _) _ _
  · have h : Ordered rank P .back ⟨xs.reverse, ys.reverse, []⟩ := by
      refine ⟨List.pairwise_reverse.2 hxs, List.pairwise_reverse.2 hys, by simp, by simp, by simp,
        nofun, fun _ l hl x hx => ?_, by simpa using hPxs, by simpa using hPys⟩
      exact hfirst l (by simpa using hl) x (by simpa using hx)
    refine ascends_finish hP (h.takeLeft 1 fun a ha x hx => ?_) ?_ _ _
    · have ha' := mem_head?_of_mem_take_one ha
      exact hlast a (by simpa using ha') x (by simpa using hx)
    · exact (remaining_takeLeft_le 1 _).trans (by simp [remaining])

theorem mem_overlap {patience : ℕ} {xs ys : List α} {z : α}
    (h : z ∈ (overlap precedes patience xs ys).1) : z ∈ xs ∨ z ∈ ys := by
  have hz : z ∈ (↑(overlap precedes patience xs ys).1 : Multiset α) := h
  rw [overlap_elements] at hz
  simpa using hz

end Merge

theorem ascends_append {xs ys : List α} (hxs : Ascends rank xs) (hys : Ascends rank ys) (p : α)
    (hle : ∀ x ∈ xs, rank x ≤ rank p) (hge : ∀ y ∈ ys, rank p ≤ rank y) :
    Ascends rank (xs ++ ys) :=
  List.pairwise_append.2 ⟨hxs, hys, fun x hx y hy => (hle x hx).trans (hge y hy)⟩

/-- The last element of an ascending list has the highest rank. -/
theorem Ascends.le_getLast? {xs : List α} (h : Ascends rank xs) {l : α} (hl : l ∈ xs.getLast?) :
    ∀ x ∈ xs, rank x ≤ rank l := by
  have hreverse : xs.reverse.Pairwise (Side.back.before rank) := List.pairwise_reverse.2 h
  have hhead : l ∈ xs.reverse.head? := by simpa using hl
  intro x hx
  obtain ⟨tail, htail⟩ := List.head?_eq_some_iff.1 hhead
  exact Merge.head_before hreverse htail x (List.mem_reverse.2 hx)

/-- **Merging keeps runs in order.** -/
theorem ascends_merge (hP : Ranks precedes rank P) {xs ys : List α} (hxs : Ascends rank xs)
    (hys : Ascends rank ys) (hPxs : ∀ x ∈ xs, P x) (hPys : ∀ y ∈ ys, P y) (patience : ℕ) :
    Ascends rank (merge precedes patience xs ys).1 := by
  rcases hcons : ys with _ | ⟨y, ys'⟩
  · simpa [merge] using hxs
  rw [← hcons]
  have hy : P y := hPys y (by simp [hcons])
  have hfront : ys.Pairwise (Side.front.before rank) := hys
  have hfirst : ∀ z ∈ ys, rank y ≤ rank z := Merge.head_before hfront hcons
  have hbegin := cuts_boundary ((hP.threshold_not hy).pairwise hxs hPxs) 0 (.inr rfl)
  simp only [merge, hcons]
  rw [← hcons]
  generalize boundary (holdsAt (fun x => !precedes y x) xs) xs.length 0 = begin at hbegin ⊢
  obtain ⟨htake, hdrop⟩ := (hP.threshold_not hy).split hbegin hPxs
  rcases hlast : (xs.drop begin).getLast? with _ | x
  · -- All of the left run comes before the right one.
    have hall : xs.take begin = xs := by
      rw [← List.append_nil (xs.take begin), ← List.getLast?_eq_none_iff.1 hlast,
        List.take_append_drop]
    rw [hall] at htake
    exact ascends_append hxs hys y htake hfirst
  · have hmem : x ∈ xs := Merge.getLast?_of_drop hlast |> List.mem_of_getLast?
    have hx : P x := hPxs x hmem
    have hxlast : ∀ z ∈ xs, rank z ≤ rank x := hxs.le_getLast? (Merge.getLast?_of_drop hlast)
    have hstop := cuts_boundary ((hP.threshold hx).pairwise hys hPys) (ys.length - 1)
      (by omega)
    dsimp only
    generalize boundary (holdsAt (fun z => precedes z x) ys) ys.length (ys.length - 1) = stop
      at hstop ⊢
    obtain ⟨hstopTake, hstopDrop⟩ := (hP.threshold hx).split hstop hPys
    by_cases hzero : stop = 0
    · rw [if_pos (by simpa using hzero)]
      rw [hzero, List.drop_zero] at hstopDrop
      exact ascends_append hxs hys x hxlast hstopDrop
    · rw [if_neg (by simpa using hzero)]
      have hhead : ∀ z ∈ (ys.take stop).head?, z = y := by
        intro z hz
        rw [hcons, List.take_cons (Nat.pos_of_ne_zero hzero)] at hz
        exact (Option.some.inj hz).symm
      have hmerged := Merge.ascends_overlap hP (hxs.drop (i := begin)) (hys.take (i := stop))
        (fun z hz => hPxs z (List.mem_of_mem_drop hz))
        (fun z hz => hPys z (List.mem_of_mem_take hz)) (fun z hz => hhead z hz ▸ hdrop)
        (fun z hz => Option.some.inj (hlast.symm.trans hz) ▸ hstopTake) patience
      have hinner : ∀ z ∈ (Merge.overlap precedes patience (xs.drop begin) (ys.take stop)).1,
          rank y ≤ rank z ∧ rank z ≤ rank x := by
        intro z hz
        rcases Merge.mem_overlap hz with hz | hz
        · exact ⟨hdrop z hz, hxlast z (List.mem_of_mem_drop hz)⟩
        · exact ⟨hfirst z (List.mem_of_mem_take hz), hstopTake z hz⟩
      have hfront := ascends_append hxs.take hmerged y htake fun z hz => (hinner z hz).1
      refine ascends_append hfront hys.drop x (fun z hz => ?_) hstopDrop
      rcases List.mem_append.1 hz with hz | hz
      · exact hxlast z (List.mem_of_mem_take hz)
      · exact (hinner z hz).2

/-! ## Runs -/

/-- What follows step by step is in order as a whole. -/
theorem run_before {side : Side} {follows : α → α → Bool}
    (hfollows : ∀ a b, P a → P b → follows a b = true → side.before rank a b) {x : α} {xs : List α}
    (hx : P x) (hxs : ∀ y ∈ xs, P y) :
    (x :: (run follows x xs).1).Pairwise (side.before rank) := by
  induction xs generalizing x with
  | nil => simp [run]
  | cons y xs ih =>
    have hy : P y := hxs y List.mem_cons_self
    unfold run
    split
    · rename_i hxy
      have hrest := ih hy fun z hz => hxs z (List.mem_cons_of_mem y hz)
      refine List.pairwise_cons.2 ⟨fun z hz => ?_, hrest⟩
      exact Side.before_trans (hfollows x y hx hy hxy) (Merge.head_before hrest rfl z hz)
    · simp

theorem ascends_frontRun (hP : Ranks precedes rank P) {xs : List α} (hxs : ∀ x ∈ xs, P x) :
    Ascends rank (frontRun precedes xs).1 := by
  rcases xs with _ | ⟨a, _ | ⟨b, rest⟩⟩
  · simp [frontRun, Ascends]
  · simp [frontRun, Ascends]
  · have ha : P a := hxs a (by simp)
    have hb : P b := hxs b (by simp)
    have hrest : ∀ x ∈ rest, P x := fun x hx => hxs x (by simp [hx])
    simp only [frontRun]
    split
    · rename_i hdescends
      have hfollows : ∀ x y, P x → P y → precedes y x = true → Side.back.before rank x y :=
        fun x y hx hy h => ((hP.iff hy hx).1 h).le
      have hrun := run_before hfollows hb hrest
      have hbefore : Side.back.before rank a b := ((hP.iff hb ha).1 hdescends).le
      refine List.pairwise_reverse.2 (List.pairwise_cons.2 ⟨fun z hz => ?_, hrun⟩)
      exact Side.before_trans hbefore (Merge.head_before hrun rfl z hz)
    · rename_i hascends
      have hfollows : ∀ x y, P x → P y → (!precedes y x) = true → Side.front.before rank x y :=
        fun x y hx hy h => (hP.eq_false_iff hy hx).1 (by simpa using h)
      have hrun := run_before hfollows hb hrest
      have hbefore : Side.front.before rank a b :=
        (hP.eq_false_iff hb ha).1 (by simpa using hascends)
      refine List.pairwise_cons.2 ⟨fun z hz => ?_, hrun⟩
      exact Side.before_trans hbefore (Merge.head_before hrun rfl z hz)

/-- Putting an element in its place keeps the order. -/
theorem ascends_insert (hP : Ranks precedes rank P) {xs : List α} (hxs : Ascends rank xs)
    (hPxs : ∀ x ∈ xs, P x) {x : α} (hx : P x) : Ascends rank (insert precedes xs x) := by
  have hcuts := cuts_halve ((hP.threshold_not hx).pairwise hxs hPxs)
  simp only [insert]
  generalize halve (holdsAt (fun y => !precedes x y) xs) xs.length 0 xs.length = place at hcuts ⊢
  obtain ⟨htake, hdrop⟩ := (hP.threshold_not hx).split hcuts hPxs
  refine ascends_append hxs.take (List.pairwise_cons.2 ⟨hdrop, hxs.drop⟩) x htake ?_
  intro y hy
  rcases List.mem_cons.1 hy with rfl | hy
  · exact le_rfl
  · exact hdrop y hy

/-- An ascending list of elements with the property. -/
def IsRun (rank : α → K) (P : α → Prop) (xs : List α) : Prop := Ascends rank xs ∧ ∀ x ∈ xs, P x

theorem isRun_insert (hP : Ranks precedes rank P) {xs : List α} (hxs : IsRun rank P xs) {x : α}
    (hx : P x) : IsRun rank P (insert precedes xs x) := by
  refine ⟨ascends_insert hP hxs.1 hxs.2 hx, fun y hy => ?_⟩
  have helements : y ∈ (↑(insert precedes xs x) : Multiset α) := hy
  rw [insert_elements, Multiset.mem_add, Multiset.mem_singleton] at helements
  rcases helements with hy | rfl
  · exact hxs.2 y hy
  · exact hx

theorem isRun_foldl_insert (hP : Ranks precedes rank P) {ys xs : List α} (hxs : IsRun rank P xs)
    (hys : ∀ y ∈ ys, P y) : IsRun rank P (ys.foldl (insert precedes) xs) := by
  induction ys generalizing xs with
  | nil => exact hxs
  | cons y ys ih =>
    exact ih (isRun_insert hP hxs (hys y List.mem_cons_self)) fun z hz =>
      hys z (List.mem_cons_of_mem y hz)

/-- The next run is one, and the rest has the property as well. -/
theorem isRun_nextRun (hP : Ranks precedes rank P) (least : ℕ) {xs : List α}
    (hxs : ∀ x ∈ xs, P x) : IsRun rank P (nextRun precedes least xs).1 ∧
      ∀ x ∈ (nextRun precedes least xs).2, P x := by
  have hparts : ∀ x, x ∈ (frontRun precedes xs).1 ∨ x ∈ (frontRun precedes xs).2 → P x := by
    intro x hx
    have helements : x ∈ (↑xs : Multiset α) := by
      rw [← frontRun_elements precedes xs]
      exact Multiset.mem_add.2 hx
    exact hxs x helements
  have hfront : IsRun rank P (frontRun precedes xs).1 :=
    ⟨ascends_frontRun hP hxs, fun x hx => hparts x (.inl hx)⟩
  refine ⟨isRun_foldl_insert hP hfront fun y hy => hparts y (.inr (List.mem_of_mem_take hy)), ?_⟩
  exact fun x hx => hparts x (.inr (List.mem_of_mem_drop hx))

theorem isRun_merge (hP : Ranks precedes rank P) {xs ys : List α} (hxs : IsRun rank P xs)
    (hys : IsRun rank P ys) (patience : ℕ) : IsRun rank P (merge precedes patience xs ys).1 := by
  refine ⟨ascends_merge hP hxs.1 hys.1 hxs.2 hys.2 patience, fun x hx => ?_⟩
  have helements : x ∈ (↑(merge precedes patience xs ys).1 : Multiset α) := hx
  rw [merge_elements, Multiset.mem_add] at helements
  exact helements.elim (hxs.2 x) (hys.2 x)

/-! ## The stack of runs -/

namespace Stack

/-- All lists of the stack are runs. -/
def HasRuns (rank : α → K) (P : α → Prop) (s : Stack α) : Prop :=
  ∀ run ∈ s.top :: s.below.map (·.1), IsRun rank P run

theorem hasRuns_mergeDeeper (hP : Ranks precedes rank P) (depth : ℕ) {top : List α}
    {below : List (List α × ℕ)} (htop : IsRun rank P top)
    (hbelow : ∀ run ∈ below.map (·.1), IsRun rank P run) (patience : ℕ) :
    (mergeDeeper precedes depth top below patience).HasRuns rank P := by
  induction below generalizing top patience with
  | nil => simpa [mergeDeeper, HasRuns] using htop
  | cons r below ih =>
    have hr : IsRun rank P r.1 := hbelow r.1 (by simp)
    unfold mergeDeeper
    dsimp only
    split
    · exact ih (isRun_merge hP hr htop patience)
        (fun run hrun => hbelow run (List.mem_cons_of_mem _ hrun)) _
    · exact List.forall_mem_cons.2 ⟨htop, hbelow⟩

theorem hasRuns_push (hP : Ranks precedes rank P) (whole : ℕ) {s : Stack α} {next : List α}
    (hs : s.HasRuns rank P) (hnext : IsRun rank P next) :
    (s.push precedes whole next).HasRuns rank P := by
  have hmerged := hasRuns_mergeDeeper hP (power whole
    (s.below.foldl (fun count r => count + r.1.length) 0) s.top.length next.length)
    (List.forall_mem_cons.1 hs).1 (List.forall_mem_cons.1 hs).2 s.patience
  exact List.forall_mem_cons.2 ⟨hnext, hmerged⟩

/-- Up to two runs are merged at once. -/
theorem ascends_mergeAll_short (hP : Ranks precedes rank P) {fuel : ℕ} {runs : List (List α)}
    (hruns : ∀ run ∈ runs, IsRun rank P run) (hshort : runs.length ≤ 2) (patience : ℕ) :
    Ascends rank (mergeAll precedes fuel patience runs) := by
  rcases runs with _ | ⟨x, _ | ⟨y, _ | ⟨z, below⟩⟩⟩
  · cases fuel <;> exact List.Pairwise.nil
  · have hx := (hruns x (by simp)).1
    cases fuel <;> simpa [mergeAll] using hx
  · have hmerged := isRun_merge hP (hruns y (by simp)) (hruns x (by simp)) patience
    cases fuel <;> exact hmerged.1
  · simp at hshort

/-- **Merging all runs puts everything in order**: every merge leaves one run less. -/
theorem ascends_mergeAll (hP : Ranks precedes rank P) {fuel : ℕ} {runs : List (List α)}
    (hruns : ∀ run ∈ runs, IsRun rank P run) (hfuel : runs.length ≤ fuel + 2) (patience : ℕ) :
    Ascends rank (mergeAll precedes fuel patience runs) := by
  induction fuel generalizing patience runs with
  | zero => exact ascends_mergeAll_short hP hruns hfuel patience
  | succ fuel ih =>
    rcases Nat.lt_or_ge 2 runs.length with hlong | hshort
    · obtain ⟨x, y, z, below, rfl⟩ : ∃ x y z below, runs = x :: y :: z :: below := by
        rcases runs with _ | ⟨x, _ | ⟨y, _ | ⟨z, below⟩⟩⟩
        · simp at hlong
        · simp at hlong
        · simp at hlong
        · exact ⟨x, y, z, below, rfl⟩
      obtain ⟨hx, hy, hz, hbelow⟩ : IsRun rank P x ∧ IsRun rank P y ∧ IsRun rank P z ∧
          ∀ run ∈ below, IsRun rank P run := by simpa using hruns
      have hlength : below.length + 2 ≤ fuel + 2 := by
        simp only [List.length_cons] at hfuel
        omega
      unfold mergeAll
      dsimp only
      split
      · have hmerged := isRun_merge hP hz hy patience
        refine ih ?_ ?_ _
        · simpa using ⟨hx, hmerged, hbelow⟩
        · exact hlength
      · have hmerged := isRun_merge hP hy hx patience
        refine ih ?_ ?_ _
        · simpa using ⟨hmerged, hz, hbelow⟩
        · exact hlength
    · exact ascends_mergeAll_short hP hruns hshort patience

theorem ascends_toList (hP : Ranks precedes rank P) {s : Stack α} (hs : s.HasRuns rank P) :
    Ascends rank (s.toList precedes) :=
  ascends_mergeAll hP hs (Nat.le_add_right _ 2) _

theorem hasRuns_extend (hP : Ranks precedes rank P) (whole least : ℕ) {fuel : ℕ} {s : Stack α}
    {xs : List α} (hs : s.HasRuns rank P) (hxs : ∀ x ∈ xs, P x) :
    (extend precedes whole least fuel s xs).HasRuns rank P := by
  induction fuel generalizing s xs with
  | zero => exact hs
  | succ fuel ih =>
    cases xs with
    | nil => exact hs
    | cons x xs =>
      obtain ⟨hnext, hrest⟩ := isRun_nextRun hP least hxs
      exact ih (hasRuns_push hP whole hs hnext) hrest

end Stack

/-- **Sorting puts in order**: if the test compares ranks, those of the sorted list ascend. -/
theorem ascends_sort (hP : Ranks precedes rank P) {xs : List α} (hxs : ∀ x ∈ xs, P x) :
    Ascends rank (sort precedes xs) := by
  obtain ⟨hfirst, hrest⟩ := isRun_nextRun hP (leastRun xs.length) hxs
  refine Stack.ascends_toList hP (Stack.hasRuns_extend hP _ _ (fun run hrun => ?_) hrest)
  obtain rfl := List.mem_singleton.1 hrun
  exact hfirst

/-- **Where ranks tell the elements apart, there is one order**: whatever has the elements of a list
in ascending order is the sorted list. -/
theorem sort_eq (hP : Ranks precedes rank P) {xs ys : List α} (hxs : ∀ x ∈ xs, P x)
    (hranks : ∀ a ∈ xs, ∀ b ∈ xs, rank a = rank b → a = b) (hperm : ys.Perm xs)
    (hys : Ascends rank ys) : sort precedes xs = ys := by
  refine List.Perm.eq_of_pairwise (fun a b ha hb hab hba => ?_) (ascends_sort hP hxs) hys
    ((sort_perm precedes xs).trans hperm.symm)
  exact hranks a ((mem_sort precedes).1 ha) b (hperm.mem_iff.1 hb) (le_antisymm hab hba)

end Sorting

end RobotBlocks
