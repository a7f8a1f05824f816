import Mathlib.Algebra.Order.Group.Multiset
import Mathlib.Tactic.Abel
import RobotBlocks.Sorting.Runs

/-!
# Sorting rearranges

Sorting by runs neither loses nor repeats an element, whatever the test says: `sort_perm` holds for
tests that are no order, too. Every operation on the way only moves elements about, so each is read
here by the multiset of its elements:

* `Merge.elements` of a merge under way stays the same until it is over (`finish_elements`);
* `Stack.elements` of the runs so far grows by each run that is pushed (`push_elements`), and
  `extend_elements` shows that the fuel of `Stack.extend` is enough for the whole list.
-/

namespace RobotBlocks

namespace Sorting

variable {α : Type} (precedes : α → α → Bool)

theorem coe_take_add_drop (count : ℕ) (xs : List α) :
    (↑(xs.take count) + ↑(xs.drop count) : Multiset α) = ↑xs := by
  rw [Multiset.coe_add, List.take_append_drop]

/-! ## Merging two runs -/

namespace Merge

/-- The elements of a merge, in whatever order. -/
def elements (m : Merge α) : Multiset α := ↑m.left + ↑m.right + ↑m.taken

@[simp] theorem takeLeft_elements (count : ℕ) (m : Merge α) :
    (m.takeLeft count).elements = m.elements := by
  simp only [elements, takeLeft, ← Multiset.coe_add, Multiset.coe_reverse]
  rw [← coe_take_add_drop count m.left]
  abel

@[simp] theorem takeRight_elements (count : ℕ) (m : Merge α) :
    (m.takeRight count).elements = m.elements := by
  simp only [elements, takeRight, ← Multiset.coe_add, Multiset.coe_reverse]
  rw [← coe_take_add_drop count m.right]
  abel

@[simp] theorem step_elements (side : Side) {f : Merge α → Merge α}
    (hf : ∀ m, (f m).elements = m.elements) (m : Merge α) :
    (step side f m).elements = m.elements := by
  unfold step
  split
  · rfl
  · exact hf m

@[simp] theorem result_elements (side : Side) (m : Merge α) :
    (↑(m.result side) : Multiset α) = m.elements := by
  cases side <;>
  · simp only [result, elements, ← Multiset.coe_add, Multiset.coe_reverse]
    abel

@[simp] theorem takeRows_elements (side : Side) (m : Merge α) :
    (m.takeRows precedes side).1.elements = m.elements := by
  simp only [takeRows]
  rw [step_elements side (takeLeft_elements 1), step_elements side (takeRight_elements _),
    step_elements side (takeRight_elements 1), takeLeft_elements]

/-- A merge gives the elements that it began with, however often it changes its mode. -/
theorem finish_elements (side : Side) (fuel : ℕ) (mode : Mode) (patience : ℕ) (m : Merge α) :
    (↑(finish precedes side fuel mode patience m).1 : Multiset α) = m.elements := by
  induction fuel generalizing mode patience m with
  | zero => simp [finish]
  | succ fuel ih =>
    unfold finish
    split
    · exact result_elements side m
    · split
      · split
        · split
          · rw [ih, takeRight_elements]
          · rw [ih, takeLeft_elements]
        · exact result_elements side m
      · have rows := takeRows_elements precedes side m
        dsimp only
        split
        · rw [result_elements, rows]
        · split
          · rw [ih, rows]
          · rw [ih, rows]

theorem overlap_elements (patience : ℕ) (xs ys : List α) :
    (↑(overlap precedes patience xs ys).1 : Multiset α) = ↑xs + ↑ys := by
  unfold overlap
  dsimp only
  split
  · rw [finish_elements, takeRight_elements]
    simp [elements]
  · rw [finish_elements, takeLeft_elements]
    simp [elements, Multiset.coe_reverse]

end Merge

theorem merge_elements (patience : ℕ) (xs ys : List α) :
    (↑(merge precedes patience xs ys).1 : Multiset α) = ↑xs + ↑ys := by
  rcases ys with _ | ⟨y, ys⟩
  · simp [merge]
  · simp only [merge]
    split
    · simp
    · split
      · simp
      · simp only [← Multiset.coe_add, Merge.overlap_elements]
        generalize boundary _ xs.length 0 = begin'
        generalize boundary _ (y :: ys).length _ = stop
        conv_rhs => rw [← coe_take_add_drop begin' xs, ← coe_take_add_drop stop (y :: ys)]
        abel

/-! ## Cutting a list into runs -/

theorem run_append (follows : α → α → Bool) (x : α) (xs : List α) :
    (run follows x xs).1 ++ (run follows x xs).2 = xs := by
  induction xs generalizing x with
  | nil => rfl
  | cons y xs ih =>
    unfold run
    split
    · simpa using ih y
    · rfl

theorem frontRun_elements (xs : List α) :
    (↑(frontRun precedes xs).1 + ↑(frontRun precedes xs).2 : Multiset α) = ↑xs := by
  rcases xs with _ | ⟨a, _ | ⟨b, rest⟩⟩
  · simp [frontRun]
  · simp [frontRun]
  · simp only [frontRun]
    split
    · conv_rhs => rw [← run_append (fun x y => precedes y x) b rest]
      rw [Multiset.coe_reverse, Multiset.coe_add]
      rfl
    · conv_rhs => rw [← run_append (fun x y => !precedes y x) b rest]
      rw [Multiset.coe_add]
      rfl

theorem frontRun_ne_nil (x : α) (xs : List α) : (frontRun precedes (x :: xs)).1 ≠ [] := by
  rcases xs with _ | ⟨b, rest⟩
  · simp [frontRun]
  · simp only [frontRun]
    split <;> simp

theorem insert_elements (xs : List α) (x : α) :
    (↑(insert precedes xs x) : Multiset α) = ↑xs + {x} := by
  simp only [insert]
  generalize halve _ xs.length 0 xs.length = place
  conv_rhs => rw [← coe_take_add_drop place xs]
  rw [← Multiset.coe_add, ← Multiset.cons_coe, ← Multiset.singleton_add]
  abel

theorem foldl_insert_elements (ys xs : List α) :
    (↑(ys.foldl (insert precedes) xs) : Multiset α) = ↑xs + ↑ys := by
  induction ys generalizing xs with
  | nil => simp
  | cons y ys ih =>
    rw [List.foldl_cons, ih, insert_elements, ← Multiset.cons_coe, ← Multiset.singleton_add]
    abel

theorem nextRun_elements (least : ℕ) (xs : List α) :
    (↑(nextRun precedes least xs).1 + ↑(nextRun precedes least xs).2 : Multiset α) = ↑xs := by
  unfold nextRun
  dsimp only
  rw [foldl_insert_elements, add_assoc, coe_take_add_drop, frontRun_elements]

/-- A run takes at least one element. -/
theorem length_nextRun_lt (least : ℕ) (x : α) (xs : List α) :
    (nextRun precedes least (x :: xs)).2.length < (x :: xs).length := by
  have sum := congrArg Multiset.card (frontRun_elements precedes (x :: xs))
  have first := List.length_pos_iff.2 (frontRun_ne_nil precedes x xs)
  simp only [Multiset.card_add, Multiset.coe_card] at sum
  simp only [nextRun, List.length_drop]
  omega

/-! ## The stack of runs -/

namespace Stack

/-- The elements of all runs, in whatever order. -/
def elements (s : Stack α) : Multiset α := ↑s.top + ↑(s.below.map (·.1)).flatten

theorem mergeDeeper_elements (depth : ℕ) (top : List α) (below : List (List α × ℕ))
    (patience : ℕ) :
    (mergeDeeper precedes depth top below patience).elements =
      ↑top + ↑(below.map (·.1)).flatten := by
  induction below generalizing top patience with
  | nil => rfl
  | cons r below ih =>
    unfold mergeDeeper
    dsimp only
    split
    · rw [ih, merge_elements, List.map_cons, List.flatten_cons, ← Multiset.coe_add]
      abel
    · rfl

theorem push_elements (whole : ℕ) (s : Stack α) (next : List α) :
    (s.push precedes whole next).elements = s.elements + ↑next := by
  have merged := mergeDeeper_elements precedes (power whole
    (s.below.foldl (fun count r => count + r.1.length) 0) s.top.length next.length) s.top s.below
    s.patience
  simp only [elements] at merged
  simp only [push, elements, List.map_cons, List.flatten_cons, ← Multiset.coe_add, ← merged]
  abel

theorem mergeAll_elements (fuel patience : ℕ) (runs : List (List α)) :
    (↑(mergeAll precedes fuel patience runs) : Multiset α) = ↑runs.flatten := by
  fun_induction mergeAll precedes fuel patience runs with
  | case1 fuel patience x y z below shorter merged patience' hm ih =>
    have sum := merge_elements precedes patience z y
    rw [hm] at sum
    rw [ih]
    simp only [List.flatten_cons, ← Multiset.coe_add, sum]
    abel
  | case2 fuel patience x y z below shorter merged patience' hm ih =>
    have sum := merge_elements precedes patience y x
    rw [hm] at sum
    rw [ih]
    simp only [List.flatten_cons, ← Multiset.coe_add, sum]
    abel
  | case3 fuel patience x y =>
    simp only [merge_elements, List.flatten_cons, List.flatten_nil, List.append_nil,
      ← Multiset.coe_add]
    abel
  | case4 =>
    exact Multiset.coe_eq_coe.2 (List.Perm.flatten (List.reverse_perm _))

theorem toList_elements (s : Stack α) : (↑(s.toList precedes) : Multiset α) = s.elements := by
  simp only [toList, mergeAll_elements, elements, List.flatten_cons, Multiset.coe_add]

/-- Every run takes an element, so a fuel of the length of the list reaches its end. -/
theorem extend_elements (whole least fuel : ℕ) (s : Stack α) (xs : List α)
    (h : xs.length ≤ fuel) :
    (extend precedes whole least fuel s xs).elements = s.elements + ↑xs := by
  induction fuel generalizing s xs with
  | zero =>
    obtain rfl : xs = [] := List.eq_nil_of_length_eq_zero (by omega)
    simp [extend]
  | succ fuel ih =>
    rcases xs with _ | ⟨x, xs⟩
    · simp [extend]
    · have shorter := length_nextRun_lt precedes least x xs
      have parts := nextRun_elements precedes least (x :: xs)
      simp only [extend]
      rw [ih _ _ (by omega), push_elements, ← parts]
      abel

end Stack

/-- **Sorting gives a rearrangement of the list**, also by a test that orders nothing. -/
theorem sort_perm (xs : List α) : (sort precedes xs).Perm xs := by
  have parts := nextRun_elements precedes (leastRun xs.length) xs
  have lengths := congrArg Multiset.card parts
  simp only [Multiset.card_add, Multiset.coe_card] at lengths
  apply Multiset.coe_eq_coe.1
  simp only [sort, Stack.toList_elements]
  rw [Stack.extend_elements _ _ _ _ _ _ (by omega)]
  simpa [Stack.elements] using parts

@[simp] theorem mem_sort {xs : List α} {x : α} : x ∈ sort precedes xs ↔ x ∈ xs :=
  (sort_perm precedes xs).mem_iff

end Sorting

end RobotBlocks
