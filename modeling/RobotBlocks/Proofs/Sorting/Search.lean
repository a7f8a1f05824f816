import Mathlib.Data.List.TakeWhile
import RobotBlocks.Sorting.Merge

/-!
# Searching finds the cut

A test that holds of the elements of a list up to some place and fails from there on cuts the list
at that place (`Cuts`). All searches of the sort find the cut of such a test, from whatever hint
they start: by halving alone (`cuts_halve`), by doubling distances and halving (`cuts_boundary`),
and as the length of a row from either end (`cuts_row_front`, `cuts_row_back`).
-/

namespace RobotBlocks

namespace Sorting

/-! ## Places -/

/-- Among so many places, the test holds of those before `cut` and of no others. -/
def HoldsUpTo (holds : ℕ → Bool) (count cut : ℕ) : Prop :=
  cut ≤ count ∧ ∀ i < count, holds i = decide (i < cut)

section Places

variable {holds : ℕ → Bool} {count cut : ℕ}

/-- Halving keeps the cut between the two places. -/
theorem halve_eq (h : HoldsUpTo holds count cut) {fuel low high : ℕ} (hlow : low ≤ cut)
    (hhigh : cut ≤ high) (hcount : high ≤ count) (hfuel : high ≤ low + fuel) :
    halve holds fuel low high = cut := by
  induction fuel generalizing low high with
  | zero =>
    rw [halve]
    omega
  | succ fuel ih =>
    rw [halve]
    split
    · dsimp only
      rw [h.2 (low + (high - low) / 2) (by omega)]
      by_cases hmiddle : low + (high - low) / 2 < cut
      · rw [if_pos (by simpa using hmiddle)]
        exact ih (by omega) hhigh hcount (by omega)
      · rw [if_neg (by simpa using hmiddle)]
        exact ih hlow (by omega) (by omega) (by omega)
    · omega

/-- Doubling ends at a distance at which the test held, or at the first one, and before one at which
it fails, or at the greatest one. -/
theorem stride_bounds (holds : ℕ → Bool) (most fuel last next : ℕ) (hfuel : most ≤ next + fuel) :
    let ends := stride holds most fuel last next
    (ends.1 = last ∨ ends.1 < most ∧ holds ends.1 = true) ∧
      (ends.2 = most ∨ ends.2 < most ∧ holds ends.2 = false) := by
  intro ends
  have hstop : ∀ {next : ℕ}, (most ≤ next ∨ holds next = false) →
      min next most = most ∨ min next most < most ∧ holds (min next most) = false := by
    intro next hnext
    rcases Nat.lt_or_ge next most with hlt | hge
    · rw [Nat.min_eq_left hlt.le]
      exact .inr ⟨hlt, hnext.resolve_left (by omega)⟩
    · exact .inl (Nat.min_eq_right hge)
  induction fuel generalizing last next with
  | zero => exact ⟨.inl rfl, hstop (.inl (by omega))⟩
  | succ fuel ih =>
    by_cases hgo : (decide (next < most) && holds next) = true
    · have hends : ends = stride holds most fuel next (2 * next + 1) := by
        simp only [ends, stride, if_pos hgo]
      simp only [Bool.and_eq_true, decide_eq_true_eq] at hgo
      obtain ⟨hlast, hnext⟩ := ih next (2 * next + 1) (by omega)
      rw [hends]
      refine ⟨.inr (hlast.elim (fun h => ?_) id), hnext⟩
      rw [h]
      exact hgo
    · have hends : ends = (last, min next most) := by
        simp only [ends, stride, if_neg hgo]
      rw [hends]
      refine ⟨.inl rfl, hstop ?_⟩
      simp only [Bool.and_eq_true, decide_eq_true_eq, not_and, Bool.not_eq_true] at hgo
      rcases Nat.lt_or_ge next most with hlt | hge
      · exact .inr (hgo hlt)
      · exact .inl hge

/-- **The search from a hint finds the cut.** -/
theorem boundary_eq (h : HoldsUpTo holds count cut) {hint : ℕ} (hhint : hint < count) :
    boundary holds count hint = cut := by
  have hcut := h.1
  have holds_iff : ∀ {i}, i < count → (holds i = true ↔ i < cut) := fun hi => by simp [h.2 _ hi]
  have fails_iff : ∀ {i}, i < count → (holds i = false ↔ cut ≤ i) := fun hi => by simp [h.2 _ hi]
  unfold boundary
  split
  · rename_i hholds
    have hhere := (holds_iff hhint).1 hholds
    obtain ⟨hlast, hnext⟩ := stride_bounds (fun distance => holds (hint + distance))
      (count - hint) count 0 1 (by omega)
    revert hlast hnext
    generalize stride (fun distance => holds (hint + distance)) (count - hint) count 0 1 = ends
    rintro hlast hnext
    have hlow : hint + ends.1 < cut := by
      rcases hlast with hlast | ⟨hlast, hpass⟩
      · omega
      · exact (holds_iff (by omega)).1 hpass
    have hhigh : cut ≤ hint + ends.2 ∧ hint + ends.2 ≤ count := by
      rcases hnext with hnext | ⟨hnext, hfail⟩
      · omega
      · exact ⟨(fails_iff (by omega)).1 hfail, by omega⟩
    exact halve_eq h (by omega) hhigh.1 hhigh.2 (by omega)
  · rename_i hfails
    have hhere := (fails_iff hhint).1 (by simpa using hfails)
    obtain ⟨hlast, hnext⟩ := stride_bounds (fun distance => !holds (hint - distance))
      (hint + 1) count 0 1 (by omega)
    revert hlast hnext
    generalize stride (fun distance => !holds (hint - distance)) (hint + 1) count 0 1 = ends
    rintro hlast hnext
    have hhigh : cut ≤ hint - ends.1 := by
      rcases hlast with hlast | ⟨hlast, hpass⟩
      · omega
      · exact (fails_iff (by omega)).1 (by simpa using hpass)
    have hlow : hint + 1 - ends.2 ≤ cut := by
      rcases hnext with hnext | ⟨hnext, hfail⟩
      · omega
      · have := (holds_iff (i := hint - ends.2) (by omega)).1 (by simpa using hfail)
        omega
    exact halve_eq h hlow hhigh (by omega) (by omega)

/-- Among no places the cut is in front. -/
theorem boundary_zero (h : holds 0 = false) : boundary holds 0 0 = 0 := by
  simp [boundary, h, stride, halve]

end Places

/-! ## Lists -/

variable {α : Type} {test : α → Bool} {xs : List α} {cut : ℕ}

/-- The test holds of the elements before the cut and of none behind it. -/
structure Cuts (test : α → Bool) (xs : List α) (cut : ℕ) : Prop where
  le : cut ≤ xs.length
  take : ∀ x ∈ xs.take cut, test x = true
  drop : ∀ x ∈ xs.drop cut, test x = false

/-- A test that holds of every element before one of which it holds cuts the list. -/
theorem exists_cut (h : xs.Pairwise fun x y => test y = true → test x = true) :
    ∃ cut, Cuts test xs cut := by
  induction xs with
  | nil => exact ⟨0, by simp, by simp, by simp⟩
  | cons x xs ih =>
    rw [List.pairwise_cons] at h
    cases hx : test x with
    | true =>
      obtain ⟨cut, hle, htake, hdrop⟩ := ih h.2
      exact ⟨cut + 1, by simpa using hle, by simpa [hx] using htake, by simpa using hdrop⟩
    | false =>
      refine ⟨0, by simp, by simp, ?_⟩
      intro y hy
      rcases List.mem_cons.1 hy with rfl | hy
      · exact hx
      · cases hy' : test y with
        | true => exact absurd (h.1 y hy hy') (by simp [hx])
        | false => rfl

theorem Cuts.holdsUpTo (h : Cuts test xs cut) : HoldsUpTo (holdsAt test xs) xs.length cut := by
  refine ⟨h.le, fun i hi => ?_⟩
  have hat : holdsAt test xs i = test xs[i] := by simp [holdsAt, hi]
  rw [hat]
  by_cases hlt : i < cut
  · rw [h.take xs[i] (List.mem_take_iff_getElem.2 ⟨i, by omega, rfl⟩)]
    simp [hlt]
  · rw [h.drop xs[i] (List.mem_drop_iff_getElem.2 ⟨i - cut, by omega, by congr 1; omega⟩)]
    simp [hlt]

theorem cuts_halve (h : xs.Pairwise fun x y => test y = true → test x = true) :
    Cuts test xs (halve (holdsAt test xs) xs.length 0 xs.length) := by
  obtain ⟨cut, hcut⟩ := exists_cut h
  rwa [halve_eq hcut.holdsUpTo (Nat.zero_le _) hcut.le le_rfl (by omega)]

theorem cuts_boundary (h : xs.Pairwise fun x y => test y = true → test x = true) (hint : ℕ)
    (hhint : hint < xs.length ∨ hint = 0) :
    Cuts test xs (boundary (holdsAt test xs) xs.length hint) := by
  obtain ⟨cut, hcut⟩ := exists_cut h
  by_cases hlt : hint < xs.length
  · rwa [boundary_eq hcut.holdsUpTo hlt]
  · obtain rfl := hhint.resolve_left hlt
    obtain rfl : xs = [] := List.eq_nil_of_length_eq_zero (by omega)
    rw [List.length_nil, boundary_zero rfl]
    exact ⟨by simp, by simp, by simp⟩

namespace Merge

theorem cuts_row_front (h : xs.Pairwise fun x y => test y = true → test x = true) :
    Cuts test xs (row .front test xs) :=
  cuts_boundary h 0 (.inr rfl)

/-- From the back a row is what fails the test. -/
theorem cuts_row_back (h : xs.Pairwise fun x y => test x = true → test y = true) :
    Cuts (fun x => !test x) xs (row .back test xs) := by
  have hreverse : xs.reverse.Pairwise fun x y => test y = true → test x = true :=
    List.pairwise_reverse.2 h
  obtain ⟨cut, hcut⟩ := exists_cut hreverse
  have hplaces : HoldsUpTo (fun place => holdsAt test xs (xs.length - 1 - place)) xs.length cut := by
    obtain ⟨hle, hholds⟩ := hcut.holdsUpTo
    rw [List.length_reverse] at hle hholds
    refine ⟨hle, fun i hi => ?_⟩
    rw [← hholds i hi]
    simp only [holdsAt, List.getElem?_reverse hi]
  have hrow : row .back test xs = xs.length - cut := by
    rcases Nat.eq_zero_or_pos xs.length with hzero | hpos
    · obtain rfl : xs = [] := List.eq_nil_of_length_eq_zero hzero
      simp [row]
    · simp only [row]
      rw [boundary_eq hplaces (by omega)]
  have htake : ∀ x ∈ xs.take (xs.length - cut), test x = false := by
    intro x hx
    refine hcut.drop x ?_
    rw [List.drop_reverse]
    exact List.mem_reverse.2 hx
  have hdrop : ∀ x ∈ xs.drop (xs.length - cut), test x = true := by
    intro x hx
    refine hcut.take x ?_
    rw [List.take_reverse]
    exact List.mem_reverse.2 hx
  rw [hrow]
  exact ⟨Nat.sub_le _ _, by simpa using htake, by simpa using hdrop⟩

end Merge

end Sorting

end RobotBlocks
