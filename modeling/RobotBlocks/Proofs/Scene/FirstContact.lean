import Mathlib.Order.Bounds.Basic
import RobotBlocks.Proofs.Scene.Contact

/-!
# The sweep finds the first contact

In exact numbers, the sweep of a straight move over the ground gives the first moment at which the
agent touches an obstacle that is not ignored, and nothing if there is no such moment
(`sweep_eq_first_contact`). That a contact is found by the time of any touch is known from
`Footprint.exists_contact_le`; here it is shown that whatever is found is a touch:

* a coordinate is between its limits during the whole of its `Span`, if the limits are not crossed
  (`Span.bounds_of_covers`), which is why extents must not be negative (`Scene.Proper`);
* the time found for one obstacle lies in the spans of both coordinates (`Span.covers_enter`).

`Scene.contacts` is the set of all moments at which the agent touches something.
-/

namespace RobotBlocks

variable {K : Type} [Field K] [LinearOrder K] [IsStrictOrderedRing K] [Measures K]

/-! ## Spans -/

namespace Span

/-- **During its span a coordinate is between its limits.** -/
theorem bounds_of_covers {start finish low high t : K} {span : Span K}
    (h : Span.of start finish low high = some span) (hle : low ≤ high) (ht : span.Covers t) :
    low ≤ start + (finish - start) * t ∧ start + (finish - start) * t ≤ high := by
  unfold Span.of at h
  by_cases hdelta : finish - start = 0
  · simp only [hdelta, Scalar.ofNat_eq_cast, Nat.cast_zero, BEq.rfl, if_true] at h
    split at h
    next hinside =>
      simpa [hdelta] using hinside
    · cases h
  · simp only [Scalar.beq_iff, Scalar.ofNat_eq_cast, Nat.cast_zero, hdelta, if_false,
      Option.some.injEq] at h
    subst h
    -- The limits are met in the order in which they lie on the way.
    rcases lt_or_gt_of_ne hdelta with hneg | hpos
    · have hswap : (high - start) / (finish - start) ≤ (low - start) / (finish - start) :=
        div_le_div_of_nonpos_of_le hneg.le (by linarith)
      obtain ⟨hfirst, hsecond⟩ : (high - start) / (finish - start) ≤ t ∧
          t ≤ (low - start) / (finish - start) := by
        split at ht
        · exact ⟨(‹(low - start) / _ ≤ _›.antisymm hswap).ge.trans ht.1,
            ht.2.trans hswap⟩
        · exact ht
      rw [div_le_iff_of_neg hneg] at hfirst
      rw [le_div_iff_of_neg hneg] at hsecond
      constructor <;> linarith
    · have hstraight : (low - start) / (finish - start) ≤ (high - start) / (finish - start) :=
        div_le_div_of_nonneg_right (by linarith) hpos.le
      rw [if_pos hstraight] at ht
      have hfirst := (div_le_iff₀ hpos).1 ht.1
      have hsecond := (le_div_iff₀ hpos).1 ht.2
      constructor <;> linarith

omit [IsStrictOrderedRing K] in
/-- The time of entry is no earlier than the beginning of the move. -/
theorem enter_nonneg (a b : Span K) : 0 ≤ a.enter b := by
  cases a <;> cases b <;> simp [enter]

omit [IsStrictOrderedRing K] in
/-- **The time of entry lies in both spans**, if it is no later than the time of leaving. -/
theorem covers_enter {a b : Span K} (h : a.enter b ≤ a.leave b) :
    a.Covers (a.enter b) ∧ b.Covers (a.enter b) := by
  cases a <;> cases b <;> simp_all [enter, leave, Covers]

end Span

/-! ## One obstacle -/

namespace Footprint

variable {f : Footprint K} {start finish : Point K} {o : Obstacle K}

/-- A grown obstacle extends over the ground from its least to its greatest corner. -/
theorem grow_ordered (hhalf : 0 ≤ f.half) (hx : 0 ≤ o.size.x) (hz : 0 ≤ o.size.z) :
    (f.grow o).least.x ≤ (f.grow o).greatest.x ∧ (f.grow o).least.z ≤ (f.grow o).greatest.z := by
  simp only [grow, Obstacle.bounds, Box.ofCenter, Scalar.ofNat_eq_cast, Nat.cast_ofNat]
  constructor <;> linarith

/-- **The contact that is found** for an obstacle is a moment of the move at which it is touched. -/
theorem touches_of_contact (hhalf : 0 ≤ f.half) (hx : 0 ≤ o.size.x) (hz : 0 ≤ o.size.z) {s : K}
    (h : f.contact start finish o = some s) :
    0 ≤ s ∧ f.touches (start.along finish s) o = true := by
  obtain ⟨hlex, hlez⟩ := grow_ordered hhalf hx hz
  simp only [contact] at h
  split at h
  next hheight =>
    simp only [Option.bind_eq_bind, Option.bind_eq_some_iff] at h
    obtain ⟨along, halong, across, hacross, h⟩ := h
    split at h
    next hle =>
      obtain rfl := Option.some.inj h
      obtain ⟨hcoverx, hcoverz⟩ := Span.covers_enter hle
      have hboundx := Span.bounds_of_covers halong hlex hcoverx
      have hboundz := Span.bounds_of_covers hacross hlez hcoverz
      refine ⟨Span.enter_nonneg along across, ?_⟩
      simp only [Bool.and_eq_true, Scalar.decide_le_iff] at hheight
      simp [touches, Box.contains, Point.along, hboundx, hboundz, hheight]
    · cases h
  · cases h

end Footprint

/-! ## Scenes -/

namespace Scene

/-- The extents over the ground of the obstacles and of the agent are not negative. Heights may be
anything. -/
structure Proper (s : Scene K) : Prop where
  obstacles : ∀ o ∈ s.obstacles, 0 ≤ o.size.x ∧ 0 ≤ o.size.z
  agent : ∃ f, s.agent.footprint "-" = .ok f ∧ 0 ≤ f.half

/-- The parts of a move after which the agent touches an obstacle that is not ignored. -/
def contacts (s : Scene K) (start finish : Point K) (ignored : List ℕ) : Set K :=
  {t | 0 ≤ t ∧ t ≤ 1 ∧ ∃ tag, tag ∉ ignored ∧ s.Touches (start.along finish t) tag}

variable {s : Scene K} {start finish : Point K} {ignored : List ℕ}

omit [IsStrictOrderedRing K] in
/-- A sweep of a proper scene gives an answer, -/
theorem Proper.exists_sweep_eq_ok (h : s.Proper) (start finish : Point K) (ignored : List ℕ) :
    ∃ first?, s.sweep start finish ignored = .ok first? := by
  obtain ⟨f, hfootprint, -⟩ := h.agent
  simp only [sweep]
  split
  · exact ⟨none, rfl⟩
  · exact ⟨_, by rw [hfootprint]; rfl⟩

/-- and the contact that it finds is one. -/
theorem Proper.mem_contacts_of_sweep (h : s.Proper) {t : K}
    (hsweep : s.sweep start finish ignored = .ok (some t)) :
    t ∈ s.contacts start finish ignored := by
  obtain ⟨f, hfootprint, hhalf⟩ := h.agent
  have hle := sweep_le_one hsweep
  simp only [sweep] at hsweep
  split at hsweep
  · cases hsweep
  · rw [hfootprint] at hsweep
    obtain ⟨o, ho, hcontact⟩ := Footprint.exists_of_sweep_eq_some (Except.ok.inj hsweep)
    obtain ⟨⟨o', tag⟩, hmem, rfl⟩ := List.mem_map.1 ho
    obtain ⟨htagged, htag⟩ := List.mem_filter.1 hmem
    obtain ⟨hx, hz⟩ := h.obstacles o' (List.fst_mem_of_mem_zipIdx htagged)
    obtain ⟨h0, htouches⟩ := Footprint.touches_of_contact hhalf hx hz hcontact
    refine ⟨h0, hle, tag, by simpa using htag, ?_⟩
    exact touches_iff.2 ⟨f, hfootprint, o', htagged, htouches⟩

/-- **What a sweep of a proper scene gives**: the first contact, or nothing if there is none. -/
theorem Proper.sweep_cases (h : s.Proper) (start finish : Point K) (ignored : List ℕ) :
    (s.sweep start finish ignored = .ok none ∧ s.contacts start finish ignored = ∅) ∨
      ∃ t, s.sweep start finish ignored = .ok (some t) ∧
        IsLeast (s.contacts start finish ignored) t := by
  obtain ⟨first?, hsweep⟩ := h.exists_sweep_eq_ok start finish ignored
  -- The sweep is no later than any touch.
  have hfound : ∀ t ∈ s.contacts start finish ignored, ∃ c, first? = some c ∧ c ≤ t := by
    rintro t ⟨h0, h1, tag, htag, htouches⟩
    exact exists_sweep_le hsweep htouches htag h0 h1
  rcases first? with _ | c
  · refine .inl ⟨hsweep, Set.eq_empty_iff_forall_notMem.2 fun t ht => ?_⟩
    obtain ⟨c, hc, -⟩ := hfound t ht
    cases hc
  · refine .inr ⟨c, hsweep, h.mem_contacts_of_sweep hsweep, fun t ht => ?_⟩
    obtain ⟨c', hc, hle⟩ := hfound t ht
    obtain rfl := Option.some.inj hc
    exact hle

end Scene

/-- The point that divides the way from one point to another in the given part of it. -/
def Point.between (start finish : Point K) (t : K) : Point K :=
  ⟨start.x + t * (finish.x - start.x), start.y + t * (finish.y - start.y),
    start.z + t * (finish.z - start.z)⟩

omit [IsStrictOrderedRing K] in
/-- Between points of one height the way leads over the ground. -/
theorem Point.between_eq_along {start finish : Point K} (h : start.y = finish.y) (t : K) :
    start.between finish t = start.along finish t := by
  rw [between, along, Point.mk.injEq]
  exact ⟨by ring, by rw [h]; ring, by ring⟩

namespace Scene

variable {s : Scene K} {start finish : Point K}

/-- **The sweep is exact.** On a move between two points of one height, it finds the least part of
the move after which the agent touches an obstacle that is not ignored; it finds nothing if and only
if the agent touches no such obstacle on the whole move; and it does not fail. -/
theorem sweep_eq_first_contact (h : s.Proper) (hy : start.y = finish.y) (ignored : List ℕ) :
    (∀ t, s.sweep start finish ignored = .ok (some t) ↔
      IsLeast {t | 0 ≤ t ∧ t ≤ 1 ∧
        ∃ tag, tag ∉ ignored ∧ s.Touches (start.between finish t) tag} t) ∧
    (s.sweep start finish ignored = .ok none ↔
      ∀ t, 0 ≤ t → t ≤ 1 → ∀ tag, s.Touches (start.between finish t) tag → tag ∈ ignored) ∧
    ∃ first?, s.sweep start finish ignored = .ok first? := by
  simp only [Point.between_eq_along hy]
  change (∀ t, _ ↔ IsLeast (s.contacts start finish ignored) t) ∧ _ ∧ _
  rcases h.sweep_cases start finish ignored with ⟨hsweep, hnone⟩ | ⟨c, hsweep, hleast⟩
  · have hclear : ∀ t, 0 ≤ t → t ≤ 1 → ∀ tag, s.Touches (start.along finish t) tag →
        tag ∈ ignored := by
      intro t h0 h1 tag htouches
      by_contra htag
      exact Set.eq_empty_iff_forall_notMem.1 hnone t ⟨h0, h1, tag, htag, htouches⟩
    refine ⟨fun t => ?_, ⟨fun _ => hclear, fun _ => hsweep⟩, none, hsweep⟩
    rw [hsweep, hnone]
    simp [IsLeast]
  · obtain ⟨h0, h1, tag, htag, htouches⟩ := hleast.1
    refine ⟨fun t => ?_, ?_, some c, hsweep⟩
    · rw [hsweep, Except.ok.injEq, Option.some.injEq]
      exact ⟨fun heq => heq ▸ hleast, hleast.unique⟩
    · rw [hsweep]
      simp only [Except.ok.injEq, reduceCtorEq, false_iff]
      exact fun hclear => htag (hclear c h0 h1 tag htouches)

/-- An agent beside a long wall whose face it grazes, and in touch with a post. -/
def besideWall : Scene ℚ :=
  .of [⟨⟨0, 0, 0⟩, ⟨1, 1, 1⟩⟩, ⟨⟨5 / 4, 1, 6⟩, ⟨1, 2, 4⟩⟩] (.ofNumbers 1 (1 / 2) (3 / 2))

/-- The post being ignored, an agent that walks eight units along the wall first touches it where
the wall begins, less half its own width. -/
theorem sweep_eq_first_contact_grazing :
    besideWall.sweep ⟨0, 0, 0⟩ ⟨0, 0, 8⟩ [0] = .ok (some (13 / 32)) ∧ besideWall.Proper ∧
    IsLeast {t : ℚ | 0 ≤ t ∧ t ≤ 1 ∧ ∃ tag, tag ∉ [0] ∧
      besideWall.Touches (Point.between ⟨0, 0, 0⟩ ⟨0, 0, 8⟩ t) tag} (13 / 32) := by
  have hproper : besideWall.Proper := by
    refine ⟨fun o ho => ?_, _, rfl, by decide +kernel⟩
    rcases (by simpa [besideWall, Scene.of] using ho) with rfl | rfl <;> decide +kernel
  have hsweep : besideWall.sweep ⟨0, 0, 0⟩ ⟨0, 0, 8⟩ [0] = .ok (some (13 / 32)) := by
    decide +kernel
  have hy : (⟨0, 0, 0⟩ : Point ℚ).y = (⟨0, 0, 8⟩ : Point ℚ).y := rfl
  exact ⟨hsweep, hproper, ((sweep_eq_first_contact hproper hy [0]).1 _).1 hsweep⟩

end Scene

end RobotBlocks
