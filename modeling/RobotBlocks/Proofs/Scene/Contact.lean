import RobotBlocks.Proofs.Number.Exact
import RobotBlocks.Scene.Collision

/-!
# Contacts on a move

In exact numbers, a straight move that touches an obstacle at some time has its first contact with
it at that time or before (`exists_sweep_le`): each coordinate is between its limits during a `Span`
(`Span.of_eq_some`), so the time lies between the later of the times at which they come in and the
earlier of those at which they go out.

The tests of a scene come with the obstacles' tags; `Scene.Touches` says which of them the agent at a
position touches.
-/

namespace RobotBlocks

variable {K : Type} [Field K] [LinearOrder K] [IsStrictOrderedRing K] [Measures K]

/-- The point on the straight move over the ground after the given part of it. -/
def Point.along (start finish : Point K) (t : K) : Point K :=
  ⟨start.x + (finish.x - start.x) * t, start.y, start.z + (finish.z - start.z) * t⟩

namespace Span

/-- The time lies in the span. -/
def Covers (t : K) : Span K → Prop
  | .always => True
  | .between enter leave => enter ≤ t ∧ t ≤ leave

/-- **A coordinate that is between its limits at some time** is so during a span with this time. -/
theorem exists_of_eq_some {start finish low high t : K}
    (hlow : low ≤ start + (finish - start) * t) (hhigh : start + (finish - start) * t ≤ high) :
    ∃ span, Span.of start finish low high = some span ∧ span.Covers t := by
  unfold Span.of
  by_cases hdelta : finish - start = 0
  · rw [hdelta] at hlow hhigh
    have hlow' : low ≤ start := by linarith
    have hhigh' : start ≤ high := by linarith
    exact ⟨.always, by simp [hdelta, hlow', hhigh'], trivial⟩
  · simp only [Scalar.beq_iff, Scalar.ofNat_eq_cast, Nat.cast_zero, hdelta, if_false]
    rcases lt_or_gt_of_ne hdelta with hneg | hpos
    · have hfirst : t ≤ (low - start) / (finish - start) := by
        rw [le_div_iff_of_neg hneg]
        linarith
      have hsecond : (high - start) / (finish - start) ≤ t := by
        rw [div_le_iff_of_neg hneg]
        linarith
      refine ⟨_, rfl, ?_⟩
      split
      · exact ⟨by linarith, by linarith⟩
      · exact ⟨hsecond, hfirst⟩
    · have hfirst : (low - start) / (finish - start) ≤ t := by
        rw [div_le_iff₀ hpos]
        linarith
      have hsecond : t ≤ (high - start) / (finish - start) := by
        rw [le_div_iff₀ hpos]
        linarith
      refine ⟨_, rfl, ?_⟩
      rw [if_pos (hfirst.trans hsecond)]
      exact ⟨hfirst, hsecond⟩

omit [IsStrictOrderedRing K] in
theorem enter_le {a b : Span K} {t : K} (ha : a.Covers t) (hb : b.Covers t) (h : 0 ≤ t) :
    a.enter b ≤ t := by
  cases a <;> cases b <;> simp_all [enter, Covers]

omit [IsStrictOrderedRing K] in
theorem le_leave {a b : Span K} {t : K} (ha : a.Covers t) (hb : b.Covers t) (h : t ≤ 1) :
    t ≤ a.leave b := by
  cases a <;> cases b <;> simp_all [leave, Covers]

omit [IsStrictOrderedRing K] in
theorem leave_le_one (a b : Span K) : a.leave b ≤ 1 := by
  cases a <;> cases b <;> simp [leave]

end Span

namespace Footprint

variable {f : Footprint K} {start finish : Point K}

omit [IsStrictOrderedRing K] in
/-- A contact is no later than the end of the move. -/
theorem contact_le_one {o : Obstacle K} {s : K} (h : f.contact start finish o = some s) : s ≤ 1 := by
  simp only [contact] at h
  split at h
  · simp only [Option.bind_eq_bind, Option.bind_eq_some_iff] at h
    obtain ⟨along, -, across, -, h⟩ := h
    split at h
    next hle =>
      obtain rfl := Option.some.inj h
      exact hle.trans (Span.leave_le_one along across)
    · cases h
  · cases h

/-- **A move that touches an obstacle** at some time has its first contact with it by then. -/
theorem exists_contact_le {o : Obstacle K} {t : K} (h : f.touches (start.along finish t) o = true)
    (h0 : 0 ≤ t) (h1 : t ≤ 1) : ∃ s, f.contact start finish o = some s ∧ s ≤ t := by
  simp only [touches, Box.contains, Bool.and_eq_true, Scalar.decide_le_iff] at h
  obtain ⟨⟨⟨⟨⟨hlowx, hhighx⟩, hlowy⟩, hhighy⟩, hlowz⟩, hhighz⟩ := h
  obtain ⟨along, halong, hcoverx⟩ := Span.exists_of_eq_some hlowx hhighx
  obtain ⟨across, hacross, hcoverz⟩ := Span.exists_of_eq_some hlowz hhighz
  have henter : along.enter across ≤ t := Span.enter_le hcoverx hcoverz h0
  have hheight : (f.grow o).least.y ≤ start.y ∧ start.y ≤ (f.grow o).greatest.y := ⟨hlowy, hhighy⟩
  refine ⟨along.enter across, ?_, henter⟩
  simp [contact, hheight, halong, hacross, henter.trans (Span.le_leave hcoverx hcoverz h1)]

omit [IsStrictOrderedRing K] in
/-- The earlier of two contacts is one of them, -/
theorem eq_some_of_earlier {known found : Option K} {s : K} (h : earlier known found = some s) :
    known = some s ∨ found = some s := by
  rcases known with _ | known <;> rcases found with _ | found <;>
    simp only [earlier, reduceCtorEq, Option.some.injEq] at h ⊢
  · exact .inr h
  · exact .inl h
  · split at h
    · exact .inr h
    · exact .inl h

omit [IsStrictOrderedRing K] in
/-- and no later than either. -/
theorem exists_earlier_le {known found : Option K} {s : K} (h : known = some s ∨ found = some s) :
    ∃ s', earlier known found = some s' ∧ s' ≤ s := by
  rcases known with _ | known <;> rcases found with _ | found <;>
    simp only [reduceCtorEq, Option.some.injEq, or_false, false_or] at h
  · exact ⟨found, rfl, h.le⟩
  · exact ⟨known, rfl, h.le⟩
  · refine ⟨_, rfl, ?_⟩
    split
    next hlt =>
      rcases h with rfl | rfl
      · exact hlt.le
      · exact le_rfl
    next hge =>
      rcases h with rfl | rfl
      · exact le_rfl
      · exact not_lt.1 hge

omit [IsStrictOrderedRing K] in
/-- What a sweep finds is a contact with one of the obstacles. -/
theorem exists_of_sweep_eq_some {obstacles : List (Obstacle K)} {s : K}
    (h : f.sweep obstacles start finish = some s) :
    ∃ o ∈ obstacles, f.contact start finish o = some s := by
  suffices ∀ known, obstacles.foldl (fun known o => earlier known (f.contact start finish o)) known =
      some s → known = some s ∨ ∃ o ∈ obstacles, f.contact start finish o = some s by
    simpa using this none h
  clear h
  induction obstacles with
  | nil => exact fun known h => .inl h
  | cons o obstacles ih =>
    intro known h
    rcases ih _ h with h | ⟨o', ho', h⟩
    · exact (eq_some_of_earlier h).imp_right fun h => ⟨o, List.mem_cons_self, h⟩
    · exact .inr ⟨o', List.mem_cons_of_mem o ho', h⟩

omit [IsStrictOrderedRing K] in
/-- A sweep finds no contact later than one with an obstacle. -/
theorem exists_sweep_le {obstacles : List (Obstacle K)} {o : Obstacle K} {s : K}
    (ho : o ∈ obstacles) (h : f.contact start finish o = some s) :
    ∃ s', f.sweep obstacles start finish = some s' ∧ s' ≤ s := by
  suffices ∀ known, (known = some s ∨ ∃ o ∈ obstacles, f.contact start finish o = some s) →
      ∃ s', obstacles.foldl (fun known o => earlier known (f.contact start finish o)) known =
        some s' ∧ s' ≤ s from this none (.inr ⟨o, ho, h⟩)
  clear ho h
  induction obstacles generalizing s with
  | nil =>
    rintro known (h | ⟨o, ho, -⟩)
    · exact ⟨s, h, le_rfl⟩
    · exact absurd ho List.not_mem_nil
  | cons o obstacles ih =>
    intro known h
    have hsplit : (known = some s ∨ f.contact start finish o = some s) ∨
        ∃ o ∈ obstacles, f.contact start finish o = some s := by
      simpa only [List.mem_cons, exists_eq_or_imp, or_assoc] using h
    rcases hsplit with h | h
    · obtain ⟨s₁, h₁, hle₁⟩ := exists_earlier_le h
      obtain ⟨s₂, h₂, hle₂⟩ := ih _ (.inl h₁)
      exact ⟨s₂, h₂, hle₂.trans hle₁⟩
    · exact ih _ (.inr h)

end Footprint

namespace Scene

/-- The agent at a position touches the obstacle with the tag. -/
def Touches (s : Scene K) (p : Point K) (tag : ℕ) : Prop :=
  ∃ tags, s.overlapping p = .ok tags ∧ tag ∈ tags

variable {s : Scene K}

omit [IsStrictOrderedRing K] in
theorem touches_iff {p : Point K} {tag : ℕ} :
    s.Touches p tag ↔ ∃ f, s.agent.footprint "-" = .ok f ∧
      ∃ o, (o, tag) ∈ s.tagged ∧ f.touches p o = true := by
  unfold Touches overlapping
  split
  next hnone =>
    have htagged : s.tagged = [] := by simp [tagged, List.isEmpty_iff.1 hnone]
    simp [htagged]
  · rcases hfootprint : s.agent.footprint "-" with fault | f
    · simp [bind, Except.bind]
    · simp only [bind, Except.bind, pure, Except.pure, Except.ok.injEq, exists_eq_left']
      simp

omit [IsStrictOrderedRing K] in
/-- Whether the obstacles touched can be told does not depend on the position. -/
theorem exists_overlapping_eq_ok {p : Point K} {tags : List ℕ} (h : s.overlapping p = .ok tags)
    (q : Point K) : ∃ tags, s.overlapping q = .ok tags := by
  unfold overlapping at h ⊢
  split
  · exact ⟨[], rfl⟩
  next hsome =>
    rw [if_neg hsome] at h
    rcases hfootprint : s.agent.footprint "-" with fault | f
    · rw [hfootprint] at h
      cases h
    · exact ⟨_, rfl⟩

omit [IsStrictOrderedRing K] in
theorem collides_eq_false_iff {p : Point K} :
    s.collides p = .ok false ↔ s.overlapping p = .ok [] := by
  unfold collides
  rcases s.overlapping p with fault | tags <;> simp [Except.map]

omit [IsStrictOrderedRing K] in
/-- A sweep of a scene that finds a contact finds it before the end of the move. -/
theorem sweep_le_one {start finish : Point K} {ignored : List ℕ} {c : K}
    (h : s.sweep start finish ignored = .ok (some c)) : c ≤ 1 := by
  simp only [sweep] at h
  split at h
  · cases h
  · rcases hfootprint : s.agent.footprint "-" with fault | f
    · rw [hfootprint] at h
      cases h
    · rw [hfootprint] at h
      obtain ⟨o, -, ho⟩ := Footprint.exists_of_sweep_eq_some (Except.ok.inj h)
      exact Footprint.contact_le_one ho

/-- **A move that would touch an obstacle** which is not ignored is swept to a contact by then. -/
theorem exists_sweep_le {start finish : Point K} {ignored : List ℕ} {contact? : Option K} {t : K}
    {tag : ℕ} (h : s.sweep start finish ignored = .ok contact?)
    (htouches : s.Touches (start.along finish t) tag) (htag : tag ∉ ignored) (h0 : 0 ≤ t)
    (h1 : t ≤ 1) : ∃ c, contact? = some c ∧ c ≤ t := by
  obtain ⟨f, hfootprint, o, ho, htouches⟩ := touches_iff.1 htouches
  have hmem : o ∈ (s.tagged.filter fun o => !ignored.contains o.2).map (·.1) :=
    List.mem_map.2 ⟨(o, tag), List.mem_filter.2 ⟨ho, by simpa using htag⟩, rfl⟩
  obtain ⟨c, hc, hle⟩ := Footprint.exists_contact_le htouches h0 h1
  obtain ⟨c', hc', hle'⟩ := Footprint.exists_sweep_le hmem hc
  simp only [sweep, hfootprint] at h
  rw [if_neg (by simpa using List.ne_nil_of_mem hmem)] at h
  cases h
  exact ⟨c', hc', hle'.trans hle⟩

end Scene

end RobotBlocks
