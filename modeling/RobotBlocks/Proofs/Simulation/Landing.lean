import RobotBlocks.Proofs.Scene.FirstContact
import RobotBlocks.Proofs.Motion.Easing
import RobotBlocks.Proofs.Simulation.Obstacles
import RobotBlocks.Proofs.Simulation.Ticks

/-!
# Where a move ends

In exact numbers, it does not depend on the times of the ticks whether a move is cut short, and
where it ends only depends on them by less than the clearance that is left before obstacles
(`move_ends_at_first_contact`). Each tick sweeps the way from where the last one has brought the
robot, so the sweeps have to be put together:

* the contacts on a part of the way are those of the whole way that lie on this part
  (`Scene.mem_contacts_part`, `Scene.isLeast_of_part`);
* a move that is cut short ends within the clearance (`exists_stopBefore_eq_along`).

`OnWay` is the invariant: the robot is on the straight line from where it set out to its target, and
all contacts of the line are still ahead.
-/

namespace RobotBlocks

variable {K μ : Type} [Field K] [LinearOrder K] [IsStrictOrderedRing K] [Measures K]

/-- Lengths are positive, except that of no displacement, and a displacement that is so many times
another has so many times its length. -/
structure Measures.TrueLengths (K : Type) [Field K] [LinearOrder K] [Measures K] : Prop where
  pos : ∀ a b : K, a ≠ 0 ∨ b ≠ 0 → 0 < (Scalar.hypotenuse a b : K)
  scale : ∀ k a b : K, 0 ≤ k → (Scalar.hypotenuse (k * a) (k * b) : K) = k * Scalar.hypotenuse a b

/-! ## Parts of a way -/

namespace Point

omit [IsStrictOrderedRing K] in
theorem along_zero (p q : Point K) : p.along q 0 = p := by
  simp [along]

omit [IsStrictOrderedRing K] in
/-- A part of the way between two points of a straight line is a part of the line. -/
theorem along_along (p q : Point K) (r r' t : K) :
    (p.along q r).along (p.along q r') t = p.along q (r + (r' - r) * t) := by
  simp only [along, mk.injEq, true_and]
  exact ⟨by ring, by ring⟩

end Point

namespace Scene

variable {s : Scene K} {p q : Point K} {ignored : List ℕ} {r r' : K}

/-- **A contact on a part of the way** is one on this part. -/
theorem mem_contacts_part {u : K} (hu : u ∈ s.contacts p q ignored) (hr : r < u) (hr' : u ≤ r') :
    (u - r) / (r' - r) ∈ s.contacts (p.along q r) (p.along q r') ignored := by
  obtain ⟨-, -, tag, htag, htouches⟩ := hu
  have hpos : 0 < r' - r := by linarith
  refine ⟨div_nonneg (by linarith) hpos.le, (div_le_one hpos).2 (by linarith), tag, htag, ?_⟩
  rwa [Point.along_along, mul_div_cancel₀ _ hpos.ne', add_sub_cancel]

/-- **If a part of the way is free**, all contacts are behind it. -/
theorem clear_of_part (hclear : ∀ u ∈ s.contacts p q ignored, r < u)
    (hfree : s.contacts (p.along q r) (p.along q r') ignored = ∅) :
    ∀ u ∈ s.contacts p q ignored, r' < u := by
  intro u hu
  by_contra hle
  have := mem_contacts_part hu (hclear u hu) (not_lt.1 hle)
  rw [hfree] at this
  exact this

/-- **The first contact on a part of the way** is the first one on the whole of it, if there is none
before. The part then leads forwards. -/
theorem isLeast_of_part {c : K} (hclear : ∀ u ∈ s.contacts p q ignored, r < u) (h0 : 0 ≤ r)
    (h1 : r ≤ 1) (h0' : 0 ≤ r') (h1' : r' ≤ 1)
    (hc : IsLeast (s.contacts (p.along q r) (p.along q r') ignored) c) :
    0 < c ∧ r < r' ∧ IsLeast (s.contacts p q ignored) (r + (r' - r) * c) := by
  obtain ⟨⟨hc0, hc1, tag, htag, htouches⟩, hleast⟩ := hc
  rw [Point.along_along] at htouches
  have hmem : r + (r' - r) * c ∈ s.contacts p q ignored := by
    have hmix : r + (r' - r) * c = r * (1 - c) + r' * c := by ring
    have hrest : 0 ≤ 1 - c := sub_nonneg.2 hc1
    refine ⟨?_, ?_, tag, htag, htouches⟩
    · rw [hmix]
      exact add_nonneg (mul_nonneg h0 hrest) (mul_nonneg h0' hc0)
    · rw [hmix]
      have := mul_le_mul_of_nonneg_right h1 hrest
      have := mul_le_mul_of_nonneg_right h1' hc0
      linarith
  have hahead : 0 < (r' - r) * c := by
    have := hclear _ hmem
    linarith
  have hpos : 0 < r' - r := pos_of_mul_pos_left hahead hc0
  refine ⟨pos_of_mul_pos_right hahead hpos.le, by linarith, hmem, fun u hu => ?_⟩
  rcases le_or_gt u r' with hle | hgt
  · have := (le_div_iff₀ hpos).1 (hleast (mem_contacts_part hu (hclear u hu) hle))
    linarith
  · have := mul_le_mul_of_nonneg_left hc1 hpos.le
    linarith

end Scene

/-- Where all of a flight leads. -/
def Flight.target (f : Flight K) : Point K := Executor.positionAt f 1

namespace Executor

/-! ## Where a move that is cut short ends -/

omit [IsStrictOrderedRing K] in
/-- Where a flight leads is on the straight line to its target. -/
theorem positionAt_eq_along (f : Flight K) (part : K) :
    positionAt f part = f.startPosition.along f.target part := by
  simp only [Flight.target, positionAt, Point.along, Point.mk.injEq, true_and]
  exact ⟨by ring, by ring⟩

/-- **A move that is cut short** ends before its first contact, within the clearance. -/
theorem exists_stopBefore_eq_along {start finish : Point K} {contact : K} (h0 : 0 < contact)
    (hlength : 0 < Scalar.hypotenuse (finish.x - start.x) (finish.z - start.z)) :
    ∃ t, 0 ≤ t ∧ t < contact ∧
      (contact - t) * Scalar.hypotenuse (finish.x - start.x) (finish.z - start.z) ≤ contactGap ∧
      stopBefore start finish contact = start.along finish t := by
  have hgap : (0 : K) < contactGap := by simp [contactGap, Scalar.ratio]
  set length := Scalar.hypotenuse (finish.x - start.x) (finish.z - start.z) with hdef
  refine ⟨max (contact - contactGap / length) 0, le_max_right _ _, ?_, ?_, ?_⟩
  · exact max_lt (sub_lt_self contact (div_pos hgap hlength)) h0
  · have hle : contact - max (contact - contactGap / length) 0 ≤ contactGap / length := by
      have := le_max_left (contact - contactGap / length) 0
      linarith
    calc (contact - max (contact - contactGap / length) 0) * length
        ≤ contactGap / length * length := mul_le_mul_of_nonneg_right hle hlength.le
      _ = contactGap := div_mul_cancel₀ _ hlength.ne'
  · rw [stopBefore, ← hdef]
    simp [hlength, Point.along]

/-- On a part of a way it ends within the clearance from the contact on the whole of it. -/
theorem exists_stopBefore_part (hlength : Measures.TrueLengths K) {p q : Point K} {r r' contact : K}
    (hforward : r < r') (hne : q.x - p.x ≠ 0 ∨ q.z - p.z ≠ 0) (h0 : 0 < contact) :
    ∃ g, r ≤ g ∧ g < r + (r' - r) * contact ∧
      (r + (r' - r) * contact - g) * Scalar.hypotenuse (q.x - p.x) (q.z - p.z) ≤ contactGap ∧
      stopBefore (p.along q r) (p.along q r') contact = p.along q g := by
  have hwidth : 0 < r' - r := sub_pos.2 hforward
  have hscale : Scalar.hypotenuse ((p.along q r').x - (p.along q r).x)
      ((p.along q r').z - (p.along q r).z) =
        (r' - r) * Scalar.hypotenuse (q.x - p.x) (q.z - p.z) := by
    rw [← hlength.scale _ _ _ hwidth.le]
    congr 1 <;> simp only [Point.along] <;> ring
  obtain ⟨t, ht0, hlt, hgap, hstop⟩ :=
    exists_stopBefore_eq_along h0 (hscale ▸ mul_pos hwidth (hlength.pos _ _ hne))
  rw [hscale] at hgap
  refine ⟨r + (r' - r) * t, ?_, ?_, ?_, hstop.trans (Point.along_along ..)⟩
  · have := mul_nonneg hwidth.le ht0
    linarith
  · have := mul_lt_mul_of_pos_left hlt hwidth
    linarith
  · calc (r + (r' - r) * contact - (r + (r' - r) * t)) *
          Scalar.hypotenuse (q.x - p.x) (q.z - p.z)
        = (contact - t) * ((r' - r) * Scalar.hypotenuse (q.x - p.x) (q.z - p.z)) := by ring
      _ ≤ contactGap := hgap

/-! ## The invariant -/

/-- A flight is under way: the robot is where it leads after the given part of its way, and the
agent has touched nothing until then but what is ignored. -/
structure OnWay (f : Flight K) (s : Scene K) (part : K) (e : Executor K) : Prop where
  scene : e.scene = s
  flight : e.flight = some f
  number : f.number < e.flights
  position : e.robot.position = f.startPosition.along f.target part
  nonneg : 0 ≤ part
  le_one : part ≤ 1
  clear : ∀ t ∈ s.contacts f.startPosition f.target f.ignored, part < t

/-- The point is the target of the flight, if the way there is free, and otherwise a point before
the first contact and within the clearance from there. -/
def EndsAt (f : Flight K) (s : Scene K) (p : Point K) : Prop :=
  (s.contacts f.startPosition f.target f.ignored = ∅ ∧ p = f.target) ∨
    ∃ first, IsLeast (s.contacts f.startPosition f.target f.ignored) first ∧
      ∃ g, 0 ≤ g ∧ g < first ∧
        (first - g) * Scalar.hypotenuse (f.target.x - f.startPosition.x)
          (f.target.z - f.startPosition.z) ≤ contactGap ∧
        p = f.startPosition.along f.target g

variable {f : Flight K} {s : Scene K} {part time : K} {e e' : Executor K}

namespace OnWay

/-- A way on which there is a contact ahead leads somewhere. -/
theorem displacement_ne_zero (h : e.OnWay f s part) {t : K}
    (ht : t ∈ s.contacts f.startPosition f.target f.ignored) :
    f.target.x - f.startPosition.x ≠ 0 ∨ f.target.z - f.startPosition.z ≠ 0 := by
  by_contra hzero
  obtain ⟨hx, hz⟩ := not_or.1 hzero
  have hstill : ∀ t, f.startPosition.along f.target t = f.startPosition := fun t => by
    simp [Point.along, not_not.1 hx, not_not.1 hz]
  -- A contact on a way that leads nowhere is one at its beginning.
  obtain ⟨-, -, tag, htag, htouches⟩ := ht
  rw [hstill] at htouches
  have hbegin := h.clear 0 ⟨le_rfl, zero_le_one, tag, htag, by rwa [hstill]⟩
  exact absurd h.nonneg (not_le.2 hbegin)

/-- **A free part of the way** brings the robot along. -/
theorem arrive {part' : K} (h : e.OnWay f s part) (hproper : s.Proper) (h0 : 0 ≤ part')
    (h1 : part' ≤ 1)
    (hsweep : e.scene.sweep e.robot.position (positionAt f part') f.ignored = .ok none) :
    (e.moved (positionAt f part')).OnWay f s part' where
  scene := h.scene
  flight := h.flight
  number := h.number
  position := positionAt_eq_along f part'
  nonneg := h0
  le_one := h1
  clear := by
    rw [h.scene, h.position, positionAt_eq_along f part'] at hsweep
    rcases hproper.sweep_cases (f.startPosition.along f.target part)
        (f.startPosition.along f.target part') f.ignored with ⟨-, hfree⟩ | ⟨c, hc, -⟩
    · exact Scene.clear_of_part h.clear hfree
    · rw [hsweep] at hc
      cases hc

/-- **A contact on a part of the way** ends the move short of the first contact on the whole of it.
-/
theorem halt {part' contact : K} (h : e.OnWay f s part) (hlength : Measures.TrueLengths K)
    (hproper : s.Proper) (h0 : 0 ≤ part') (h1 : part' ≤ 1)
    (hsweep : e.scene.sweep e.robot.position (positionAt f part') f.ignored = .ok (some contact)) :
    EndsAt f s (stopBefore e.robot.position (positionAt f part') contact) ∧
    ∃ g, (e.moved (stopBefore e.robot.position (positionAt f part') contact)).OnWay f s g := by
  rw [h.scene, h.position, positionAt_eq_along f part'] at hsweep
  rw [h.position, positionAt_eq_along f part']
  rcases hproper.sweep_cases (f.startPosition.along f.target part)
      (f.startPosition.along f.target part') f.ignored with ⟨hnone, -⟩ | ⟨c, hc, hfirst⟩
  · rw [hsweep] at hnone
    cases hnone
  · obtain rfl : contact = c := Option.some.inj (Except.ok.inj (hsweep.symm.trans hc))
    obtain ⟨hpos, hforward, hleast⟩ :=
      Scene.isLeast_of_part h.clear h.nonneg h.le_one h0 h1 hfirst
    obtain ⟨g, hle, hlt, hgap, hstop⟩ := exists_stopBefore_part hlength hforward
      (h.displacement_ne_zero hleast.1) hpos
    have hg : 0 ≤ g := h.nonneg.trans hle
    rw [hstop]
    exact ⟨.inr ⟨_, hleast, g, hg, hlt, hgap, rfl⟩, g, h.scene, h.flight, h.number, rfl, hg,
      hlt.le.trans hleast.1.2.1, fun u hu => hlt.trans_le (hleast.2 hu)⟩

/-- **Following the flight** leaves it under way, and once all of it is made the robot is where the
move ends. -/
theorem follow {progress made : K} (h : e.OnWay f s part) (hlength : Measures.TrueLengths K)
    (hproper : s.Proper) (hmove : f.command.movement.isMove = true)
    (hfollows : e.Follows f progress e' made) :
    (∃ part', e'.OnWay f s part') ∧ (Scalar.ofNat 1 ≤ made → EndsAt f s e'.robot.position) := by
  have h0 := ease_nonneg progress
  have h1 := ease_le_one progress
  cases hfollows with
  | arrive _ hsweep =>
    have harrive := h.arrive hproper h0 h1 hsweep
    refine ⟨⟨_, harrive⟩, fun hmade => ?_⟩
    rw [Scalar.ofNat_eq_cast, Nat.cast_one] at hmade
    refine .inl ⟨?_, ?_⟩
    · -- All contacts are behind the end of the way.
      refine Set.eq_empty_iff_forall_notMem.2 fun u hu => ?_
      have hbehind := harrive.clear u hu
      rw [ease_of_one_le hmade] at hbehind
      exact absurd hu.2.1 (not_le.2 hbehind)
    · change positionAt f (ease progress) = f.target
      rw [ease_of_one_le hmade, Flight.target]
  | halt _ hsweep =>
    obtain ⟨hends, hway⟩ := h.halt hlength hproper h0 h1 hsweep
    exact ⟨hway, fun _ => hends⟩
  | rotate hturn _ | wait hturn _ => simp [hmove] at hturn

/-- **A tick** leaves the flight under way or ends it where the move ends. -/
theorem tick (h : e.OnWay f s part) (hlength : Measures.TrueLengths K) (hproper : s.Proper)
    (hmove : f.command.movement.isMove = true) (htick : e.Ticks time e') :
    (∃ part', e'.OnWay f s part') ∨ (e'.isInFlight f = false ∧ EndsAt f s e'.robot.position) := by
  cases htick with
  | unmoved => exact .inl ⟨part, h⟩
  | followed _ hf hfollows =>
    cases h.flight.symm.trans hf
    exact .inl (h.follow hlength hproper hmove hfollows).1
  | landed _ hf hfollows hmade =>
    cases h.flight.symm.trans hf
    exact .inr ⟨rfl, (h.follow hlength hproper hmove hfollows).2 hmade⟩
  | continued _ hf hfollows hmade hnext =>
    cases h.flight.symm.trans hf
    obtain ⟨⟨_, hway⟩, hends⟩ := h.follow hlength hproper hmove hfollows
    -- Starting the next command leaves the robot where it is.
    cases hnext with
    | finished | lost => exact .inr ⟨rfl, hends hmade⟩
    | launched hqueue hprepare =>
      refine .inr ⟨?_, hends hmade⟩
      have hnumber := hway.number
      cases setsOut_of_prepare hprepare <;> simp [launched, isInFlight, outset, landed] <;> omega

end OnWay

/-- **A move that sets out** is under way from where the robot is: it ignores all that the agent
touches there. -/
theorem onWay_of_continues {e₀ : Executor K} (hcontinues : e₀.Continues time e)
    (hnone : e₀.flight = none) (hf : e.flight = some f)
    (hmove : f.command.movement.isMove = true) :
    f.startPosition = e₀.robot.position ∧ e.OnWay f e₀.scene 0 := by
  cases hcontinues with
  | finished => cases hf
  | lost => cases hnone.symm.trans hf
  | @launched c rest _ hqueue hprepare =>
    cases hf
    have hclear : e₀.scene.overlapping e₀.robot.position = .ok f.ignored →
        f.startPosition = e₀.robot.position →
        ∀ u ∈ e₀.scene.contacts f.startPosition f.target f.ignored, 0 < u := by
      rintro hignored hstart u ⟨h0, -, tag, htag, htouches⟩
      refine h0.lt_of_ne ?_
      rintro rfl
      rw [Point.along_zero, hstart] at htouches
      obtain ⟨tags, htags, hmem⟩ := htouches
      cases hignored.symm.trans htags
      exact htag hmem
    cases setsOut_of_prepare hprepare with
    | forward _ _ hignored | backward _ _ hignored =>
      exact ⟨rfl, rfl, rfl, Nat.lt_succ_self _, (Point.along_zero ..).symm, le_rfl, zero_le_one,
        hclear hignored rfl⟩
    | turnRight hc | turnLeft hc | wait hc => simp [outset, hc, Movement.isMove] at hmove

/-! ## Runs -/

/-- The hosts that have control after ticks that were made while the flight was in flight, at any
times and also if they failed. Between ticks hosts may remember whatever they like. -/
inductive Flown (o : Observers K μ) (f : Flight K) (start : Host K μ) : Host K μ → Prop
  | start : Flown o f start start
  | tick {h h' : Host K μ} {time? : Option K} (before : Flown o f start h)
    (hf : h.executor.flight = some f) (hrun : (Executor.tick o time?).LeadsTo h h') :
    Flown o f start h'
  | remember {h : Host K μ} (before : Flown o f start h) (memory : μ) :
    Flown o f start { h with memory }

/-- While it is ticked, a move stays under way until it ends where it should. -/
theorem Flown.onWay {o : Observers K μ} (ho : o.Passive) {start host : Host K μ}
    (h : Flown o f start host) (hstart : start.executor.OnWay f s part)
    (hlength : Measures.TrueLengths K) (hproper : s.Proper)
    (hmove : f.command.movement.isMove = true) :
    (∃ part', host.executor.OnWay f s part') ∨
      (host.executor.isInFlight f = false ∧ EndsAt f s host.executor.robot.position) := by
  induction h with
  | start => exact .inl ⟨part, hstart⟩
  | tick before hf hrun ih =>
    rcases ih with ⟨part', hway⟩ | ⟨hended, -⟩
    · exact hway.tick hlength hproper hmove (ticks_of_leadsTo ho hrun)
    · simp [isInFlight, hf] at hended
  | remember before memory ih => exact ih

/-- **Whether a move is cut short, and where, does not depend on the ticks.** A move that sets out
ends at its target if the sweep of the whole way finds no contact. Otherwise it ends before the
first contact of the whole way, and so close that the way left between is no longer than the
clearance. This holds of all sequences of ticks which are made while the move is in flight and by
which it is ended, however many there are and at whatever times, also if some of them fail. -/
theorem move_ends_at_first_contact (hlength : Measures.TrueLengths K) {o : Observers K μ}
    (ho : o.Passive) {h h₀ h₁ : Host K μ} {start : K} (hproper : h.executor.scene.Proper)
    (hnone : h.executor.flight = none) (hstart : (startNext o start).LeadsTo h h₀)
    (hf : h₀.executor.flight = some f) (hmove : f.command.movement.isMove = true)
    (hflown : Flown o f h₀ h₁) (hended : h₁.executor.isInFlight f = false) :
    f.startPosition = h.executor.robot.position ∧
    (h.executor.scene.sweep f.startPosition f.target f.ignored = .ok none →
      h₁.executor.robot.position = f.target) ∧
    (∀ first, h.executor.scene.sweep f.startPosition f.target f.ignored = .ok (some first) →
      ∃ g, 0 ≤ g ∧ g < first ∧
        (first - g) * Scalar.hypotenuse (f.target.x - f.startPosition.x)
          (f.target.z - f.startPosition.z) ≤ contactGap ∧
        h₁.executor.robot.position = f.startPosition.between f.target g) ∧
    ∃ first?, h.executor.scene.sweep f.startPosition f.target f.ignored = .ok first? := by
  obtain ⟨hposition, hway⟩ := onWay_of_continues (continues_of_leadsTo ho hstart) hnone hf hmove
  rcases hflown.onWay ho hway hlength hproper hmove with ⟨_, hway⟩ | ⟨-, hends⟩
  · simp [isInFlight, hway.flight] at hended
  refine ⟨hposition, ?_⟩
  rcases hends with ⟨hempty, hplace⟩ | ⟨first, hleast, g, hg0, hlt, hgap, hplace⟩
  · rcases hproper.sweep_cases f.startPosition f.target f.ignored with
      ⟨hsweep, -⟩ | ⟨c, -, hc⟩
    · rw [hsweep]
      exact ⟨fun _ => hplace, by simp, none, rfl⟩
    · rw [hempty] at hc
      exact hc.1.elim
  · rcases hproper.sweep_cases f.startPosition f.target f.ignored with
      ⟨-, hnone⟩ | ⟨c, hsweep, hc⟩
    · rw [hnone] at hleast
      exact hleast.1.elim
    · obtain rfl := hleast.unique hc
      rw [hsweep]
      refine ⟨by simp, ?_, _, rfl⟩
      rintro _ ⟨⟩
      have hlevel : f.startPosition.y = f.target.y := rfl
      exact ⟨g, hg0, hlt, hgap, by rw [hplace, Point.between_eq_along hlevel]⟩

/-! ## A move towards a wall -/

/-- Rational numbers with the lengths of a city whose streets run along the axes. On the streets
they are the usual ones. -/
local instance instMeasuresCity : Measures ℚ :=
  { instMeasuresRat with hypotenuse := fun a b => |a| + |b| }

theorem trueLengths_city : Measures.TrueLengths ℚ where
  pos a b h := by
    rcases h with h | h
    · exact add_pos_of_pos_of_nonneg (abs_pos.2 h) (abs_nonneg b)
    · exact add_pos_of_nonneg_of_pos (abs_nonneg a) (abs_pos.2 h)
  scale k a b h := by
    change |k * a| + |k * b| = k * (|a| + |b|)
    rw [abs_mul, abs_mul, abs_of_nonneg h, mul_add]

/-- A robot that is to walk three units, with a wall two and a half units ahead. -/
def towardsWall : Except Fault (Host ℚ Unit) :=
  (Executor.start Config.robot [⟨⟨0, 0, 3⟩, ⟨4, 2, 1⟩⟩]).map fun e =>
    ⟨e.loaded [⟨.forward, 30, 1000, none⟩], ()⟩

/-- Ticked twice, the robot stops short of the wall. -/
theorem move_ends_at_first_contact_wall :
    ∃ h h₀ h₁ : Host ℚ Unit, ∃ f, towardsWall = .ok h ∧ Measures.TrueLengths ℚ ∧
      idleObservers.Passive ∧ h.executor.scene.Proper ∧ h.executor.flight = none ∧
      (startNext idleObservers 0).LeadsTo h h₀ ∧ h₀.executor.flight = some f ∧
      f.command.movement.isMove = true ∧ Flown idleObservers f h₀ h₁ ∧
      h₁.executor.isInFlight f = false ∧
      h.executor.scene.sweep f.startPosition f.target f.ignored = .ok (some (7 / 12)) ∧
      ∃ g, 0 ≤ g ∧ g < 7 / 12 ∧
        (7 / 12 - g) * Scalar.hypotenuse (f.target.x - f.startPosition.x)
          (f.target.z - f.startPosition.z) ≤ contactGap ∧
        h₁.executor.robot.position = f.startPosition.between f.target g := by
  obtain ⟨h, hstart⟩ : ∃ h, towardsWall = .ok h := ⟨_, rfl⟩
  have hproper : h.executor.scene.Proper := by
    cases hstart
    refine ⟨fun o ho => ?_, _, rfl, by decide +kernel⟩
    obtain rfl := List.mem_singleton.1 ho
    decide +kernel
  have hpassive : idleObservers.Passive := ⟨fun _ _ _ hx => hx, fun _ _ _ hx => hx⟩
  have hnone : h.executor.flight = none := by
    cases hstart
    rfl
  have hok : Outcome.returned (startNext idleObservers 0 h) fun _ h₀ =>
      Outcome.returned (Executor.tick idleObservers (some 300) h₀) fun _ h' =>
        Outcome.returned (Executor.tick idleObservers (some 600) h') fun _ h₁ =>
          h₀.executor.flight.any fun f => decide (f.command.movement.isMove = true ∧
            h'.executor.isInFlight f = true ∧ h₁.executor.isInFlight f = false ∧
            h.executor.scene.sweep f.startPosition f.target f.ignored = .ok (some (7 / 12))) := by
    cases hstart
    decide +kernel
  obtain ⟨a, h₀, hbegin, hok⟩ := Outcome.returned_eq_true.1 hok
  obtain ⟨b, h', htick, hok⟩ := Outcome.returned_eq_true.1 hok
  obtain ⟨c, h₁, htick', hok⟩ := Outcome.returned_eq_true.1 hok
  obtain ⟨f, hf, hok⟩ := (Option.any_eq_true _ _).1 hok
  obtain ⟨hmove, hflies, hended, hsweep⟩ := of_decide_eq_true hok
  have hsetOut : (startNext idleObservers 0).LeadsTo h h₀ := .inl ⟨a, hbegin⟩
  have hfirst : (Executor.tick idleObservers (some 300)).LeadsTo h₀ h' := .inl ⟨b, htick⟩
  -- Behind the first tick it is still the same flight.
  have hf' : h'.executor.flight = some f := by
    have hway := (onWay_of_continues (continues_of_leadsTo hpassive hsetOut) hnone hf hmove).2
    rcases hway.tick trueLengths_city hproper hmove (ticks_of_leadsTo hpassive hfirst) with
      ⟨_, hway'⟩ | ⟨hnot, -⟩
    · exact hway'.flight
    · exact absurd hflies (by simp [hnot])
  have hflown : Flown idleObservers f h₀ h₁ :=
    .tick (.tick .start hf hfirst) hf' (.inl ⟨c, htick'⟩)
  exact ⟨h, h₀, h₁, f, hstart, trueLengths_city, hpassive, hproper, hnone, hsetOut, hf, hmove,
    hflown, hended, hsweep, (move_ends_at_first_contact trueLengths_city hpassive hproper hnone
      hsetOut hf hmove hflown hended).2.2.1 _ hsweep⟩

end Executor

end RobotBlocks
