import RobotBlocks.Proofs.Outcome
import RobotBlocks.Proofs.Scene.Contact
import RobotBlocks.Proofs.Simulation.Stability

/-!
# The agent does not enter obstacles

In exact numbers, driving a robot never brings its agent into contact with an obstacle that it did
not touch at the beginning (`overlapping_of_served`). Whatever the tick times, each tick moves the
robot from where it is along a straight line that the scene has swept:

* a move ends before the first contact on the line, or does not begin (`stopBefore_eq_along`), so
  where it ends nothing is touched but what was touched before or is ignored
  (`Sheltered.placeAt`);
* what a flight ignores was touched when it set out (`eq_of_prepare`).

`Sheltered` is the invariant that carries this from tick to tick. It is kept also by requests that
fail and by those that observers make.
-/

namespace RobotBlocks

/-- The requests by which a robot is driven: it is not put to another place by hand, and obstacles
and sizes stay what they are. -/
def Request.Drives {R : Type} : Request R → Prop
  | .execute _ | .tick _ | .pause | .resume | .stop | .setSpeed _ | .setSpeedData _ => True
  | .reset | .setInitial .. | .setObstacles _ | .setAgentSize _ => False

namespace Executor

variable {K μ : Type} [Field K] [LinearOrder K] [IsStrictOrderedRing K] [Measures K]

/-! ## Where a move ends -/

/-- **A move that is cut short** ends before its first contact, or where it began. -/
theorem stopBefore_eq_along (start finish : Point K) {contact : K} (h : contact ≤ 1) :
    ∃ t, 0 ≤ t ∧ t ≤ 1 ∧ (t = 0 ∨ t < contact) ∧
      stopBefore start finish contact = start.along finish t := by
  simp only [stopBefore, Scalar.ofNat_eq_cast, Nat.cast_zero, Scalar.max_eq]
  split
  next hlength =>
    have hgap : (0 : K) < contactGap / Scalar.hypotenuse (finish.x - start.x) (finish.z - start.z) :=
      div_pos (by simp [contactGap, Scalar.ratio]) hlength
    rcases le_total (contact - contactGap /
        Scalar.hypotenuse (finish.x - start.x) (finish.z - start.z)) 0 with hle | hle
    · exact ⟨0, le_rfl, zero_le_one, .inl rfl, by rw [max_eq_right hle]; rfl⟩
    · refine ⟨_, hle, ?_, .inr ?_, by rw [max_eq_left hle]; rfl⟩
      · linarith
      · linarith
  · exact ⟨0, le_rfl, zero_le_one, .inl rfl, rfl⟩

omit [IsStrictOrderedRing K] in
/-- A flight begins where the robot is, and ignores what is touched there. -/
theorem eq_of_prepare {e : Executor K} {c : Command K} {time : K} {f : Flight K}
    (h : e.prepare c time = .ok f) :
    f.startPosition = e.robot.position ∧
      ∀ tag ∈ f.ignored, e.scene.Touches e.robot.position tag := by
  simp only [prepare, bind, Except.bind, throw, throwThe, MonadExceptOf.throw, pure, Except.pure]
    at h
  split at h
  · cases h
  · split at h
    -- Only moves look at the scene.
    case h_1 | h_2 =>
      split at h
      · cases h
      · split at h
        · cases h
        next ignored hignored =>
          cases h
          exact ⟨rfl, fun tag htag => ⟨ignored, hignored, htag⟩⟩
    all_goals
      cases h
      exact ⟨rfl, by simp⟩

/-! ## The invariant -/

/-- The scene is the given one, what the agent touches are obstacles of which `T` holds, and the
command in flight leads along the ground and ignores only such obstacles. -/
structure Sheltered (s : Scene K) (T : ℕ → Prop) (e : Executor K) : Prop where
  scene : e.scene = s
  touches : ∀ tag, s.Touches e.robot.position tag → T tag
  height : ∀ f, e.flight = some f → f.startPosition.y = e.robot.position.y
  ignored : ∀ f, e.flight = some f → ∀ tag ∈ f.ignored, T tag

variable {s : Scene K} {T : ℕ → Prop} {e : Executor K}

namespace Sheltered

omit [IsStrictOrderedRing K] in
/-- Changes that leave scene and position alone keep the invariant, if they set no new flight. -/
theorem congr {e' : Executor K} (h : e.Sheltered s T) (hscene : e'.scene = e.scene)
    (hposition : e'.robot.position = e.robot.position)
    (hflight : ∀ f, e'.flight = some f → e.flight = some f) : e'.Sheltered s T where
  scene := hscene.trans h.scene
  touches := by rw [hposition]; exact h.touches
  height f hf := by rw [hposition]; exact h.height f (hflight f hf)
  ignored f hf := h.ignored f (hflight f hf)

omit [IsStrictOrderedRing K] in
/-- Moving over the ground keeps the invariant, if nothing is touched where the move ends but obstacles
of which `T` holds. -/
theorem placeAt {p : Point K} (h : e.Sheltered s T) (hy : p.y = e.robot.position.y)
    (htouches : ∀ tag, s.Touches p tag → T tag) :
    { e with robot := e.robot.placeAt p }.Sheltered s T where
  scene := h.scene
  touches := htouches
  height f hf := (h.height f hf).trans hy.symm
  ignored := h.ignored

/-- **If a sweep finds no contact**, the whole way is free. -/
theorem arrive {f : Flight K} {part : K} (h : e.Sheltered s T) (hf : e.flight = some f)
    (hsweep : e.scene.sweep e.robot.position (positionAt f part) f.ignored = .ok none) :
    { e with robot := e.robot.placeAt (positionAt f part) }.Sheltered s T := by
  have hy : (positionAt f part).y = e.robot.position.y := h.height f hf
  refine h.placeAt hy fun tag htouches => ?_
  by_cases htag : tag ∈ f.ignored
  · exact h.ignored f hf tag htag
  · have hend : positionAt f part = e.robot.position.along (positionAt f part) 1 := by
      rw [Point.along, ← hy]
      simp
    rw [hend, ← h.scene] at htouches
    obtain ⟨c, hc, -⟩ := Scene.exists_sweep_le hsweep htouches htag zero_le_one le_rfl
    cases hc

/-- **If a sweep finds a contact**, the way is free until then. -/
theorem halt {f : Flight K} {part contact : K} (h : e.Sheltered s T) (hf : e.flight = some f)
    (hsweep : e.scene.sweep e.robot.position (positionAt f part) f.ignored = .ok (some contact)) :
    { e with
      robot := e.robot.placeAt
        (stopBefore e.robot.position (positionAt f part) contact) }.Sheltered s T := by
  obtain ⟨t, h0, h1, ht, hstop⟩ :=
    stopBefore_eq_along e.robot.position (positionAt f part) (Scene.sweep_le_one hsweep)
  refine h.placeAt rfl fun tag htouches => ?_
  rw [hstop] at htouches
  rcases ht with rfl | hlt
  · refine h.touches tag ?_
    simpa [Point.along] using htouches
  · by_cases htag : tag ∈ f.ignored
    · exact h.ignored f hf tag htag
    · rw [← h.scene] at htouches
      obtain ⟨c, hc, hle⟩ := Scene.exists_sweep_le hsweep htouches htag h0 h1
      obtain rfl := Option.some.inj hc
      exact absurd hlt (not_lt.2 hle)

omit [IsStrictOrderedRing K] in
/-- A new flight begins where the robot is. -/
theorem launch {c : Command K} {rest : List (Command K)} {time : K} {f : Flight K}
    (h : e.Sheltered s T) (hf : ({ e with queue := rest }).prepare c time = .ok f) :
    { e with
      queue := rest, flight := some f, flights := e.flights + 1
      robot.moving := true }.Sheltered s T := by
  obtain ⟨hposition, hignored⟩ := eq_of_prepare hf
  refine ⟨h.scene, h.touches, fun f' hf' => ?_, fun f' hf' tag htag => ?_⟩
  · obtain rfl : f = f' := Option.some.inj hf'
    rw [hposition]
  · obtain rfl : f = f' := Option.some.inj hf'
    have htouches := hignored tag htag
    exact h.touches tag (h.scene ▸ htouches)

end Sheltered

/-- **Driving keeps the invariant**, also by requests that fail. -/
theorem stable_sheltered :
    Stable Request.Drives (Sheltered s T) (Sheltered s T) (Sheltered s T) (Sheltered s T) where
  fails _ h := h
  load _ _ h := h.congr rfl rfl (by simp)
  resume _ h _ := h.congr rfl rfl fun _ hf => hf
  rest _ h _ := h.congr rfl rfl (by simp)
  launch _ _ _ _ _ h _ hf := h.launch hf
  lost _ _ _ h _ := h.congr rfl rfl fun _ hf => hf
  arrive _ _ _ h hf hsweep := h.arrive hf hsweep
  halt _ _ _ _ h hf hsweep := h.halt hf hsweep
  rotate _ _ _ h _ := h.congr rfl rfl fun _ hf => hf
  land _ h := h.congr rfl rfl (by simp)
  proceed _ h _ _ := h
  yield _ h _ := h
  pause _ h _ := h.congr rfl rfl (by simp)
  stop _ h := h.congr rfl rfl (by simp [still, idle])
  setSpeed _ _ h _ := h.congr rfl rfl fun _ hf => hf
  reset h := h.elim
  setInitial _ _ h := h.elim
  setObstacles _ h := h.elim
  setAgentSize _ h := h.elim

/-! ## Hosts -/

variable {o : Observers K μ} {start host : Host K μ}

/-- **Driving a robot brings its agent into contact with nothing** that it did not touch at the
beginning, if no command is in flight then. Whenever the host has control, also after requests that
failed, what the agent touches is among what it touched; an agent that began free of contact does not
collide. -/
theorem overlapping_of_served (hflight : start.executor.flight = none)
    (ho : o.Reenter Request.Drives) (h : Served Request.Drives True o start host) :
    host.executor.scene = start.executor.scene ∧
    (∀ tags, host.executor.scene.overlapping host.executor.robot.position = .ok tags →
      ∃ tags₀, start.executor.scene.overlapping start.executor.robot.position = .ok tags₀ ∧
        tags ⊆ tags₀) ∧
    (start.executor.scene.collides start.executor.robot.position = .ok false →
      host.executor.scene.collides host.executor.robot.position = .ok false) := by
  have hstart : Sheltered start.executor.scene
      (start.executor.scene.Touches start.executor.robot.position) start.executor :=
    ⟨rfl, fun _ htouches => htouches, by simp [hflight], by simp [hflight]⟩
  have hhost := Stable.of_served stable_sheltered stable_sheltered ho h hstart fun _ _ hF => hF
  have hsub : ∀ tags tags₀,
      start.executor.scene.overlapping host.executor.robot.position = .ok tags →
      start.executor.scene.overlapping start.executor.robot.position = .ok tags₀ →
      tags ⊆ tags₀ := fun tags tags₀ htags htags₀ tag htag => by
    obtain ⟨tags₁, htags₁, htag⟩ := hhost.touches tag ⟨tags, htags, htag⟩
    obtain rfl : tags₁ = tags₀ := Except.ok.inj (htags₁.symm.trans htags₀)
    exact htag
  rw [hhost.scene]
  refine ⟨rfl, fun tags htags => ?_, fun hfree => ?_⟩
  · obtain ⟨tags₀, htags₀⟩ := Scene.exists_overlapping_eq_ok htags start.executor.robot.position
    exact ⟨tags₀, htags₀, hsub tags tags₀ htags htags₀⟩
  · rw [Scene.collides_eq_false_iff] at hfree ⊢
    obtain ⟨tags, htags⟩ := Scene.exists_overlapping_eq_ok hfree host.executor.robot.position
    rw [htags, List.subset_nil.1 (hsub tags [] htags hfree)]

/-- Observers that do nothing. -/
def idleObservers : Observers ℚ Unit := ⟨fun _ => 0, fun _ m => m, fun _ => pure (), fun _ => pure ()⟩

/-- A robot in front of a wall. -/
def beforeWall : Except Fault (Executor ℚ) :=
  Executor.start Config.robot [⟨⟨0, 0, 3⟩, ⟨4, 2, 1⟩⟩]

/-- A robot that is to walk through a wall two units ahead stops short of it. -/
theorem overlapping_of_served_wall :
    ∃ start host, beforeWall = .ok start.executor ∧ start.executor.flight = none ∧
      Served Request.Drives True idleObservers start host ∧
      host.executor.robot.position.z = 7 / 4 - 1 / 1000000 ∧
      host.executor.scene = start.executor.scene ∧
      (∀ tags, host.executor.scene.overlapping host.executor.robot.position = .ok tags →
        ∃ tags₀, start.executor.scene.overlapping start.executor.robot.position = .ok tags₀ ∧
          tags ⊆ tags₀) ∧
      (start.executor.scene.collides start.executor.robot.position = .ok false →
        host.executor.scene.collides host.executor.robot.position = .ok false) := by
  obtain ⟨e, hstart⟩ : ∃ e, beforeWall = .ok e := ⟨_, rfl⟩
  have hreenter : idleObservers.Reenter Request.Drives :=
    ⟨fun _ => .quiet fun _ _ hx => hx, fun _ => .quiet fun _ _ hx => hx⟩
  have hflight : e.flight = none := by
    cases hstart
    rfl
  have hok : Outcome.returned
      (Request.make idleObservers (.execute [.command ⟨.forward, 30, 1000, none⟩]) ⟨e, ()⟩) fun _ h =>
        Outcome.returned (Request.make idleObservers (.tick (some 1000)) h) fun _ h' =>
          decide (h'.executor.robot.position.z = 7 / 4 - 1 / 1000000) := by
    cases hstart
    decide +kernel
  obtain ⟨_, h, hexecute, hok⟩ := Outcome.returned_eq_true.1 hok
  obtain ⟨_, h', htick, hplace⟩ := Outcome.returned_eq_true.1 hok
  have hserved : Served Request.Drives True idleObservers ⟨e, ()⟩ h' :=
    .request (r := .tick _) (.request (r := .execute _) .start trivial hexecute) trivial htick
  exact ⟨⟨e, ()⟩, h', hstart, hflight, hserved, of_decide_eq_true hplace,
    overlapping_of_served hflight hreenter hserved⟩

end Executor

end RobotBlocks
