import RobotBlocks.Proofs.View.Fixtures
import RobotBlocks.Proofs.View.ShownProgram

/-!
# Window, controller and executor agree

What the calls of a window make of its fixtures, with doubles for numbers: most calls nothing; the
others load a project, choose an agent or move the speed slider, and a reset moves it to the normal
speed (`Window.alters_make`). All of them keep the agreement of window, controller and executor on the
agent, the obstacles and the speed (`Fixtures.Agree`), so every window in use has it
(`Window.Used.agree`).
-/

namespace RobotBlocks

/-! ## The speed slider -/

/-- Tenths within the range of the slider are speeds that every agent admits. -/
theorem Config.clampSpeed_tenths {c : Config Float} (hc : c ∈ Config.presets) {tenths : Int}
    (hlow : 1 ≤ tenths) (hhigh : tenths ≤ 30) :
    c.clampSpeed (Scalar.ratio tenths.toNat 10) = Scalar.ratio tenths.toNat 10 := by
  have hall : ∀ n < 31, 1 ≤ n →
      (Config.robot : Config Float).clampSpeed (Scalar.ratio n 10) = Scalar.ratio n 10 := by
    decide +kernel
  have hsame := Config.equallyFast_of_mem_presets hc
  rw [clampSpeed, hsame.minSpeed, hsame.maxSpeed, hsame.defaultSpeed]
  exact hall tenths.toNat (by omega) (by omega)

theorem isUndefined_tenths {tenths : Int} (hlow : 1 ≤ tenths) (hhigh : tenths ≤ 30) :
    Scalar.isUndefined (Scalar.ratio tenths.toNat 10 : Float) = false := by
  have hall : ∀ n < 31, Scalar.isUndefined (Scalar.ratio n 10 : Float) = false := by decide +kernel
  exact hall tenths.toNat (by omega)

/-- What is true of the fixtures between calls: window, controller and executor agree. -/
structure Fixtures.Agree (v : Fixtures Float) : Prop where
  known : v.agent ∈ Config.presets
  config : v.config = v.agent
  size : v.size = v.agent.agentSize
  obstacles : v.obstacles = v.listed
  drawn : v.drawn = v.listed
  initialSpeed : v.initialSpeed = 1
  low : 1 ≤ v.slider
  high : v.slider ≤ 30
  speed : v.speed = Scalar.ratio v.slider.toNat 10

namespace Fixtures.Agree

variable {v : Fixtures Float} (hv : v.Agree)
include hv

theorem isUndefined_speed : Scalar.isUndefined v.speed = false := by
  rw [hv.speed]
  exact isUndefined_tenths hv.low hv.high

theorem clampSpeed {c : Config Float} (hc : c ∈ Config.presets) : c.clampSpeed v.speed = v.speed := by
  rw [hv.speed]
  exact Config.clampSpeed_tenths hc hv.low hv.high

theorem dressed {c : Config Float} (hc : c ∈ Config.presets) : (v.dressed c).Agree :=
  { hv with known := hc, config := rfl, size := rfl, speed := (hv.clampSpeed hc).trans hv.speed }

theorem selecting (choice : Option ℕ) : { v with selected := choice : Fixtures Float }.Agree :=
  { hv with }

theorem named (name : Text) : (v.named name).Agree :=
  (hv.dressed (Config.ofName_mem_presets name)).selecting _

theorem loaded (obstacles : List (Obstacle Float)) (name? : Option Text) :
    (v.loaded obstacles name?).Agree := by
  have hnamed : (name?.elim v v.named).Agree := by
    cases name? with
    | none => exact hv
    | some name => exact hv.named name
  exact { hnamed with obstacles := rfl, drawn := rfl }

theorem chosen (choice : Option ℕ) : (v.chosen choice).Agree := by
  unfold Fixtures.chosen
  split
  · exact hv
  · exact (hv.selecting choice).dressed (Config.ofName_mem_presets _)

theorem atSlider {tenths : Int} (hlow : 1 ≤ tenths) (hhigh : tenths ≤ 30) :
    (v.atSlider tenths).Agree := { hv with low := hlow, high := hhigh, speed := rfl }

end Fixtures.Agree

namespace Window

variable {v : Fixtures Float}

/-- The place to which the slider goes if it is moved to a value. -/
def tenthsFor (value : Int) : Int := max 1 (min 30 value)

theorem tenthsFor_bounds (value : Int) : 1 ≤ tenthsFor value ∧ tenthsFor value ≤ 30 := by
  unfold tenthsFor
  omega

theorem refits_slide (value : Int) (hconfig : v.config ∈ Config.presets)
    (hspeed : tenthsFor value = v.slider → v.speed = Scalar.ratio v.slider.toNat 10) :
    Refits v (v.atSlider (tenthsFor value)) (slide value) := by
  obtain ⟨hlow, hhigh⟩ := tenthsFor_bounds value
  refine alters_look fun w hw _ => ?_
  rw [hw]
  by_cases hsame : tenthsFor value = v.slider
  · rw [if_neg (by simpa [sliderRange, tenthsFor] using hsame), hsame, Fixtures.atSlider,
      ← hspeed hsame]
    exact brings_pure _
  · rw [if_pos (by simpa [sliderRange, tenthsFor] using hsame)]
    have hset := refits_setSpeed (v := { v with slider := tenthsFor value })
      (isUndefined_tenths hlow hhigh)
    rw [Config.clampSpeed_tenths hconfig hlow hhigh] at hset
    exact .bind (refits_modify (fun v => { v with slider := tenthsFor value }) fun _ => rfl) fun _ =>
      .bind hset fun _ => refits_beside fun _ => rfl

/-- Ten times the normal speed is nearest to ten. -/
theorem nearestInteger_normalSpeed :
    Float.nearestInteger (Scalar.toFloat ((1 : Float) * Scalar.ofNat 10)) = .ok 10 := by
  have hten : ((Float.nearestInteger (Scalar.toFloat ((1 : Float) * Scalar.ofNat 10))).toOption ==
      some 10) = true := by decide
  rcases hround : Float.nearestInteger (Scalar.toFloat ((1 : Float) * Scalar.ofNat 10)) with _ | n
  · rw [hround] at hten
    cases hten
  · rw [hround] at hten
    rw [Option.some.inj (eq_of_beq hten)]

/-- **A reset** goes back to the normal speed. -/
theorem refits_reset (hv : v.Agree) : Refits v (v.atSlider 10) reset := by
  have hback : Refits v { v with speed := 1 } (Controller.reset listener) := by
    rw [← hv.initialSpeed]
    exact .bind (refits_beside fun _ => rfl) fun _ => refits_executorReset
  have hnormal : (1 : Float) = Scalar.ratio (Int.toNat 10) 10 := by decide
  have hslide : Refits { v with speed := 1 } (v.atSlider 10) (slide 10) := by
    refine refits_slide (v := { v with speed := 1 }) 10 ?_ fun hsame => ?_
    · rw [hv.config]
      exact hv.known
    · rw [← hsame]
      exact hnormal
  refine .bind hback fun _ => .bind (refits_beside fun _ => rfl) fun _ =>
    alters_executorLook fun e he _ => ?_
  have hten : Float.nearestInteger (Scalar.toFloat (e.speed * Scalar.ofNat 10)) = .ok 10 := by
    rw [he]
    exact nearestInteger_normalSpeed
  refine brings_orFail fun tenths htenths => ?_
  obtain rfl : 10 = tenths := Except.ok.inj (hten.symm.trans htenths)
  exact .bind hslide fun _ => (upkept_fixtures _).updateStatus

end Window

/-! ## Calls -/

namespace WindowCall

/-- The project that a file holds, if it could be read. -/
def projectIn? (content : Window.FileContent) : Option Data :=
  match content with
  | .ok (.ok project) => some project
  | _ => none

/-- The project that a call loads, if it loads one. -/
def project? {R : Type} : WindowCall R → Option Data
  | .loadProject project => some project
  | .openProject _ content => projectIn? content
  | .chooseFile path content => if path.isEmpty then none else projectIn? content
  | _ => none

/-- What a call that loads no project makes of the fixtures. -/
def refit (c : WindowCall Float) (v : Fixtures Float) : Fixtures Float :=
  match c with
  | .select index => v.chosen (Window.choiceAt index)
  | .slide value => v.atSlider (Window.tenthsFor value)
  | .reset => v.atSlider 10
  | _ => v

/-- What a call of a window can make of the fixtures. -/
def Alters (c : WindowCall Float) (v v' : Fixtures Float) : Prop :=
  match c.project? with
  | some project => ∃ obstacles, v' = v.loaded obstacles (Controller.agentNamed? project)
  | none => v' = c.refit v

end WindowCall

namespace Fixtures.Agree

variable {v v' : Fixtures Float} (hv : v.Agree)
include hv

theorem refit (c : WindowCall Float) : (c.refit v).Agree := by
  cases c with
  | select index => exact hv.chosen _
  | slide value =>
    obtain ⟨hlow, hhigh⟩ := Window.tenthsFor_bounds value
    exact hv.atSlider hlow hhigh
  | reset => exact hv.atSlider (by decide) (by decide)
  | _ => exact hv

/-- Calls keep the agreement. -/
theorem alters {c : WindowCall Float} (h : c.Alters v v') : v'.Agree := by
  unfold WindowCall.Alters at h
  split at h
  · obtain ⟨obstacles, rfl⟩ := h
    exact hv.loaded obstacles _
  · rw [h]
    exact hv.refit c

end Fixtures.Agree

namespace Window

variable {v : Fixtures Float}

/-- **What the calls of a window make of its fixtures.** -/
theorem alters_make (hv : v.Agree) (c : WindowCall Float) : Alters v (c.Alters v) c.make := by
  have hkept := upkept_fixtures v
  have hload : ∀ project, Alters v
      (fun v' => ∃ obstacles, v' = v.loaded obstacles (Controller.agentNamed? project))
      (loadProject project) := fun project => alters_loadProject hv.isUndefined_speed project
  have hopen : ∀ path content, Alters v ((WindowCall.openProject path content).Alters v)
      (openProject path content) := by
    intro path content
    refine brings_orFail fun found hfound => ?_
    subst hfound
    cases found with
    | error problem => exact hkept.print _
    | ok project => exact .bind (hkept.print _) fun _ => hload project
  have hdone : ∀ (reply : WindowReply) {w : Fixtures Float}, Refits w w (pure reply) := fun _ _ =>
    brings_pure _
  cases c with
  | run => exact .bind hkept.run fun _ => hdone _
  | togglePause => exact .bind hkept.togglePause fun _ => hdone _
  | stop => exact .bind hkept.stopped fun _ => hdone _
  | reset => exact .bind (refits_reset hv) fun _ => hdone _
  | resetView => exact .bind (refits_beside fun _ => rfl) fun _ => hdone _
  | chooseFile path content =>
    by_cases hpath : path.isEmpty = true
    · have hproject : (WindowCall.chooseFile (R := Float) path content).project? = none := if_pos hpath
      have hchoose : chooseFile (R := Float) path content = pure () := if_pos hpath
      refine Triple.bind (hchoose ▸ brings_pure ()) fun _ _ h => ?_
      show WindowCall.Alters _ _ _
      rwa [WindowCall.Alters, hproject]
    · have hproject : (WindowCall.chooseFile (R := Float) path content).project? =
          (WindowCall.openProject (R := Float) path content).project? := if_neg hpath
      have hchoose : chooseFile (R := Float) path content = openProject path content := if_neg hpath
      refine Triple.bind (hchoose ▸ hopen path content) fun _ _ h => ?_
      show WindowCall.Alters _ _ _
      rwa [WindowCall.Alters, hproject]
  | openProject path content => exact Triple.bind (hopen path content) fun _ _ h => h
  | loadProject project => exact Triple.bind (hload project) fun _ _ h => h
  | select index => exact .bind (refits_select hv.isUndefined_speed index) fun _ => hdone _
  | slide value =>
    have hconfig : v.config ∈ Config.presets := hv.config ▸ hv.known
    exact .bind (refits_slide value hconfig fun _ => hv.speed) fun _ => hdone _
  | check option on => exact .bind (hkept.check option on) fun _ => hdone _
  | elapse dt untilIdle most => exact .bind (hkept.elapse dt untilIdle most) fun _ => hdone _
  | view c => exact hkept.view c

/-! ## Windows in use -/

section

variable {R : Type} [Scalar R]

/-- The window behind calls, if all of them succeed. -/
def behind? (calls : List (WindowCall R)) (h : WindowHost R) : Option (WindowHost R) :=
  match calls with
  | [] => some h
  | c :: rest =>
    match c.make h with
    | .ok _ h' => behind? rest h'
    | .error .. => none

/-- The window that was opened and has had calls, if all of it succeeds. -/
def opened? (clock : R) (calls : List (WindowCall R)) : Option (WindowHost R) :=
  (Window.start clock).toOption.bind (behind? calls)

theorem Used.behind {clock : R} {calls : List (WindowCall R)} {h h' : WindowHost R}
    (hused : Used clock h) (hcalls : behind? calls h = some h') : Used clock h' := by
  induction calls generalizing h with
  | nil =>
    cases hcalls
    exact hused
  | cons c rest ih =>
    rw [behind?] at hcalls
    split at hcalls
    next hrun => exact ih (hused.call hrun) hcalls
    · cases hcalls

theorem Used.of_opened {clock : R} {calls : List (WindowCall R)} {h : WindowHost R}
    (hopened : opened? clock calls = some h) : Used clock h := by
  obtain ⟨h₀, hstart, hcalls⟩ := Option.bind_eq_some_iff.1 hopened
  refine Used.behind (.start ?_) hcalls
  cases hwindow : Window.start clock with
  | ok host =>
    rw [hwindow] at hstart
    cases hstart
    rfl
  | error fault =>
    rw [hwindow] at hstart
    cases hstart

end

/-- The fixtures of a window that has not loaded anything. -/
def initialFixtures : Fixtures Float where
  config := .robot
  obstacles := []
  initialSpeed := 1
  speed := 1
  agent := .robot
  listed := []
  drawn := []
  size := (Config.robot : Config Float).agentSize
  slider := 10
  selected := some 0

theorem agree_initialFixtures : initialFixtures.Agree where
  known := by simp [initialFixtures, Config.presets]
  config := rfl
  size := rfl
  obstacles := rfl
  drawn := rfl
  initialSpeed := rfl
  low := by decide
  high := by decide
  speed := by decide

/-- An open window has loaded the sample, which names the box robot. -/
theorem fixtures_start {clock : Float} {h : WindowHost Float} (hstart : Window.start clock = .ok h) :
    ∃ obstacles, fixtures h = initialFixtures.loaded obstacles (some "Robot") := by
  obtain ⟨h₀, hcontroller, hstart⟩ := Outcome.bind_eq_ok.1 hstart
  obtain ⟨e, he, rfl⟩ := Outcome.map_eq_ok.1 hcontroller
  cases he
  have hopening : Alters initialFixtures
      (fun v => ∃ obstacles, v = initialFixtures.loaded obstacles (some "Robot")) opening :=
    Triple.bind (alters_loadProject agree_initialFixtures.isUndefined_speed _) fun _ => by
      rintro h ⟨obstacles, hh⟩
      exact ⟨obstacles, hh⟩
  split at hstart
  next h' hrun =>
    cases hstart
    exact hopening.ok rfl hrun
  · cases hstart

/-- **In a window in use, everybody agrees** on the agent, the obstacles and the speed. -/
theorem Used.agree {clock : Float} {h : WindowHost Float} (hused : Used clock h) :
    (fixtures h).Agree := by
  induction hused with
  | start hstart =>
    obtain ⟨obstacles, hh⟩ := fixtures_start hstart
    rw [hh]
    exact agree_initialFixtures.loaded obstacles _
  | call _ hrun ih => exact ih.alters ((alters_make ih _).ok rfl hrun)

end Window

end RobotBlocks
