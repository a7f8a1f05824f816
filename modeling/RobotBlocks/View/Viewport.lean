import RobotBlocks.Number.Quotient
import RobotBlocks.Simulation.Robot
import RobotBlocks.View.Drawing

/-!
# The viewport

The picture of the robot, its trail and the obstacles, seen from a camera that a mouse moves around
them. The host pushes the scene in; every change asks for a new picture, and the viewport counts how
often.
-/

namespace RobotBlocks

/-- What a viewer may hide. -/
inductive ViewOption
  | grid
  | axes
  | trail
  /-- The picture is centred on the robot. -/
  | follow
  deriving DecidableEq, Repr

/-- The name of an option. -/
def ViewOption.name : ViewOption → String
  | .grid => "grid"
  | .axes => "axes"
  | .trail => "trail"
  | .follow => "follow"

/-- All options. -/
def ViewOption.all : List ViewOption := [.grid, .axes, .trail, .follow]

/-- The option of a name. -/
def ViewOption.ofName? (name : String) : Option ViewOption := all.find? fun o => o.name == name

/-- Which options are on. -/
structure ViewOptions where
  grid : Bool
  axes : Bool
  trail : Bool
  follow : Bool
  deriving DecidableEq, Repr

namespace ViewOptions

/-- All options are on. -/
def allOn : ViewOptions := ⟨true, true, true, true⟩

/-- Whether an option is on. -/
def isOn (s : ViewOptions) : ViewOption → Bool
  | .grid => s.grid
  | .axes => s.axes
  | .trail => s.trail
  | .follow => s.follow

/-- The options with one of them switched over. -/
def toggle (s : ViewOptions) : ViewOption → ViewOptions
  | .grid => { s with grid := !s.grid }
  | .axes => { s with axes := !s.axes }
  | .trail => { s with trail := !s.trail }
  | .follow => { s with follow := !s.follow }

end ViewOptions

/-- Where the picture is seen from. -/
structure Camera where
  zoom : Float
  /-- Degrees about the `x` axis. -/
  pitch : Float
  /-- Degrees about the `y` axis. -/
  yaw : Float

/-- The camera at the beginning. -/
def Camera.start : Camera := ⟨-20.0, 30.0, -45.0⟩

/-- A place on the screen. -/
structure Pixel where
  x : Int
  y : Int
  deriving DecidableEq, Repr

/-- The viewport. -/
structure Viewport (R : Type) where
  robot : Robot R
  /-- Width, height and depth. -/
  agentSize : List R
  obstacles : List (Obstacle R)
  /-- The places on the floor where the robot was shown. -/
  trail : List (Point R)
  camera : Camera
  /-- Where the mouse was last. -/
  mouse : Pixel
  shown : ViewOptions
  /-- How often a new picture was asked for. -/
  updates : Nat

namespace Viewport

section

variable {R : Type} [Scalar R]

/-- The viewport before anything was pushed in. -/
def start : Viewport R where
  robot :=
    { position := ⟨Scalar.ofNat 0, Scalar.ofNat 0, Scalar.ofNat 0⟩
      rotation := ⟨Scalar.ofNat 0, Scalar.ofNat 0, Scalar.ofNat 0⟩
      moving := false, speed := Scalar.ofNat 1 }
  agentSize := [Scalar.ratio 1 1, Scalar.ratio 1 2, Scalar.ratio 3 2]
  obstacles := []
  trail := []
  camera := .start
  mouse := ⟨0, 0⟩
  shown := .allOn
  updates := 0

/-- Asks for a new picture. -/
def update (v : Viewport R) : Viewport R := { v with updates := v.updates + 1 }

/-! ## What the host pushes in -/

/-- Shows the robot. The trail grows if it does not stand where it was shown last. -/
def setRobot (v : Viewport R) (r : Robot R) : Viewport R :=
  let stays := !v.trail.isEmpty && r.standsLike v.robot
  update { v with robot := r, trail := if stays then v.trail else v.trail ++ [r.position] }

/-- Replaces the obstacles. -/
def setObstacles (v : Viewport R) (obstacles : List (Obstacle R)) : Viewport R :=
  update { v with obstacles }

/-- Changes the size of the robot. -/
def setAgentSize (v : Viewport R) (agentSize : List R) : Viewport R := update { v with agentSize }

/-- Forgets the trail. -/
def clearTrail (v : Viewport R) : Viewport R := update { v with trail := [] }

/-! ## What the viewer does -/

/-- Switches an option over. -/
def toggle (v : Viewport R) (option : ViewOption) : Viewport R :=
  update { v with shown := v.shown.toggle option }

/-- Switches the option of a name over; nothing happens for another name. -/
def toggleNamed (v : Viewport R) (name : String) : Viewport R :=
  match ViewOption.ofName? name with
  | some option => v.toggle option
  | none => v

/-- Puts the camera back. -/
def resetView (v : Viewport R) : Viewport R := update { v with camera := .start }

/-- A mouse button goes down. -/
def press (v : Viewport R) (p : Pixel) : Viewport R := { v with mouse := p }

/-- Half a degree for each pixel. -/
def degreesFor (pixels : Int) : Except Fault Float := (Float.ofInt? pixels).map (· * 0.5)

/-- Leads the camera around as the mouse moves to a place. -/
def orbit (p : Pixel) : EStateM Fault (Viewport R) Unit := do
  let mouse := (← get).mouse
  let down ← MonadExcept.ofExcept (degreesFor (p.y - mouse.y))
  modify fun v => { v with camera.pitch := clamp (v.camera.pitch + down) (-89.0) 89.0 }
  let across ← MonadExcept.ofExcept (degreesFor (p.x - mouse.x))
  modify fun v => { v with camera.yaw := v.camera.yaw + across }

/-- The mouse moves; with the button down it leads the camera around. -/
def drag (p : Pixel) (leading : Bool) : EStateM Fault (Viewport R) Unit := do
  if leading then orbit p
  modify fun v => update { v with mouse := p }

/-- The mouse wheel turns: the camera comes nearer, or moves away. -/
def wheel (amount : Int) : EStateM Fault (Viewport R) Unit := do
  let clicks := (← MonadExcept.ofExcept (Float.ofInt? amount)) / 120.0
  modify fun v =>
    update { v with camera.zoom := Scalar.min (-2.0) (v.camera.zoom + clicks * 1.5) }

end

/-! ## Pictures -/

open Instruction

/-- Prepares the drawing: a dark background, hidden surfaces and transparent obstacles. -/
def prepare : Drawing :=
  [background ⟨0.1, 0.1, 0.18⟩ 1.0, enable "GL_DEPTH_TEST", enable "GL_LINE_SMOOTH",
    enable "GL_BLEND", blend]

/-- Adapts the drawing to a size of the window. -/
def resize (width height : Int) : Except Fault Drawing := do
  let w ← Float.ofInt? width
  let h ← Float.ofInt? height
  let aspect := if 0 < height then Float.ofQuotient width height.toNat else 1.0
  return [area w h, transformation "GL_PROJECTION", unmoved, perspective 60.0 aspect 0.1 1000.0]

variable {R : Type} [Scalar R]

/-- Draws the agent; its size must have three parts. -/
def paintAgent (v : Viewport R) : Except Fault Drawing :=
  match v.agentSize.map Scalar.toFloat with
  | [width, height, depth] =>
    .ok (Drawing.agent (v.robot.position.map Scalar.toFloat) (Scalar.toFloat v.robot.heading)
      v.robot.moving width height depth)
  | parts => .error (if parts.length < 3 then .tooFewParts parts.length else .tooManyParts)

/-- The picture. -/
def paint (v : Viewport R) : Except Fault Drawing := do
  let p := v.robot.position.map Scalar.toFloat
  let side (on : Bool) (part : Drawing) : Drawing := if on then part else []
  let agent ← paintAgent v
  return [wipe, transformation "GL_MODELVIEW", unmoved,
      translate ⟨0.0, 0.0, v.camera.zoom⟩, rotate v.camera.pitch ⟨1.0, 0.0, 0.0⟩,
      rotate v.camera.yaw ⟨0.0, 1.0, 0.0⟩] ++
    side v.shown.follow [translate ⟨-p.x, -p.y, -p.z⟩] ++
    side v.shown.grid Drawing.grid ++
    side v.shown.axes Drawing.axes ++
    (v.obstacles.flatMap fun o =>
      Drawing.box (o.map Scalar.toFloat).bounds ⟨1.0, 0.42, 0.42⟩) ++
    side v.shown.trail (Drawing.path (v.trail.map fun p => p.map Scalar.toFloat)) ++
    agent

end Viewport

/-- What happens to a viewport on the screen. -/
inductive ViewCall
  /-- It is about to draw for the first time. -/
  | prepare
  | resize (width height : Int)
  | paint
  | press (p : Pixel)
  | drag (p : Pixel) (leading : Bool)
  | wheel (amount : Int)
  deriving DecidableEq, Repr

/-- Changes the viewport; the result is what it draws at once. -/
def ViewCall.make {R : Type} [Scalar R] : ViewCall → EStateM Fault (Viewport R) Drawing
  | .prepare => return Viewport.prepare
  | .resize width height => MonadExcept.ofExcept (Viewport.resize width height)
  | .paint => do MonadExcept.ofExcept (← get).paint
  | .press p => do
    modify fun v => v.press p
    return []
  | .drag p leading => do
    Viewport.drag p leading
    return []
  | .wheel amount => do
    Viewport.wheel amount
    return []

end RobotBlocks
