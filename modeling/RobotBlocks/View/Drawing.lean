import RobotBlocks.Scene.Box

/-!
# Drawing instructions

What a picture is made of: instructions to a graphics library that keeps a current transformation,
colour and line width, and that is given shapes vertex by vertex. `box`, `polyline` and the others
put several of them together. Pictures are in doubles.
-/

namespace RobotBlocks

/-- An argument of an instruction. -/
inductive Argument
  | number (x : Float)
  | constant (name : String)

/-- An instruction. -/
structure Instruction where
  name : String
  arguments : List Argument

/-- A colour by its three parts, each between zero and one. -/
structure Colour where
  red : Float
  green : Float
  blue : Float

/-- The colour at half its brightness. -/
def Colour.darker (c : Colour) : Colour := ⟨c.red * 0.5, c.green * 0.5, c.blue * 0.5⟩

namespace Instruction

/-- An instruction whose arguments are numbers. -/
def numeric (name : String) (numbers : List Float) : Instruction := ⟨name, numbers.map .number⟩

/-- An instruction whose arguments are constants. -/
def symbolic (name : String) (constants : List String) : Instruction :=
  ⟨name, constants.map .constant⟩

/-! ## Single instructions -/

/-- Sets the colour of the background. -/
def background (c : Colour) (opacity : Float) : Instruction :=
  numeric "glClearColor" [c.red, c.green, c.blue, opacity]

/-- Switches a feature on. -/
def enable (feature : String) : Instruction := symbolic "glEnable" [feature]

/-- Mixes what is drawn with what is there by its opacity. -/
def blend : Instruction := symbolic "glBlendFunc" ["GL_SRC_ALPHA", "GL_ONE_MINUS_SRC_ALPHA"]

/-- Sets the part of the window that is drawn on. -/
def area (width height : Float) : Instruction := numeric "glViewport" [0.0, 0.0, width, height]

/-- Chooses the transformation that is changed from now on. -/
def transformation (mode : String) : Instruction := symbolic "glMatrixMode" [mode]

/-- Starts from no transformation. -/
def unmoved : Instruction := ⟨"glLoadIdentity", []⟩

/-- Sees with an angle, in degrees, and an aspect, from the nearest to the farthest. -/
def perspective (angle aspect nearest farthest : Float) : Instruction :=
  numeric "gluPerspective" [angle, aspect, nearest, farthest]

/-- Wipes the picture. -/
def wipe : Instruction := symbolic "glClear" ["GL_COLOR_BUFFER_BIT|GL_DEPTH_BUFFER_BIT"]

/-- Moves what is drawn from now on. -/
def translate (p : Point Float) : Instruction := numeric "glTranslatef" [p.x, p.y, p.z]

/-- Turns what is drawn from now on, by degrees about an axis. -/
def rotate (angle : Float) (axis : Point Float) : Instruction :=
  numeric "glRotatef" [angle, axis.x, axis.y, axis.z]

/-- Remembers the transformation. -/
def push : Instruction := ⟨"glPushMatrix", []⟩

/-- Goes back to the transformation that was remembered last. -/
def pop : Instruction := ⟨"glPopMatrix", []⟩

/-- Sets the width of lines. -/
def lineWidth (width : Float) : Instruction := numeric "glLineWidth" [width]

/-- Sets the colour. -/
def colour (c : Colour) : Instruction := numeric "glColor3f" [c.red, c.green, c.blue]

/-- Sets the colour with an opacity. -/
def glassy (c : Colour) (opacity : Float) : Instruction :=
  numeric "glColor4f" [c.red, c.green, c.blue, opacity]

/-- Gives a vertex. -/
def vertex (p : Point Float) : Instruction := numeric "glVertex3f" [p.x, p.y, p.z]

/-- Begins a shape. -/
def beginShape (shape : String) : Instruction := symbolic "glBegin" [shape]

/-- Ends a shape. -/
def endShape : Instruction := ⟨"glEnd", []⟩

end Instruction

/-- A picture, or a part of one. -/
abbrev Drawing := List Instruction

namespace Drawing

open Instruction

/-- A shape with the given inside. -/
def shape (name : String) (inside : Drawing) : Drawing := beginShape name :: (inside ++ [endShape])

/-- The six faces of a box by their corners, two for every axis. -/
def faces (b : Box Float) : List (List (Point Float)) :=
  let x₀ := b.least.x
  let y₀ := b.least.y
  let z₀ := b.least.z
  let x₁ := b.greatest.x
  let y₁ := b.greatest.y
  let z₁ := b.greatest.z
  [[⟨x₀, y₀, z₀⟩, ⟨x₁, y₀, z₀⟩, ⟨x₁, y₁, z₀⟩, ⟨x₀, y₁, z₀⟩],
   [⟨x₀, y₀, z₁⟩, ⟨x₁, y₀, z₁⟩, ⟨x₁, y₁, z₁⟩, ⟨x₀, y₁, z₁⟩],
   [⟨x₀, y₀, z₀⟩, ⟨x₀, y₁, z₀⟩, ⟨x₀, y₁, z₁⟩, ⟨x₀, y₀, z₁⟩],
   [⟨x₁, y₀, z₀⟩, ⟨x₁, y₁, z₀⟩, ⟨x₁, y₁, z₁⟩, ⟨x₁, y₀, z₁⟩],
   [⟨x₀, y₁, z₀⟩, ⟨x₁, y₁, z₀⟩, ⟨x₁, y₁, z₁⟩, ⟨x₀, y₁, z₁⟩],
   [⟨x₀, y₀, z₀⟩, ⟨x₁, y₀, z₀⟩, ⟨x₁, y₀, z₁⟩, ⟨x₀, y₀, z₁⟩]]

/-- A box with darker edges. -/
def box (b : Box Float) (c : Colour) : Drawing :=
  glassy c 0.85 :: shape "GL_QUADS" ((faces b).flatten.map vertex) ++
    [lineWidth 1.5, colour c.darker] ++
    (faces b).flatMap fun face => shape "GL_LINE_LOOP" (face.map vertex)

/-- The path through the points, slightly lifted; a single point is no path. -/
def path (points : List (Point Float)) : Drawing :=
  if points.length < 2 then []
  else
    [lineWidth 2.0, colour ⟨1.0, 0.85, 0.25⟩] ++
      shape "GL_LINE_STRIP" (points.map fun p => vertex { p with y := p.y + 0.02 })

/-- The lines of the floor, one unit apart. -/
def grid : Drawing :=
  [lineWidth 1.0, colour ⟨0.3, 0.3, 0.3⟩] ++
    shape "GL_LINES" ((List.range 51).flatMap fun n =>
      let i := Float.ofNat n - 25.0
      [vertex ⟨i, 0.0, -25.0⟩, vertex ⟨i, 0.0, 25.0⟩, vertex ⟨-25.0, 0.0, i⟩,
        vertex ⟨25.0, 0.0, i⟩])

/-- The axes at the origin. -/
def axes : Drawing :=
  let axis (c : Colour) (tip : Point Float) : Drawing :=
    [colour c, vertex ⟨0.0, 0.01, 0.0⟩, vertex tip]
  lineWidth 3.0 :: shape "GL_LINES"
    (axis ⟨1.0, 0.0, 0.0⟩ ⟨3.0, 0.01, 0.0⟩ ++ axis ⟨0.0, 1.0, 0.0⟩ ⟨0.0, 3.0, 0.0⟩ ++
      axis ⟨0.0, 0.0, 1.0⟩ ⟨0.0, 0.01, 3.0⟩)

/-- An agent of the given width, height and depth at a place, with a mark that shows where it is
heading; a moving one is brighter. -/
def agent (p : Point Float) (heading : Float) (moving : Bool) (width height depth : Float) :
    Drawing :=
  let body := Box.ofCenter ⟨0.0, height / 2.0, 0.0⟩ ⟨width, height, depth⟩
  [push, translate p, rotate (heading * (180.0 / Scalar.pi)) ⟨0.0, 1.0, 0.0⟩] ++
    box body (if moving then ⟨0.4, 0.8, 1.0⟩ else ⟨0.26, 0.6, 1.0⟩) ++
    [lineWidth 3.0, colour ⟨1.0, 1.0, 1.0⟩] ++
    shape "GL_LINES" [vertex ⟨0.0, height + 0.01, 0.0⟩, vertex ⟨0.0, height + 0.01, depth⟩] ++
    [pop]

end Drawing

end RobotBlocks
