import RobotBlocks.View.Window

/-!
# The layout of the window

The widgets that the window is made of, as a tree: what each is, how it is set up, what it says and
what it holds. Texts that change are those of the window's state.
-/

namespace RobotBlocks

/-- A widget, a layout, or the empty space that keeps others apart. -/
inductive Widget
  | stretch
  /-- Its class, the calls that set it up, what else can be read off it, and what it holds. -/
  | node (kind : String) (settings : List (String × List Data)) (properties : Fields)
    (content : List Widget)

namespace Widget

/-! ## Kinds of widgets -/

/-- A widget that only holds others. -/
def holder (kind : String) (content : List Widget) : Widget := node kind [] [] content

/-- A widget with a text. -/
def labelled (kind text : String) : Widget := node kind [] [("text", .text text)] []

/-- A label. -/
def label (text : String) : Widget := labelled "QLabel" text

/-- A button. -/
def button (text : String) : Widget := labelled "QPushButton" text

/-- The setting of a font. -/
def font (family : String) (size : Int) : String × List Data :=
  ("setFont", [.list [.text family, .integer size]])

/-- The setting of a style sheet. -/
def styleSheet (text : String) : String × List Data := ("setStyleSheet", [.text text])

/-- The setting of margins of the same width. -/
def margins (width : Int) : String × List Data :=
  ("setContentsMargins", List.replicate 4 (.integer width))

/-- A pane with several parts, side by side or below one another, with their sizes. -/
def splitter (orientation : String) (sizes : List Int) (content : List Widget) : Widget :=
  node "QSplitter" [("setSizes", [.list (sizes.map .integer)])] [("orientation", .text orientation)]
    content

/-- A titled box of texts that cannot be written to. -/
def textBox (title : String) : Widget :=
  holder "QWidget"
    [node "QVBoxLayout" [margins 0] []
      [label title,
       node "QTextEdit"
        [("setReadOnly", [.flag true]), ("setMaximumHeight", [.integer 150])] [] []]]

end Widget

namespace Window

open Widget

variable {R : Type} [Scalar R]

/-- The buttons, the list of agents, the speed and the status. -/
def toolbar (w : Window R) : Widget :=
  holder "QHBoxLayout"
    [button "Load Project", button "Run", button w.pauseButton, button "Stop", button "Reset",
     stretch, label "Agent:",
     node "QComboBox" []
       [("items", .list (Config.agentNames.map fun (name : String) => .text name))] [],
     label "Speed:",
     node "QSlider" [("setFixedWidth", [.integer 150])]
       [("orientation", .text "Horizontal"),
        ("range", .list [.integer sliderRange.1, .integer sliderRange.2])] [],
     label w.speedLabel, label w.status]

/-- What an option is called in the window. -/
def optionLabel : ViewOption → String
  | .grid => "Grid"
  | .axes => "Axes"
  | .trail => "Trail"
  | .follow => "Follow agent"

/-- The boxes of the options. -/
def optionBar : Widget :=
  holder "QHBoxLayout"
    ((ViewOption.all.map fun o => labelled "QCheckBox" (optionLabel o)) ++
      [button "Reset View", stretch])

/-- The code. -/
def codePane : Widget :=
  node "QPlainTextEdit"
    [("setReadOnly", [.flag true]), font "Consolas" 11,
     styleSheet "QPlainTextEdit \x7b background-color: #1e1e2e; color: #e0e0e0; \x7d"] [] []

/-- The statistics, and where the robot is. -/
def infoPane (w : Window R) : Widget :=
  holder "QWidget"
    [node "QVBoxLayout" [margins 5] []
      [node "QLabel"
        [font "Courier" 9,
         styleSheet "QLabel \x7b background-color: #f0f0f0; padding: 5px; \x7d"]
        [("text", .text w.statistics)] [],
       node "QLabel" [font "Courier" 9] [("text", .text w.pose)] [],
       stretch]]

/-- The widgets of the window. -/
def layout (w : Window R) : Widget :=
  node "QMainWindow"
    [("setWindowTitle", [.text "Block Program Simulator"]),
     ("setGeometry", [.integer 100, .integer 100, .integer 1500, .integer 950])] []
    [holder "QWidget"
      [holder "QVBoxLayout"
        [toolbar w, optionBar,
         splitter "Vertical" [750, 200]
           [splitter "Horizontal" [450, 800, 250]
             [codePane, holder "QOpenGLWidget" [], infoPane w],
            splitter "Horizontal" [500, 500]
             [textBox "Block Warnings:", textBox "Console Output:"]]]]]

end Window

end RobotBlocks
