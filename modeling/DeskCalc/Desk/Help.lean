import DeskCalc.Desk.State
import DeskCalc.Screen.Panel
import DeskCalc.Screen.Paragraph

/-! # The help screen -/

namespace DeskCalc.Desk

open Screen

/-- A heading of the help text. -/
def helpHeading (text : String) : Row :=
  [Span.styled text ⟨some .cyan, none, false, true⟩]

/-- A line of the help text. -/
def helpLine (text : String) : Row :=
  [Span.ofString text]

/-- The help text of a desk that quits at `exitWord`. -/
def helpText (exitWord : List Char) : List Row :=
  [ [Span.styled "pdacalc - Postfix Desk Calculator" (Style.boldColor .green)],
    helpLine "",
    helpHeading "Postfix Notation:",
    helpLine "  Operands come first, then the operator.",
    helpLine "  3 4 +        = 7",
    helpLine "  10 4 -       = 6   (left operand first)",
    helpLine "  2 3 4 * +    = 14",
    helpLine "",
    helpHeading "Operators:",
    helpLine "  + : Addition",
    helpLine "  - : Subtraction",
    helpLine "  * : Multiplication",
    helpLine "  / : Division",
    helpLine "  ~ : Negate the value on top of the stack (4 ~ = -4)",
    helpLine "",
    helpHeading "Variables:",
    helpLine "  x = 5        : Assign the rest of the line to x",
    helpLine "  x 1 +        : Read x (unknown names read as 0)",
    helpLine "  it           : Holds the last value not assigned elsewhere",
    helpLine "  Names start with a letter and may contain digits.",
    helpLine "",
    helpHeading "Errors:",
    helpLine "  A rejected line shows the reason and a ^ under the spot",
    helpLine "  where reading stopped. Variables are left unchanged.",
    helpLine "",
    helpHeading "Commands:",
    helpLine "  details <expression> : Show each step and the evaluation time",
    helpLine "  clear : Clear history (variables are kept)",
    helpLine "  help : Show this help screen",
    helpLine ("  " ++ String.ofList exitWord ++ " : Quit the calculator (also Ctrl+C)"),
    helpLine "  Ctrl+U : Clear current input",
    helpLine "  `clear` and `help` are commands here, so variables with",
    helpLine "  those names can be assigned but not read back in this screen.",
    helpLine "",
    helpHeading "Navigation:",
    helpLine "  ← → : Move cursor left/right",
    helpLine "  Ctrl+←/→ : Move cursor by words",
    helpLine "  Home/End : Move to start/end of line",
    helpLine "  ↑ ↓ : Navigate history",
    helpLine "  PgUp/PgDn : Page through history",
    helpLine "  Mouse wheel : Scroll",
    helpLine "  Esc : Close this screen" ]

/-- The frame of the help screen. -/
def helpPanel : Panel := ⟨" pdacalc Help ", .double, Style.color .yellow⟩

/-- Draws the help screen: the help text, broken into lines, from the line to which it is scrolled.
Lines are counted in sixteen bits. -/
def drawHelp (d : Desk) (width height : Nat) : Frame :=
  let c := Canvas.blank width height
  let c := c.paint c.area ⟨none, some .black, false, false⟩
  let c := helpPanel.draw c c.area
  ⟨drawFlow c c.area.inner (d.helpScroll % 65536) (helpText d.exitWord), none⟩

end DeskCalc.Desk
