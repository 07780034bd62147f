import DeskCalc.Desk.Help
import DeskCalc.Desk.History
import DeskCalc.Screen.RowList
import DeskCalc.Screen.Size

/-! # The main screen

From top to bottom: the expression being typed, the key hints, and the history with the variables to
its right.  Drawing brings the entry field's window to the cursor and records where the history
entries start, so it answers with a changed desk besides the drawn frame. -/

namespace DeskCalc.Desk

open Screen

/-- The smallest screen on which the desk is drawn. -/
def minWidth : Nat := 50

/-- The height of the smallest screen. -/
def minHeight : Nat := 10

/-- The width of the variables panel. -/
def variablesWidth : Nat := 24

/-- Draws a notice that the screen is too small. -/
def drawTooSmall (width height : Nat) : Frame :=
  let c := Canvas.blank width height
  let size (w h : Nat) : String := toString w ++ "x" ++ toString h
  let c := Panel.draw ⟨" Window Too Small ", .single, Style.color .red⟩ c c.area
  let notice := "Need at least " ++ size minWidth minHeight ++ ", have " ++ size width height
  let advice := "Enlarge the window to continue"
  let rows : List Row :=
    [[Span.styled notice (Style.boldColor .red)], [Span.styled advice (Style.color .yellow)]]
  ⟨drawCentered c c.area.inner rows, none⟩

/-- The number of characters of the expression that the panel shows on a screen of this width: two
columns go to the border and two to the marker. -/
def entryWidth (width : Nat) : Nat := width - 4

/-- The characters of the expression that are shown. -/
def shownChars (f : EntryField) (width : Nat) : List Char :=
  (f.chars.drop f.scroll).take width

/-- The column of the terminal cursor on the screen: behind the border, the marker and the shown
characters before the cursor. -/
def cursorColumn (f : EntryField) (width : Nat) : Nat :=
  3 + Text.width ((shownChars f width).take (f.cursor - f.scroll))

/-- The first line of a text, without its end. -/
def firstLine (text : List Char) : List Char :=
  let line := text.takeWhile (· != '\n')
  if line.length < text.length ∧ line.getLast? = some '\r' then line.dropLast else line

/-- Draws the expression, with marks where it goes on beyond the window. -/
def drawEntry (f : EntryField) (c : Canvas) : Canvas :=
  let area : Area := ⟨0, 0, c.width, 3⟩
  let width := entryWidth c.width
  let c := (Panel.titled " Expression ").draw c area
  let c := drawRows c area.inner [[⟨firstLine ('>' :: ' ' :: shownChars f width), Style.plain⟩]]
  -- the marks cover what stands in the first and in the last column of the panel
  let c := if 0 < f.scroll then c.put 1 1 ['<'] (Style.color .darkGray) else c
  if f.scroll + width < f.chars.length then c.put (c.width - 2) 1 ['>'] (Style.color .darkGray)
  else c

/-- The keys and what they do. -/
def keyHints : List (String × String) :=
  [("Enter", "evaluate"), ("Up/Down", "recall"), ("PgUp/PgDn", "page"), ("F1", "help"),
    ("Ctrl+U", "clear line")]

/-- Draws the key hints. -/
def drawKeyHints (c : Canvas) : Canvas :=
  let row : Row := keyHints.flatMap fun (key, action) =>
    [Span.styled key (Style.boldColor .yellow),
      Span.styled (" " ++ action ++ "  ") (Style.color .darkGray)]
  drawRows c ⟨0, 3, c.width, 1⟩ [row]

/-- The area of the history panel. -/
def historyArea (width height : Nat) : Area :=
  ⟨0, 4, width - variablesWidth, height - 4⟩

/-- The area of the variables panel. -/
def variablesArea (width height : Nat) : Area :=
  ⟨width - variablesWidth, 4, variablesWidth, height - 4⟩

/-- The look of the selected row. -/
def selectedStyle : Style := ⟨none, some .darkGray, true, false⟩

/-- The desk with its history panel laid out for an area: the starts of the entries, and the end of
the history in view if that was asked for. -/
def layOutHistory (d : Desk) (inner : Area) : Desk :=
  if d.history.isEmpty then d
  else
    let (rows, starts) := d.historyRows inner.width
    { d with
      itemStarts := starts
      -- a place behind the last row is not corrected here
      historyScroll := if d.scrollToBottom then rows.length - inner.height else d.historyScroll
      scrollToBottom := false }

/-- Draws the history of a desk that is laid out for the area. -/
def drawHistory (d : Desk) (area : Area) (c : Canvas) : Canvas :=
  let inner := area.inner
  let c := (Panel.titled " History ").draw c area
  if d.history.isEmpty then
    let hint := "Type a postfix expression such as 3 4 + and press Enter"
    let style := Style.color .darkGray
    drawCentered (c.paint inner style) inner [[Span.styled hint style]]
  else
    let (rows, starts) := d.historyRows inner.width
    drawRowList c inner rows d.historyScroll starts[d.selected]? selectedStyle

/-- The row of a variable. -/
def variableRow (binding : String × Float) : Row :=
  [Span.styled binding.1 (Style.boldColor .lightBlue), Span.styled " = " (Style.color .gray),
    Span.styled (Decimal.valueText binding.2) (Style.color .lightMagenta)]

/-- Draws the variables in the order of the symbol table. -/
def drawVariables (symbols : SymbolTable) (area : Area) (c : Canvas) : Canvas :=
  let panel := Panel.titled " Variables "
  if symbols.entries.isEmpty then
    let style := Style.color .darkGray
    drawCentered (panel.draw (c.paint area style) area) area.inner [[Span.styled "(empty)" style]]
  else
    drawRowList (panel.draw c area) area.inner (symbols.entries.map variableRow) 0 none Style.plain

/-- Draws the main screen. -/
def drawMain (d : Desk) (width height : Nat) : Desk × Frame :=
  if width < minWidth ∨ height < minHeight then (d, drawTooSmall width height)
  else
    let area := historyArea width height
    let d := { d with entry := d.entry.fitScroll (entryWidth width) }
    let d := { d.layOutHistory area.inner with listHeight := area.height }
    let c := drawKeyHints (drawEntry d.entry (Canvas.blank width height))
    let c := drawVariables d.calculator.symbols (variablesArea width height) (d.drawHistory area c)
    (d, ⟨c, some (cursorColumn d.entry (entryWidth width), 1)⟩)

/-- Draws the screen that is shown, as large as one of the size asked for can be. -/
def draw (d : Desk) (width height : Nat) : Desk × Frame :=
  let size := (Size.mk width height).clip
  if d.helpShown then (d, d.drawHelp size.width size.height)
  else d.drawMain size.width size.height

end DeskCalc.Desk
