import DeskCalc.Desk.State

/-! # Keys and wheel of the full-screen calculator -/

namespace DeskCalc.Desk

/-- A key of the keyboard, apart from Control. -/
inductive Key where
  | char (c : Char)
  | enter
  | left
  | right
  | up
  | down
  | home
  | toEnd
  | pageUp
  | pageDown
  | backspace
  | delete
  | escape
  | tab
  | function (n : Nat)
deriving DecidableEq

/-- What the mouse does. -/
inductive Mouse where
  | scrollUp
  | scrollDown
  | other
deriving DecidableEq

/-- Something that happens at the terminal. -/
inductive Event where
  /-- A key goes down, with or without Control. -/
  | press (key : Key) (control : Bool)
  /-- A key comes up. -/
  | release (key : Key)
  | mouse (mouse : Mouse)
  /-- The window gains the focus. -/
  | focus
  /-- Nothing happened for a while. -/
  | idle
deriving DecidableEq

/-- The rows by which one notch of the wheel scrolls. -/
def wheelStep : Nat := 3

/-- The rows by which a page key scrolls the help text. -/
def helpPage : Nat := 10

/-- What a key does while the help screen is shown. -/
def helpKey (d : Desk) : Key → Desk
  | .down => { d with helpScroll := d.helpScroll + 1 }
  | .up => { d with helpScroll := d.helpScroll - 1 }
  | .pageDown => { d with helpScroll := d.helpScroll + helpPage }
  | .pageUp => { d with helpScroll := d.helpScroll - helpPage }
  | .escape => d.closeHelp
  -- Control is not looked at here, so Ctrl+C is a key like any other
  | _ => d

/-- The desk with its entry field changed. -/
def edit (d : Desk) (f : EntryField → EntryField) : Desk := { d with entry := f d.entry }

/-- What a key does on the main screen.  An expression submitted by it takes `elapsed` nanoseconds
to evaluate. -/
def editorKey (d : Desk) (elapsed : Nat) (key : Key) (control : Bool) : Desk :=
  match key, control with
  | .char c, true =>
    if c = 'c' ∨ c = 'd' then { d with quitting := true }
    else if c = 'u' ∨ c = 'U' then d.clearEntry
    else d
  | .char c, false => d.edit (·.insert c)
  | .left, true => d.edit (·.wordLeft)
  | .right, true => d.edit (·.wordRight)
  | .left, false => d.edit (·.left)
  | .right, false => d.edit (·.right)
  | .home, _ => d.edit (·.home)
  | .toEnd, _ => d.edit (·.toEnd)
  | .backspace, _ => d.edit (·.backspace)
  | .delete, _ => d.edit (·.delete)
  | .up, _ => d.select (-1)
  | .down, _ => d.select 1
  | .pageUp, _ => d.page (-1)
  | .pageDown, _ => d.page 1
  | .enter, _ => d.submit elapsed
  | .function 1, _ => d.openHelp
  | _, _ => d

/-- What a key does on the screen that is shown. -/
def press (d : Desk) (elapsed : Nat) (key : Key) (control : Bool) : Desk :=
  if d.helpShown then d.helpKey key else d.editorKey elapsed key control

/-- Scrolls the screen that is shown. -/
def wheel (d : Desk) : Mouse → Desk
  -- neither place has an upper bound; the drawing decides what is shown
  | .scrollDown =>
    if d.helpShown then { d with helpScroll := d.helpScroll + wheelStep }
    else { d with historyScroll := d.historyScroll + wheelStep }
  | .scrollUp =>
    if d.helpShown then { d with helpScroll := d.helpScroll - wheelStep }
    else { d with historyScroll := d.historyScroll - wheelStep }
  | .other => d

/-- What an event does. -/
def handle (d : Desk) (elapsed : Nat) : Event → Desk
  | .press key control => d.press elapsed key control
  | .mouse mouse => d.wheel mouse
  | _ => d

end DeskCalc.Desk
