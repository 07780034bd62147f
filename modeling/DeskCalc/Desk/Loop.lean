import DeskCalc.Desk.Draw
import DeskCalc.Desk.Events

/-! # The loop of the full-screen calculator

The screen is drawn, an event is awaited and handled, and so on until the desk quits.  The events
are those of a list; where they come from is no matter of the loop. -/

namespace DeskCalc.Desk

/-- How a run over scripted events ended. -/
structure LoopResult where
  desk : Desk
  /-- The screen as it was last drawn. -/
  frame : Screen.Frame
  /-- The events that were not consumed. -/
  unread : List Event
  /-- Whether the desk quit; otherwise the events ran out first. -/
  quit : Bool

/-- Runs a desk over events on a screen of the given size, starting with a frame already shown.
Each submitted expression takes `elapsed` nanoseconds. -/
def loopFrom (width height elapsed : Nat) (d : Desk) (frame : Screen.Frame) :
    List Event → LoopResult
  | [] =>
    if d.quitting then ⟨d, frame, [], true⟩
    else
      let (d, frame) := d.draw width height
      ⟨d, frame, [], false⟩
  | event :: rest =>
    if d.quitting then ⟨d, frame, event :: rest, true⟩
    else
      let (d, frame) := d.draw width height
      loopFrom width height elapsed (d.handle elapsed event) frame rest

/-- Runs a desk over events, starting with an empty screen. -/
def loop (width height elapsed : Nat) (d : Desk) (events : List Event) : LoopResult :=
  let size := (Screen.Size.mk width height).clip
  loopFrom width height elapsed d ⟨Screen.Canvas.blank size.width size.height, none⟩ events

end DeskCalc.Desk
