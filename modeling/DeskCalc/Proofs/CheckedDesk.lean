import DeskCalc.Proofs.CheckedDrawing
import DeskCalc.Proofs.Submissions

/-!
# Actions of a desk with every access checked

Each action looks up the entries of the history by index, cuts the request for details off a line at
a byte offset, and edits or draws with the checked operations of the entry field and the panels.  An
access that is out of bounds, and an expression that is empty behind a request for details, give
none.  No action ever gives none.

## Key results

- `splitDetails?_eq`: the cut behind the request for details is no cut through a character
- `submit?_eq`: there is an expression behind every request for details
- `act?_eq`: no action fails
-/

namespace DeskCalc

namespace Text

/-- An ASCII letter has as many bytes in lower case as in upper case. -/
private theorem utf8Size_toLower (c : Char) : c.toLower.utf8Size = c.utf8Size := by
  unfold Char.toLower
  split
  · next hupper =>
    have hlow : 'A'.val ≤ c.val := hupper.1
    have hhigh : c.val ≤ 'Z'.val := hupper.2
    rw [UInt32.le_iff_toNat_le] at hlow hhigh
    -- an upper-case letter has one byte, and so has its lower-case one
    have hone : c.utf8Size = 1 := by
      rw [Char.utf8Size_eq_one_iff, UInt32.le_iff_toNat_le]
      exact hhigh.trans (by decide)
    rw [hone, Char.utf8Size_eq_one_iff, UInt32.le_iff_toNat_le, UInt32.toNat_add]
    simp at hlow hhigh ⊢
    omega
  · rfl

/-- A text has as many bytes in lower case. -/
private theorem byteLength_map_toLower (cs : List Char) :
    byteLength (cs.map Char.toLower) = byteLength cs := by
  induction cs with
  | nil => rfl
  | cons c cs ih => rw [List.map_cons, byteLength_cons, byteLength_cons, utf8Size_toLower, ih]

end Text

namespace Desk

/-! ## Checked actions -/

/-- Splits the request for details off a line: cuts the line behind as many bytes as the request
    has.  A line without that many bytes, or with a character across the cut, is no request. -/
def splitDetails? (line : List Char) : Option (Bool × List Char) :=
  let size := Text.byteLength detailsWord
  match Text.cutAtByte line size with
  | none => some (false, line)
  | some (front, _) =>
    if front.map Char.toLower = detailsWord then
      (Text.cutAtByte line size).map fun parts => (true, Text.trim parts.2)
    else some (false, line)

/-- Takes the text of the entry field.  None if nothing is left of it behind a request for
    details. -/
def submit? (d : Desk) (elapsed : Nat) : Option Desk :=
  let line := Text.trim d.entry.chars
  if line.isEmpty then some d
  else if line = d.exitWord then some { d with quitting := true }
  else if isWord line "clear" then some d.clearHistory.clearEntry
  else if isWord line "help" then some d.openHelp.clearEntry
  else
    (splitDetails? line).bind fun (detailed, expression) =>
      if expression.isEmpty then none
      else some (d.evaluate expression detailed elapsed).clearEntry

/-- Moves the selection by `delta` entries.  None if there is no entry at the index, although the
    history is not empty. -/
def select? (d : Desk) (delta : Int) : Option Desk :=
  if d.history.isEmpty then some d
  else
    let target := min ((d.selected : Int) + delta).toNat (d.history.length - 1)
    d.history[target]?.map fun entry =>
      { d with selected := target, entry := d.entry.replace entry.input, scrollToBottom := false }

/-- Moves the selection by `direction` pages. -/
def page? (d : Desk) (direction : Int) : Option Desk :=
  d.select? (direction * (max (d.listHeight - 1) 1 : Nat))

/-- The desk with its entry field changed. -/
def edit? (d : Desk) (f : EntryField → Option EntryField) : Option Desk :=
  (f d.entry).map fun entry => { d with entry }

/-- What a key does on the main screen. -/
def editorKey? (d : Desk) (elapsed : Nat) (key : Key) (control : Bool) : Option Desk :=
  match key, control with
  | .char c, false => d.edit? (·.insert? c)
  | .left, true => d.edit? (·.wordLeft?)
  | .right, true => d.edit? (·.wordRight?)
  | .backspace, _ => d.edit? (·.backspace?)
  | .delete, _ => d.edit? (·.delete?)
  | .up, _ => d.select? (-1)
  | .down, _ => d.select? 1
  | .pageUp, _ => d.page? (-1)
  | .pageDown, _ => d.page? 1
  | .enter, _ => d.submit? elapsed
  -- the other keys look nothing up
  | key, control => some (d.editorKey elapsed key control)

/-- What an event does. -/
def handle? (d : Desk) (elapsed : Nat) : Event → Option Desk
  | .press key control =>
    if d.helpShown then some (d.helpKey key) else d.editorKey? elapsed key control
  | event => some (d.handle elapsed event)

/-- Does something to a desk, every access being checked. -/
def act? (d : Desk) (elapsed : Nat) : Action → Option Desk
  | .handle event => d.handle? elapsed event
  | .select delta => d.select? delta
  | .page direction => d.page? direction
  | .submit => d.submit? elapsed
  | .draw width height => d.draw? width height

/-! ## No action fails -/

/-- The request for details is so many characters long as it has bytes, in any case of its
    letters. -/
theorem splitDetails?_eq (line : List Char) : splitDetails? line = some (splitDetails line) := by
  unfold splitDetails? splitDetails
  dsimp only
  by_cases hrequest : (line.take detailsWord.length).map Char.toLower = detailsWord
  · have hcut : Text.cutAtByte line (Text.byteLength detailsWord) =
        some (line.take detailsWord.length, line.drop detailsWord.length) := by
      rw [Text.cutAtByte_eq_some_iff, ← Text.byteLength_map_toLower, hrequest]
      exact ⟨(List.take_append_drop _ _).symm, rfl⟩
    rw [hcut, if_pos hrequest]
    simp only [if_pos hrequest, Option.map_some]
  · rw [if_neg hrequest]
    cases hcut : Text.cutAtByte line (Text.byteLength detailsWord) with
    | none => rfl
    | some parts =>
      -- the front of the line has the characters of the request only if it has as many of them
      obtain ⟨rfl, -⟩ := Text.cutAtByte_eq_some hcut
      refine if_neg fun hfront => hrequest ?_
      have hlength : parts.1.length = detailsWord.length := by
        rw [← hfront, List.length_map]
      rw [List.take_left' hlength, hfront]

/-- Behind a request for details there is an expression, since the space of the request does not end
    the line. -/
private theorem splitDetails_trim_ne_nil {text : List Char} (hne : Text.trim text ≠ []) :
    (splitDetails (Text.trim text)).2 ≠ [] := by
  rw [splitDetails_eq]
  split
  · next hrequest =>
    have hspace : "details".toList ++ [' '] <+: (Text.trim text).map Char.toLower := hrequest
    exact Text.trim_drop_ne_nil "details".toList hne hspace
  · exact hne

/-- `submit?` never fails. -/
theorem submit?_eq (d : Desk) (elapsed : Nat) : d.submit? elapsed = some (d.submit elapsed) := by
  unfold submit? submit
  dsimp only
  split
  · rfl
  · next hne =>
    have hexpression := splitDetails_trim_ne_nil (mt List.isEmpty_iff.2 hne)
    have hempty : ¬ (splitDetails (Text.trim d.entry.chars)).2.isEmpty = true :=
      mt List.isEmpty_iff.1 hexpression
    rw [splitDetails?_eq, Option.bind_some, if_neg hempty, if_neg hempty]
    -- both now take the same cases
    repeat' split
    all_goals rfl

/-- `select?` never fails. -/
private theorem select?_eq (d : Desk) (delta : Int) : d.select? delta = some (d.select delta) := by
  unfold select? select
  dsimp only
  by_cases hempty : d.history = []
  · simp [hempty]
  · have hlt : min ((d.selected : Int) + delta).toNat (d.history.length - 1) <
        d.history.length := by
      have hpos := List.length_pos_iff.2 hempty
      omega
    rw [if_neg (mt List.isEmpty_iff.1 hempty), List.getElem?_eq_getElem hlt]
    rfl

/-- `page?` never fails. -/
private theorem page?_eq (d : Desk) (direction : Int) : d.page? direction = some
    (d.page direction) :=
  d.select?_eq _

/-- An edit that does not fail leaves the desk that the edit leaves. -/
private theorem edit?_eq {d : Desk} {f? : EntryField → Option EntryField}
    {f : EntryField → EntryField}
    (h : f? d.entry = some (f d.entry)) : d.edit? f? = some (d.edit f) := by
  rw [edit?, h]
  rfl

/-- `editorKey?` never fails. -/
private theorem editorKey?_eq (d : Desk) (elapsed : Nat) (key : Key) (control : Bool) :
    d.editorKey? elapsed key control = some (d.editorKey elapsed key control) := by
  -- only the keys that edit or submit cut a text; the others are the same by definition
  cases key with
  | char c =>
    cases control with
    | false =>
      show d.edit? (fun f => f.insert? c) = some (d.edit fun f => f.insert c)
      exact edit?_eq (d.entry.insert?_eq c)
    | true => rfl
  | left =>
    cases control with
    | false => rfl
    | true => exact edit?_eq d.entry.wordLeft?_eq
  | right =>
    cases control with
    | false => rfl
    | true => exact edit?_eq d.entry.wordRight?_eq
  | backspace => exact edit?_eq d.entry.backspace?_eq
  | delete => exact edit?_eq d.entry.delete?_eq
  | up => exact d.select?_eq _
  | down => exact d.select?_eq _
  | pageUp => exact d.page?_eq _
  | pageDown => exact d.page?_eq _
  | enter => exact d.submit?_eq elapsed
  | home | toEnd | escape | tab | function => rfl

/-- No action fails. -/
theorem act?_eq (d : Desk) (elapsed : Nat) (a : Action) :
    d.act? elapsed a = some (d.act elapsed a) := by
  cases a with
  | select delta => exact d.select?_eq delta
  | page direction => exact d.page?_eq direction
  | submit => exact d.submit?_eq elapsed
  | draw width height => exact d.draw?_eq width height
  | handle event =>
    cases event with
    | press key control =>
      show (if d.helpShown then _ else _) = some (if d.helpShown then _ else _)
      split
      · rfl
      · exact d.editorKey?_eq elapsed key control
    | release | mouse | focus | idle => rfl

end Desk

end DeskCalc
