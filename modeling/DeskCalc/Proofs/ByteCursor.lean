import DeskCalc.Input.LineCursor
import DeskCalc.Proofs.ByteOffsets
import DeskCalc.Proofs.Scanner

/-!
# A line cursor that counts bytes

A cursor can hold its line whole, the byte offset at which reading goes on, and the width of the
character that was read last.  Reading cuts the line at the offset, and giving a character back
moves the offset down by the width, so both would fail if the offset were no place between two
characters or lay too close to the start.  Neither can happen: each operation of such a cursor is
the one of the split line.

A third cursor counts characters and keeps a flag for the pushback slot.  It follows the moves of
the other two, and a character can be given back just if the last move was to read it.

## Key results

- `LineCursor.advance_toBytes`, `LineCursor.unread_toBytes`: no operation on bytes fails, and each
  is the operation on the split line
- `LineCursor.simulates_toBytes`: where the byte offset stands
- `LineCursor.move_of_advance`, `LineCursor.move_of_unread`: the cursor that counts characters
  follows
- `IndexCursor.canUnread_iff_of_play`: the slot is filled just after a character was read
-/

namespace DeskCalc

/-! ## The cursor that counts bytes -/

/-- A line, the byte offset at which reading goes on, and the number of bytes of the character that
    can be given back. -/
structure ByteCursor where
  line : List Char
  index : Nat
  lastWidth : Option Nat

namespace ByteCursor

/-- The cursor before any line. -/
def empty : ByteCursor := ⟨[], 0, none⟩

/-- The cursor at the start of `line`, to which the end of line is added. -/
def load (line : List Char) : ByteCursor := ⟨line ++ ['\n'], 0, none⟩

/-- Whether all bytes have been read. -/
def isExhausted (c : ByteCursor) : Bool := decide (Text.byteLength c.line ≤ c.index)

/-- Reads a character.  None if the line cannot be cut at the offset. -/
def advance (c : ByteCursor) : Option (Option Char × ByteCursor) :=
  (Text.cutAtByte c.line c.index).map fun parts =>
    match parts.2 with
    | [] => (none, c)
    | a :: _ => (some a, { c with index := c.index + a.utf8Size, lastWidth := some a.utf8Size })

/-- Gives the last character back.  None if the offset is less than the width of that character. -/
def unread (c : ByteCursor) : Option (Except CursorError ByteCursor) :=
  match c.lastWidth with
  | none => some (.error .nothingToUnread)
  | some width =>
    if width ≤ c.index then some (.ok { c with index := c.index - width, lastWidth := none })
    else none

/-- Skips to the end of the buffer. -/
def flush (c : ByteCursor) : ByteCursor :=
  { c with index := Text.byteLength c.line, lastWidth := none }

/-- The number of characters before the offset.  None if the line cannot be cut there. -/
def position? (c : ByteCursor) : Option Nat :=
  (Text.cutAtByte c.line c.index).map fun parts => parts.1.length

/-- The characters behind the offset.  Nothing is left if the line cannot be cut there. -/
def rest (c : ByteCursor) : List Char := ((Text.cutAtByte c.line c.index).map Prod.snd).getD []

/-- All of the line is left to read behind `load`, and its end. -/
theorem rest_load (line : List Char) : (load line).rest = line ++ ['\n'] := by
  rw [rest, load, Text.cutAtByte]
  rfl

/-- Nothing is left behind the last byte. -/
theorem rest_of_isExhausted {c : ByteCursor} (h : c.isExhausted = true) : c.rest = [] := by
  rw [isExhausted, decide_eq_true_eq] at h
  unfold rest
  cases hcut : Text.cutAtByte c.line c.index with
  | none => rfl
  | some parts =>
    obtain ⟨front, more⟩ := parts
    obtain ⟨hline, hindex⟩ := Text.cutAtByte_eq_some hcut
    rw [hline, Text.byteLength_append] at h
    have hzero : Text.byteLength more = 0 := by omega
    exact Text.byteLength_eq_zero_iff.1 hzero

/-- The character that is read stood in front of what is left. -/
theorem rest_of_advance {c c' : ByteCursor} {a : Char} (h : c.advance = some (some a, c')) :
    c.rest = a :: c'.rest := by
  obtain ⟨⟨front, more⟩, hcut, hparts⟩ := Option.map_eq_some_iff.1 h
  obtain ⟨hline, hindex⟩ := Text.cutAtByte_eq_some hcut
  cases more with
  | nil => cases hparts
  | cons b more =>
    cases hparts
    -- the offset moves by the width of `a`, to the next place at which the line can be cut
    have hnext : Text.cutAtByte c.line (c.index + a.utf8Size) = some (front ++ [a], more) := by
      rw [Text.cutAtByte_eq_some_iff, hline, ← hindex]
      simp
    rw [rest, rest, hcut, hnext]
    rfl

end ByteCursor

/-! ## The cursor that counts characters -/

/-- A line, the number of characters that have been read, and whether the last of them can be given
    back. -/
structure IndexCursor where
  line : List Char
  index : Nat
  canUnread : Bool

/-- Something that changes a cursor. -/
inductive CursorMove where
  | load (line : List Char)
  | read (c : Char)
  | unread
  | flush

namespace IndexCursor

/-- The cursor before any line. -/
def empty : IndexCursor := ⟨[], 0, false⟩

/-- The cursor behind a move; none if the move is not possible. -/
def move (i : IndexCursor) : CursorMove → Option IndexCursor
  | .load line => some ⟨line ++ ['\n'], 0, false⟩
  | .read c =>
    if i.line[i.index]? = some c then some { i with index := i.index + 1, canUnread := true }
    else none
  | .unread =>
    if i.canUnread ∧ 0 < i.index then some { i with index := i.index - 1, canUnread := false }
    else none
  | .flush => some { i with index := i.line.length, canUnread := false }

/-- The cursor behind several moves. -/
def play (moves : List CursorMove) : Option IndexCursor := moves.foldlM move empty

/-- `play` goes on from where the first moves lead. -/
theorem play_append (moves more : List CursorMove) :
    play (moves ++ more) = (play moves).bind fun i => more.foldlM move i := by
  rw [play, List.foldlM_append]
  rfl

/-- `play` ends with its last move. -/
private theorem play_snoc (moves : List CursorMove) (m : CursorMove) :
    play (moves ++ [m]) = (play moves).bind fun i => i.move m := by
  rw [play_append]
  simp

/-- A move that is possible leads one step on. -/
theorem play_of_move {moves : List CursorMove} {m : CursorMove} {i i' : IndexCursor}
    (h : play moves = some i) (hm : i.move m = some i') : play (moves ++ [m]) = some i' := by
  rw [play_snoc, h]
  exact hm

/-- The slot is filled by reading a character and emptied by every other move. -/
private theorem canUnread_iff_of_move {i i' : IndexCursor} {m : CursorMove}
    (h : i.move m = some i') :
    i'.canUnread = true ↔ ∃ c, m = .read c := by
  cases m with
  | load line => cases h; simp
  | read c =>
    obtain ⟨-, hi⟩ := Option.ite_none_right_eq_some.1 h
    cases hi
    simp
  | unread =>
    obtain ⟨-, hi⟩ := Option.ite_none_right_eq_some.1 h
    cases hi
    simp
  | flush => cases h; simp

/-- A character can be given back if the last move was to read one. -/
theorem canUnread_iff_of_play {moves : List CursorMove} {i : IndexCursor}
    (h : play moves = some i) : i.canUnread = true ↔ ∃ c, moves.getLast? = some (.read c) := by
  -- by the last move, which alone decides whether the slot is filled
  induction moves using List.reverseRecOn with
  | nil =>
    obtain rfl : empty = i := Option.some.inj h
    simp [empty]
  | append_singleton moves m _ =>
    rw [play_snoc, Option.bind_eq_some_iff] at h
    obtain ⟨i₀, -, hm⟩ := h
    rw [canUnread_iff_of_move hm, List.getLast?_append]
    simp

/-- The character that was read last stands before the cursor. -/
theorem getElem?_of_play {moves : List CursorMove} {i : IndexCursor} {c : Char}
    (h : play moves = some i) (hlast : moves.getLast? = some (.read c)) :
    0 < i.index ∧ i.line[i.index - 1]? = some c := by
  obtain ⟨front, rfl⟩ := List.getLast?_eq_some_iff.1 hlast
  rw [play_snoc, Option.bind_eq_some_iff] at h
  obtain ⟨i₀, -, hm⟩ := h
  obtain ⟨hc, hi⟩ := Option.ite_none_right_eq_some.1 hm
  cases hi
  exact ⟨Nat.succ_pos _, hc⟩

end IndexCursor

/-- A cursor that counts bytes stands where one stands that counts characters. -/
structure ByteCursor.Simulates (c : ByteCursor) (i : IndexCursor) : Prop where
  line_eq : c.line = i.line
  index_eq : c.index = EditLine.byteOffset i.line i.index
  isValid : (String.Pos.Raw.mk c.index).IsValid (String.ofList c.line)
  index_le : c.index ≤ Text.byteLength c.line
  chars_le : i.index ≤ i.line.length
  position_eq : c.position? = some i.index
  lastWidth_isSome : c.lastWidth.isSome = i.canUnread

namespace LineCursor

/-! ## The split line on bytes -/

/-- The cursor on bytes that stands where the line is split. -/
def toBytes (c : LineCursor) : ByteCursor where
  line := c.line
  index := Text.byteLength c.consumed
  lastWidth := if c.canUnread then c.consumed.head?.map Char.utf8Size else none

/-- The cursor on characters that stands where the line is split. -/
def toIndex (c : LineCursor) : IndexCursor := ⟨c.line, c.position, c.canUnread⟩

/-- The slot is filled only behind a character. -/
def HasLast (c : LineCursor) : Prop := c.canUnread = true → c.consumed ≠ []

/-- The line can be cut at the offset, into what has been read and what is left. -/
theorem cutAtByte_toBytes (c : LineCursor) :
    Text.cutAtByte c.toBytes.line c.toBytes.index = some (c.consumed.reverse, c.rest) := by
  rw [Text.cutAtByte_eq_some_iff]
  exact ⟨rfl, Text.byteLength_reverse c.consumed⟩

/-- `load` on bytes is `load` on the split line. -/
theorem load_toBytes (line : List Char) : (load line).toBytes = ByteCursor.load line := rfl

/-- `isExhausted` on bytes says whether anything is left to read. -/
theorem isExhausted_toBytes (c : LineCursor) : c.toBytes.isExhausted = c.isExhausted := by
  rw [Bool.eq_iff_iff, isExhausted_eq_true_iff, ByteCursor.isExhausted, decide_eq_true_eq]
  show Text.byteLength (c.consumed.reverse ++ c.rest) ≤ Text.byteLength c.consumed ↔ c.rest = []
  rw [← Text.byteLength_eq_zero_iff, Text.byteLength_append, Text.byteLength_reverse]
  omega

/-- Reading never cuts through a character. -/
theorem advance_toBytes (c : LineCursor) :
    c.toBytes.advance = some (c.advance.1, c.advance.2.toBytes) := by
  rw [ByteCursor.advance, cutAtByte_toBytes]
  unfold advance
  cases hrest : c.rest with
  | nil => rfl
  | cons a rest => simp [toBytes, line, hrest, Nat.add_comm]

/-- Giving a character back never goes beyond the start of the line. -/
theorem unread_toBytes (c : LineCursor) :
    c.toBytes.unread = some (c.unread.map toBytes) := by
  unfold ByteCursor.unread unread
  -- an empty slot, a filled one without a character, and a filled one behind `a`
  cases hcan : c.canUnread with
  | false => simp [toBytes, hcan, Except.map]
  | true =>
    cases hconsumed : c.consumed with
    | nil => simp [toBytes, hcan, hconsumed, Except.map]
    | cons a consumed => simp [toBytes, hcan, hconsumed, Except.map, line]

/-- `flush` on bytes is `flush` on the split line. -/
theorem flush_toBytes (c : LineCursor) : c.flush.toBytes = c.toBytes.flush := by
  simp [toBytes, flush, ByteCursor.flush, line, Nat.add_comm]

/-- `position?` counts the characters that have been read. -/
theorem position?_toBytes (c : LineCursor) : c.toBytes.position? = some c.position := by
  rw [ByteCursor.position?, cutAtByte_toBytes, Option.map_some, List.length_reverse]
  rfl

/-- The byte offset is the place between what has been read and what has not. -/
theorem simulates_toBytes {c : LineCursor} (h : c.HasLast) : c.toBytes.Simulates c.toIndex := by
  have hoffset : c.toBytes.index = EditLine.byteOffset c.line c.position := by
    rw [Text.byteOffset_eq_byteLength, line, position, List.take_left' (List.length_reverse),
      Text.byteLength_reverse]
    rfl
  refine ⟨rfl, hoffset, ?_, ?_, ?_, position?_toBytes c, ?_⟩
  · -- the line can be cut at the offset
    refine Text.isSome_cutAtByte_iff.1 ?_
    rw [cutAtByte_toBytes]
    rfl
  · show Text.byteLength c.consumed ≤ Text.byteLength (c.consumed.reverse ++ c.rest)
    rw [Text.byteLength_append, Text.byteLength_reverse]
    exact Nat.le_add_right _ _
  · show c.consumed.length ≤ (c.consumed.reverse ++ c.rest).length
    rw [List.length_append, List.length_reverse]
    exact Nat.le_add_right _ _
  · cases hcan : c.canUnread with
    | false => simp [toBytes, toIndex, hcan]
    | true =>
      obtain ⟨a, consumed, hconsumed⟩ := List.exists_cons_of_ne_nil (h hcan)
      simp [toBytes, toIndex, hcan, hconsumed]

/-! ## The split line on characters -/

/-- The cursor on characters follows `load`. -/
theorem move_load (i : IndexCursor) (line : List Char) :
    i.move (.load line) = some (load line).toIndex := rfl

/-- The cursor on characters follows `flush`. -/
theorem move_flush (c : LineCursor) : c.toIndex.move .flush = some c.flush.toIndex := by
  simp [IndexCursor.move, toIndex, flush, line, position, Nat.add_comm]

/-- The cursor on characters follows a character that is read. -/
theorem move_of_advance {c : LineCursor} {a : Char} {rest : List Char} (h : c.rest = a :: rest) :
    c.toIndex.move (.read a) = some (⟨a :: c.consumed, rest, true⟩ : LineCursor).toIndex := by
  simp [IndexCursor.move, toIndex, line, position, h]

/-- The cursor on characters follows a character that is given back. -/
theorem move_of_unread {c c' : LineCursor} (h : c.unread = .ok c') :
    c.toIndex.move .unread = some c'.toIndex := by
  unfold unread at h
  split at h
  · next a consumed hcan hconsumed =>
    cases h
    simp [IndexCursor.move, toIndex, line, position, hcan, hconsumed]
  · cases h

/-- Reading a text that stands in front, one character after the other. -/
theorem foldlM_move_read {c : LineCursor} {text more : List Char} (h : c.rest = text ++ more)
    (hne : text ≠ []) :
    (text.map CursorMove.read).foldlM IndexCursor.move c.toIndex =
      some (⟨text.reverse ++ c.consumed, more, true⟩ : LineCursor).toIndex := by
  induction text generalizing c with
  | nil => exact absurd rfl hne
  | cons a text ih =>
    let c' : LineCursor := ⟨a :: c.consumed, text ++ more, true⟩
    rw [List.map_cons, List.foldlM_cons, move_of_advance h]
    show (text.map CursorMove.read).foldlM IndexCursor.move c'.toIndex = _
    -- the cursor behind the last character is the one that is claimed
    by_cases hnil : text = []
    · subst hnil
      rfl
    · rw [ih (c := c') rfl hnil]
      simp [c']

/-- A character that is looked at and given back leaves the slot empty. -/
theorem foldlM_move_read_unread (consumed : List Char) (x : Char) (more : List Char)
    (canUnread : Bool) :
    [CursorMove.read x, CursorMove.unread].foldlM IndexCursor.move
        (⟨consumed, x :: more, canUnread⟩ : LineCursor).toIndex =
      some (⟨consumed, x :: more, false⟩ : LineCursor).toIndex := by
  have hread := move_of_advance (c := ⟨consumed, x :: more, canUnread⟩) rfl
  have hunread := move_of_unread (c := ⟨x :: consumed, more, true⟩) rfl
  rw [List.foldlM_cons, hread]
  simp only [Option.bind_eq_bind, Option.bind_some, List.foldlM_cons, List.foldlM_nil]
  rw [hunread]
  rfl

/-- A character that was just read can be given back, and it is then read again. -/
theorem exists_unread {c : LineCursor} (h : c.HasLast) (hcan : c.canUnread = true) :
    ∃ a consumed, c.consumed = a :: consumed ∧ c.unread = .ok ⟨consumed, a :: c.rest, false⟩ := by
  obtain ⟨a, consumed, hconsumed⟩ := List.exists_cons_of_ne_nil (h hcan)
  exact ⟨a, consumed, hconsumed, by rw [unread, hcan, hconsumed]⟩

/-- `unread` fails when the slot is empty. -/
theorem unread_of_canUnread_eq_false {c : LineCursor} (hcan : c.canUnread = false) :
    c.unread = .error .nothingToUnread := by
  rw [unread, hcan]

end LineCursor

end DeskCalc
