import DeskCalc.Desk.Draw
import DeskCalc.Proofs.CheckedEntry

/-!
# Drawing with every access checked

Drawing the main screen fits the window of the entry field to its cursor and lays out the history,
whose notes are wrapped to the panel.  A word that is too wide for the panel is cut at byte offsets.
Here each of these accesses can fail, and none does.

A drawing leaves one start for each entry of the history, from the top to the bottom, and it puts
the terminal cursor on a column that terminals can count.

## Key results

- `Text.wrap?_eq`: no word is cut through a character
- `Desk.draw?_eq`: drawing never fails
- `Desk.pairwise_starts`: the entries of the history start one below the other
- `Desk.HasRoom.draw`: what holds behind a drawing of the main screen
-/

namespace DeskCalc

open Screen

/-! ## Wrapping on bytes -/

namespace Text

/-- The part of a text between two byte offsets.  None if the text cannot be cut there. -/
def slice? (cs : List Char) (start stop : Nat) : Option (List Char) :=
  (cutAtByte cs stop).bind fun parts => (cutAtByte parts.1 start).map Prod.snd

/-- The text between two others is sliced out. -/
private theorem slice?_byteLength (front piece behind : List Char) :
    slice? (front ++ piece ++ behind) (byteLength front) (byteLength (front ++ piece)) =
      some piece := by
  rw [slice?, cutAtByte_byteLength, Option.bind_some, cutAtByte_byteLength]
  rfl

/-- Cuts `word`, of which the characters before the byte offset `offset` have been seen; the piece
    being filled starts at `start`, and its characters are together `used` wide. -/
def cutFrom? (m : Measure) (limit : Nat) (word : List Char) (start used offset : Nat) :
    List Char → Option (List (List Char))
  | [] => (slice? word start (byteLength word)).map fun piece => [piece]
  | c :: rest =>
    if limit < used + m.ofChar c ∧ start < offset then
      (slice? word start offset).bind fun piece =>
        (cutFrom? m limit word offset (m.ofChar c) (offset + c.utf8Size) rest).map (piece :: ·)
    else cutFrom? m limit word start (used + m.ofChar c) (offset + c.utf8Size) rest

/-- Cuts a word into pieces no wider than `limit`, at byte offsets. -/
def cutWord? (m : Measure) (limit : Nat) (word : List Char) : Option (List (List Char)) :=
  cutFrom? m limit word 0 0 0 word

/-- Wraps a text into lines no wider than `limit`, its words cut at byte offsets. -/
def wrap? (m : Measure) (limit : Nat) (text : List Char) : Option (List (List Char)) :=
  if limit = 0 then some [[]]
  else ((words text).mapM (cutWord? m limit)).map fun pieces => pack m limit [] pieces.flatten

/-- The offsets stand where the piece being filled starts and where it ends. -/
private theorem cutFrom?_eq (m : Measure) (limit : Nat) (front piece rest : List Char)
    (hpiece : piece ≠ []) :
    cutFrom? m limit (front ++ piece ++ rest) (byteLength front) (Measure.total m.ofChar piece)
        (byteLength (front ++ piece)) rest =
      some (cutFrom m limit piece rest) := by
  induction rest generalizing front piece with
  | nil =>
    have hslice := slice?_byteLength front piece []
    rw [List.append_nil] at hslice
    rw [cutFrom?, List.append_nil, hslice]
    rfl
  | cons c rest ih =>
    have hstart : byteLength front < byteLength (front ++ piece) := by
      have hpos := Nat.pos_of_ne_zero (byteLength_eq_zero_iff.not.2 hpiece)
      rw [byteLength_append]
      omega
    -- the word with `c` in the next piece, and with `c` in this one
    have hnext := ih (front ++ piece) [c] (List.cons_ne_nil c [])
    have hmore := ih front (piece ++ [c]) (by simp)
    have hoffset :
        byteLength (front ++ piece ++ [c]) = byteLength (front ++ piece) + c.utf8Size := by
      rw [byteLength_append, byteLength_cons, byteLength_nil, Nat.add_zero]
    have hword : front ++ piece ++ [c] ++ rest = front ++ piece ++ c :: rest := by simp
    rw [← List.append_assoc, hoffset, hword, Measure.total_append, Measure.total_cons,
      Measure.total_nil, Nat.add_zero] at hmore
    rw [hoffset, hword, Measure.total_cons, Measure.total_nil, Nat.add_zero] at hnext
    rw [cutFrom?, cutFrom]
    -- the piece is sliced out, or `c` goes into it
    by_cases hlimit : limit < Measure.total m.ofChar piece + m.ofChar c
    · rw [if_pos ⟨hlimit, hstart⟩, if_pos hlimit, slice?_byteLength, Option.bind_some, hnext]
      rfl
    · rw [if_neg fun h => hlimit h.1, if_neg hlimit, hmore]

/-- `cutWord?` never fails and cuts as `cutWord` does. -/
private theorem cutWord?_eq (m : Measure) (limit : Nat) (word : List Char) :
    cutWord? m limit word = some (cutWord m limit word) := by
  cases word with
  | nil => rfl
  | cons c rest =>
    have hfrom := cutFrom?_eq m limit [] [c] rest (List.cons_ne_nil c [])
    rw [cutWord?, cutFrom?, if_neg fun h => Nat.lt_irrefl 0 h.2]
    simpa [cutWord] using hfrom

/-- No word is cut through a character. -/
theorem wrap?_eq (m : Measure) (limit : Nat) (text : List Char) :
    wrap? m limit text = some (wrap m limit text) := by
  -- since no word fails, the words are cut by `List.map`
  have hcut : cutWord? m limit = fun word => some (cutWord m limit word) :=
    funext (cutWord?_eq m limit)
  unfold wrap? wrap
  by_cases hlimit : limit = 0
  · rw [if_pos hlimit, if_pos hlimit]
  · have hpieces : (words text).mapM (fun word => some (cutWord m limit word)) =
        some ((words text).map (cutWord m limit)) := List.mapM_pure
    rw [if_neg hlimit, if_neg hlimit, hcut, hpieces, List.flatMap_def]
    rfl

/-! ## How wide a text can be -/

/-- No character has more than three columns. -/
theorem charWidth_le (c : Char) : charWidth c ≤ 3 := by
  unfold charWidth
  repeat' split
  all_goals omega

/-- A character that joins a ligature adds at most three columns. -/
private theorem LigatureEnd.columns_join?_le {l : LigatureEnd} {n columns : Nat} {c : Char}
    {start : TextStart} (h : l.join? n c = some (columns, start)) : columns ≤ n + 3 := by
  unfold join? at h
  split at h
  · cases h; omega
  · split at h
    · cases h; omega
    -- each letter that joins another adds a column, takes one away, or neither
    · repeat' split at h
      all_goals cases h
      all_goals omega

/-- A character that joins an emoji adds at most three columns. -/
private theorem EmojiEnd.columns_join?_le {e : EmojiEnd} {n columns : Nat} {c : Char}
    {start : TextStart} (h : e.join? n c = some (columns, start)) : columns ≤ n + 3 := by
  -- only a region letter before a pair of them adds as many as three columns
  unfold join? at h
  repeat' split at h
  all_goals cases h
  all_goals omega

/-- A character that joins the text behind it adds at most three columns. -/
private theorem TextStart.columns_join?_le {s start : TextStart} {n columns : Nat} {c : Char}
    (h : s.join? n c = some (columns, start)) : columns ≤ n + 3 := by
  cases s with
  | ligature l => exact LigatureEnd.columns_join?_le h
  | joined e => exact EmojiEnd.columns_join?_le h
  | plain => cases h
  | lineFeed | emoji | skinTone | region =>
    simp only [join?] at h
    repeat' split at h
    all_goals cases h
    all_goals omega

/-- A picture has at most two columns. -/
private theorem TextStart.pictureWidth_le (s : TextStart) : s.pictureWidth ≤ 2 := by
  unfold pictureWidth
  split <;> omega

/-- A character adds at most three columns. -/
private theorem Extent.columns_cons_le (c : Char) (e : Extent) :
    (e.cons c).columns ≤ e.columns + 3 := by
  -- in the order of the tests: two kinds of pictures, the two selectors, and then the characters
  -- that join what is behind them and those that do not
  unfold cons
  split
  · exact Nat.add_le_add_left (e.start.pictureWidth_le.trans (by omega)) _
  · split
    · exact Nat.add_le_add_left (by omega) _
    · dsimp only
      split
      · exact Nat.le_add_right _ _
      · split
        · exact Nat.le_add_right _ _
        · split
          · next columns start hjoin => exact TextStart.columns_join?_le hjoin
          · refine Nat.add_le_add_left ?_ _
            split
            · omega
            · exact charWidth_le c

/-- A text has at most three columns for each of its characters. -/
private theorem width_le (cs : List Char) : width cs ≤ 3 * cs.length := by
  induction cs with
  | nil => exact Nat.le_refl _
  | cons c cs ih =>
    -- one step of `extent`, which runs over the text from its end
    have hcons : width (c :: cs) ≤ width cs + 3 := Extent.columns_cons_le c (extent cs)
    rw [List.length_cons]
    omega

end Text

/-! ## The rows of the history -/

namespace HistoryEntry

/-- The rows of a note, its words cut at byte offsets. -/
def noteRows? (width : Nat) (note : String × Color) : Option (List Row) :=
  (Text.wrap? Text.Measure.display width note.1.toList).map fun lines =>
    lines.map fun line => [⟨stepIndent ++ line, Style.color note.2⟩]

/-- The rows of the steps, if details were asked for. -/
def stepRows? (e : HistoryEntry) (width : Nat) : Option (List Row) :=
  if e.detailed then (e.notes.mapM (noteRows? width)).map List.flatten else some []

/-- All rows of an entry. -/
def rows? (e : HistoryEntry) (selected : Bool) (width : Nat) : Option (List Row) :=
  (e.stepRows? width).map fun steps => e.headline selected :: (e.diagnosticRows ++ steps)

/-- No note is cut through a character. -/
private theorem noteRows?_eq (width : Nat) (note : String × Color) :
    noteRows? width note = some (noteRows width note) := by
  rw [noteRows?, Text.wrap?_eq]
  rfl

/-- No step is cut through a character. -/
private theorem stepRows?_eq (e : HistoryEntry) (width : Nat) :
    e.stepRows? width = some (e.stepRows width) := by
  have hrows : noteRows? width = fun note => some (noteRows width note) :=
    funext (noteRows?_eq width)
  have hnotes : e.notes.mapM (fun note => some (noteRows width note)) =
      some (e.notes.map (noteRows width)) := List.mapM_pure
  unfold stepRows? stepRows
  split
  · rw [hrows, hnotes, List.flatMap_def]
    rfl
  · rfl

/-- Laying out an entry never fails. -/
private theorem rows?_eq (e : HistoryEntry) (selected : Bool) (width : Nat) :
    e.rows? selected width = some (e.rows selected width) := by
  rw [rows?, stepRows?_eq]
  rfl

/-- Each entry has a row, its headline. -/
theorem length_rows_pos (e : HistoryEntry) (selected : Bool) (width : Nat) :
    0 < (e.rows selected width).length := Nat.succ_pos _

end HistoryEntry

namespace Desk

/-- The rows of the history panel and the starts of its entries. -/
def rowsFrom? (width selected : Nat) (count index : Nat) :
    List HistoryEntry → Option (List Row × List Nat)
  | [] => some ([], [])
  | e :: rest =>
    let separator : List Row :=
      if index = 0 then [] else [[⟨List.replicate width '─', Style.color .darkGray⟩]]
    let start := count + separator.length
    (e.rows? (index = selected) (width - HistoryEntry.stepIndent.length)).bind fun rows =>
      (rowsFrom? width selected (start + rows.length) (index + 1) rest).map fun (more, starts) =>
        (separator ++ rows ++ more, start :: starts)

/-- Laying out entries one below the other never fails. -/
private theorem rowsFrom?_eq (width selected count index : Nat) (es : List HistoryEntry) :
    rowsFrom? width selected count index es = some (rowsFrom width selected count index es) := by
  induction es generalizing count index with
  | nil => rfl
  | cons e es ih =>
    simp only [rowsFrom?, HistoryEntry.rows?_eq, Option.bind_some, ih, Option.map_some]
    rfl

/-- Each entry starts in some row. -/
private theorem length_starts (width selected count index : Nat) (es : List HistoryEntry) :
    (rowsFrom width selected count index es).2.length = es.length := by
  induction es generalizing count index with
  | nil => rfl
  | cons e es ih => rw [rowsFrom, List.length_cons, ih, List.length_cons]

/-- No entry starts above the rows that are counted already. -/
private theorem le_of_mem_starts {width selected count index start : Nat} {es : List HistoryEntry}
    (h : start ∈ (rowsFrom width selected count index es).2) : count ≤ start := by
  induction es generalizing count index with
  | nil => cases h
  | cons e es ih =>
    rw [rowsFrom] at h
    rcases List.mem_cons.1 h with rfl | h
    · exact Nat.le_add_right _ _
    · have hle := ih h
      omega

/-- The entries start one below the other, since each of them has a headline. -/
theorem pairwise_starts (width selected count index : Nat) (es : List HistoryEntry) :
    (rowsFrom width selected count index es).2.Pairwise (· < ·) := by
  induction es generalizing count index with
  | nil => exact .nil
  | cons e es ih =>
    rw [rowsFrom]
    refine List.pairwise_cons.2 ⟨fun start hstart => ?_, ih _ _⟩
    have hle := le_of_mem_starts hstart
    -- the headline stands between this start and the next
    have hpos := e.length_rows_pos (index = selected) (width - HistoryEntry.stepIndent.length)
    omega

/-! ## Drawing -/

/-- The desk with its history panel laid out for an area. -/
def layOutHistory? (d : Desk) (inner : Area) : Option Desk :=
  if d.history.isEmpty then some d
  else
    (rowsFrom? inner.width d.selected 0 0 d.history).map fun (rows, starts) =>
      { d with
        itemStarts := starts
        historyScroll := if d.scrollToBottom then rows.length - inner.height else d.historyScroll
        scrollToBottom := false }

/-- The desk behind a drawing of the screen that is shown. -/
def draw? (d : Desk) (width height : Nat) : Option Desk :=
  let size := (Size.mk width height).clip
  if d.helpShown then some d
  else if size.width < minWidth ∨ size.height < minHeight then some d
  else
    let area := historyArea size.width size.height
    (d.entry.fitScroll? (entryWidth size.width)).bind fun entry =>
      (layOutHistory? { d with entry } area.inner).map fun d =>
        { d with listHeight := area.height }

/-- Laying out the history never fails. -/
private theorem layOutHistory?_eq (d : Desk) (inner : Area) :
    d.layOutHistory? inner = some (d.layOutHistory inner) := by
  unfold layOutHistory? layOutHistory
  split
  · rfl
  · rw [rowsFrom?_eq]
    rfl

/-- Drawing never fails. -/
theorem draw?_eq (d : Desk) (width height : Nat) :
    d.draw? width height = some (d.draw width height).1 := by
  unfold draw? draw drawMain
  dsimp only
  split
  · rfl
  · split
    · rfl
    · rw [EntryField.fitScroll?_eq, Option.bind_some, layOutHistory?_eq]
      rfl

/-! ## A drawing of the main screen -/

/-- The main screen is shown, and a screen of this size has room for it. -/
structure HasRoom (d : Desk) (width height : Nat) : Prop where
  helpShown : d.helpShown = false
  width_ge : minWidth ≤ ((Size.mk width height).clip).width
  height_ge : minHeight ≤ ((Size.mk width height).clip).height

/-- The desk behind a drawing of the main screen, and the place of the terminal cursor. -/
theorem HasRoom.draw_eq {d : Desk} {width height : Nat} (h : d.HasRoom width height) :
    let size := (Size.mk width height).clip
    let area := historyArea size.width size.height
    let fitted := { d with entry := d.entry.fitScroll (entryWidth size.width) }
    (d.draw width height).1 = { fitted.layOutHistory area.inner with listHeight := area.height } ∧
      (d.draw width height).2.cursor =
        some (cursorColumn (d.draw width height).1.entry (entryWidth size.width), 1) := by
  have hroom : ¬ (((Size.mk width height).clip).width < minWidth ∨
      ((Size.mk width height).clip).height < minHeight) := by
    rw [not_or]
    exact ⟨Nat.not_lt.2 h.width_ge, Nat.not_lt.2 h.height_ge⟩
  unfold draw drawMain
  dsimp only
  rw [if_neg (Bool.eq_false_iff.1 h.helpShown), if_neg hroom]
  exact ⟨rfl, rfl⟩

/-- Laying out the history leaves the line that is being entered alone. -/
theorem entry_layOutHistory (d : Desk) (inner : Area) :
    (d.layOutHistory inner).entry = d.entry := by
  unfold layOutHistory
  split <;> rfl

/-- Laying out the history leaves its entries alone. -/
private theorem history_layOutHistory (d : Desk) (inner : Area) :
    (d.layOutHistory inner).history = d.history := by
  unfold layOutHistory
  split <;> rfl

/-- Laying out a history gives one start for each of its entries. -/
private theorem itemStarts_layOutHistory {d : Desk} (inner : Area) (h : d.history ≠ []) :
    (d.layOutHistory inner).itemStarts.length = d.history.length ∧
      (d.layOutHistory inner).itemStarts.Pairwise (· < ·) := by
  have hstarts : (d.layOutHistory inner).itemStarts =
      (rowsFrom inner.width d.selected 0 0 d.history).2 := by
    unfold layOutHistory
    rw [if_neg (by simpa using h)]
    rfl
  rw [hstarts]
  exact ⟨length_starts .., pairwise_starts ..⟩

/-- The terminal cursor stands behind the columns of the characters that are shown. -/
private theorem cursorColumn_le (f : EntryField) (width : Nat) :
    cursorColumn f width ≤ 3 + 3 * width := by
  -- no more characters are shown than the window is wide
  have hlength : ((shownChars f width).take (f.cursor - f.scroll)).length ≤ width :=
    (List.length_take_le' ..).trans (List.length_take_le ..)
  have hwidth := Text.width_le ((shownChars f width).take (f.cursor - f.scroll))
  rw [cursorColumn]
  omega

/-- A drawing of the main screen has the cursor in the window, lists where the entries of the
    history start, and shows the terminal cursor on a column that fits in sixteen bits unless the
    screen had to be made smaller. -/
theorem HasRoom.draw {d : Desk} {width height : Nat} (h : d.HasRoom width height) :
    let drawn := (d.draw width height).1
    (drawn.entry.scroll ≤ drawn.entry.cursor) ∧
    (drawn.history ≠ [] → drawn.itemStarts.length = drawn.history.length ∧
      drawn.itemStarts.Pairwise (· < ·)) ∧
    ∃ column, (d.draw width height).2.cursor = some (column, 1) ∧
      (width * height ≤ Size.maxCells → column < 65536) := by
  obtain ⟨hdrawn, hcursor⟩ := h.draw_eq
  have hwidth := h.width_ge
  have hheight := h.height_ge
  refine ⟨?_, ?_, _, hcursor, fun hcells => ?_⟩
  · rw [hdrawn]
    simp only [entry_layOutHistory]
    -- the window has a column, so fitting the scroll brings the cursor into it
    refine (EntryField.scroll_fitScroll_le d.entry ?_).1
    unfold minWidth at hwidth
    unfold entryWidth
    omega
  · rw [hdrawn]
    simp only [history_layOutHistory]
    exact fun hne => itemStarts_layOutHistory _ hne
  · -- a screen of ten rows and so many cells has at most 6553 columns
    refine Nat.lt_of_le_of_lt (cursorColumn_le _ _) ?_
    rw [Size.clip_of_le hcells] at hheight ⊢
    have hrows : width * minHeight ≤ width * height := Nat.mul_le_mul_left width hheight
    unfold Size.maxCells at hcells
    unfold minHeight at hrows
    unfold entryWidth
    dsimp only
    omega

/-- A new desk has room on a terminal of the usual size. -/
example : (Desk.new ['e', 'x', 'i', 't']).HasRoom 80 24 := ⟨rfl, by decide, by decide⟩

end Desk

end DeskCalc
