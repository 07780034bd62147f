import DeskCalc.Proofs.MainScreen
import Mathlib.Algebra.GroupWithZero.Nat

/-!
# Where the entries of the history are

The rows of the history are those of its entries one below the other, with a separator between
neighbours.  The panel shows a window of them, which is where the history was scrolled to, moved no
farther than it takes to have the selected entry in it.

## Key results

- `historyRows_split`: the rows before an entry, those of the entry, and those behind it
- `windowStart_eq`: where the window starts
- `HasRoom.draw_fst`: the desk that a drawing leaves behind
- `HasRoom.showsRow_window`, `HasRoom.showsRow_of_index`: what is on each line of the panel
-/

namespace DeskCalc

open Screen

/-- The number of rows of an entry in a panel that is `width` columns wide inside. -/
def HistoryEntry.rowCount (e : HistoryEntry) (width : Nat) : Nat :=
  (e.rows false (width - stepIndent.length)).length

/-- The selection is no matter for the number of rows. -/
theorem HistoryEntry.length_rows (e : HistoryEntry) (selected : Bool) (width : Nat) :
    (e.rows selected (width - stepIndent.length)).length = e.rowCount width := rfl

namespace Desk

/-! ## Entries and separators -/

/-- The row between neighbouring entries. -/
def separatorRow (width : Nat) : Row := [⟨List.replicate width '─', Style.color .darkGray⟩]

/-- The rows between an entry and those before it: none before the first one. -/
def separators (width index : Nat) : List Row := if index = 0 then [] else [separatorRow width]

/-- There is one separator in front of every entry but the first. -/
private theorem length_separators (width index : Nat) :
    (separators width index).length = if index = 0 then 0 else 1 := by
  unfold separators
  split <;> rfl

/-- The rows of the first entry, and those of the others below them. -/
private theorem rowsFrom_cons (width selected count index : Nat) (e : HistoryEntry)
    (es : List HistoryEntry) :
    let front := separators width index
    let own := e.rows (index = selected) (width - HistoryEntry.stepIndent.length)
    let more := rowsFrom width selected (count + front.length + own.length) (index + 1) es
    rowsFrom width selected count index (e :: es) =
      (front ++ own ++ more.1, (count + front.length) :: more.2) := rfl

/-- The rows of the history around those of one entry. -/
structure Around (rows : List Row) (width start : Nat) (e : HistoryEntry) (selected : Bool)
    (front behind : List Row) : Prop where
  rows_eq : rows = front ++ e.rows selected (width - HistoryEntry.stepIndent.length) ++ behind
  length_front : front.length = start

/-- Entries before which there are others have a separator before the first of them, too. -/
private theorem rowsFrom_split {width selected count index i : Nat} {es : List HistoryEntry}
    {e : HistoryEntry} (he : es[i]? = some e) :
    ∃ front behind,
      Around (rowsFrom width selected count index es).1 width
        ((if index = 0 then 0 else 1) + i + ((es.take i).map (·.rowCount width)).sum) e
        (index + i = selected) front behind ∧
      (rowsFrom width selected count index es).2[i]? = some (count + front.length) ∧
      (0 < index + i → front.getLast? = some (separatorRow width)) ∧
      (i + 1 = es.length → behind = []) := by
  -- along the entries above the one in question
  induction es generalizing count index i with
  | nil => cases he
  | cons e' es ih =>
    have hseparators := length_separators width index
    rw [rowsFrom_cons]
    dsimp only
    cases i with
    | zero =>
      obtain rfl : e' = e := by simpa using he
      refine ⟨separators width index, _, ⟨rfl, by simpa using hseparators⟩, rfl, fun hindex => ?_,
        fun hlast => ?_⟩
      · rw [separators, if_neg (by omega)]
        rfl
      · obtain rfl : es = [] := by simpa using hlast.symm
        rfl
    | succ i =>
      -- of the first entry only the number of its rows matters
      generalize hown : e'.rows (index = selected) (width - HistoryEntry.stepIndent.length) = own
      have hlength : own.length = e'.rowCount width := hown ▸ rfl
      obtain ⟨front, behind, ⟨hrows, hfront⟩, hstart, hlast, hend⟩ :=
        @ih (count + (separators width index).length + own.length) (index + 1) i (by simpa using he)
      rw [if_neg (Nat.succ_ne_zero index)] at hfront
      have hindex : index + 1 + i = index + (i + 1) := by omega
      rw [hindex] at hrows hlast
      refine ⟨separators width index ++ own ++ front, behind, ⟨?_, ?_⟩, ?_, fun hpos => ?_,
        fun hall => hend (by simpa using hall)⟩
      · rw [hrows]
        simp only [List.append_assoc]
      · simp only [List.length_append, hseparators, hlength, hfront, List.take_succ_cons,
          List.map_cons, List.sum_cons]
        omega
      · rw [List.getElem?_cons_succ, hstart]
        simp only [List.length_append, Option.some.injEq]
        omega
      · -- a separator stands before the entry, so there are rows before it
        have hne : front ≠ [] := List.ne_nil_of_length_pos (by omega)
        rw [List.getLast?_append_of_ne_nil _ hne]
        exact hlast hpos

/-- The row at which an entry starts: a separator stands between neighbours. -/
def startOf (es : List HistoryEntry) (width i : Nat) : Nat :=
  i + ((es.take i).map (·.rowCount width)).sum

/-- The rows before an entry, those of the entry, and those behind it. -/
theorem historyRows_split {d : Desk} {i : Nat} {e : HistoryEntry} (he : d.history[i]? = some e)
    (width : Nat) :
    ∃ front behind,
      Around (d.historyRows width).1 width (startOf d.history width i) e (i = d.selected) front
        behind ∧
      (d.historyRows width).2[i]? = some (startOf d.history width i) ∧
      (0 < i → front.getLast? = some (separatorRow width)) ∧
      (i + 1 = d.history.length → behind = []) := by
  obtain ⟨front, behind, haround, hstart, hlast, hend⟩ :=
    @rowsFrom_split width d.selected 0 0 i _ _ he
  have hindex : 0 + i = i := Nat.zero_add i
  rw [hindex] at haround hlast
  -- counted from the top, the first entry has no separator, and each other one has
  have hzero : (if (0 : Nat) = 0 then 0 else 1) + i = i := Nat.zero_add i
  rw [hzero] at haround
  refine ⟨front, behind, haround, ?_, hlast, hend⟩
  rw [historyRows, hstart, haround.length_front, Nat.zero_add]
  rfl

/-- The rows of an entry are found from its start on. -/
theorem Around.getElem? {rows : List Row} {width start : Nat} {e : HistoryEntry} {selected : Bool}
    {front behind : List Row} (h : Around rows width start e selected front behind) {j : Nat}
    (hj : j < e.rowCount width) :
    rows[start + j]? = (e.rows selected (width - HistoryEntry.stepIndent.length))[j]? := by
  rw [h.rows_eq, List.append_assoc, ← h.length_front, List.getElem?_append_right (by omega),
    Nat.add_sub_cancel_left, List.getElem?_append_left (by rwa [e.length_rows])]

/-- The headline is the first row of an entry. -/
theorem Around.getElem?_start {rows : List Row} {width start : Nat} {e : HistoryEntry}
    {selected : Bool} {front behind : List Row}
    (h : Around rows width start e selected front behind) :
    rows[start]? = some (e.headline selected) := h.getElem? (e.length_rows_pos false _)

/-- The separator is the row before an entry. -/
theorem Around.getElem?_separator {rows : List Row} {width start : Nat} {e : HistoryEntry}
    {selected : Bool} {front behind : List Row}
    (h : Around rows width start e selected front behind)
    (hlast : front.getLast? = some (separatorRow width)) :
    rows[start - 1]? = some (separatorRow width) := by
  have hpos : 0 < front.length := List.length_pos_of_mem (List.mem_of_getLast? hlast)
  -- the row before the start is the last one in front
  rw [h.rows_eq, List.append_assoc, ← h.length_front, List.getElem?_append_left (by omega), ← hlast,
    List.getLast?_eq_getElem?]

/-- The rows are those in front of the entry, its own and those behind it. -/
theorem Around.length_rows {rows : List Row} {width start : Nat} {e : HistoryEntry}
    {selected : Bool} {front behind : List Row}
    (h : Around rows width start e selected front behind) :
    rows.length = start + e.rowCount width + behind.length := by
  rw [h.rows_eq, List.length_append, List.length_append, h.length_front, e.length_rows]

/-- An entry starts at one of the rows. -/
private theorem Around.lt_length {rows : List Row} {width start : Nat} {e : HistoryEntry}
    {selected : Bool} {front behind : List Row}
    (h : Around rows width start e selected front behind) : start < rows.length := by
  have hpos : 0 < e.rowCount width := e.length_rows_pos false _
  have hlength := h.length_rows
  omega

/-! ## The window -/

/-- The window starts where the history is scrolled to, unless that would leave the selected row
    above it or below it. -/
theorem windowStart_eq {count height offset selected : Nat} (hselected : selected < count)
    (hheight : 0 < height) :
    windowStart count height offset selected =
      max (selected + 1 - height) (min selected offset) := by
  unfold windowStart
  dsimp only
  -- the selected row is below the window, or above it, or in it
  split
  · omega
  · split
    · omega
    · omega

/-! ## Drawing -/

section Drawing

variable {d : Desk} {width height : Nat}

/-- A drawing records where the entries start, and scrolls to the end if it was asked to. -/
theorem HasRoom.draw_fst (h : d.HasRoom width height) (hhistory : d.history ≠ []) :
    (d.draw width height).1 =
      { d with
        entry := d.entry.fitScroll (entryWidth (Size.mk width height).clip.width)
        itemStarts := (d.historyRows (historyInner width height).width).2
        historyScroll :=
          if d.scrollToBottom then
            (d.historyRows (historyInner width height).width).1.length -
              (historyInner width height).height
          else d.historyScroll
        scrollToBottom := false
        listHeight := (Size.mk width height).clip.height - 4 } := by
  have hdrawn := h.draw_eq.1
  dsimp only at hdrawn
  rw [hdrawn, layOutHistory, if_neg (by simpa using hhistory)]
  rfl

/-- Drawing leaves the history as it is. -/
private theorem HasRoom.history_draw (h : d.HasRoom width height) (hhistory : d.history ≠ []) :
    (d.draw width height).1.history = d.history := by
  rw [h.draw_fst hhistory]

/-- Drawing leaves the selection as it is. -/
theorem HasRoom.selected_draw (h : d.HasRoom width height) (hhistory : d.history ≠ []) :
    (d.draw width height).1.selected = d.selected := by
  rw [h.draw_fst hhistory]

/-- Drawing records where the entries start. -/
theorem HasRoom.itemStarts_draw (h : d.HasRoom width height) (hhistory : d.history ≠ []) :
    (d.draw width height).1.itemStarts = (d.historyRows (historyInner width height).width).2 := by
  rw [h.draw_fst hhistory]

/-- Drawing scrolls to the end if it was asked to, and else leaves the history where it is. -/
theorem HasRoom.historyScroll_draw (h : d.HasRoom width height) (hhistory : d.history ≠ []) :
    (d.draw width height).1.historyScroll =
      if d.scrollToBottom then
        (d.historyRows (historyInner width height).width).1.length -
          (historyInner width height).height
      else d.historyScroll := by
  rw [h.draw_fst hhistory]

/-- The rows depend on the entries and on the selection alone. -/
theorem historyRows_congr {d d' : Desk} (hhistory : d'.history = d.history)
    (hselected : d'.selected = d.selected) (width : Nat) :
    d'.historyRows width = d.historyRows width := by
  unfold historyRows
  rw [hhistory, hselected]

/-- The history panel has room for 24 columns and four lines inside. -/
theorem HasRoom.inner_pos (h : d.HasRoom width height) :
    24 ≤ (historyInner width height).width ∧ 4 ≤ (historyInner width height).height := by
  have hwidth : minWidth ≤ ((Size.mk width height).clip).width := h.width_ge
  have hheight : minHeight ≤ ((Size.mk width height).clip).height := h.height_ge
  unfold minWidth at hwidth
  unfold minHeight at hheight
  exact ⟨show 24 ≤ _ - 24 - 2 by omega, show 4 ≤ _ - 4 - 2 by omega⟩

/-- The first row that the panel shows: the one to which the history is scrolled, moved as far as it
    takes to show the headline of the selected entry. -/
def firstShown (d : Desk) (width height : Nat) : Nat :=
  let inner := historyInner width height
  let selected := startOf d.history inner.width d.selected
  max (selected + 1 - inner.height) (min selected (d.draw width height).1.historyScroll)

/-- The lines of the panel show the rows from the first one on. -/
theorem HasRoom.showsRow_window (h : d.HasRoom width height)
    (hselected : d.selected < d.history.length) (line : Nat) :
    let inner := historyInner width height
    let rows := (d.historyRows inner.width).1
    line < inner.height →
      ShowsRow (d.draw width height).2.canvas inner line
        (rows[d.firstShown width height + line]?.getD []) := by
  intro inner rows hline
  have hhistory : d.history ≠ [] := List.ne_nil_of_length_pos (by omega)
  have hdrawn := h.history_draw hhistory
  have hshows := h.showsRow_history (by rwa [hdrawn]) hline
  rw [historyRows_congr hdrawn (h.selected_draw hhistory), h.selected_draw hhistory] at hshows
  obtain ⟨front, behind, haround, hstarts, -, -⟩ :=
    historyRows_split (List.getElem?_eq_getElem hselected) inner.width
  -- the list was told where the selected entry starts
  have hwindow := @windowStart_eq rows.length inner.height
    (d.draw width height).1.historyScroll _ haround.lt_length (by have := h.inner_pos; omega)
  rw [hstarts, Option.getD_some, hwindow] at hshows
  exact hshows

/-- A row of the history within the window is on its line of the panel. -/
theorem HasRoom.showsRow_of_index (h : d.HasRoom width height)
    (hselected : d.selected < d.history.length) {i : Nat} {row : Row}
    (hrow : (d.historyRows (historyInner width height).width).1[i]? = some row)
    (hlow : d.firstShown width height ≤ i)
    (hhigh : i < d.firstShown width height + (historyInner width height).height) :
    ShowsRow (d.draw width height).2.canvas (historyInner width height)
      (i - d.firstShown width height) row := by
  obtain ⟨line, rfl⟩ := Nat.exists_eq_add_of_le hlow
  have hshows := h.showsRow_window hselected line (by omega)
  rw [Nat.add_sub_cancel_left]
  rwa [hrow] at hshows

end Drawing

end Desk

end DeskCalc
