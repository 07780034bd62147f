import DeskCalc.Proofs.HistoryPanel

/-!
# The wheel over the history

The wheel moves the place to which the history is scrolled, and nothing else.  A drawing shows the
rows from there only as long as the headline of the selected entry is among them; otherwise it shows
the nearest rows that have the headline.  The place itself is left as it is, even behind the last
row, so that turning back shows nothing new until it is near the headline again.

## Key results

- `Scrolled.after`: turns of the wheel and drawings add up
- `wheel_moves_window`: what is shown behind them
- `wheel_held_by_selection`: a turn that shows nothing new
-/

namespace DeskCalc.Desk

open Screen

/-! ## Turning the wheel -/

/-- Where the history is scrolled to by what the mouse does. -/
def turned (offset : Nat) : Mouse → Nat
  | .scrollUp => offset - wheelStep
  | .scrollDown => offset + wheelStep
  | .other => offset

/-- What the mouse does in an action. -/
def mouse? : Action → Option Mouse
  | .handle (.mouse mouse) => some mouse
  | _ => none

/-- Where several actions scroll the history to. -/
def offsetAfter (offset : Nat) (acts : List (Nat × Action)) : Nat :=
  (acts.filterMap fun act => mouse? act.2).foldl turned offset

/-- The actions of the mouse, and drawings. -/
def IsScrolling : Action → Prop
  | .handle (.mouse _) => True
  | .draw _ _ => True
  | _ => False

/-- The main screen is shown with the same history and selection, and the history is scrolled to
    `offset` and nowhere else. -/
structure Scrolled (d : Desk) (offset : Nat) (d' : Desk) : Prop where
  history : d'.history = d.history
  selected : d'.selected = d.selected
  helpShown : d'.helpShown = d.helpShown
  scrollToBottom : d'.scrollToBottom = d.scrollToBottom
  offset : d'.historyScroll = offset

/-- Nothing has been scrolled yet. -/
private theorem Scrolled.refl (d : Desk) : d.Scrolled d.historyScroll d := ⟨rfl, rfl, rfl, rfl, rfl⟩

/-- Of two turns the second one says where the history is scrolled to. -/
private theorem Scrolled.trans {d d' d'' : Desk} {offset offset' : Nat} (h : d.Scrolled offset d')
    (h' : d'.Scrolled offset' d'') : d.Scrolled offset' d'' :=
  ⟨h'.history.trans h.history, h'.selected.trans h.selected, h'.helpShown.trans h.helpShown,
    h'.scrollToBottom.trans h.scrollToBottom, h'.offset⟩

/-- On the main screen the wheel scrolls the history. -/
private theorem scrolled_wheel {d : Desk} (hhelp : d.helpShown = false) (mouse : Mouse) :
    d.Scrolled (turned d.historyScroll mouse) (d.wheel mouse) := by
  cases mouse with
  | other => exact .refl d
  | scrollUp | scrollDown =>
    simp only [wheel]
    rw [if_neg (Bool.eq_false_iff.1 hhelp)]
    exact ⟨rfl, rfl, rfl, rfl, rfl⟩

/-- A drawing leaves the history where it is scrolled to, unless its end is asked for. -/
private theorem scrolled_draw {d : Desk} (hscroll : d.scrollToBottom = false) (width height : Nat) :
    d.Scrolled d.historyScroll (d.draw width height).1 := by
  unfold draw drawMain layOutHistory
  dsimp only
  -- too small a terminal, an empty history, and the end being asked for or not
  split
  · exact .refl d
  · split
    · exact .refl d
    · split
      · exact ⟨rfl, rfl, rfl, rfl, rfl⟩
      · exact ⟨rfl, rfl, rfl, hscroll.symm, if_neg (Bool.eq_false_iff.1 hscroll)⟩

/-- A turn of the wheel or a drawing scrolls the history to where the mouse says. -/
private theorem scrolled_act {d : Desk} (hhelp : d.helpShown = false)
    (hscroll : d.scrollToBottom = false) {act : Nat × Action} (hact : IsScrolling act.2) :
    d.Scrolled (offsetAfter d.historyScroll [act]) (d.act act.1 act.2) := by
  obtain ⟨elapsed, action⟩ := act
  cases action with
  | draw width height => exact d.scrolled_draw hscroll width height
  | handle event =>
    cases event with
    | mouse mouse => exact d.scrolled_wheel hhelp mouse
    | press | release | focus | idle => exact hact.elim
  | select | page | submit => exact hact.elim

/-- Turns of the wheel and drawings add up, and leave the selection as it is. -/
theorem Scrolled.after {d : Desk} (hhelp : d.helpShown = false)
    (hscroll : d.scrollToBottom = false) {acts : List (Nat × Action)}
    (hacts : ∀ act ∈ acts, IsScrolling act.2) :
    d.Scrolled (offsetAfter d.historyScroll acts) (d.after acts) := by
  induction acts generalizing d with
  | nil => exact .refl d
  | cons act acts ih =>
    -- the first action leaves a desk that is as settled as before
    obtain ⟨hact, hacts⟩ := List.forall_mem_cons.1 hacts
    have hstep := scrolled_act hhelp hscroll hact
    have hmore := ih (hstep.helpShown.trans hhelp) (hstep.scrollToBottom.trans hscroll) hacts
    have hoffset : offsetAfter (offsetAfter d.historyScroll [act]) acts =
        offsetAfter d.historyScroll (act :: acts) := by
      unfold offsetAfter
      rw [← List.foldl_append, ← List.filterMap_append]
      rfl
    rw [hstep.offset, hoffset] at hmore
    exact hstep.trans hmore

/-! ## What is shown -/

/-- A drawing that was asked for the end of the history scrolls so far that the last row would be on
    the last line.

    Otherwise, turns of the wheel and drawings in any order add up to a place to which the history
    is scrolled, and no drawing changes it.  The next drawing shows the rows from there on, moved as
    far as it takes to have the headline of the selected entry among them: not at all if and only if
    the headline is on one of the lines from that place on. -/
theorem wheel_moves_window (d : Desk) (width height : Nat) (hroom : d.HasRoom width height)
    (hselected : d.selected < d.history.length) :
    let inner := historyInner width height
    let rows := (d.historyRows inner.width).1
    (d.scrollToBottom = true →
      (d.draw width height).1.historyScroll = rows.length - inner.height) ∧
    (d.scrollToBottom = false → ∀ acts : List (Nat × Action),
      (∀ act ∈ acts, IsScrolling act.2) →
      let offset := offsetAfter d.historyScroll acts
      let drawn := ((d.after acts).draw width height).1
      let canvas := ((d.after acts).draw width height).2.canvas
      (d.after acts).historyScroll = offset ∧ drawn.historyScroll = offset ∧
      ∃ selected, drawn.itemStarts[drawn.selected]? = some selected ∧
        let start := max (selected + 1 - inner.height) (min selected offset)
        (∀ line < inner.height, ShowsRow canvas inner line (rows[start + line]?.getD [])) ∧
        (start = offset ↔ offset ≤ selected ∧ selected < offset + inner.height)) := by
  intro inner rows
  have hhistory : d.history ≠ [] := List.ne_nil_of_length_pos (by omega)
  refine ⟨fun hend => ?_, fun hscroll acts hacts => ?_⟩
  · exact (hroom.historyScroll_draw hhistory).trans (if_pos hend)
  · dsimp only
    -- nothing but the offset is different when the last drawing comes
    have hturned := Scrolled.after hroom.helpShown hscroll hacts
    generalize d.after acts = d' at hturned
    generalize offsetAfter d.historyScroll acts = offset at hturned
    have hroom' : d'.HasRoom width height :=
      ⟨hturned.helpShown.trans hroom.helpShown, hroom.width_ge, hroom.height_ge⟩
    have hdraw := d'.scrolled_draw (hturned.scrollToBottom.trans hscroll) width height
    have hselected' : d'.selected < d'.history.length := by
      rwa [hturned.selected, hturned.history]
    have hoffset := hdraw.offset.trans hturned.offset
    refine ⟨hturned.offset, hoffset, startOf d'.history inner.width d'.selected, ?_,
      fun line hline => ?_, ?_⟩
    · obtain ⟨-, -, -, hstart, -⟩ :=
        historyRows_split (List.getElem?_eq_getElem hselected') inner.width
      have hhistory' : d'.history ≠ [] := List.ne_nil_of_length_pos (by omega)
      rw [hroom'.itemStarts_draw hhistory', hroom'.selected_draw hhistory']
      exact hstart
    · have hshows := hroom'.showsRow_window hselected' line hline
      have hfirst : d'.firstShown width height =
          max (startOf d'.history inner.width d'.selected + 1 - inner.height)
            (min (startOf d'.history inner.width d'.selected) offset) := by
        rw [← hoffset]
        rfl
      rw [hfirst, historyRows_congr hturned.history hturned.selected] at hshows
      exact hshows
    · have hheight : 4 ≤ inner.height := hroom.inner_pos.2
      omega

/-- With the first entry selected, a turn of the wheel shows the first rows. -/
theorem wheel_moves_window_of_first :
    let d := (Desk.new "exit".toList).after (entering "1".toList ++ entering "2".toList ++
      entering "3".toList ++ [(0, .draw 50 10), (0, .select (-2))])
    let drawn := (d.after [(0, .handle (.mouse .scrollUp))]).draw 50 10
    let inner := historyInner 50 10
    d.HasRoom 50 10 ∧ d.selected < d.history.length ∧ d.scrollToBottom = false ∧
      d.historyScroll = 1 ∧ drawn.1.historyScroll = 0 ∧
      ShowsRow drawn.2.canvas inner 0 ((d.historyRows inner.width).1[0]?.getD []) := by
  intro d drawn inner
  have hroom : d.HasRoom 50 10 := ⟨by decide +kernel, by decide, by decide⟩
  have hstate : d.selected < d.history.length ∧ d.scrollToBottom = false ∧ d.historyScroll = 1 ∧
      offsetAfter d.historyScroll [(0, .handle (.mouse .scrollUp))] = 0 := by decide +kernel
  obtain ⟨hselected, hscroll, hbefore, hoffset⟩ := hstate
  obtain ⟨-, hafter, selected, hstart, hshows, -⟩ := (wheel_moves_window d 50 10 hroom hselected).2
    hscroll [(0, .handle (.mouse .scrollUp))] (by simp [IsScrolling])
  have hfirst : drawn.1.itemStarts[drawn.1.selected]? = some 0 := by decide +kernel
  obtain rfl : selected = 0 := Option.some.inj (hstart.symm.trans hfirst)
  refine ⟨hroom, hselected, hscroll, hbefore, hafter.trans hoffset, ?_⟩
  have hline := hshows 0 (by decide)
  rwa [hoffset] at hline

/-- With the last entry selected, a turn up shows nothing new, although the history is scrolled to
    its first row and there are rows for all lines from there on.  A turn down scrolls behind the
    last row that could be on the first line. -/
theorem wheel_held_by_selection :
    let d := (Desk.new "exit".toList).after (entering "1".toList ++ entering "2".toList ++
      entering "3".toList ++ [(0, .draw 50 10)])
    let up := d.wheel .scrollUp
    let down := d.wheel .scrollDown
    let inner := historyInner 50 10
    let rows := (up.historyRows inner.width).1
    up.HasRoom 50 10 ∧ up.scrollToBottom = false ∧ up.historyScroll = 0 ∧
    0 + inner.height ≤ rows.length ∧
    ¬ ShowsRow (up.draw 50 10).2.canvas inner 0 (rows[0]?.getD []) ∧
    ShowsRow (up.draw 50 10).2.canvas inner 0 (rows[1]?.getD []) ∧
    rows.length - inner.height < (down.draw 50 10).1.historyScroll := by
  intro d up down inner rows
  have hroom : up.HasRoom 50 10 := ⟨by decide +kernel, by decide, by decide⟩
  have hstate : up.scrollToBottom = false ∧ up.historyScroll = 0 ∧
      0 + inner.height ≤ rows.length ∧ up.selected < up.history.length ∧
      up.firstShown 50 10 = 1 ∧
      rows.length - inner.height < (down.draw 50 10).1.historyScroll := by decide +kernel
  obtain ⟨hscroll, hoffset, hlength, hselected, hfirst, hdown⟩ := hstate
  have hshows := hroom.showsRow_window hselected 0 (by decide)
  rw [hfirst] at hshows
  refine ⟨hroom, hscroll, hoffset, hlength, fun hno => ?_, hshows, hdown⟩
  -- the first column would have to be both the mark of an entry and a separator
  have hmark := (hshows 0 (by decide)).symm.trans (hno 0 (by decide))
  exact absurd hmark (by decide +kernel)

end DeskCalc.Desk
