import DeskCalc.Proofs.CheckedDrawing
import DeskCalc.Proofs.DrawnCells

/-!
# What is where on the main screen

The panels of the main screen are drawn one after the other, each into cells of its own.  So what is
seen of a panel is what it drew: the entry field on the first three lines, and on the lines of the
history panel one row of the history each.

## Key results

- `HasRoom.symbol_entry`: the first lines show the entry field
- `HasRoom.showsRow_history`: the history panel shows the rows of its window
-/

namespace DeskCalc.Desk

open Screen

/-! ## The panels -/

/-- The entry field is drawn in the first three lines. -/
private theorem changesOnly_drawEntry (f : EntryField) (c : Canvas) :
    c.ChangesOnly (fun _ y => y < 3) (drawEntry f c) := by
  have hput : ∀ (c : Canvas) (x : Nat) (symbol : List Char) (style : Style),
      c.ChangesOnly (fun _ y => y < 3) (c.put x 1 symbol style) := fun c x symbol style =>
    c.changesOnly_put (by decide) symbol style
  have hpanel : c.ChangesOnly (fun _ y => y < 3)
      ((Panel.titled " Expression ").draw c ⟨0, 0, c.width, 3⟩) :=
    (Panel.changesOnly_draw _ c _).mono fun x y h => by
      have hy := h.1.2.2
      dsimp only at hy
      omega
  have hrows := fun c' : Canvas => fun rows => (changesOnly_drawLines c'
    (Area.inner ⟨0, 0, c.width, 3⟩) (fun _ => 0) rows).mono (Q := fun _ y => y < 3)
    fun x y h => by
      have hy := h.2
      dsimp only [Area.inner] at hy
      omega
  unfold drawEntry drawRows
  dsimp only
  -- a marker on the right if the text goes on there, and one on the left
  split
  · refine .trans ?_ (hput ..)
    split
    · exact (hpanel.trans (hrows _ _)).trans (hput ..)
    · exact hpanel.trans (hrows _ _)
  · split
    · exact (hpanel.trans (hrows _ _)).trans (hput ..)
    · exact hpanel.trans (hrows _ _)

/-- The key hints are drawn in the fourth line. -/
private theorem changesOnly_drawKeyHints (c : Canvas) :
    c.ChangesOnly (fun _ y => y = 3) (drawKeyHints c) :=
  (changesOnly_drawLines c ⟨0, 3, c.width, 1⟩ (fun _ => 0) _).mono fun x y h => by
    have hy : y < 3 + 1 := h.2
    have hy' : 3 ≤ y := h.1.2
    omega

/-- Centered rows are drawn from the corner of their area on. -/
private theorem changesOnly_drawCentered (c : Canvas) (a : Area) (rows : List Row) :
    c.ChangesOnly (Canvas.From a.x a.y) (drawCentered c a rows) :=
  (changesOnly_drawLines c a _ _).mono fun _ _ h => h.1

/-- A panel is drawn from the corner of its area on. -/
private theorem changesOnly_draw_from (p : Panel) (c : Canvas) (a : Area) :
    c.ChangesOnly (Canvas.From a.x a.y) (p.draw c a) :=
  (p.changesOnly_draw c a).mono fun _ _ h => ⟨h.1.1, h.1.2.1⟩

/-- The inside of an area is behind its corner. -/
private theorem from_inner {a : Area} {x y : Nat} (h : Canvas.From a.inner.x a.inner.y x y) :
    Canvas.From a.x a.y x y :=
  ⟨(Nat.le_succ _).trans h.1, (Nat.le_succ _).trans h.2⟩

/-- The history is drawn from the corner of its panel on. -/
private theorem changesOnly_drawHistory (d : Desk) (area : Area) (c : Canvas) :
    c.ChangesOnly (Canvas.From area.x area.y) (d.drawHistory area c) := by
  unfold drawHistory
  dsimp only
  refine (changesOnly_draw_from (Panel.titled " History ") c area).trans ?_
  split
  · exact (Canvas.changesOnly_paint _ _ _ _).trans
      ((changesOnly_drawCentered _ _ _).mono fun _ _ => from_inner)
  · exact (changesOnly_drawRowList _ _ _ _ _ _).mono fun _ _ => from_inner

/-- The variables are drawn from the corner of their panel on. -/
private theorem changesOnly_drawVariables (symbols : SymbolTable) (area : Area) (c : Canvas) :
    c.ChangesOnly (Canvas.From area.x area.y) (drawVariables symbols area c) := by
  unfold drawVariables
  dsimp only
  split
  · exact ((Canvas.changesOnly_paint _ _ _ _).trans (changesOnly_draw_from _ _ area)).trans
      ((changesOnly_drawCentered _ _ _).mono fun _ _ => from_inner)
  · exact (changesOnly_draw_from _ c area).trans
      ((changesOnly_drawRowList _ _ _ _ _ _).mono fun _ _ => from_inner)

/-- An area within a canvas in which nothing has been drawn. -/
structure FramesBlank (c : Canvas) (a : Area) : Prop where
  isWhole : c.IsWhole
  width_le : a.x + a.width ≤ c.width
  height_le : a.y + a.height ≤ c.height
  blank : ∀ i < a.width, ∀ line < a.height, c.symbol (a.x + i) (a.y + line) = [' ']

/-- Nothing has been drawn inside the history panel before its rows are. -/
private theorem framesBlank_history (f : EntryField) {width height : Nat}
    (hwidth : minWidth ≤ width) (hheight : minHeight ≤ height) :
    FramesBlank ((Panel.titled " History ").draw
      (drawKeyHints (drawEntry f (Canvas.blank width height))) (historyArea width height))
      (historyArea width height).inner := by
  unfold minWidth at hwidth
  unfold minHeight at hheight
  have hinner : (historyArea width height).inner = ⟨1, 5, width - 24 - 2, height - 4 - 2⟩ := rfl
  -- the entry field and the key hints are above the panel
  have habove := ((changesOnly_drawEntry f (Canvas.blank width height)).mono
    (Q := fun _ y => y < 4) fun _ _ h => by omega).trans
      ((changesOnly_drawKeyHints _).mono fun _ _ h => by omega)
  generalize drawKeyHints (drawEntry f (Canvas.blank width height)) = c at habove
  have hpanel := (Panel.titled " History ").changesOnly_draw c (historyArea width height)
  generalize (Panel.titled " History ").draw c (historyArea width height) = c' at hpanel
  have hwidth' : c'.width = width := hpanel.width.trans habove.width
  have hheight' : c'.height = height := hpanel.height.trans habove.height
  rw [hinner]
  refine ⟨hpanel.isWhole (habove.isWhole (Canvas.isWhole_blank width height)), ?_, ?_,
    fun i hi line hline => ?_⟩
  · rw [hwidth']
    dsimp only
    omega
  · rw [hheight']
    dsimp only
    omega
  · dsimp only at hi hline ⊢
    have houtside : ¬ (historyArea width height).OnBorder (1 + i) (5 + line) := by
      unfold Area.OnBorder historyArea variablesWidth
      dsimp only
      omega
    rw [hpanel.symbol _ _ (by rw [habove.width]; show _ < width; omega) houtside,
      habove.symbol _ _ (by show _ < width; omega) (by omega), Canvas.symbol_blank]

/-- The inside of the history panel on the screen that one gets when asking for this size. -/
def historyInner (width height : Nat) : Area :=
  let size := (Size.mk width height).clip
  (historyArea size.width size.height).inner

/-! ## The whole screen -/

section Screen

variable {d : Desk} {width height : Nat}

/-- The panels are drawn from the top to the bottom, and for the desk that is left behind. -/
private theorem HasRoom.canvas_eq (h : d.HasRoom width height) :
    let size := (Size.mk width height).clip
    let drawn := (d.draw width height).1
    (d.draw width height).2.canvas =
      drawVariables drawn.calculator.symbols (variablesArea size.width size.height)
        (drawn.drawHistory (historyArea size.width size.height)
          (drawKeyHints (drawEntry drawn.entry (Canvas.blank size.width size.height)))) := by
  have hroom : ¬ (((Size.mk width height).clip).width < minWidth ∨
      ((Size.mk width height).clip).height < minHeight) := by
    rw [not_or]
    exact ⟨Nat.not_lt.2 h.width_ge, Nat.not_lt.2 h.height_ge⟩
  unfold Desk.draw drawMain
  dsimp only
  -- neither the help nor the notice that the screen is too small is drawn
  rw [if_neg (Bool.eq_false_iff.1 h.helpShown), if_neg hroom]

/-- The first three lines show the entry field. -/
theorem HasRoom.symbol_entry (h : d.HasRoom width height) {x y : Nat}
    (hx : x < ((Size.mk width height).clip).width) (hy : y < 3) :
    let size := (Size.mk width height).clip
    (d.draw width height).2.canvas.symbol x y =
      (drawEntry (d.draw width height).1.entry
        (Canvas.blank size.width size.height)).symbol x y := by
  intro size
  have hcanvas := h.canvas_eq
  dsimp only at hcanvas
  rw [hcanvas]
  clear hcanvas
  generalize (d.draw width height).1 = drawn
  -- the other panels are drawn below
  have hbelow : ∀ x₀, ¬ Canvas.From x₀ 4 x y := fun _ hfrom => by
    have hle := hfrom.2
    omega
  have hentry := changesOnly_drawEntry drawn.entry (Canvas.blank size.width size.height)
  generalize drawEntry drawn.entry (Canvas.blank size.width size.height) = c at hentry ⊢
  have hhints := changesOnly_drawKeyHints c
  have hhistory := drawn.changesOnly_drawHistory (historyArea size.width size.height)
    (drawKeyHints c)
  have hvariables := changesOnly_drawVariables drawn.calculator.symbols
    (variablesArea size.width size.height)
    (drawn.drawHistory (historyArea size.width size.height) (drawKeyHints c))
  have hxc : x < c.width := by rwa [hentry.width]
  have hxk : x < (drawKeyHints c).width := by rwa [hhints.width]
  rw [hvariables.symbol x y (by rwa [hhistory.width]) (hbelow _),
    hhistory.symbol x y hxk (hbelow _), hhints.symbol x y hxc (by omega)]

/-- Each line of the history panel shows a row of the history, from the start of the window on. -/
theorem HasRoom.showsRow_history (h : d.HasRoom width height)
    (hhistory : (d.draw width height).1.history ≠ []) {line : Nat} :
    let inner := historyInner width height
    let drawn := (d.draw width height).1
    let rows := (drawn.historyRows inner.width).1
    let start := windowStart rows.length inner.height drawn.historyScroll
      ((drawn.historyRows inner.width).2[drawn.selected]?.getD 0)
    line < inner.height →
      ShowsRow (d.draw width height).2.canvas inner line (rows[start + line]?.getD []) := by
  intro inner drawn rows start hline
  have hcanvas := h.canvas_eq
  dsimp only at hcanvas
  rw [hcanvas]
  let size := (Size.mk width height).clip
  have hframe := framesBlank_history drawn.entry h.width_ge h.height_ge
  -- with entries in the history, the panel shows the list of their rows
  have hdrawn : ∀ c, drawn.drawHistory (historyArea size.width size.height) c =
      drawRowList ((Panel.titled " History ").draw c (historyArea size.width size.height)) inner
        rows drawn.historyScroll (drawn.historyRows inner.width).2[drawn.selected]?
        selectedStyle := fun _ => if_neg (mt List.isEmpty_iff.1 hhistory)
  rw [hdrawn]
  generalize (Panel.titled " History ").draw (drawKeyHints (drawEntry drawn.entry
    (Canvas.blank size.width size.height))) (historyArea size.width size.height) = c at hframe
  obtain ⟨hwhole, hwidth, hheight, hblank⟩ := hframe
  have hlist := showsRow_drawRowList hwhole hwidth hheight hblank rows drawn.historyScroll
    (drawn.historyRows inner.width).2[drawn.selected]? selectedStyle hline
  have hlist' := changesOnly_drawRowList c inner rows drawn.historyScroll
    (drawn.historyRows inner.width).2[drawn.selected]? selectedStyle
  -- the variables are drawn to the right
  refine hlist.of_changesOnly (changesOnly_drawVariables _ _ _)
    (hwidth.trans_eq hlist'.width.symm) (.inl ?_)
  show 1 + (size.width - 24 - 2) ≤ size.width - 24
  have hroom : 50 ≤ size.width := h.width_ge
  omega

end Screen

end DeskCalc.Desk
