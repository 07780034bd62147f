import DeskCalc.Screen.Panel
import DeskCalc.Screen.Paragraph
import DeskCalc.Screen.RowList

/-!
# Drawn cells

Each drawing operation changes the symbols of some cells and leaves those of all others as they are.
What has been drawn is therefore still on the canvas when everything else is drawn beside it or
below it.  The columns of a drawn row are its clusters, each with the empty cells that it covers.

## Key results

- `ChangesOnly`: where an operation can change symbols, with one lemma per operation
- `symbol_drawRow`: what a row leaves in its columns
- `showsRow_drawRowList`: a list of rows shows the rows of its window, one on each line
- `symbol_putGlyphs`: a glyph stands behind the columns of those before it
-/

namespace DeskCalc.Screen

namespace Canvas

/-- The symbol at column `x` of row `y`. -/
def symbol (c : Canvas) (x y : Nat) : List Char := (c.cell x y).symbol

/-- The canvas has all of its cells. -/
def IsWhole (c : Canvas) : Prop := c.cells.size = c.width * c.height

/-- A blank canvas has all of its cells. -/
theorem isWhole_blank (width height : Nat) : (blank width height).IsWhole := Array.size_replicate

/-- All cells of a blank canvas show a space. -/
theorem symbol_blank {width height x y : Nat} : (blank width height).symbol x y = [' '] := by
  unfold symbol cell blank
  rw [Array.getD_eq_getD_getElem?, Array.getElem?_replicate]
  split <;> rfl

/-! ## Changing one cell -/

/-- Cells of different places have different indices. -/
private theorem index_inj {w x y x' y' : Nat} (hx : x < w) (hx' : x' < w)
    (h : y * w + x = y' * w + x') :
    x = x' ∧ y = y' := by
  have hdiv : ∀ {x y : Nat}, x < w → (y * w + x) / w = y := fun hlt => by
    rw [Nat.mul_comm, Nat.mul_add_div (by omega), Nat.div_eq_of_lt hlt, Nat.add_zero]
  -- dividing by the width gives the line back
  have hy : y = y' := calc
    y = (y * w + x) / w := (hdiv hx).symm
    _ = (y' * w + x') / w := by rw [h]
    _ = y' := hdiv hx'
  subst hy
  omega

/-- A place on the canvas has a cell. -/
private theorem index_lt {w h x y : Nat} (hx : x < w) (hy : y < h) : y * w + x < w * h := by
  have hle : (y + 1) * w ≤ h * w := Nat.mul_le_mul_right w hy
  rw [Nat.add_mul, Nat.one_mul] at hle
  rw [Nat.mul_comm w h]
  omega

/-- `modify` keeps the width. -/
@[simp] theorem width_modify (c : Canvas) (x y : Nat) (f : Cell → Cell) :
    (c.modify x y f).width = c.width := by
  unfold modify
  split <;> rfl

/-- `modify` keeps the height. -/
@[simp] theorem height_modify (c : Canvas) (x y : Nat) (f : Cell → Cell) :
    (c.modify x y f).height = c.height := by
  unfold modify
  split <;> rfl

/-- `modify` keeps the number of cells. -/
@[simp] theorem size_modify (c : Canvas) (x y : Nat) (f : Cell → Cell) :
    (c.modify x y f).cells.size = c.cells.size := by
  unfold modify
  split
  · exact Array.size_modify
  · rfl

/-- `modify` changes the cell at its place. -/
private theorem cell_modify_self {c : Canvas} (hc : c.IsWhole) {x y : Nat} (hx : x < c.width)
    (hy : y < c.height) (f : Cell → Cell) : (c.modify x y f).cell x y = f (c.cell x y) := by
  have hlt : y * c.width + x < c.cells.size := hc ▸ index_lt hx hy
  unfold cell
  rw [width_modify, modify, if_pos ⟨hx, hy⟩, Array.getD_eq_getD_getElem?,
    Array.getD_eq_getD_getElem?, Array.getElem?_modify, if_pos rfl,
    Array.getElem?_eq_getElem hlt]
  rfl

/-- `modify` leaves the cells of other places as they are. -/
private theorem cell_modify_of_ne (c : Canvas) {x y x' y' : Nat} (hx' : x' < c.width)
    (hne : ¬ (x' = x ∧ y' = y)) (f : Cell → Cell) :
    (c.modify x y f).cell x' y' = c.cell x' y' := by
  unfold cell
  rw [width_modify, modify]
  split
  · next hin =>
    have hindex : ¬ y * c.width + x = y' * c.width + x' := fun h =>
      hne ((index_inj hin.1 hx' h).imp Eq.symm Eq.symm)
    rw [Array.getD_eq_getD_getElem?, Array.getD_eq_getD_getElem?, Array.getElem?_modify,
      if_neg hindex]
  · rfl

/-! ## What is left unchanged -/

/-- Only the symbols of cells in `P` change. -/
structure ChangesOnly (P : Nat → Nat → Prop) (c c' : Canvas) : Prop where
  width : c'.width = c.width
  height : c'.height = c.height
  size : c'.cells.size = c.cells.size
  symbol : ∀ x y, x < c.width → ¬ P x y → c'.symbol x y = c.symbol x y

namespace ChangesOnly

variable {P Q : Nat → Nat → Prop} {c c' c'' : Canvas}

/-- A canvas that is left as it is has changed nowhere. -/
theorem refl (P : Nat → Nat → Prop) (c : Canvas) : ChangesOnly P c c :=
  ⟨rfl, rfl, rfl, fun _ _ _ _ => rfl⟩

/-- Two changes in `P` make one. -/
theorem trans (h : ChangesOnly P c c') (h' : ChangesOnly P c' c'') : ChangesOnly P c c'' :=
  ⟨h'.width.trans h.width, h'.height.trans h.height, h'.size.trans h.size, fun x y hx hP =>
    (h'.symbol x y (h.width ▸ hx) hP).trans (h.symbol x y hx hP)⟩

/-- A change in `P` is one in any larger part of the canvas. -/
theorem mono (h : ChangesOnly P c c') (hPQ : ∀ x y, P x y → Q x y) : ChangesOnly Q c c' :=
  ⟨h.width, h.height, h.size, fun x y hx hQ => h.symbol x y hx fun hP => hQ (hPQ x y hP)⟩

/-- A change leaves the canvas whole. -/
theorem isWhole (h : ChangesOnly P c c') (hc : c.IsWhole) : c'.IsWhole := by
  unfold IsWhole
  rw [h.size, h.width, h.height]
  exact hc

/-- Drawing one thing after the other in `P` changes nothing else. -/
theorem foldl {α : Type} {f : Canvas → α → Canvas} {as : List α}
    (hf : ∀ a ∈ as, ∀ c, ChangesOnly P c (f c a)) (c : Canvas) :
    ChangesOnly P c (as.foldl f c) := by
  induction as generalizing c with
  | nil => exact refl P c
  | cons a as ih =>
    obtain ⟨ha, hf⟩ := List.forall_mem_cons.1 hf
    exact (ha c).trans (ih hf _)

/-- Drawing one thing after the other, each in a line of its own from line `n` on. -/
theorem foldl_lines {α : Type} {f : Canvas → Nat → α → Canvas} {as : List α} {n : Nat}
    (hf : ∀ c k a, n ≤ k → k < n + as.length → ChangesOnly P c (f c k a)) (c : Canvas) :
    ChangesOnly P c (as.foldl (fun (c, k) a => (f c k a, k + 1)) (c, n)).1 := by
  induction as generalizing c n with
  | nil => exact refl P c
  | cons a as ih =>
    rw [List.length_cons] at hf
    exact (hf c n a (Nat.le_refl n) (by omega)).trans
      (ih (fun c k a hle hlt => hf c k a (by omega) (by omega)) _)

end ChangesOnly

/-- `modify` changes its own cell only. -/
private theorem changesOnly_modify {P : Nat → Nat → Prop} (c : Canvas) {x y : Nat} (hP : P x y)
    (f : Cell → Cell) : ChangesOnly P c (c.modify x y f) := by
  refine ⟨by simp, by simp, by simp, fun x' y' hx' hno => ?_⟩
  refine congrArg Cell.symbol (c.cell_modify_of_ne hx' ?_ f)
  rintro ⟨rfl, rfl⟩
  exact hno hP

/-- `put` changes its own cell only. -/
theorem changesOnly_put {P : Nat → Nat → Prop} (c : Canvas) {x y : Nat} (hP : P x y)
    (symbol : List Char) (style : Style) : ChangesOnly P c (c.put x y symbol style) :=
  c.changesOnly_modify hP _

/-- Painting changes no symbols. -/
theorem changesOnly_paint (P : Nat → Nat → Prop) (c : Canvas) (a : Area) (style : Style) :
    ChangesOnly P c (c.paint a style) := by
  refine .foldl (fun j _ c => .foldl (fun i _ c => ?_) c) c
  refine ⟨by simp, by simp, by simp, fun x y hx _ => ?_⟩
  -- the painted cell keeps its symbol, the others are not touched at all
  by_cases hin : x = a.x + i ∧ y = a.y + j
  · obtain ⟨rfl, rfl⟩ := hin
    unfold symbol cell modify
    split
    · simp only [Array.getD_eq_getD_getElem?, Array.getElem?_modify, if_pos]
      cases c.cells[(a.y + j) * c.width + (a.x + i)]? <;> rfl
    · rfl
  · exact congrArg Cell.symbol (c.cell_modify_of_ne hx hin _)

/-- `clearCells` changes the cells that it clears. -/
private theorem changesOnly_clearCells {P : Nat → Nat → Prop} (c : Canvas) {x y n : Nat}
    (hP : ∀ i < n, P (x + i) y) : ChangesOnly P c (c.clearCells x y n) :=
  .foldl (fun i hi c => c.changesOnly_modify (hP i (List.mem_range.1 hi)) _) c

/-- Clusters are drawn between their first column and `stop`. -/
private theorem changesOnly_drawClusters {P : Nat → Nat → Prop} (c : Canvas) {x y stop : Nat}
    (hP : ∀ x', x ≤ x' → x' < stop → P x' y) (style : Style) (clusters : List (List Char)) :
    ChangesOnly P c (c.drawClusters x y stop style clusters).1 := by
  induction clusters generalizing c x with
  | nil => exact .refl P c
  | cons cluster rest ih =>
    rw [drawClusters]
    split
    · exact ih c hP
    · next hwidth =>
      split
      · exact .refl P c
      · next hroom =>
        -- the cluster is put at `x` and the cells that it covers are emptied
        have hput := c.changesOnly_put (hP x (Nat.le_refl x) (by omega)) cluster style
        have hclear := (c.put x y cluster style).changesOnly_clearCells (x := x + 1) (y := y)
          (n := Text.width cluster - 1) (P := P) fun i hi => hP _ (by omega) (by omega)
        exact (hput.trans hclear).trans (ih _ fun x' hle hlt => hP x' (by omega) hlt)

/-- The next cluster goes behind those that are drawn. -/
private theorem le_drawClusters_snd (c : Canvas) (x y stop : Nat) (style : Style)
    (clusters : List (List Char)) : x ≤ (c.drawClusters x y stop style clusters).2 := by
  induction clusters generalizing c x with
  | nil => exact Nat.le_refl x
  | cons cluster rest ih =>
    rw [drawClusters]
    -- a cluster without width is dropped, one without room ends the row
    split
    · exact ih c x
    · split
      · exact Nat.le_refl x
      · exact Nat.le_trans (Nat.le_add_right _ _) (ih _ _)

/-- The spans of a row are drawn between the first column and `stop`. -/
private theorem changesOnly_foldl_drawClusters {P : Nat → Nat → Prop} (c : Canvas) {x y stop : Nat}
    (hP : ∀ x', x ≤ x' → x' < stop → P x' y) (row : Row) :
    ChangesOnly P c (row.foldl (fun (c, x) span =>
      c.drawClusters x y stop span.style (Text.clusters span.text)) (c, x)).1 := by
  induction row generalizing c x with
  | nil => exact .refl P c
  | cons span row ih =>
    refine (c.changesOnly_drawClusters hP span.style _).trans (ih _ fun x' hle hlt => ?_)
    -- the next span starts behind this one, so its cells are in `P` as well
    exact hP x' (Nat.le_trans (le_drawClusters_snd ..) hle) hlt

/-- A row is drawn within its limit. -/
private theorem changesOnly_drawRow {P : Nat → Nat → Prop} (c : Canvas) {x y limit : Nat}
    (hP : ∀ x', x ≤ x' → x' < x + limit → P x' y) (row : Row) :
    ChangesOnly P c (c.drawRow x y limit row) :=
  c.changesOnly_foldl_drawClusters (fun x' hle hlt => hP x' hle (by omega)) row

end Canvas

/-! ## Panels -/

/-- Whether a cell is on the border of an area, or beside its upper right corner, where a title
    that is too long would go. -/
def Area.OnBorder (a : Area) (x y : Nat) : Prop :=
  (a.x ≤ x ∧ a.y ≤ y ∧ y < a.y + a.height) ∧
    (x = a.x ∨ x = a.x + a.width - 1 ∨ y = a.y ∨ y = a.y + a.height - 1)

/-- A panel leaves its inner area as it is. -/
theorem Panel.changesOnly_draw (p : Panel) (c : Canvas) (a : Area) :
    c.ChangesOnly a.OnBorder (p.draw c a) := by
  unfold Panel.draw
  split
  · exact .refl _ c
  · next harea =>
    rw [not_or] at harea
    have hput : ∀ (c : Canvas) (x y : Nat) (symbol : Char), a.OnBorder x y →
        c.ChangesOnly a.OnBorder (c.put x y [symbol] p.borderStyle) := fun c x y symbol h =>
      c.changesOnly_put h [symbol] p.borderStyle
    have hborder : c.ChangesOnly a.OnBorder (p.drawBorder c a) := by
      unfold drawBorder
      dsimp only
      -- the corners were drawn last
      refine .trans ?_ (hput _ _ _ _ ?_)
      refine .trans ?_ (hput _ _ _ _ ?_)
      refine .trans ?_ (hput _ _ _ _ ?_)
      refine .trans ?_ (hput _ _ _ _ ?_)
      refine .trans (.foldl (fun j hj c => ?_) c) (.foldl (fun i _ c => ?_) _)
      · have hlt := List.mem_range.1 hj
        refine (hput _ _ _ _ ?_).trans (hput _ _ _ _ ?_)
        all_goals unfold Area.OnBorder; omega
      · refine (hput _ _ _ _ ?_).trans (hput _ _ _ _ ?_)
        all_goals unfold Area.OnBorder; omega
      all_goals unfold Area.OnBorder; omega
    refine hborder.trans (Canvas.changesOnly_drawRow _ (fun x hle _ => ?_) _)
    unfold Area.OnBorder
    omega

/-! ## Lines of glyphs -/

namespace Canvas

/-- The cells from a corner on, to the right and downwards. -/
def From (x y : Nat) (x' y' : Nat) : Prop := x ≤ x' ∧ y ≤ y'

end Canvas

/-- Glyphs are drawn to the right of their first column. -/
theorem changesOnly_putGlyphs {P : Nat → Nat → Prop} (c : Canvas) {x y : Nat}
    (hP : ∀ x', x ≤ x' → P x' y) (gs : List Glyph) : c.ChangesOnly P (putGlyphs c x y gs) := by
  induction gs generalizing c x with
  | nil => exact .refl P c
  | cons g gs ih =>
    rw [putGlyphs]
    split
    · exact ih c hP
    · exact (c.changesOnly_put (hP x (Nat.le_refl x)) _ _).trans
        (ih _ fun x' hle => hP x' (by omega))

/-- Lines are drawn within the height of the area. -/
theorem changesOnly_drawLines (c : Canvas) (a : Area) (offset : Nat → Nat)
    (lines : List (List Glyph)) :
    c.ChangesOnly (fun x y => Canvas.From a.x a.y x y ∧ y < a.y + a.height)
      (drawLines c a offset lines) := by
  have hlength : (lines.take a.height).length ≤ a.height := List.length_take_le ..
  refine Canvas.ChangesOnly.foldl_lines
    (f := fun c y line => putGlyphs c (a.x + offset (glyphsWidth line)) y line)
    (fun c y line hle hlt => changesOnly_putGlyphs c (fun x hx => ?_) line) c
  unfold Canvas.From
  omega

/-- The glyphs that fit into an area start with those in front that fit together. -/
theorem fitting_append {areaWidth room : Nat} (hroom : room ≤ areaWidth) {front : List Glyph}
    {g : Glyph} (back : List Glyph) (h : glyphsWidth front + g.width ≤ room) :
    ∃ rest, fitting areaWidth room (front ++ g :: back) = front ++ g :: rest := by
  induction front generalizing room with
  | nil =>
    rw [glyphsWidth_nil, Nat.zero_add] at h
    exact ⟨fitting areaWidth (room - g.width) back, by
      rw [List.nil_append, fitting, if_neg (by omega), if_neg (by omega)]; rfl⟩
  | cons f front ih =>
    -- the first glyph takes its columns of the room, and the others are as they were
    rw [glyphsWidth_cons] at h
    obtain ⟨rest, hrest⟩ := @ih (room - f.width) (by omega) (by omega)
    exact ⟨rest, by
      rw [List.cons_append, fitting, if_neg (by omega), if_neg (by omega), hrest]; rfl⟩

/-- A glyph stands behind the columns of those before it. -/
theorem symbol_putGlyphs {c : Canvas} (hc : c.IsWhole) {x y : Nat} {front : List Glyph} {g : Glyph}
    (back : List Glyph) (hg : 0 < g.width) (hx : x + glyphsWidth front < c.width)
    (hy : y < c.height) :
    (putGlyphs c x y (front ++ g :: back)).symbol (x + glyphsWidth front) y = g.text := by
  induction front generalizing c x with
  | nil =>
    rw [glyphsWidth_nil, Nat.add_zero] at hx ⊢
    rw [List.nil_append, putGlyphs, if_neg (by omega)]
    have hput := c.changesOnly_put (P := fun x' y' => x' = x ∧ y' = y) ⟨rfl, rfl⟩ g.text g.style
    have hback := changesOnly_putGlyphs (c.put x y g.text g.style) (x := x + g.width) (y := y)
      (P := Canvas.From (x + g.width) y) (fun _ hle => ⟨hle, Nat.le_refl y⟩) back
    -- the glyphs behind `g` leave its cell as it is
    rw [hback.symbol x y (hput.width ▸ hx) fun h => by unfold Canvas.From at h; omega]
    exact congrArg Cell.symbol (c.cell_modify_self hc hx hy _)
  | cons f front ih =>
    rw [glyphsWidth_cons, ← Nat.add_assoc] at hx ⊢
    rw [List.cons_append, putGlyphs]
    split
    · next hf =>
      rw [hf, Nat.add_zero] at hx ⊢
      exact ih hc hx hy
    · have hput := c.changesOnly_put (P := fun x' y' => x' = x ∧ y' = y) ⟨rfl, rfl⟩ f.text f.style
      exact ih (hput.isWhole hc) (hput.width ▸ hx) (hput.height ▸ hy)

/-! ## Rows of cells -/

/-- The columns that clusters fill, one behind the other, up to the first one for which there is no
    room: each has its own column and empty ones behind it.  Clusters without width are dropped. -/
def clusterColumns (room : Nat) : List (List Char) → List (List Char)
  | [] => []
  | cluster :: rest =>
    let width := Text.width cluster
    if width = 0 then clusterColumns room rest
    else if room < width then []
    else cluster :: List.replicate (width - 1) [' '] ++ clusterColumns (room - width) rest

/-- The columns that a row fills. -/
def rowColumns (room : Nat) : Row → List (List Char)
  | [] => []
  | span :: spans =>
    let columns := clusterColumns room (Text.clusters span.text)
    columns ++ rowColumns (room - columns.length) spans

namespace Canvas

/-- `put` shows the symbol at its place. -/
private theorem symbol_put_self {c : Canvas} (hc : c.IsWhole) {x y : Nat} (hx : x < c.width)
    (hy : y < c.height) (symbol : List Char) (style : Style) :
    (c.put x y symbol style).symbol x y = symbol :=
  congrArg Cell.symbol (cell_modify_self hc hx hy _)

/-- `clearCells` leaves spaces. -/
private theorem symbol_clearCells {c : Canvas} (hc : c.IsWhole) {x y n : Nat} (hx : x + n ≤ c.width)
    (hy : y < c.height) {i : Nat} (hi : i < n) : (c.clearCells x y n).symbol (x + i) y = [' '] := by
  induction n with
  | zero => omega
  | succ n ih =>
    have hcleared := c.changesOnly_clearCells (x := x) (y := y) (n := n)
      (P := fun _ _ => True) fun _ _ => trivial
    -- the cell cleared last is at the end, the others were cleared before
    have hstep : c.clearCells x y (n + 1) =
        (c.clearCells x y n).modify (x + n) y fun _ => Cell.blank := by
      unfold clearCells
      rw [List.range_succ, List.foldl_append]
      rfl
    rw [hstep]
    by_cases hin : i = n
    · subst hin
      exact congrArg Cell.symbol (cell_modify_self (hcleared.isWhole hc)
        (by rw [hcleared.width]; omega) (by rwa [hcleared.height]) _)
    · refine (congrArg Cell.symbol (cell_modify_of_ne _ ?_ ?_ _)).trans (ih (by omega) (by omega))
      · rw [hcleared.width]
        omega
      · omega

/-- The cells of a cluster of `w` columns: its own and those that it covers. -/
private theorem symbol_put_clearCells {c : Canvas} (hc : c.IsWhole) {x y w : Nat} (hw : w ≠ 0)
    (hx : x + w ≤ c.width) (hy : y < c.height) (cluster : List Char) (style : Style) :
    let c' := (c.put x y cluster style).clearCells (x + 1) y (w - 1)
    c.ChangesOnly (fun x' y' => x ≤ x' ∧ x' < x + w ∧ y' = y) c' ∧
    ∀ i < w, some (c'.symbol (x + i) y) = (cluster :: List.replicate (w - 1) [' '])[i]? := by
  intro c'
  have hput := c.changesOnly_put (P := fun x' y' => x ≤ x' ∧ x' < x + w ∧ y' = y) (x := x)
    (y := y) (by omega) cluster style
  have hclear := (c.put x y cluster style).changesOnly_clearCells (x := x + 1) (y := y)
    (n := w - 1) (P := fun x' y' => x + 1 ≤ x' ∧ x' < x + w ∧ y' = y) fun i hi => by omega
  refine ⟨hput.trans (hclear.mono fun _ _ h => by omega), fun i hi => ?_⟩
  cases i with
  | zero =>
    -- clearing starts one column behind the cluster
    have hkept : c'.symbol x y = (c.put x y cluster style).symbol x y :=
      hclear.symbol x y (by rw [hput.width]; omega) (by omega)
    rw [Nat.add_zero, hkept, symbol_put_self hc (by omega) hy]
    rfl
  | succ i =>
    have hlt : i < w - 1 := by omega
    have hblank : c'.symbol (x + 1 + i) y = [' '] := symbol_clearCells (hput.isWhole hc)
      (by rw [hput.width]; omega) (by rwa [hput.height]) hlt
    rw [show x + (i + 1) = x + 1 + i by omega, hblank, List.getElem?_cons_succ,
      List.getElem?_replicate, if_pos hlt]

/-- Drawn clusters fill their columns, and the cells behind them are left as they are. -/
private theorem symbol_drawClusters {c : Canvas} (hc : c.IsWhole) {x y room : Nat}
    (hx : x + room ≤ c.width) (hy : y < c.height) (style : Style) (clusters : List (List Char)) :
    (c.drawClusters x y (x + room) style clusters).2 = x + (clusterColumns room clusters).length ∧
    (clusterColumns room clusters).length ≤ room ∧
    ∀ i < room, (c.drawClusters x y (x + room) style clusters).1.symbol (x + i) y =
      (clusterColumns room clusters)[i]?.getD (c.symbol (x + i) y) := by
  induction clusters generalizing c x room with
  | nil => exact ⟨rfl, Nat.zero_le _, fun _ _ => rfl⟩
  | cons cluster rest ih =>
    rw [drawClusters, clusterColumns]
    split
    · exact ih hc hx hy
    · next hwidth =>
      have hstop : x + room < x + Text.width cluster ↔ room < Text.width cluster := by omega
      simp only [hstop]
      split
      · exact ⟨rfl, Nat.zero_le _, fun _ _ => rfl⟩
      · next hroom =>
        generalize hw : Text.width cluster = w at hwidth hroom
        obtain ⟨hkept, hown⟩ := symbol_put_clearCells hc hwidth (x := x) (by omega) hy cluster style
        generalize (c.put x y cluster style).clearCells (x + 1) y (w - 1) = c' at hkept hown
        have hroom' : x + w + (room - w) = x + room := by omega
        -- the other clusters are drawn from column `x + w` on, up to the same end
        obtain ⟨hnext, hlength, hcells⟩ := @ih c' (hkept.isWhole hc) (x + w) (room - w)
          (by rw [hkept.width]; omega) (by rwa [hkept.height])
        rw [hroom'] at hnext hcells
        have hcolumns : (cluster :: List.replicate (w - 1) [' ']).length = w := by
          rw [List.length_cons, List.length_replicate]
          omega
        refine ⟨?_, ?_, fun i hi => ?_⟩
        · rw [hnext, List.length_append, hcolumns, Nat.add_assoc]
        · rw [List.length_append, hcolumns]
          omega
        · by_cases hin : i < w
          · -- what is drawn behind the cluster leaves its cells as they are
            have hrest : c'.ChangesOnly (From (x + w) y)
                (c'.drawClusters (x + w) y (x + room) style rest).1 :=
              c'.changesOnly_drawClusters (fun _ hle _ => ⟨hle, Nat.le_refl y⟩) style rest
            rw [hrest.symbol _ _ (by rw [hkept.width]; omega)
              (fun h => by unfold From at h; omega), List.getElem?_append_left (by omega),
              ← hown i hin]
            rfl
          · obtain ⟨j, rfl⟩ := Nat.exists_eq_add_of_le (Nat.le_of_not_lt hin)
            rw [List.getElem?_append_right (by omega), hcolumns, Nat.add_sub_cancel_left,
              ← Nat.add_assoc, hcells j (by omega), hkept.symbol _ _ (by omega) (by omega)]

/-- A drawn row fills its columns, and the cells behind them are left as they are. -/
theorem symbol_drawRow {c : Canvas} (hc : c.IsWhole) {x y limit : Nat} (hx : x + limit ≤ c.width)
    (hy : y < c.height) (row : Row) {i : Nat} (hi : i < limit) :
    (c.drawRow x y limit row).symbol (x + i) y =
      (rowColumns limit row)[i]?.getD (c.symbol (x + i) y) := by
  unfold drawRow
  dsimp only
  rw [Nat.min_eq_left hx]
  induction row generalizing c x limit i with
  | nil => rfl
  | cons span row ih =>
    rw [List.foldl_cons, rowColumns]
    dsimp only
    have hspan : c.ChangesOnly (From x y)
        (c.drawClusters x y (x + limit) span.style (Text.clusters span.text)).1 :=
      c.changesOnly_drawClusters (fun _ hle _ => ⟨hle, Nat.le_refl y⟩) span.style _
    -- the first span fills its columns, and the others are drawn behind them
    obtain ⟨hnext, hlength, hcells⟩ := symbol_drawClusters hc hx hy span.style
      (Text.clusters span.text)
    generalize c.drawClusters x y (x + limit) span.style (Text.clusters span.text) = drawn at *
    obtain ⟨c', x'⟩ := drawn
    dsimp only at hspan hnext hcells ⊢
    generalize clusterColumns limit (Text.clusters span.text) = columns at *
    subst hnext
    have hrest : x + columns.length + (limit - columns.length) = x + limit := by omega
    by_cases hin : i < columns.length
    · -- the other spans leave the columns of this one as they are
      have hspans : c'.ChangesOnly (From (x + columns.length) y)
          (row.foldl (fun (c, x') span => c.drawClusters x' y (x + limit) span.style
            (Text.clusters span.text)) (c', x + columns.length)).1 :=
        c'.changesOnly_foldl_drawClusters (fun _ hle _ => ⟨hle, Nat.le_refl y⟩) row
      rw [hspans.symbol _ _ (by rw [hspan.width]; omega) (fun h => by unfold From at h; omega),
        hcells i hi, List.getElem?_append_left hin, List.getElem?_eq_getElem hin]
    · obtain ⟨j, rfl⟩ := Nat.exists_eq_add_of_le (Nat.le_of_not_lt hin)
      have hj := @ih c' (hspan.isWhole hc) (x + columns.length) (limit - columns.length)
        (by rw [hspan.width]; omega) (by rwa [hspan.height]) j (by omega)
      have hnone : columns[columns.length + j]? = none := List.getElem?_eq_none (by omega)
      rw [hrest, Nat.add_assoc, hcells _ hi, hnone] at hj
      rw [hj, List.getElem?_append_right (by omega), Nat.add_sub_cancel_left]
      rfl

end Canvas

/-! ## Lists of rows -/

/-- A line of an area shows a row: the clusters of the row that fit, each in its own column, and
    nothing behind them. -/
def ShowsRow (c : Canvas) (a : Area) (line : Nat) (row : Row) : Prop :=
  ∀ i < a.width, c.symbol (a.x + i) (a.y + line) = (rowColumns a.width row)[i]?.getD [' ']

/-- What is drawn from a corner to the right of a line, or below it, leaves the row to be seen. -/
theorem ShowsRow.of_changesOnly {c c' : Canvas} {a : Area} {line : Nat} {row : Row} {x y : Nat}
    (h : ShowsRow c a line row) (hchanges : c.ChangesOnly (Canvas.From x y) c')
    (ha : a.x + a.width ≤ c.width) (hcorner : a.x + a.width ≤ x ∨ a.y + line < y) :
    ShowsRow c' a line row := by
  intro i hi
  rw [← h i hi]
  refine hchanges.symbol _ _ (by omega) fun hfrom => ?_
  unfold Canvas.From at hfrom
  omega

/-- Rows drawn one below the other fill their columns, and the cells behind and below them are left
    as they are. -/
private theorem symbol_foldl_drawRow {a : Area} {start : Nat} {f : Canvas → Nat → Row → Canvas}
    (hf : ∀ (c : Canvas) k row, (c.drawRow a.x (a.y + (k - start)) a.width row).ChangesOnly
      (fun _ _ => False) (f c k row))
    {c : Canvas} (hc : c.IsWhole) (ha : a.x + a.width ≤ c.width) {n : Nat} (hn : start ≤ n)
    {rows : List Row} (hheight : a.y + (n - start) + rows.length ≤ c.height) {i : Nat}
    (hi : i < a.width) (j : Nat) :
    (rows.foldl (fun (c, k) row => (f c k row, k + 1)) (c, n)).1.symbol
        (a.x + i) (a.y + (n - start) + j) =
      (rowColumns a.width (rows[j]?.getD []))[i]?.getD
        (c.symbol (a.x + i) (a.y + (n - start) + j)) := by
  induction rows generalizing c n j with
  | nil => rfl
  | cons row rows ih =>
    rw [List.length_cons] at hheight
    have hrow := (c.changesOnly_drawRow (x := a.x) (y := a.y + (n - start))
      (P := fun _ y => y = a.y + (n - start)) (fun _ _ _ => rfl) row).trans
      ((hf c n row).mono fun _ _ h => h.elim)
    have hbelow : a.y + (n - start) + 1 = a.y + (n + 1 - start) := by omega
    cases j with
    | zero =>
      -- the rows below leave the line as it is
      have hrest : (f c n row).ChangesOnly (Canvas.From a.x (a.y + (n - start) + 1))
          (rows.foldl (fun (c, k) row => (f c k row, k + 1)) (f c n row, n + 1)).1 :=
        .foldl_lines (fun c k row hle _ =>
          (c.changesOnly_drawRow (fun x hx _ => ⟨hx, by omega⟩) row).trans
            ((hf c k row).mono fun _ _ h => h.elim)) _
      rw [List.foldl_cons, Nat.add_zero, hrest.symbol _ _ (by rw [hrow.width]; omega)
        (fun h => by unfold Canvas.From at h; omega), (hf c n row).symbol _ _ ?_ id]
      · exact Canvas.symbol_drawRow hc ha (by omega) row hi
      · rw [(c.changesOnly_drawRow (P := fun _ _ => True) (fun _ _ _ => trivial) row).width]
        omega
    | succ j =>
      -- the rows below start on the next line, from which the first row has kept away
      have hj := @ih (f c n row) (hrow.isWhole hc) (by rwa [hrow.width]) (n + 1) (by omega)
        (by rw [hrow.height]; omega) j
      rw [← hbelow, Nat.add_assoc _ 1 j, Nat.add_comm 1 j, hrow.symbol _ _ (by omega) (by omega)]
        at hj
      exact hj

/-- Draws a row of a list of which the row `start` is on the first line. -/
def drawListRow (a : Area) (start : Nat) (selected : Option Nat) (highlight : Style) (c : Canvas)
    (k : Nat) (row : Row) : Canvas :=
  let y := a.y + (k - start)
  let c := c.drawRow a.x y a.width row
  if selected = some k then c.paint ⟨a.x, y, a.width, 1⟩ highlight else c

/-- The highlight changes no symbols. -/
private theorem changesOnly_drawListRow (a : Area) (start : Nat) (selected : Option Nat)
    (highlight : Style) (c : Canvas) (k : Nat) (row : Row) :
    (c.drawRow a.x (a.y + (k - start)) a.width row).ChangesOnly (fun _ _ => False)
      (drawListRow a start selected highlight c k row) := by
  unfold drawListRow
  dsimp only
  split
  · exact Canvas.changesOnly_paint _ _ _ _
  · exact .refl _ _

/-- In an area with room, a list of rows draws those from the first row of its window on. -/
private theorem drawRowList_eq (c : Canvas) {a : Area} (ha : ¬ (a.width = 0 ∨ a.height = 0))
    (rows : List Row) (offset : Nat) (selected : Option Nat) (highlight : Style) :
    let start := windowStart rows.length a.height offset (selected.getD 0)
    drawRowList c a rows offset selected highlight =
      (((rows.drop start).take a.height).foldl (fun (c, k) row =>
        (drawListRow a start selected highlight c k row, k + 1)) (c, start)).1 :=
  if_neg ha

/-- A list of rows shows the rows of its window, each on a line of its own. -/
theorem showsRow_drawRowList {c : Canvas} (hc : c.IsWhole) {a : Area}
    (ha : a.x + a.width ≤ c.width) (hheight : a.y + a.height ≤ c.height)
    (hblank : ∀ i < a.width, ∀ line < a.height, c.symbol (a.x + i) (a.y + line) = [' '])
    (rows : List Row) (offset : Nat) (selected : Option Nat) (highlight : Style) {line : Nat}
    (hline : line < a.height) :
    ShowsRow (drawRowList c a rows offset selected highlight) a line
      (rows[windowStart rows.length a.height offset (selected.getD 0) + line]?.getD []) := by
  intro i hi
  rw [drawRowList_eq c (by omega)]
  generalize windowStart rows.length a.height offset (selected.getD 0) = start
  have hrows : a.y + (start - start) + ((rows.drop start).take a.height).length ≤ c.height := by
    rw [List.length_take]
    omega
  -- the lines were blank, so nothing stands behind the columns of a row
  have hlines := symbol_foldl_drawRow (changesOnly_drawListRow a start selected highlight) hc ha
    (Nat.le_refl start) hrows hi line
  rw [Nat.sub_self, Nat.add_zero, hblank i hi line hline, List.getElem?_take_of_lt hline,
    List.getElem?_drop] at hlines
  exact hlines

/-- A list of rows is drawn from the corner of its area on. -/
theorem changesOnly_drawRowList (c : Canvas) (a : Area) (rows : List Row) (offset : Nat)
    (selected : Option Nat) (highlight : Style) :
    c.ChangesOnly (Canvas.From a.x a.y) (drawRowList c a rows offset selected highlight) := by
  by_cases ha : a.width = 0 ∨ a.height = 0
  · rw [show drawRowList c a rows offset selected highlight = c from if_pos ha]
    exact .refl _ c
  · rw [drawRowList_eq c ha]
    generalize windowStart rows.length a.height offset (selected.getD 0) = start
    refine .foldl_lines (fun c k row _ _ => ?_) c
    have hrow : c.ChangesOnly (Canvas.From a.x a.y)
        (c.drawRow a.x (a.y + (k - start)) a.width row) :=
      c.changesOnly_drawRow (fun _ hx _ => ⟨hx, Nat.le_add_right _ _⟩) row
    exact hrow.trans ((changesOnly_drawListRow a start selected highlight c k row).mono
      fun _ _ h => h.elim)

end DeskCalc.Screen
