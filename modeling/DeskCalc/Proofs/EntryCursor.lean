import DeskCalc.Proofs.Columns
import DeskCalc.Proofs.DeskInvariants
import DeskCalc.Proofs.MainScreen

/-!
# The terminal cursor in the entry field

The window of the entry field is as many characters wide as the panel has columns, and it follows
the cursor by counting characters.  The terminal cursor goes behind the columns of the characters
before it.  The two agree as long as those characters are narrow; behind wide ones the terminal
cursor can leave the panel although the cursor is in the window.

## Key results

- `cursor_in_panel_iff`: when the terminal cursor is in the panel, and what stands at its place
- `cursor_leaves_panel`: behind wide characters it is not
-/

namespace DeskCalc.Desk

open Screen

/-- The area of the entry panel. -/
def entryArea (width : Nat) : Area := ⟨0, 0, width, 3⟩

/-- The shown characters before the cursor. -/
def beforeCursor (f : EntryField) (width : Nat) : List Char :=
  (shownChars f width).take (f.cursor - f.scroll)

/-- What the entry panel shows. -/
def entryText (f : EntryField) (width : Nat) : List Char := '>' :: ' ' :: shownChars f width

/-! ## The window -/

/-- A window with the cursor in it shows the characters from its start to the cursor. -/
private theorem beforeCursor_append_drop {f : EntryField} {width : Nat}
    (hscroll : f.scroll ≤ f.cursor) (hcursor : f.cursor < f.scroll + width) :
    beforeCursor f width ++ f.chars.drop f.cursor = f.chars.drop f.scroll := by
  -- the cursor is in the window, so the shorter of the two cuts is the one at the cursor
  have htake : beforeCursor f width = (f.chars.drop f.scroll).take (f.cursor - f.scroll) := by
    unfold beforeCursor shownChars
    rw [List.take_take, Nat.min_eq_left (by omega)]
  have hdrop : f.chars.drop f.cursor = (f.chars.drop f.scroll).drop (f.cursor - f.scroll) := by
    rw [List.drop_drop, Nat.add_sub_cancel' hscroll]
  rw [htake, hdrop, List.take_append_drop]

/-- There are no more characters before the cursor than it has moved from the start of the
    window. -/
private theorem length_beforeCursor_le (f : EntryField) (width : Nat) :
    (beforeCursor f width).length ≤ f.cursor - f.scroll := List.length_take_le ..

/-- What stands before the cursor is shown. -/
private theorem mem_shownChars_of_mem_beforeCursor {f : EntryField} {width : Nat} {c : Char}
    (h : c ∈ beforeCursor f width) : c ∈ shownChars f width := List.mem_of_mem_take h

/-! ## The clusters of the panel -/

/-- A text without an end of line is its own first line. -/
private theorem firstLine_eq_self {text : List Char} (h : '\n' ∉ text) : firstLine text = text := by
  have hline : text.takeWhile (· != '\n') = text :=
    List.takeWhile_eq_self_iff.2 fun c hc => by simpa using ne_of_mem_of_not_mem hc h
  unfold firstLine
  rw [hline]
  exact if_neg fun h => absurd h.1 (Nat.lt_irrefl _)

/-- Without an end of line the glyphs of a text are its clusters. -/
private theorem glyphs_eq_map {text : List Char} (h : '\n' ∉ text) (style : Style) :
    glyphs [⟨text, style⟩] = (Text.clusters text).map fun cluster => ⟨cluster, style⟩ := by
  -- no cluster is an end of line, since none of the characters is one
  have hkeep : (Text.clusters text).filter (· != ['\n']) = Text.clusters text := by
    refine List.filter_eq_self.2 fun cluster hcluster => ?_
    rw [bne_iff_ne]
    rintro rfl
    exact h (Text.flatten_clusters text ▸ List.mem_flatten.2 ⟨_, hcluster, by simp⟩)
  unfold glyphs
  rw [List.flatMap_cons, List.flatMap_nil, List.append_nil, hkeep]

/-- Glyphs are as wide as the clusters they are made from. -/
private theorem glyphsWidth_map (style : Style) (clusters : List (List Char)) :
    glyphsWidth (clusters.map fun cluster => ⟨cluster, style⟩) = Text.clustersWidth clusters := by
  rw [glyphsWidth, List.map_map]
  rfl

/-- What the panel shows before the marks are put over it. -/
private theorem drawRows_entry (f : EntryField) (width : Nat) (c : Canvas)
    (hnewline : '\n' ∉ shownChars f (entryWidth width)) :
    drawRows c (entryArea width).inner
        [[⟨firstLine ('>' :: ' ' :: shownChars f (entryWidth width)), Style.plain⟩]] =
      putGlyphs c 1 1 (fitting (width - 2) (width - 2)
        ((Text.clusters (entryText f (entryWidth width))).map (⟨·, Style.plain⟩))) := by
  have htext : '\n' ∉ entryText f (entryWidth width) := by
    simpa [entryText] using hnewline
  have hline : firstLine ('>' :: ' ' :: shownChars f (entryWidth width)) =
      entryText f (entryWidth width) := firstLine_eq_self htext
  rw [hline, ← glyphs_eq_map htext]
  rfl

/-- The canvas with the marks for text before the window and behind it. -/
def putMarks (f : EntryField) (window : Nat) (c : Canvas) : Canvas :=
  let c := if 0 < f.scroll then c.put 1 1 ['<'] (Style.color .darkGray) else c
  if f.scroll + window < f.chars.length then c.put (c.width - 2) 1 ['>'] (Style.color .darkGray)
  else c

/-- The marks are on the column of the marker and, if there is text behind the window, on the last
    column of the panel. -/
private theorem changesOnly_putMarks (f : EntryField) (window : Nat) (c : Canvas) :
    c.ChangesOnly (fun x _ => x = 1 ∨ f.scroll + window < f.chars.length ∧ x = c.width - 2)
      (putMarks f window c) := by
  have hleft : c.ChangesOnly
      (fun x _ => x = 1 ∨ f.scroll + window < f.chars.length ∧ x = c.width - 2)
      (if 0 < f.scroll then c.put 1 1 ['<'] (Style.color .darkGray) else c) := by
    split
    · exact c.changesOnly_put (.inl rfl) _ _
    · exact .refl _ c
  unfold putMarks
  dsimp only
  split
  · next hmore =>
    refine hleft.trans (Canvas.changesOnly_put _ (.inr ⟨hmore, ?_⟩) _ _)
    rw [hleft.width]
  · exact hleft

/-- The entry field is its panel, the clusters that fit into it, and the marks. -/
private theorem drawEntry_eq {f : EntryField} {c : Canvas} {width : Nat} (hwidth : c.width = width)
    (hnewline : '\n' ∉ shownChars f (entryWidth width)) :
    drawEntry f c = putMarks f (entryWidth width)
      (putGlyphs ((Panel.titled " Expression ").draw c (entryArea width)) 1 1
        (fitting (width - 2) (width - 2)
          ((Text.clusters (entryText f (entryWidth width))).map (⟨·, Style.plain⟩)))) := by
  subst hwidth
  rw [← drawRows_entry f c.width _ hnewline]
  rfl

/-- A cluster for which there is room is put behind the columns of those before it. -/
private theorem symbol_putGlyphs_fitting {c : Canvas} (hc : c.IsWhole) (hheight : 1 < c.height)
    {front rest : List (List Char)} {cluster : List Char} (hcluster : 0 < Text.width cluster)
    (hroom : Text.clustersWidth front + Text.width cluster ≤ c.width - 2) :
    (putGlyphs c 1 1 (fitting (c.width - 2) (c.width - 2)
      ((front ++ cluster :: rest).map (⟨·, Style.plain⟩)))).symbol
        (1 + Text.clustersWidth front) 1 = cluster := by
  have hfits : glyphsWidth (front.map (Glyph.mk · Style.plain)) +
      (Glyph.mk cluster Style.plain).width ≤ c.width - 2 := by
    rw [glyphsWidth_map]
    exact hroom
  -- everything up to the cluster fits, so none of it is cut off
  obtain ⟨back, hback⟩ := fitting_append (Nat.le_refl (c.width - 2))
    (rest.map (Glyph.mk · Style.plain)) hfits
  have hput := @symbol_putGlyphs c hc 1 1 (front.map (Glyph.mk · Style.plain))
    ⟨cluster, Style.plain⟩ back hcluster (by rw [glyphsWidth_map]; omega) hheight
  rw [glyphsWidth_map] at hput
  rwa [List.map_append, List.map_cons, hback]

/-- A cluster of the panel that is not hidden by a mark stands behind the columns of those before
    it, if there is room for it. -/
private theorem symbol_drawEntry {f : EntryField} {width height : Nat} (hheight : 3 ≤ height)
    (hnewline : '\n' ∉ shownChars f (entryWidth width)) {front rest : List (List Char)}
    {cluster : List Char}
    (hclusters : Text.clusters (entryText f (entryWidth width)) = front ++ cluster :: rest)
    (hfront : 0 < Text.clustersWidth front) (hcluster : 0 < Text.width cluster)
    (hroom : Text.clustersWidth front + Text.width cluster ≤ width - 2)
    (hmark : Text.clustersWidth front + 1 < width - 2 ∨
      f.chars.length ≤ f.scroll + entryWidth width) :
    (drawEntry f (Canvas.blank width height)).symbol (1 + Text.clustersWidth front) 1 =
      cluster := by
  have hpanel := (Panel.titled " Expression ").changesOnly_draw (Canvas.blank width height)
    (entryArea width)
  rw [drawEntry_eq (show (Canvas.blank width height).width = width from rfl) hnewline]
  -- the panel is a canvas like any other from here on
  generalize (Panel.titled " Expression ").draw (Canvas.blank width height) (entryArea width) = c
    at hpanel
  have hwidth : c.width = width := hpanel.width
  have hplace := @symbol_putGlyphs_fitting c (hpanel.isWhole (Canvas.isWhole_blank width height))
    (by rw [hpanel.height]; show 1 < height; omega) front rest cluster hcluster (by rwa [hwidth])
  rw [hwidth, ← hclusters] at hplace
  have hrow := changesOnly_putGlyphs c (x := 1) (y := 1) (P := fun _ _ => True)
    (fun _ _ => trivial) (fitting (width - 2) (width - 2)
      ((Text.clusters (entryText f (entryWidth width))).map (Glyph.mk · Style.plain)))
  generalize putGlyphs c 1 1 _ = c' at hplace hrow ⊢
  -- the marks are put elsewhere
  have hmarks := changesOnly_putMarks f (entryWidth width) c'
  have hwidth' : c'.width = width := hrow.width.trans hwidth
  rw [hmarks.symbol _ _ (by omega) (by omega)]
  exact hplace

/-! ## The cursor -/

/-- The columns before the cursor, where characters stand alone. -/
private theorem clustersWidth_front {f : EntryField} {width : Nat}
    (halone : ∀ c ∈ shownChars f width, Text.StandsAlone c) {front : List (List Char)}
    (hfront : front.flatten = '>' :: ' ' :: beforeCursor f width) :
    Text.clustersWidth front = 2 + Text.width (beforeCursor f width) := by
  have hbefore : ∀ c ∈ beforeCursor f width, Text.StandsAlone c := fun c hc =>
    halone c (mem_shownChars_of_mem_beforeCursor hc)
  -- the marker and its space stand alone as well, so widths can be added up by characters
  have hall : ∀ c ∈ front.flatten, Text.StandsAlone c := by
    rw [hfront]
    exact List.forall_mem_cons.2 ⟨by decide, List.forall_mem_cons.2 ⟨by decide, hbefore⟩⟩
  rw [Text.clustersWidth_eq hall, Text.width_eq_total hall, hfront, Text.width_eq_total hbefore]
  have hmark : Text.charWidth '>' = 1 := by decide
  have hspace : Text.charWidth ' ' = 1 := by decide
  rw [Text.Measure.total_cons, Text.Measure.total_cons, hmark, hspace]
  omega

/-- Whatever has been done to a desk, drawing the main screen puts the terminal cursor on the line
    of the entry panel, behind its marker and the columns of the characters that are shown before
    the cursor of the field.  It is within the panel if and only if these are fewer columns than the
    window has characters; so it is if none of these characters is wide or has a selector.

    As long as all shown characters stand alone, this is where the character at the cursor is drawn,
    or would be behind the end of the text: the clusters before it end there, and its own cluster is
    in that cell unless it sticks out of the panel or is hidden by the mark for more text. -/
theorem cursor_in_panel_iff (w : List Char) (acts : List (Nat × Action)) (width height : Nat)
    (hroom : ((Desk.new w).after acts).HasRoom width height) :
    let d := (Desk.new w).after acts
    let inner := (entryArea ((Size.mk width height).clip).width).inner
    let window := entryWidth ((Size.mk width height).clip).width
    let f := (d.draw width height).1.entry
    let before := beforeCursor f window
    f.line = d.entry.line ∧
    before ++ f.chars.drop f.cursor = f.chars.drop f.scroll ∧
    ∃ column, (d.draw width height).2.cursor = some (column, inner.y) ∧
      inner.x + 2 ≤ column ∧
      (column < inner.x + inner.width ↔ Text.width before < window) ∧
      ((∀ c ∈ before, Text.charWidth c ≤ 1 ∧ c ≠ Text.emojiSelector) →
        column < inner.x + inner.width) ∧
      ((∀ c ∈ shownChars f window, Text.StandsAlone c) →
        ∀ front back, Text.clusters (entryText f window) = front ++ back →
          front.flatten = '>' :: ' ' :: before →
          column = inner.x + Text.clustersWidth front ∧
          ∀ cluster rest, back = cluster :: rest → 0 < Text.width cluster →
            column + Text.width cluster ≤ inner.x + inner.width →
            (column + 1 < inner.x + inner.width ∨ f.chars.length ≤ f.scroll + window) →
            (d.draw width height).2.canvas.symbol column inner.y = cluster) := by
  intro d inner window f before
  obtain ⟨hdrawn, hcursor⟩ := hroom.draw_eq
  have hwidth : minWidth ≤ ((Size.mk width height).clip).width := hroom.width_ge
  have hheight : minHeight ≤ ((Size.mk width height).clip).height := hroom.height_ge
  unfold minWidth at hwidth
  unfold minHeight at hheight
  -- drawing the history does not touch the entry, which has been scrolled before
  have hentry : f = d.entry.fitScroll window := by
    show (d.draw width height).1.entry = _
    rw [hdrawn]
    exact entry_layOutHistory _ _
  have hwindow : 0 < window := by
    show 0 < _ - 4
    omega
  obtain ⟨hscroll, hbehind⟩ := d.entry.scroll_fitScroll_le hwindow
  rw [← hentry] at hscroll hbehind
  have hinner : inner = ⟨1, 1, ((Size.mk width height).clip).width - 2, 1⟩ := rfl
  have hwindow_eq : window = ((Size.mk width height).clip).width - 4 := rfl
  have hiff : 3 + Text.width before < inner.x + inner.width ↔ Text.width before < window := by
    rw [hinner, hwindow_eq]
    dsimp only
    omega
  refine ⟨?_, beforeCursor_append_drop hscroll hbehind, 3 + Text.width before, hcursor, ?_, hiff,
    fun hnarrow => ?_, fun halone front back hclusters hfront => ?_⟩
  · rw [hentry]
    exact d.entry.line_fitScroll window
  · rw [hinner]
    exact Nat.le_add_right 3 _
  · -- the window has more characters than there are before the cursor
    exact hiff.2 (calc
      Text.width before ≤ before.length := Text.width_le_length hnarrow
      _ ≤ f.cursor - f.scroll := length_beforeCursor_le f window
      _ < window := by omega)
  · have hcolumn : 3 + Text.width before = inner.x + Text.clustersWidth front := by
      rw [clustersWidth_front halone hfront, hinner]
      show 3 + Text.width (beforeCursor f window) = 1 + (2 + Text.width (beforeCursor f window))
      omega
    refine ⟨hcolumn, fun cluster rest hback hcluster hfits hmark => ?_⟩
    -- an end of line never stands alone
    have hnewline : '\n' ∉ shownChars f window := fun hmem =>
      absurd (halone _ hmem) (by decide)
    subst hback
    rw [hinner] at hcolumn hfits hmark ⊢
    dsimp only at hcolumn hfits hmark ⊢
    rw [hroom.symbol_entry (by omega) (by decide), hcolumn]
    refine symbol_drawEntry (by omega) hnewline hclusters (by omega) hcluster (by omega) ?_
    exact hmark.imp (fun h => by omega) id

/-- Before the `1` behind a wide character, the terminal cursor is on the `1`. -/
theorem cursor_in_panel_of_wide :
    let acts : List (Nat × Action) := typing ['漢', '1'] ++ [(0, .handle (.press .left false))]
    let d := (Desk.new "exit".toList).after acts
    d.HasRoom 50 10 ∧ (d.draw 50 10).2.cursor = some (5, 1) ∧
      (d.draw 50 10).2.canvas.symbol 5 1 = ['1'] := by
  intro acts d
  have hroom : d.HasRoom 50 10 := ⟨by decide +kernel, by decide, by decide⟩
  obtain ⟨-, -, column, hcursor, -, -, -, halone⟩ := cursor_in_panel_iff _ acts 50 10 hroom
  have hcolumn : (d.draw 50 10).2.cursor = some (5, 1) := by decide +kernel
  obtain rfl : column = 5 := by
    have hboth := hcursor.symm.trans hcolumn
    simpa using congrArg (Option.map Prod.fst) hboth
  have hshown : shownChars (d.draw 50 10).1.entry 46 = ['漢', '1'] := by decide +kernel
  have hwide : ∀ c ∈ shownChars (d.draw 50 10).1.entry 46, Text.StandsAlone c := by
    rw [hshown]
    exact List.forall_mem_cons.2 ⟨by decide, List.forall_mem_cons.2 ⟨by decide, by simp⟩⟩
  -- the clusters before the cursor are the marker, its space and the wide character
  have hclusters : Text.clusters (entryText (d.draw 50 10).1.entry 46) =
      [['>'], [' '], ['漢']] ++ [['1']] := by
    rw [entryText, hshown]
    decide +kernel
  have hplace := (halone hwide [['>'], [' '], ['漢']] [['1']] hclusters (by decide +kernel)).2
    ['1'] [] rfl (by decide) (by decide) (.inl (by decide))
  exact ⟨hroom, hcolumn, hplace⟩

/-- Behind `24` wide characters the terminal cursor is on column `51`, although the panel ends
    before column `49` and the cursor of the field is in its window. -/
theorem cursor_leaves_panel :
    let d := (Desk.new "exit".toList).after (typing (List.replicate 24 '漢'))
    let f := (d.draw 50 10).1.entry
    d.HasRoom 50 10 ∧
    (entryArea 50).inner.x + (entryArea 50).inner.width = 49 ∧
    f.scroll ≤ f.cursor ∧ f.cursor < f.scroll + entryWidth 50 ∧
    (d.draw 50 10).2.cursor = some (51, 1) := by
  intro d f
  exact ⟨⟨by decide +kernel, by decide, by decide⟩, by decide, by decide +kernel,
    by decide +kernel, by decide +kernel⟩

end DeskCalc.Desk
