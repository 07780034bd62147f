import DeskCalc.Proofs.EntryCursor
import DeskCalc.Proofs.HistoryRows
import DeskCalc.Proofs.StepTexts

/-!
# The history panel

The starts that a drawing records are where the entries are among the rows, and the headline of the
selected entry is on the screen.  An entry that was just evaluated is selected and asks for the end
of the history, and both stay so until the selection is moved or the main screen is drawn.  So the
first drawing shows all of the entry if it fits.

The rows of steps are wrapped by the width of their text, but each of their clusters is drawn in
cells of its own.  The two agree for characters that stand alone.  Letters that join are narrower as
a text than as clusters, and a row of them can lose its end.

## Key results

- `scrollsToEnd_after`: an entry stays selected, with the end of the history asked for
- `HasRoom.showsRow_end`: a drawing then shows all of the entry
- `history_panel`: what the panel shows
- `step_row_loses_end`: a row of steps that does not fit
-/

namespace DeskCalc

open Screen

/-! ## Rows that fit -/

/-- Clusters that are drawn take all their columns when there is room for them, and only then. -/
private theorem length_clusterColumns_eq_iff {room : Nat} {clusters : List (List Char)} :
    (clusterColumns room clusters).length = Text.clustersWidth clusters ↔
      Text.clustersWidth clusters ≤ room := by
  induction clusters generalizing room with
  | nil => exact ⟨fun _ => Nat.zero_le room, fun _ => rfl⟩
  | cons cluster rest ih =>
    have hwidth : Text.clustersWidth (cluster :: rest) =
        Text.width cluster + Text.clustersWidth rest := rfl
    rw [clusterColumns, hwidth]
    split
    · next hzero => rw [hzero, Nat.zero_add, ih]
    · split
      · -- neither is the cluster drawn, nor is there room for it
        rw [List.length_nil]
        omega
      · rw [List.length_append, List.length_cons, List.length_replicate]
        have hrest := @ih (room - Text.width cluster)
        omega

/-- All clusters of a row are drawn, each in its columns, if and only if there is room for them. -/
private theorem length_rowColumns_eq_iff {room : Nat} {text : List Char} {style : Style} :
    (rowColumns room [⟨text, style⟩]).length = Text.clustersWidth (Text.clusters text) ↔
      Text.clustersWidth (Text.clusters text) ≤ room := by
  rw [rowColumns, rowColumns, List.append_nil]
  exact length_clusterColumns_eq_iff

/-- Characters that stand alone take as many columns on the screen as in a text. -/
private theorem clustersWidth_clusters_eq {text : List Char} (h : ∀ c ∈ text, Text.StandsAlone c) :
    Text.clustersWidth (Text.clusters text) = Text.width text := by
  have hclusters := @Text.clustersWidth_eq (Text.clusters text)
  rw [Text.flatten_clusters] at hclusters
  exact hclusters h

namespace Desk

/-! ## The end of the history -/

/-- The next drawing scrolls to the end of the history, where the selected entry is. -/
structure ScrollsToEnd (d : Desk) : Prop where
  scrolls : d.scrollToBottom = true
  selected : d.history = [] ∨ d.selected + 1 = d.history.length

/-- What matters is the scrolling that is asked for, the history and the selection. -/
private theorem ScrollsToEnd.of_eq {d d' : Desk} (h : d.ScrollsToEnd)
    (hscroll : d'.scrollToBottom = d.scrollToBottom) (hhistory : d'.history = d.history)
    (hselected : d'.selected = d.selected) : d'.ScrollsToEnd := by
  refine ⟨hscroll.trans h.scrolls, ?_⟩
  rw [hhistory, hselected]
  exact h.selected

/-- Whether an action takes back that the end of the history is asked for: by moving the selection,
    or by going there. -/
def Settles (d : Desk) : Action → Prop
  | .select _ => True
  | .page _ => True
  | .handle (.press key _) => d.helpShown = false ∧ key ∈ [Key.up, .down, .pageUp, .pageDown]
  | .draw width height => d.HasRoom width height
  | _ => False

/-- None of several actions takes it back. -/
def Unsettled (d : Desk) : List (Nat × Action) → Prop
  | [] => True
  | act :: acts => ¬ d.Settles act.2 ∧ (d.act act.1 act.2).Unsettled acts

/-- Typing moves no selection and draws nothing. -/
private theorem unsettled_typing (d : Desk) (text : List Char) : d.Unsettled (typing text) := by
  induction text generalizing d with
  | nil => trivial
  | cons c text ih =>
    refine ⟨fun h => ?_, ih _⟩
    -- a character is none of the keys that do
    obtain ⟨-, hkey⟩ := h
    exact absurd hkey (by simp)

/-- A submission adds an entry and asks for the end of the history, clears the history, or leaves
    it and what is asked for as they are. -/
private theorem submit_cases (d : Desk) (elapsed : Nat) :
    (d.submit elapsed).ScrollsToEnd ∨
      (d.submit elapsed).scrollToBottom = d.scrollToBottom ∧
        ((d.submit elapsed).history = [] ∨
          (d.submit elapsed).history = d.history ∧ (d.submit elapsed).selected = d.selected) := by
  have hsubmit := d.submit_eq elapsed
  -- only an expression adds an entry, and it asks for the end at once
  cases hread : Submission.read d.exitWord d.entry.chars with
  | nothing | quit | help =>
    simp only [hread] at hsubmit
    rw [hsubmit]
    exact .inr ⟨rfl, .inr ⟨rfl, rfl⟩⟩
  | clear =>
    simp only [hread] at hsubmit
    rw [hsubmit]
    exact .inr ⟨rfl, .inl rfl⟩
  | expression detailed text =>
    simp only [hread] at hsubmit
    obtain ⟨-, -, hsubmit⟩ := hsubmit
    rw [hsubmit]
    rcases d.evaluate_cases text detailed elapsed with ⟨e, -, -, heq⟩ | heq
    · rw [heq]
      have hlength : d.history.length + 1 = (d.history ++ [e]).length := by simp
      exact .inl ⟨rfl, .inr hlength⟩
    · rw [heq]
      exact .inr ⟨rfl, .inr ⟨rfl, rfl⟩⟩

/-- A submission keeps the end of the history asked for. -/
private theorem ScrollsToEnd.submit {d : Desk} (h : d.ScrollsToEnd) (elapsed : Nat) :
    (d.submit elapsed).ScrollsToEnd := by
  rcases d.submit_cases elapsed with hend | ⟨hscroll, hempty | ⟨hhistory, hselected⟩⟩
  · exact hend
  · exact ⟨hscroll.trans h.scrolls, .inl hempty⟩
  · exact h.of_eq hscroll hhistory hselected

/-- An action that adds an entry asks for the end of the history. -/
private theorem scrollsToEnd_of_append {d : Desk} {elapsed : Nat} {a : Action} {e : HistoryEntry}
    (h : (d.act elapsed a).history = d.history ++ [e]) : (d.act elapsed a).ScrollsToEnd := by
  have hne : d.history ++ [e] ≠ d.history := by simp
  by_cases ha : a = .handle (.press (.char '\n') false)
  · rw [ha, d.history_newline elapsed] at h
    exact absurd h.symm hne
  · -- only a submission can have added it
    rcases d.submissions_cases elapsed ha with ⟨-, hbooks⟩ | ⟨-, hact⟩
    · exact absurd (h.symm.trans hbooks.history) hne
    · rw [hact] at h ⊢
      rcases d.submit_cases elapsed with hend | ⟨-, hempty | ⟨hhistory, -⟩⟩
      · exact hend
      · exact absurd (h.symm.trans hempty) (by simp)
      · exact absurd (h.symm.trans hhistory) hne

/-- A key that moves no selection keeps the end of the history asked for. -/
private theorem ScrollsToEnd.editorKey {d : Desk} (h : d.ScrollsToEnd) (elapsed : Nat) {key : Key}
    (hkey : key ∉ [Key.up, .down, .pageUp, .pageDown]) (control : Bool) :
    (d.editorKey elapsed key control).ScrollsToEnd := by
  -- only the keys that select put an end to it, and these are excluded
  cases key with
  | char c =>
    cases control with
    | false => exact h.of_eq rfl rfl rfl
    | true =>
      show ScrollsToEnd (if c = 'c' ∨ c = 'd' then { d with quitting := true }
        else if c = 'u' ∨ c = 'U' then d.clearEntry else d)
      split
      · exact h.of_eq rfl rfl rfl
      · split
        · exact h.of_eq rfl rfl rfl
        · exact h
  | left | right => cases control <;> exact h.of_eq rfl rfl rfl
  | home | toEnd | backspace | delete | escape | tab => exact h.of_eq rfl rfl rfl
  | enter => exact h.submit elapsed
  | up | down | pageUp | pageDown => exact absurd hkey (by decide)
  | function n =>
    match n with
    | 0 => exact h
    | 1 => exact h.of_eq rfl rfl rfl
    | n + 2 => exact h

/-- A drawing without room for the main screen changes nothing. -/
private theorem draw_fst_of_not_hasRoom {d : Desk} {width height : Nat}
    (h : ¬ d.HasRoom width height) :
    (d.draw width height).1 = d := by
  unfold draw drawMain
  dsimp only
  split
  · rfl
  · next hhelp =>
    split
    · rfl
    · next hroom =>
      rw [not_or] at hroom
      exact absurd ⟨Bool.eq_false_iff.2 hhelp, Nat.not_lt.1 hroom.1, Nat.not_lt.1 hroom.2⟩ h

/-- The end of the history stays asked for until an action settles it. -/
private theorem ScrollsToEnd.act {d : Desk} (h : d.ScrollsToEnd) (elapsed : Nat) {a : Action}
    (ha : ¬ d.Settles a) : (d.act elapsed a).ScrollsToEnd := by
  cases a with
  | select | page => exact absurd trivial ha
  | submit => exact h.submit elapsed
  | draw width height =>
    show (d.draw width height).1.ScrollsToEnd
    -- without room nothing is laid out, so the end is still to be shown
    rwa [draw_fst_of_not_hasRoom ha]
  | handle event =>
    cases event with
    | press key control =>
      show ScrollsToEnd (if d.helpShown then d.helpKey key else d.editorKey elapsed key control)
      split
      · cases key <;> exact h.of_eq rfl rfl rfl
      · next hhelp =>
        exact h.editorKey elapsed (fun hkey => ha ⟨Bool.eq_false_iff.2 hhelp, hkey⟩) control
    | mouse mouse =>
      show (d.wheel mouse).ScrollsToEnd
      cases mouse with
      | other => exact h
      | scrollUp | scrollDown =>
        simp only [wheel]
        split <;> exact h.of_eq rfl rfl rfl
    | release | focus | idle => exact h

/-- Actions that settle nothing keep the end of the history asked for. -/
private theorem ScrollsToEnd.after {d : Desk} (h : d.ScrollsToEnd) {acts : List (Nat × Action)}
    (hacts : d.Unsettled acts) : (d.after acts).ScrollsToEnd := by
  -- one action after the other, none of which settles it
  induction acts generalizing d with
  | nil => exact h
  | cons act acts ih => exact ih (h.act act.1 hacts.1) hacts.2

/-- Behind an action that added an entry, and others that do not settle it, the end of the history
    is asked for. -/
theorem scrollsToEnd_after {d : Desk} {elapsed : Nat} {a : Action} {e : HistoryEntry}
    {more : List (Nat × Action)} (h : (d.act elapsed a).history = d.history ++ [e])
    (hmore : (d.act elapsed a).Unsettled more) : ((d.act elapsed a).after more).ScrollsToEnd :=
  (scrollsToEnd_of_append h).after hmore

/-! ## What the panel shows -/

section Drawing

variable {d : Desk} {width height : Nat}

/-- The window is around the headline of the selected entry. -/
private theorem HasRoom.firstShown_le (h : d.HasRoom width height) :
    let inner := historyInner width height
    let selected := startOf d.history inner.width d.selected
    d.firstShown width height ≤ selected ∧
      selected < d.firstShown width height + inner.height := by
  have hheight := h.inner_pos.2
  -- the window is moved by just as much as the headline needs
  unfold firstShown
  dsimp only
  omega

/-- The headline of the selected entry is on the screen. -/
theorem HasRoom.showsRow_headline (h : d.HasRoom width height) {e : HistoryEntry}
    (he : d.history[d.selected]? = some e) :
    let inner := historyInner width height
    ∃ line < inner.height,
      ShowsRow (d.draw width height).2.canvas inner line (e.headline true) := by
  obtain ⟨front, behind, haround, -⟩ := historyRows_split he (historyInner width height).width
  have hheadline := haround.getElem?_start
  rw [decide_eq_true rfl] at hheadline
  obtain ⟨hlow, hhigh⟩ := h.firstShown_le
  exact ⟨_, by omega, h.showsRow_of_index (List.getElem?_eq_some_iff.1 he).1 hheadline hlow hhigh⟩

/-- When the end of the history is asked for, all rows of the selected entry are on the screen if
    they fit, and the last one is on the last line if not all rows of the history fit. -/
theorem HasRoom.showsRow_end (h : d.HasRoom width height) (hend : d.ScrollsToEnd)
    {e : HistoryEntry} (he : d.history.getLast? = some e) :
    let inner := historyInner width height
    let rows := (d.historyRows inner.width).1
    e.rowCount inner.width ≤ inner.height →
      ∃ first,
        (∀ j < e.rowCount inner.width, first + j < inner.height ∧ ∃ row,
          (e.rows true (inner.width - HistoryEntry.stepIndent.length))[j]? = some row ∧
          ShowsRow (d.draw width height).2.canvas inner (first + j) row) ∧
        (inner.height < rows.length → first + e.rowCount inner.width = inner.height) := by
  dsimp only
  intro hfits
  have hhistory : d.history ≠ [] := fun hnil => by simp [hnil] at he
  have hlast : d.selected + 1 = d.history.length := hend.selected.resolve_left hhistory
  have he' : d.history[d.selected]? = some e := by
    rw [← he, List.getLast?_eq_getElem?]
    congr
    omega
  obtain ⟨front, behind, haround, -, -, hbehind⟩ :=
    historyRows_split he' (historyInner width height).width
  obtain rfl := hbehind hlast
  have hlength := haround.length_rows
  have hpos : 0 < e.rowCount (historyInner width height).width := e.length_rows_pos false _
  rw [List.length_nil, Nat.add_zero] at hlength
  -- the window starts at most as many rows before the end as the panel is high
  have hfirst : d.firstShown width height =
      (d.historyRows (historyInner width height).width).1.length -
        (historyInner width height).height := by
    unfold firstShown
    dsimp only
    rw [h.historyScroll_draw hhistory, if_pos hend.scrolls]
    omega
  refine ⟨startOf d.history (historyInner width height).width d.selected -
    d.firstShown width height, fun j hj => ?_, fun hmore => by omega⟩
  have hrow := haround.getElem? hj
  rw [decide_eq_true rfl] at hrow
  have hrow' := List.getElem?_eq_getElem (l := e.rows true ((historyInner width height).width -
    HistoryEntry.stepIndent.length)) (i := j) (by rwa [e.length_rows])
  refine ⟨by omega, _, hrow', ?_⟩
  have hshows := h.showsRow_of_index (by omega) (hrow.trans hrow') (by omega) (by omega)
  rwa [Nat.sub_add_comm (by omega)] at hshows

end Drawing

/-- Drawing the main screen records for each entry how many rows stand before it: those of the
    entries before it, and a separator behind each of them.  There its headline and its other rows
    are found.  The headline of the selected entry is on the screen.

    Whatever was done to a new desk, the text of a row of steps is no wider than the panel.  The
    panel shows all clusters of it if and only if they are no wider one by one, which they are not
    if the characters of the row stand alone.

    When an entry was added, and since then nothing else that moved the selection or drew the main
    screen, all rows of the entry are on the screen if they fit, with the last one on the last line
    if there are more rows than lines. -/
theorem history_panel (d : Desk) (width height : Nat) (hroom : d.HasRoom width height)
    (hselected : d.selected < d.history.length) :
    let inner := historyInner width height
    let room := inner.width - HistoryEntry.stepIndent.length
    let rows := (d.historyRows inner.width).1
    let drawn := (d.draw width height).1
    let canvas := (d.draw width height).2.canvas
    (∀ i e, d.history[i]? = some e →
      let start := i + ((d.history.take i).map (·.rowCount inner.width)).sum
      drawn.itemStarts[i]? = some start ∧
      rows[start]? = some (e.headline (i = d.selected)) ∧
      (∀ j < e.rowCount inner.width, rows[start + j]? = (e.rows (i = d.selected) room)[j]?) ∧
      (0 < i → rows[start - 1]? = some (separatorRow inner.width))) ∧
    (∃ e, d.history[d.selected]? = some e ∧
      ∃ line < inner.height, ShowsRow canvas inner line (e.headline true)) ∧
    (∀ w acts, d = (Desk.new w).after acts → ∀ e ∈ d.history, ∀ row ∈ e.stepRows room,
      ∃ text style, row = [⟨text, style⟩] ∧ Text.width text ≤ inner.width ∧
        ((rowColumns inner.width row).length = Text.clustersWidth (Text.clusters text) ↔
          Text.clustersWidth (Text.clusters text) ≤ inner.width) ∧
        ((∀ c ∈ text, Text.StandsAlone c) →
          Text.clustersWidth (Text.clusters text) ≤ inner.width)) ∧
    (∀ (before : Desk) elapsed a e more, (before.act elapsed a).history = before.history ++ [e] →
      (before.act elapsed a).Unsettled more → d = (before.act elapsed a).after more →
      d.history.getLast? = some e → e.rowCount inner.width ≤ inner.height →
      ∃ first,
        (∀ j < e.rowCount inner.width, first + j < inner.height ∧
          ∃ row, (e.rows true room)[j]? = some row ∧ ShowsRow canvas inner (first + j) row) ∧
        (inner.height < rows.length → first + e.rowCount inner.width = inner.height)) := by
  intro inner room rows drawn canvas
  have hhistory : d.history ≠ [] := List.ne_nil_of_length_pos (by omega)
  refine ⟨fun i e he => ?_, ⟨_, List.getElem?_eq_getElem hselected, ?_⟩,
    fun w acts hd e he row hrow => ?_,
    fun before elapsed a e more hadded hmore hd hlast hfits => ?_⟩
  · obtain ⟨front, behind, haround, hstart, hseparator, -⟩ := historyRows_split he inner.width
    have hstart' : drawn.itemStarts[i]? = some (startOf d.history inner.width i) :=
      (congrArg (·[i]?) (hroom.itemStarts_draw hhistory)).trans hstart
    refine ⟨hstart', haround.getElem?_start, fun j hj => haround.getElem? hj, fun hi => ?_⟩
    exact haround.getElem?_separator (hseparator hi)
  · exact hroom.showsRow_headline (List.getElem?_eq_getElem hselected)
  · -- steps have no selector, and the panel has room for any of their characters
    have htexts : d.HasStepTexts := hd ▸ hasStepTexts_after w acts
    have hwidth : 24 ≤ inner.width := hroom.inner_pos.1
    have hindent : HistoryEntry.stepIndent.length + 3 ≤ inner.width := by
      show 4 + 3 ≤ inner.width
      omega
    obtain ⟨text, style, rfl, hfits⟩ :=
      HistoryEntry.width_le_of_mem_stepRows (htexts e he) hindent hrow
    refine ⟨text, style, rfl, hfits, length_rowColumns_eq_iff, fun halone => ?_⟩
    rwa [clustersWidth_clusters_eq halone]
  · have hend : d.ScrollsToEnd := hd ▸ scrollsToEnd_after hadded hmore
    exact hroom.showsRow_end hend hlast hfits

/-- The second entry starts behind the one row of the first entry and a separator.  It is drawn when
    the next line has been begun: its four rows take up the four lines of the panel, and its steps
    are shown whole. -/
theorem history_panel_of_two :
    let before := (Desk.new "exit".toList).after
      (entering "1".toList ++ typing "details 2 3 +".toList)
    let d := (before.act 0 .submit).after (typing "4".toList)
    let inner := historyInner 50 10
    let room := inner.width - HistoryEntry.stepIndent.length
    let canvas := (d.draw 50 10).2.canvas
    (d.HasRoom 50 10 ∧ d.selected < d.history.length ∧
      (before.act 0 .submit).Unsettled (typing "4".toList)) ∧
    (d.draw 50 10).1.itemStarts[1]? = some 2 ∧
    (∃ e, d.history[d.selected]? = some e ∧
      ∃ line < inner.height, ShowsRow canvas inner line (e.headline true)) ∧
    (∀ e ∈ d.history, ∀ row ∈ e.stepRows room, ∃ text style, row = [⟨text, style⟩] ∧
      (rowColumns inner.width row).length = Text.clustersWidth (Text.clusters text)) ∧
    ∃ e, d.history.getLast? = some e ∧ ∀ j < 4,
      ∃ row, (e.rows true room)[j]? = some row ∧ ShowsRow canvas inner j row := by
  intro before d inner room canvas
  have hroom : d.HasRoom 50 10 := ⟨by decide +kernel, by decide, by decide⟩
  have hselected : d.selected < d.history.length := by decide +kernel
  have hunsettled := unsettled_typing (before.act 0 .submit) "4".toList
  obtain ⟨hlayout, hheadline, hsteps, hend⟩ := history_panel d 50 10 hroom hselected
  have hlength : 1 < d.history.length := by decide +kernel
  have hstart := (hlayout 1 _ (List.getElem?_eq_getElem hlength)).1
  have halone : (d.history.all fun e => (e.stepRows room).all fun row => row.all fun span =>
      span.text.all fun c => decide (Text.StandsAlone c)) = true := by
    decide +kernel
  simp only [List.all_eq_true, decide_eq_true_eq] at halone
  refine ⟨⟨hroom, hselected, hunsettled⟩, hstart.trans (by decide +kernel), hheadline,
    fun e he row hrow => ?_, ?_⟩
  · have hacts : d = (Desk.new "exit".toList).after
      (entering "1".toList ++ entering "details 2 3 +".toList ++ typing "4".toList) := rfl
    obtain ⟨text, style, rfl, -, hwhole, hfits⟩ := hsteps _ _ hacts e he row hrow
    refine ⟨text, style, rfl, hwhole.2 (hfits fun c hc => ?_)⟩
    exact halone e he _ hrow _ List.mem_cons_self c hc
  · -- the submission adds one entry, which is still the last one
    obtain ⟨added, hadded⟩ := history_prefix_after before [(0, .submit)] (by decide +kernel)
    have hone : before.history.length + added.length = before.history.length + 1 := by
      rw [← List.length_append, hadded]
      decide +kernel
    obtain ⟨e, rfl⟩ := List.length_eq_one_iff.1 (Nat.add_left_cancel hone)
    have hkept : (before.act 0 .submit).history = d.history :=
      (history_prefix_after _ (typing "4".toList) (by decide +kernel)).eq_of_length
        (by decide +kernel)
    have hlast : d.history.getLast? = some e := by
      rw [← hkept, show (before.act 0 .submit).history = _ from hadded.symm, List.getLast?_concat]
    have hcount : e.rowCount inner.width = 4 := by
      have hcounts : d.history.getLast?.map (·.rowCount inner.width) = some 4 := by decide +kernel
      rw [hlast] at hcounts
      exact Option.some.inj hcounts
    obtain ⟨first, hrows, hfirst⟩ := hend before 0 .submit e _ hadded.symm hunsettled rfl hlast
      (by rw [hcount]; decide)
    -- there are more rows than lines, so the last row of the entry is on the last line
    have hbottom : first + e.rowCount inner.width = 4 := hfirst (by decide +kernel)
    obtain rfl : first = 0 := by omega
    refine ⟨e, hlast, fun j hj => ?_⟩
    obtain ⟨-, row, hrow, hshows⟩ := hrows j (by rwa [hcount])
    rw [Nat.zero_add] at hshows
    exact ⟨row, hrow, hshows⟩

/-- Letters that join: the text of a step is `21` columns wide, but its clusters take `29`, and the
    panel is `24` wide.  So the sign and the value behind the letters are not on the screen. -/
theorem step_row_loses_end :
    let letters := (List.replicate 8 ['ل', 'ا']).flatten
    let front := HistoryEntry.stepIndent ++ "1. ".toList ++ letters
    let text := front ++ " = 0.0".toList
    let row : Row := [⟨text, Style.color .darkGray⟩]
    let d := (Desk.new "exit".toList).after (entering ("details ".toList ++ letters))
    let inner := historyInner 50 16
    d.HasRoom 50 16 ∧
    (∃ e ∈ d.history, row ∈ e.stepRows (inner.width - HistoryEntry.stepIndent.length)) ∧
    Text.width text = 21 ∧ inner.width = 24 ∧ Text.clustersWidth (Text.clusters text) = 29 ∧
    ShowsRow (d.draw 50 16).2.canvas inner 1 row ∧
    rowColumns inner.width row = (front ++ [' ']).map fun c => [c] := by
  intro letters front text row d inner
  have hroom : d.HasRoom 50 16 := ⟨by decide +kernel, by decide, by decide⟩
  have hrows : (d.historyRows inner.width).1[1]? = some row ∧
      d.selected < d.history.length ∧ d.firstShown 50 16 = 0 := by decide +kernel
  have hrow : ∃ e ∈ d.history, row ∈ e.stepRows (inner.width - HistoryEntry.stepIndent.length) := by
    decide +kernel
  have htext : Text.width text = 21 := by decide +kernel
  have hclusters : Text.clustersWidth (Text.clusters text) = 29 := by decide +kernel
  have hcut : rowColumns inner.width row = (front ++ [' ']).map fun c => [c] := by decide +kernel
  refine ⟨hroom, hrow, htext, rfl, hclusters, ?_, hcut⟩
  obtain ⟨hindex, hselected, hfirst⟩ := hrows
  have hshows := hroom.showsRow_of_index hselected hindex (by omega) (by rw [hfirst]; decide)
  rwa [hfirst] at hshows

end Desk

end DeskCalc
