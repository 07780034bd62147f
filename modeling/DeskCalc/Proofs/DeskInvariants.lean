import DeskCalc.Proofs.ByteEvaluation
import DeskCalc.Proofs.CheckedDesk
import DeskCalc.Proofs.Interruptions

/-!
# What holds of every desk

A desk starts empty, and then events are handled, entries of the history are recalled, expressions
are submitted and the screen is drawn, in any order and as often as one likes.  Behind any such
actions the cursor is within the text of the entry, the selection within the history, and the
calculator one that can read its line on bytes.  No action ever fails, a desk that quits goes on
quitting, and the history only grows unless it is cleared.

## Key results

- `Keeps`, `keeps_act`: what every action keeps
- `history_act`: how an action changes the history, by what it submits
- `coherent_after`, `keeps_after`, `history_prefix_after`: the same behind several actions
- `holds_after`: what holds behind any actions on a new desk
-/

namespace DeskCalc.Desk

open ByteStream (Answers)

/-- The desk behind several actions in which every access is checked. -/
def after? (d : Desk) (acts : List (Nat × Action)) : Option Desk :=
  acts.foldlM (fun d act => d.act? act.1 act.2) d

/-! ## What every action keeps -/

/-- A desk whose indices are within bounds, and whose calculator has been used as it should. -/
structure Coherent (d : Desk) : Prop where
  inText : d.entry.line.InText
  selected : d.selected < d.history.length ∨ d.history = [] ∧ d.selected = 0
  inUse : d.calculator.InUse

/-- Indices stay within bounds, and a desk that quits goes on quitting. -/
structure Keeps (d d' : Desk) : Prop where
  coherent : d.Coherent → d'.Coherent
  quitting : d.quitting = true → d'.quitting = true

/-- A desk that is left as it is stays coherent. -/
private theorem Keeps.refl (d : Desk) : d.Keeps d := ⟨id, id⟩

/-- Two changes after each other keep what both keep. -/
private theorem Keeps.trans {d d' d'' : Desk} (h : d.Keeps d') (h' : d'.Keeps d'') : d.Keeps d'' :=
  ⟨h'.coherent ∘ h.coherent, h'.quitting ∘ h.quitting⟩

/-- Where a panel is scrolled to, which screen is shown and what was drawn are no matter. -/
private theorem keeps_of_eq {d d' : Desk} (hentry : d'.entry.line = d.entry.line)
    (hhistory : d'.history = d.history) (hselected : d'.selected = d.selected)
    (hcalculator : d'.calculator = d.calculator)
    (hquitting : d.quitting = true → d'.quitting = true) : d.Keeps d' := by
  refine ⟨fun h => ⟨?_, ?_, ?_⟩, hquitting⟩
  · rw [hentry]
    exact h.inText
  · rw [hhistory, hselected]
    exact h.selected
  · rw [hcalculator]
    exact h.inUse

/-- An edit that keeps the cursor in the text keeps the desk coherent. -/
private theorem keeps_edit (d : Desk) {f : EntryField → EntryField}
    (hf : d.entry.line.InText → (f d.entry).line.InText) : d.Keeps (d.edit f) :=
  ⟨fun h => ⟨hf h.inText, h.selected, h.inUse⟩, id⟩

/-- The cursor is within the empty text. -/
private theorem keeps_clearEntry (d : Desk) : d.Keeps d.clearEntry :=
  ⟨fun h => ⟨EditLine.inText_ofText [], h.selected, h.inUse⟩, id⟩

/-- Without a history the selection is at zero. -/
private theorem keeps_clearHistory (d : Desk) : d.Keeps d.clearHistory :=
  ⟨fun h => ⟨h.inText, .inr ⟨rfl, rfl⟩, h.inUse⟩, id⟩

/-- The index that is selected is that of the entry that is recalled. -/
private theorem keeps_select (d : Desk) (delta : Int) : d.Keeps (d.select delta) := by
  unfold select
  dsimp only
  -- there is no such entry, or it is recalled and the cursor put behind it
  split
  · exact .refl d
  · next e he =>
    have hlt := (List.getElem?_eq_some_iff.1 he).1
    exact ⟨fun h => ⟨EditLine.inText_ofText e.input, .inl hlt, h.inUse⟩, id⟩

/-- A key on the help screen closes it or does nothing. -/
private theorem keeps_helpKey (d : Desk) (key : Key) : d.Keeps (d.helpKey key) := by
  cases key <;> exact keeps_of_eq rfl rfl rfl rfl id

/-- The wheel scrolls one of the two panels. -/
private theorem keeps_wheel (d : Desk) (mouse : Mouse) : d.Keeps (d.wheel mouse) := by
  cases mouse with
  | other => exact .refl d
  | scrollUp =>
    -- the help screen and the history scroll on their own
    simp only [wheel]
    split <;> exact keeps_of_eq rfl rfl rfl rfl id
  | scrollDown =>
    simp only [wheel]
    split <;> exact keeps_of_eq rfl rfl rfl rfl id

/-- Drawing moves the window of the entry field, and leaves its text and cursor as they are. -/
private theorem keeps_draw (d : Desk) (width height : Nat) : d.Keeps (d.draw width height).1 := by
  unfold draw drawMain layOutHistory
  dsimp only
  split
  -- the help screen and the notice that the screen is too small change nothing
  · exact .refl d
  · split
    · exact .refl d
    · split <;> exact keeps_of_eq (d.entry.line_fitScroll _) rfl rfl rfl id

/-- An evaluation is recorded behind the entries of the history, or it ends the session. -/
theorem evaluate_cases (d : Desk) (expression : List Char) (detailed : Bool) (elapsed : Nat) :
    let fed := d.calculator.withSource (d.calculator.source.push expression)
    let d' := { d with calculator := (fed.evaluate detailed).2 }
    (∃ e : HistoryEntry, e.input = expression ∧ e.detailed = detailed ∧
      d.evaluate expression detailed elapsed =
        { d' with
          history := d.history ++ [e]
          selected := d.history.length
          scrollToBottom := true }) ∨
      d.evaluate expression detailed elapsed = { d' with quitting := true } := by
  intro fed d'
  unfold evaluate
  dsimp only
  split
  -- a value and a refusal are recorded, an error of the input is not
  · exact .inl ⟨_, rfl, rfl, rfl⟩
  · exact .inl ⟨_, rfl, rfl, rfl⟩
  · exact .inr rfl

/-- The entry that is recorded is the one that is selected. -/
private theorem keeps_evaluate (d : Desk) (expression : List Char) (detailed : Bool)
    (elapsed : Nat) :
    d.Keeps (d.evaluate expression detailed elapsed) := by
  rcases d.evaluate_cases expression detailed elapsed with ⟨e, -, -, heq⟩ | heq
  · rw [heq]
    refine ⟨fun h => ⟨h.inText, .inl ?_, (h.inUse.withSource _).evaluate detailed⟩, id⟩
    show d.history.length < (d.history ++ [e]).length
    rw [List.length_append]
    exact Nat.lt_succ_self _
  · rw [heq]
    exact ⟨fun h => ⟨h.inText, h.selected, (h.inUse.withSource _).evaluate detailed⟩, fun _ => rfl⟩

/-- The entry is cleared behind every submission that does not quit or do nothing. -/
private theorem keeps_submit (d : Desk) (elapsed : Nat) : d.Keeps (d.submit elapsed) := by
  have hsubmit := d.submit_eq elapsed
  -- by what the line says, in the order in which it is looked at
  cases hread : Submission.read d.exitWord d.entry.chars with
  | nothing =>
    simp only [hread] at hsubmit
    rw [hsubmit]
    exact .refl d
  | quit =>
    simp only [hread] at hsubmit
    rw [hsubmit]
    exact keeps_of_eq rfl rfl rfl rfl fun _ => rfl
  | clear =>
    simp only [hread] at hsubmit
    rw [hsubmit]
    exact d.keeps_clearHistory.trans (keeps_clearEntry _)
  | help =>
    simp only [hread] at hsubmit
    rw [hsubmit]
    have hhelp : d.Keeps d.openHelp := keeps_of_eq rfl rfl rfl rfl id
    exact hhelp.trans (keeps_clearEntry _)
  | expression detailed text =>
    simp only [hread] at hsubmit
    obtain ⟨-, -, hsubmit⟩ := hsubmit
    rw [hsubmit]
    exact (d.keeps_evaluate text detailed elapsed).trans (keeps_clearEntry _)

/-- Each key of the main screen edits, selects, submits, quits, opens the help or does nothing. -/
private theorem keeps_editorKey (d : Desk) (elapsed : Nat) (key : Key) (control : Bool) :
    d.Keeps (d.editorKey elapsed key control) := by
  -- every key edits the entry, selects an entry of the history, submits or sets a flag
  cases key with
  | char c =>
    cases control with
    | false => exact d.keeps_edit (f := fun f => f.insert c) fun h => h.insert c
    | true =>
      show d.Keeps (if c = 'c' ∨ c = 'd' then { d with quitting := true }
        else if c = 'u' ∨ c = 'U' then d.clearEntry else d)
      split
      · exact keeps_of_eq rfl rfl rfl rfl fun _ => rfl
      · split
        · exact d.keeps_clearEntry
        · exact .refl d
  | left =>
    cases control with
    | false => exact d.keeps_edit EditLine.InText.left
    | true => exact d.keeps_edit fun _ => d.entry.inText_wordLeft
  | right =>
    cases control with
    | false => exact d.keeps_edit fun _ => EditLine.inText_right _
    | true => exact d.keeps_edit fun _ => d.entry.inText_wordRight
  | home => exact d.keeps_edit EditLine.InText.home
  | toEnd => exact d.keeps_edit fun _ => EditLine.inText_toEnd _
  | backspace => exact d.keeps_edit EditLine.InText.backspace
  | delete => exact d.keeps_edit EditLine.InText.delete
  | up => exact d.keeps_select _
  | down => exact d.keeps_select _
  | pageUp => exact d.keeps_select _
  | pageDown => exact d.keeps_select _
  | enter => exact d.keeps_submit elapsed
  | escape => exact .refl d
  | tab => exact .refl d
  | function n =>
    match n with
    | 0 => exact .refl d
    | 1 => exact keeps_of_eq rfl rfl rfl rfl id
    | n + 2 => exact .refl d

/-- Every action keeps indices within bounds and never takes quitting back. -/
theorem keeps_act (d : Desk) (elapsed : Nat) (a : Action) : d.Keeps (d.act elapsed a) := by
  cases a with
  | select delta => exact d.keeps_select delta
  | page direction => exact d.keeps_select _
  | submit => exact d.keeps_submit elapsed
  | draw width height => exact d.keeps_draw width height
  | handle event =>
    cases event with
    | press key control =>
      -- the screen that is shown decides which keys do something
      show d.Keeps (if d.helpShown then d.helpKey key else d.editorKey elapsed key control)
      split
      · exact d.keeps_helpKey key
      · exact d.keeps_editorKey elapsed key control
    | mouse mouse => exact d.keeps_wheel mouse
    | release | focus | idle => exact .refl d

/-! ## The history -/

/-- What an action makes of the history, by what it submits. -/
def HistoryBehind (d d' : Desk) : List Submission → Prop
  | [.clear] => d'.history = []
  | [.expression detailed text] =>
    (∃ e : HistoryEntry, e.input = text ∧ e.detailed = detailed ∧
      d'.history = d.history ++ [e]) ∨
      d'.history = d.history ∧ d'.quitting = true
  | _ => d'.history = d.history

/-- Submitting appends what it evaluates, clears the history, or leaves it as it is. -/
private theorem history_submit (d : Desk) (elapsed : Nat) :
    d.HistoryBehind (d.submit elapsed) [.read d.exitWord d.entry.chars] := by
  have hsubmit := d.submit_eq elapsed
  cases hread : Submission.read d.exitWord d.entry.chars with
  | expression detailed text =>
    simp only [hread] at hsubmit
    obtain ⟨-, -, hsubmit⟩ := hsubmit
    rw [hsubmit]
    -- the entry is appended, or an error of the input ends the session
    rcases d.evaluate_cases text detailed elapsed with ⟨e, hinput, hdetailed, heq⟩ | heq
    · rw [heq]
      exact .inl ⟨e, hinput, hdetailed, rfl⟩
    · rw [heq]
      exact .inr ⟨rfl, rfl⟩
  | _ =>
    simp only [hread] at hsubmit
    rw [hsubmit]
    rfl

/-- An action appends what it evaluates to the history, clears it, or leaves it as it is. -/
theorem history_act (d : Desk) (elapsed : Nat) (a : Action) :
    d.HistoryBehind (d.act elapsed a) (d.submissions a) := by
  by_cases ha : a = .handle (.press (.char '\n') false)
  · -- typing an end of line is typing, or nothing on the help screen
    subst ha
    show (if d.helpShown then d else d.edit fun f => f.insert '\n').history = d.history
    split <;> rfl
  · rcases d.submissions_cases elapsed ha with ⟨hnone, hbooks⟩ | ⟨hread, hact⟩
    · rw [hnone]
      exact hbooks.history
    · rw [hread, hact]
      exact d.history_submit elapsed

/-- Nothing but clearing takes entries away. -/
private theorem HistoryBehind.entries_stay {d d' : Desk} {ss : List Submission}
    (h : d.HistoryBehind d' ss) (hclear : .clear ∉ ss) : d.history <+: d'.history := by
  unfold HistoryBehind at h
  -- clearing is excluded, an expression appends or quits, and nothing else touches the history
  split at h
  · exact absurd List.mem_cons_self hclear
  · rcases h with ⟨e, -, -, hhistory⟩ | ⟨hhistory, -⟩
    · exact ⟨[e], hhistory.symm⟩
    · exact hhistory ▸ List.prefix_rfl
  · exact h ▸ List.prefix_rfl

/-! ## Behind several actions -/

/-- A new desk is coherent. -/
private theorem coherent_new (w : List Char) : (Desk.new w).Coherent :=
  ⟨EditLine.inText_ofText [], .inr ⟨rfl, rfl⟩, .new _ _ _⟩

/-- Any actions keep the desk coherent. -/
theorem keeps_after (d : Desk) (acts : List (Nat × Action)) : d.Keeps (d.after acts) := by
  induction acts generalizing d with
  | nil => exact .refl d
  | cons act acts ih => exact (d.keeps_act act.1 act.2).trans (ih _)

/-- Whatever is done to a new desk, its indices are within bounds. -/
theorem coherent_after (w : List Char) (acts : List (Nat × Action)) :
    ((Desk.new w).after acts).Coherent :=
  (keeps_after _ acts).coherent (coherent_new w)

/-- No action fails, so several actions do not. -/
private theorem after?_eq (d : Desk) (acts : List (Nat × Action)) :
    d.after? acts = some (d.after acts) := by
  induction acts generalizing d with
  | nil => rfl
  | cons act acts ih =>
    rw [after?, List.foldlM_cons, act?_eq]
    exact ih _

/-- As long as the history is not cleared, its entries stay as they are. -/
theorem history_prefix_after (d : Desk) (acts : List (Nat × Action))
    (hclear : .clear ∉ d.submitted acts) : d.history <+: (d.after acts).history := by
  induction acts generalizing d with
  | nil => exact List.prefix_rfl
  | cons act acts ih =>
    -- neither the first action nor a later one clears the history
    rw [submitted, List.mem_append, not_or] at hclear
    exact ((d.history_act act.1 act.2).entries_stay hclear.1).trans (ih _ hclear.2)

/-- A line can be evaluated on bytes whatever has been done before. -/
private theorem Coherent.answers {d : Desk} (h : d.Coherent) (text : List Char) (detailed : Bool)
    (moves : List CursorMove) :
    let fed := d.calculator.withSource (d.calculator.source.push text)
    ∃ ms, Answers (LineState.start fed.symbols detailed) (fed.stream.toBytes moves)
      (fed.evaluate detailed).1 ((fed.evaluate detailed).2.stream.toBytes (moves ++ ms))
      (fed.evaluate detailed).2.symbols :=
  Calculator.answers_evaluate (h.inUse.withSource _).terminated detailed moves

/-- Behind any actions on a new desk the cursor is within the text of the entry, and the selection
    within the history or at zero if there is none.  A drawing of the main screen then has the
    window of the entry start before the cursor or at it, has one start for each entry of the
    history, each below the one before, and has the terminal cursor on a column of sixteen bits
    unless the screen had to be made smaller.

    Any further action adds what it evaluates to the end of the history, clears it, or leaves it as
    it is; entries stay the same until the history is cleared, and a desk that quits goes on
    quitting.

    None of the actions failed: every index was that of an entry or of a character, no text was cut
    through a character, and there was an expression behind every request for details.  Nor does
    the evaluation of a line on bytes fail, whatever line comes next. -/
theorem holds_after (w : List Char) (acts : List (Nat × Action)) :
    let d := (Desk.new w).after acts
    d.entry.cursor ≤ d.entry.chars.length ∧
    (d.selected < d.history.length ∨ d.history = [] ∧ d.selected = 0) ∧
    (∀ width height, d.HasRoom width height →
      let drawn := (d.draw width height).1
      drawn.entry.scroll ≤ drawn.entry.cursor ∧
      (drawn.history ≠ [] → drawn.itemStarts.length = drawn.history.length ∧
        drawn.itemStarts.Pairwise (· < ·)) ∧
      ∃ column, (d.draw width height).2.cursor = some (column, 1) ∧
        (width * height ≤ Screen.Size.maxCells → column < 65536)) ∧
    (∀ elapsed a, d.HistoryBehind (d.act elapsed a) (d.submissions a)) ∧
    (∀ more, (d.quitting = true → (d.after more).quitting = true) ∧
      (.clear ∉ d.submitted more → d.history <+: (d.after more).history)) ∧
    (Desk.new w).after? acts = some d ∧
    ∀ text detailed moves,
      let fed := d.calculator.withSource (d.calculator.source.push text)
      ∃ ms, Answers (LineState.start fed.symbols detailed) (fed.stream.toBytes moves)
        (fed.evaluate detailed).1 ((fed.evaluate detailed).2.stream.toBytes (moves ++ ms))
        (fed.evaluate detailed).2.symbols := by
  intro d
  have hd : d.Coherent := coherent_after w acts
  refine ⟨hd.inText, hd.selected, fun width height hroom => hroom.draw, d.history_act, ?_,
    after?_eq _ acts, hd.answers⟩
  intro more
  exact ⟨(d.keeps_after more).quitting, d.history_prefix_after more⟩

end DeskCalc.Desk
