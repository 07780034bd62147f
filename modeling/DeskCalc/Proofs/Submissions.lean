import DeskCalc.Desk.Loop
import DeskCalc.Proofs.Dialogue
import DeskCalc.Proofs.Tracing
import DeskCalc.Proofs.Trimming

/-!
# What a desk evaluates

A desk puts a submitted expression into the queue of its calculator and then calls the calculator.
A line left in the queue, or a rest of one left in the buffer, would shift all later answers by one.
Neither is ever left: whatever keys are pressed, whatever is recalled and submitted, the history and
the variables are those of a calculator that was given the submitted expressions and nothing else.

## Key results

- `submissions_cases`: what an action does to the calculator and the history, submitting or not
- `submit_eq`: what submitting does, by what the entry asks for
- `InUse.inStep`: after every run the queue and the buffer are empty
- `InUse.recorded`: after every run the history and the variables are those of a plain calculator
- `in_step_of_use`: both, and what the next submission does
-/

namespace DeskCalc

/-! ## Submissions -/

/-- What is asked for by submitting a text. -/
inductive Submission where
  | nothing
  | quit
  | clear
  | help
  | expression (detailed : Bool) (text : List Char)
deriving DecidableEq

namespace Submission

/-- What submitting `text` asks for: without the blanks at its ends it is the exit word, a command
    in any case, an expression behind `details `, or an expression. -/
def read (exitWord text : List Char) : Submission :=
  let line := Text.trim text
  let lower := line.map Char.toLower
  if line = [] then .nothing
  else if line = exitWord then .quit
  else if lower = "clear".toList then .clear
  else if lower = "help".toList then .help
  else if "details ".toList <+: lower then
    .expression true (Text.trim (line.drop "details ".toList.length))
  else .expression false line

/-- The expression that is to be evaluated, and whether details are asked for. -/
def expression? : Submission → Option (Bool × List Char)
  | expression detailed text => some (detailed, text)
  | _ => none

/-- The expressions that were submitted. -/
def expressions (ss : List Submission) : List (Bool × List Char) := ss.filterMap expression?

/-- Adds a submission to what was submitted since the history was cleared. -/
def log (entries : List (Bool × List Char)) : Submission → List (Bool × List Char)
  | clear => []
  | expression detailed text => entries ++ [(detailed, text)]
  | _ => entries

/-- The expressions that were submitted since the history was cleared last. -/
def sinceClear (ss : List Submission) : List (Bool × List Char) := ss.foldl log []

end Submission

open Submission (expressions sinceClear)

namespace Desk

/-- What can be done to a desk: an event of the terminal is handled, an entry of the history is
    recalled, the entry field is submitted, or the screen is drawn. -/
inductive Action where
  | handle (event : Event)
  | select (delta : Int)
  | page (direction : Int)
  | submit
  | draw (width height : Nat)
deriving DecidableEq

/-- Does something to a desk; an expression that is submitted takes `elapsed` nanoseconds. -/
def act (d : Desk) (elapsed : Nat) : Action → Desk
  | .handle event => d.handle elapsed event
  | .select delta => d.select delta
  | .page direction => d.page direction
  | .submit => d.submit elapsed
  | .draw width height => (d.draw width height).1

/-- What an action submits, if anything. -/
def submissions (d : Desk) : Action → List Submission
  | .submit => [.read d.exitWord d.entry.chars]
  | .handle (.press .enter _) =>
    if d.helpShown then [] else [.read d.exitWord d.entry.chars]
  | _ => []

/-- The desks that are left after some actions, none of which types an end of line, with what was
    submitted. -/
inductive InUse (exitWord : List Char) : Desk → List Submission → Prop
  | new : InUse exitWord (Desk.new exitWord) []
  | act {d : Desk} {ss : List Submission} (h : InUse exitWord d ss) {a : Action}
      (ha : a ≠ .handle (.press (.char '\n') false)) (elapsed : Nat) :
      InUse exitWord (d.act elapsed a) (ss ++ d.submissions a)

/-- The desk behind several actions.  Each comes with the nanoseconds for which an evaluation in it
    lasts. -/
def after (d : Desk) (acts : List (Nat × Action)) : Desk :=
  acts.foldl (fun d act => d.act act.1 act.2) d

/-- What several actions submit. -/
def submitted (d : Desk) : List (Nat × Action) → List Submission
  | [] => []
  | act :: acts => d.submissions act.2 ++ (d.act act.1 act.2).submitted acts

/-- The actions that type a text. -/
def typing (text : List Char) : List (Nat × Action) :=
  text.map fun c => (0, .handle (.press (.char c) false))

/-- The actions that enter an expression. -/
def entering (text : List Char) : List (Nat × Action) := typing text ++ [(0, .submit)]

/-- Several actions lead from a desk in use to another one. -/
theorem InUse.after {w : List Char} {d : Desk} {ss : List Submission} (h : InUse w d ss)
    {acts : List (Nat × Action)}
    (hacts : ∀ act ∈ acts, act.2 ≠ .handle (.press (.char '\n') false)) :
    InUse w (d.after acts) (ss ++ d.submitted acts) := by
  -- the desk behind the first action is in use, and so on from there
  induction acts generalizing d ss with
  | nil =>
    rw [submitted, List.append_nil]
    exact h
  | cons act acts ih =>
    obtain ⟨hact, hacts⟩ := List.forall_mem_cons.1 hacts
    rw [submitted, ← List.append_assoc]
    exact ih (h.act hact act.1) hacts

end Desk

namespace EntryField

/-- A character of an entry behind an insertion is the one inserted or was there before. -/
private theorem mem_chars_insert {f : EntryField} {c c' : Char} (h : c' ∈ (f.insert c).chars) :
    c' = c ∨ c' ∈ f.chars := by
  rcases List.mem_append.1 h with h | h
  · exact .inr (List.mem_of_mem_take h)
  · rcases List.mem_cons.1 h with h | h
    · exact .inl h
    · exact .inr (List.mem_of_mem_drop h)

/-- Deleting adds no character. -/
private theorem mem_chars_delete {f : EntryField} {c : Char} (h : c ∈ f.delete.chars) :
    c ∈ f.chars :=
  List.mem_of_mem_eraseIdx h

/-- Deleting backwards adds no character. -/
private theorem mem_chars_backspace {f : EntryField} {c : Char} (h : c ∈ f.backspace.chars) :
    c ∈ f.chars := by
  unfold backspace EditLine.backspace at h
  by_cases hcursor : f.line.cursor = 0
  · rwa [if_pos hcursor] at h
  · rw [if_neg hcursor] at h
    exact List.mem_of_mem_eraseIdx h

/-- Scrolling changes nothing of the text. -/
theorem chars_fitScroll (f : EntryField) (width : Nat) : (f.fitScroll width).chars = f.chars := by
  unfold fitScroll
  split
  · rfl
  · split <;> rfl

end EntryField

namespace Desk

/-! ## What an action does -/

/-- No text of the desk has an end of line. -/
structure NoNewline (d : Desk) : Prop where
  entry : '\n' ∉ d.entry.chars
  history : ∀ e ∈ d.history, '\n' ∉ e.input

/-- The calculator and the history are left as they are, and no end of line gets into the entry. -/
structure KeepsBooks (d d' : Desk) : Prop where
  calculator : d'.calculator = d.calculator
  exitWord : d'.exitWord = d.exitWord
  history : d'.history = d.history
  entry : d.NoNewline → '\n' ∉ d'.entry.chars

/-- Doing nothing keeps the books. -/
private theorem KeepsBooks.refl (d : Desk) : d.KeepsBooks d := ⟨rfl, rfl, rfl, NoNewline.entry⟩

/-- The entry field is changed so that no end of line gets into it. -/
private theorem keepsBooks_edit (d : Desk) {f : EntryField → EntryField}
    (hf : '\n' ∈ (f d.entry).chars → '\n' ∈ d.entry.chars) : d.KeepsBooks (d.edit f) :=
  ⟨rfl, rfl, rfl, fun h hmem => h.entry (hf hmem)⟩

/-- Emptying the entry keeps the books. -/
theorem keepsBooks_clearEntry (d : Desk) : d.KeepsBooks d.clearEntry :=
  ⟨rfl, rfl, rfl, fun _ => List.not_mem_nil⟩

/-- What is recalled has been submitted, so there is no end of line in it. -/
theorem keepsBooks_select (d : Desk) (delta : Int) : d.KeepsBooks (d.select delta) := by
  unfold select
  simp only
  split
  · exact .refl d
  · next e he => exact ⟨rfl, rfl, rfl, fun h => h.history e (List.mem_of_getElem? he)⟩

/-- A key of the help screen keeps the books. -/
private theorem keepsBooks_helpKey (d : Desk) (key : Key) : d.KeepsBooks (d.helpKey key) := by
  cases key <;> exact ⟨rfl, rfl, rfl, NoNewline.entry⟩

/-- The wheel keeps the books. -/
private theorem keepsBooks_wheel (d : Desk) (mouse : Mouse) : d.KeepsBooks (d.wheel mouse) := by
  cases mouse with
  | other => exact .refl d
  | scrollUp =>
    simp only [wheel]
    split <;> exact ⟨rfl, rfl, rfl, NoNewline.entry⟩
  | scrollDown =>
    simp only [wheel]
    split <;> exact ⟨rfl, rfl, rfl, NoNewline.entry⟩

/-- Drawing fits the window of the entry field to its text, and lays out the history. -/
private theorem keepsBooks_draw (d : Desk) (width height : Nat) : d.KeepsBooks
    (d.draw width height).1 := by
  unfold draw drawMain layOutHistory
  simp only
  -- without room there is a notice or the help screen, and nothing is scrolled
  split
  · exact .refl d
  · split
    · exact .refl d
    · split
      all_goals exact ⟨rfl, rfl, rfl, fun h => by rw [EntryField.chars_fitScroll]; exact h.entry⟩

/-- A key other than the one that submits leaves the books as they are. -/
private theorem keepsBooks_editorKey (d : Desk) (elapsed : Nat) {key : Key} {control : Bool}
    (hsubmit : key ≠ .enter) (htyped : ¬ (key = .char '\n' ∧ control = false)) :
    d.KeepsBooks (d.editorKey elapsed key control) := by
  cases key with
  | enter => exact absurd rfl hsubmit
  | char c =>
    cases control with
    | false =>
      -- the only key that puts something into the entry, and it is not the line feed
      have hc : '\n' ≠ c := fun heq => htyped ⟨congrArg Key.char heq.symm, rfl⟩
      exact d.keepsBooks_edit (f := fun f => f.insert c) fun hmem =>
        (EntryField.mem_chars_insert hmem).resolve_left hc
    | true =>
      show d.KeepsBooks (if c = 'c' ∨ c = 'd' then { d with quitting := true }
        else if c = 'u' ∨ c = 'U' then d.clearEntry else d)
      split
      · exact ⟨rfl, rfl, rfl, NoNewline.entry⟩
      · split
        · exact d.keepsBooks_clearEntry
        · exact .refl d
  -- moving the cursor leaves the text as it is
  | left => cases control <;> exact d.keepsBooks_edit id
  | right => cases control <;> exact d.keepsBooks_edit id
  | home => exact d.keepsBooks_edit id
  | toEnd => exact d.keepsBooks_edit id
  | backspace => exact d.keepsBooks_edit EntryField.mem_chars_backspace
  | delete => exact d.keepsBooks_edit EntryField.mem_chars_delete
  | up => exact d.keepsBooks_select _
  | down => exact d.keepsBooks_select _
  | pageUp => exact d.keepsBooks_select _
  | pageDown => exact d.keepsBooks_select _
  | escape => exact .refl d
  | tab => exact .refl d
  | function n =>
    match n with
    | 0 => exact .refl d
    | 1 => exact ⟨rfl, rfl, rfl, NoNewline.entry⟩
    | n + 2 => exact .refl d

/-- An action that submits nothing leaves the books as they are; one that submits the entry does
    nothing else. -/
theorem submissions_cases (d : Desk) (elapsed : Nat) {a : Action}
    (ha : a ≠ .handle (.press (.char '\n') false)) :
    (d.submissions a = [] ∧ d.KeepsBooks (d.act elapsed a)) ∨
      (d.submissions a = [.read d.exitWord d.entry.chars] ∧
        d.act elapsed a = d.submit elapsed) := by
  cases a with
  | submit => exact .inr ⟨rfl, rfl⟩
  | select delta => exact .inl ⟨rfl, d.keepsBooks_select delta⟩
  | page direction => exact .inl ⟨rfl, d.keepsBooks_select _⟩
  | draw width height => exact .inl ⟨rfl, d.keepsBooks_draw width height⟩
  | handle event =>
    cases event with
    | mouse mouse => exact .inl ⟨rfl, d.keepsBooks_wheel mouse⟩
    | release key => exact .inl ⟨rfl, .refl d⟩
    | focus => exact .inl ⟨rfl, .refl d⟩
    | idle => exact .inl ⟨rfl, .refl d⟩
    | press key control =>
      by_cases hhelp : d.helpShown = true
      · have hact : d.act elapsed (.handle (.press key control)) = d.helpKey key := if_pos hhelp
        rw [hact]
        refine .inl ⟨?_, d.keepsBooks_helpKey key⟩
        cases key <;> simp [submissions, hhelp]
      · have hact : d.act elapsed (.handle (.press key control)) =
            d.editorKey elapsed key control := if_neg hhelp
        rw [hact]
        -- of all keys only Enter submits
        by_cases henter : key = .enter
        · subst henter
          exact .inr ⟨if_neg hhelp, rfl⟩
        · refine .inl ⟨?_, d.keepsBooks_editorKey elapsed henter ?_⟩
          · cases key <;> first | rfl | exact absurd rfl henter
          · rintro ⟨rfl, rfl⟩
            exact ha rfl

/-- The request for details is the word in front, whatever its case. -/
theorem splitDetails_eq (line : List Char) :
    splitDetails line =
      if "details ".toList <+: line.map Char.toLower then
        (true, Text.trim (line.drop "details ".toList.length))
      else (false, line) := by
  have hiff : (line.take detailsWord.length).map Char.toLower = detailsWord ↔
      "details ".toList <+: line.map Char.toLower := by
    rw [List.prefix_iff_eq_take, ← List.map_take, eq_comm]
    rfl
  unfold splitDetails
  simp only [hiff]
  rfl

/-- What submitting the entry does, by what it asks for. -/
theorem submit_eq (d : Desk) (elapsed : Nat) :
    match Submission.read d.exitWord d.entry.chars with
    | .nothing => d.submit elapsed = d
    | .quit => d.submit elapsed = { d with quitting := true }
    | .clear => d.submit elapsed = d.clearHistory.clearEntry
    | .help => d.submit elapsed = d.openHelp.clearEntry
    | .expression detailed text =>
      text ≠ [] ∧ (∀ c ∈ text, c ∈ d.entry.chars) ∧
        d.submit elapsed = (d.evaluate text detailed elapsed).clearEntry := by
  have hmem : ∀ c ∈ Text.trim d.entry.chars, c ∈ d.entry.chars := fun c => Text.mem_of_mem_trim
  unfold submit Submission.read
  simp only [isWord, splitDetails_eq, List.isEmpty_iff, beq_iff_eq]
  generalize hline : Text.trim d.entry.chars = line at hmem ⊢
  -- in the order of the tests: blank, the exit word, the two commands, the request for details
  by_cases hnil : line = []
  · simp only [if_pos hnil]
  by_cases hword : line = d.exitWord
  · simp only [if_neg hnil, if_pos hword]
  by_cases hclear : line.map Char.toLower = "clear".toList
  · simp only [if_neg hnil, if_neg hword, if_pos hclear]
  by_cases hhelp : line.map Char.toLower = "help".toList
  · simp only [if_neg hnil, if_neg hword, if_neg hclear, if_pos hhelp]
  by_cases hdetails : "details ".toList <+: line.map Char.toLower
  · -- the line does not end with the space of `details `, so there is an expression behind it
    have htext : Text.trim (line.drop "details ".toList.length) ≠ [] := by
      have hspace : "details".toList ++ [' '] <+: line.map Char.toLower := hdetails
      subst hline
      exact Text.trim_drop_ne_nil "details".toList hnil hspace
    simp only [if_neg hnil, if_neg hword, if_neg hclear, if_neg hhelp, if_pos hdetails]
    rw [if_neg htext]
    exact ⟨htext, fun c hc => hmem c (List.mem_of_mem_drop (Text.mem_of_mem_trim hc)), rfl⟩
  · simp only [if_neg hnil, if_neg hword, if_neg hclear, if_neg hhelp, if_neg hdetails]
    exact ⟨hnil, hmem, trivial⟩

end Desk

/-! ## A plain calculator -/

namespace Calculator

/-- The answers to some lines, the first of which is evaluated with the variables `t`. -/
def answersFrom (t : SymbolTable) : List (List Char) → List (Reply × SymbolTable)
  | [] => []
  | line :: lines =>
    segmentAnswer false line 0 t line :: answersFrom (segmentAnswer false line 0 t line).2 lines

/-- The variables after some lines. -/
def variablesAfter (t : SymbolTable) (lines : List (List Char)) : SymbolTable :=
  lines.foldl (fun t line => (segmentAnswer false line 0 t line).2) t

/-- One more line is answered with the variables behind the others. -/
private theorem answersFrom_append_singleton (t : SymbolTable) (lines : List (List Char))
    (line : List Char) :
    answersFrom t (lines ++ [line]) =
      answersFrom t lines ++ [segmentAnswer false line 0 (variablesAfter t lines) line] := by
  induction lines generalizing t with
  | nil => rfl
  | cons l lines ih =>
    rw [List.cons_append, answersFrom, answersFrom, ih]
    rfl

/-- The variables behind one more line. -/
private theorem variablesAfter_append_singleton (t : SymbolTable) (lines : List (List Char))
    (line : List Char) :
    variablesAfter t (lines ++ [line]) =
      (segmentAnswer false line 0 (variablesAfter t lines) line).2 :=
  List.foldl_concat ..

/-- The last of the answers has the variables behind all lines. -/
private theorem getLastD_answersFrom (t : SymbolTable) (lines : List (List Char)) :
    ((answersFrom t lines).map Prod.snd).getLastD t = variablesAfter t lines := by
  induction lines using List.reverseRecOn with
  | nil => rfl
  | append_singleton lines line ih =>
    rw [answersFrom_append_singleton, variablesAfter_append_singleton, List.map_append]
    simp

/-- A calculator that has nothing in its buffer answers to the lines of its queue one by one. -/
private theorem calls_eq_answersFrom {c : Calculator LineQueue} (hrest : c.stream.cursor.rest = [])
    (hexit : c.stream.exitWord = none) {lines : List (List Char)} (hsource : c.source = ⟨lines⟩)
    (hlines : ∀ line ∈ lines, '\n' ∉ line) :
    c.calls false lines.length = answersFrom c.symbols lines := by
  -- every call finds the buffer used up and takes the next line from the queue
  induction lines generalizing c with
  | nil => rfl
  | cons line lines ih =>
    have hawaits : c.Awaits line :=
      ⟨hrest, ⟨⟨lines⟩, by rw [hsource]; rfl⟩, by rw [hexit]; exact (nomatch ·)⟩
    obtain ⟨hanswer, hsource', hexit', hrest'⟩ :=
      hawaits.evaluate_settles (hlines line List.mem_cons_self) false
    have hnext : (c.evaluate false).2.source = ⟨lines⟩ := by
      rw [hsource', hsource]
      rfl
    rw [List.length_cons, calls, answersFrom, hanswer, ih hrest' (hexit'.trans hexit) hnext
      fun l hl => hlines l (List.mem_cons_of_mem line hl), ← hanswer]

end Calculator

open Calculator (answersFrom variablesAfter)

namespace Desk

/-- The desk is between two evaluations: the queue and the buffer of its calculator are empty. -/
structure InStep (word : List Char) (d : Desk) : Prop where
  exitWord : d.exitWord = word
  streamExitWord : d.calculator.stream.exitWord = some word
  lines : d.calculator.source.lines = []
  rest : d.calculator.stream.cursor.rest = []
  noNewline : d.NoNewline
  steps : ∀ e ∈ d.history, e.detailed = false → e.steps = []

/-- What keeps the books keeps the queue and the buffer empty. -/
theorem InStep.of_keepsBooks {w : List Char} {d d' : Desk} (h : InStep w d)
    (hbooks : d.KeepsBooks d') : InStep w d' := by
  refine ⟨hbooks.exitWord.trans h.exitWord, ?_, ?_, ?_, ⟨hbooks.entry h.noNewline, ?_⟩, ?_⟩
  · rw [hbooks.calculator, h.streamExitWord]
  · rw [hbooks.calculator, h.lines]
  · rw [hbooks.calculator, h.rest]
  · rw [hbooks.history]
    exact h.noNewline.history
  · rw [hbooks.history]
    exact h.steps

/-- An expression for which there is an error of the input is not recorded. -/
theorem evaluate_of_input_error {d : Desk} {text : List Char} {detailed : Bool} {reply : Reply}
    {c : Calculator LineQueue} {e : InputError}
    (heq : (d.calculator.withSource (d.calculator.source.push text)).evaluate detailed = (reply, c))
    (hresult : reply.result = .error (.input e)) (elapsed : Nat) :
    d.evaluate text detailed elapsed = { d with calculator := c, quitting := true } := by
  unfold evaluate
  simp only [heq, hresult]

/-- An expression that is accepted or refused is recorded. -/
private theorem evaluate_of_answer {d : Desk} {text : List Char} {detailed : Bool} {reply : Reply}
    {c : Calculator LineQueue} {result : Except Diagnostic Float}
    (heq : (d.calculator.withSource (d.calculator.source.push text)).evaluate detailed = (reply, c))
    (hresult : result.mapError EvalError.rejected = reply.result) (elapsed : Nat) :
    d.evaluate text detailed elapsed = { d with
      calculator := c
      history := d.history ++ [⟨text, result, reply.steps, detailed, elapsed⟩]
      selected := d.history.length
      scrollToBottom := true } := by
  unfold evaluate
  cases result with
  | ok v => simp only [heq, ← hresult, Except.mapError]
  | error diagnostic => simp only [heq, ← hresult, Except.mapError]

/-- The answer to a line is no error of the input, so there is something to record. -/
private theorem exists_result_segmentAnswer (t : SymbolTable) (text : List Char) :
    ∃ result : Except Diagnostic Float,
      result.mapError EvalError.rejected = (segmentAnswer false text 0 t text).1.result := by
  unfold segmentAnswer
  simp only
  generalize (evaluateLine t false (lineTokens text ++ [.endOfLine])).result = r
  cases r with
  | ok v => exact ⟨.ok v, rfl⟩
  | error rejection => exact ⟨.error ⟨rejection, _, _⟩, rfl⟩

/-- The expression is the only line that the calculator is given, and nothing is left of it.  Unless
    it is the exit word, it is answered as a plain calculator does, and recorded. -/
theorem InStep.evaluate {w : List Char} {d : Desk} (h : InStep w d) {text : List Char}
    (htext : '\n' ∉ text) (detailed : Bool) (elapsed : Nat) :
    InStep w (d.evaluate text detailed elapsed) ∧
    (text ≠ w → ∃ entry, (d.evaluate text detailed elapsed).history = d.history ++ [entry] ∧
      entry.input = text ∧ entry.detailed = detailed ∧
      (entry.result.mapError EvalError.rejected,
        (d.evaluate text detailed elapsed).calculator.symbols) =
          ((segmentAnswer false text 0 d.calculator.symbols text).1.result,
            (segmentAnswer false text 0 d.calculator.symbols text).2)) := by
  -- the queue was empty, so the line that is pushed is the one that is read
  let fed := d.calculator.withSource (d.calculator.source.push text)
  have hsource : fed.source = ⟨[text]⟩ := by
    show LineQueue.mk (d.calculator.source.lines ++ [text]) = _
    rw [h.lines]
    rfl
  by_cases hword : text = w
  · -- the calculator takes the exit word for its own: the line is gone, the buffer untouched
    subst hword
    have hfill := Calculator.fill_of_queue_cons (s := fed.stream) h.rest hsource
    have hexit : fed.stream.exitWord = some text := h.streamExitWord
    rw [if_pos hexit] at hfill
    have heq := Calculator.evaluate_of_fill_error hfill detailed
    rw [evaluate_of_input_error heq rfl]
    exact ⟨⟨h.exitWord, h.streamExitWord, rfl, h.rest, ⟨h.noNewline.entry, h.noNewline.history⟩,
      h.steps⟩, fun hne => absurd rfl hne⟩
  · have hawaits : fed.Awaits text := by
      refine ⟨h.rest, ⟨⟨[]⟩, by rw [hsource]; rfl⟩, ?_⟩
      show d.calculator.stream.exitWord ≠ some text
      rw [h.streamExitWord]
      exact fun heq => hword (Option.some.inj heq).symm
    obtain ⟨hanswer, hafter, hexit, hrest⟩ := hawaits.evaluate_settles htext detailed
    obtain ⟨hplain, -, -, -⟩ := hawaits.evaluate_settles htext false
    obtain ⟨hresult, hsame⟩ := Calculator.evaluate_detailed_eq hawaits.terminated detailed false
    obtain ⟨result, hrecorded⟩ := exists_result_segmentAnswer d.calculator.symbols text
    -- the answer is the one that is given without details
    have hplain_result : (fed.evaluate false).1.result =
        (segmentAnswer false text 0 d.calculator.symbols text).1.result :=
      congrArg (fun answer => answer.1.result) hplain
    have hplain_symbols : (fed.evaluate false).2.symbols =
        (segmentAnswer false text 0 d.calculator.symbols text).2 := congrArg Prod.snd hplain
    have hrecorded' : result.mapError EvalError.rejected = (fed.evaluate detailed).1.result := by
      rw [hrecorded, hresult, hplain_result]
    have hsteps : detailed = false → (fed.evaluate detailed).1.steps = [] := by
      rintro rfl
      exact Calculator.steps_evaluate_false hawaits.terminated
    rw [evaluate_of_answer rfl hrecorded']
    refine ⟨⟨h.exitWord, hexit.trans h.streamExitWord, ?_, hrest, ⟨h.noNewline.entry, ?_⟩, ?_⟩,
      fun _ => ⟨_, rfl, rfl, rfl, ?_⟩⟩
    · have hlines : (fed.evaluate detailed).2.source.lines = [] := by
        rw [hafter, hsource]
        rfl
      exact hlines
    · intro e he
      rcases List.mem_append.1 he with he | he
      · exact h.noNewline.history e he
      · rw [List.mem_singleton.1 he]
        exact htext
    · intro e he
      rcases List.mem_append.1 he with he | he
      · exact h.steps e he
      · rw [List.mem_singleton.1 he]
        exact hsteps
    · rw [Prod.mk.injEq]
      refine ⟨hrecorded, ?_⟩
      rw [← hplain_symbols, ← hsame]
      rfl

/-- Clearing the history keeps the queue and the buffer empty. -/
private theorem InStep.clearHistory {w : List Char} {d : Desk} (h : InStep w d) :
    InStep w d.clearHistory := by
  have hnone : ∀ e ∈ d.clearHistory.history, False := fun e he => List.not_mem_nil he
  exact ⟨h.exitWord, h.streamExitWord, h.lines, h.rest,
    ⟨h.noNewline.entry, fun e he => (hnone e he).elim⟩, fun e he => (hnone e he).elim⟩

/-- Submitting keeps the queue and the buffer empty. -/
theorem InStep.submit {w : List Char} {d : Desk} (h : InStep w d) (elapsed : Nat) :
    InStep w (d.submit elapsed) := by
  have hsubmit := d.submit_eq elapsed
  -- by what the entry asks for; only an expression reaches the calculator
  split at hsubmit
  · rwa [hsubmit]
  · rw [hsubmit]
    exact h.of_keepsBooks ⟨rfl, rfl, rfl, NoNewline.entry⟩
  · rw [hsubmit]
    exact h.clearHistory.of_keepsBooks (keepsBooks_clearEntry _)
  · rw [hsubmit]
    exact h.of_keepsBooks ⟨rfl, rfl, rfl, fun _ => List.not_mem_nil⟩
  · obtain ⟨-, hmem, hsubmit⟩ := hsubmit
    have htext := fun hnewline => h.noNewline.entry (hmem '\n' hnewline)
    rw [hsubmit]
    exact (h.evaluate htext _ elapsed).1.of_keepsBooks (keepsBooks_clearEntry _)

/-- A new desk is between two evaluations. -/
private theorem inStep_new (w : List Char) : InStep w (Desk.new w) := by
  have hnone : ∀ e ∈ (Desk.new w).history, False := fun e he => List.not_mem_nil he
  exact ⟨rfl, rfl, rfl, rfl, ⟨List.not_mem_nil, fun e he => (hnone e he).elim⟩,
    fun e he => (hnone e he).elim⟩

/-- After every run the queue and the buffer are empty. -/
theorem InUse.inStep {w : List Char} {d : Desk} {ss : List Submission} (h : InUse w d ss) :
    InStep w d := by
  -- an action that submits nothing leaves the calculator alone
  induction h with
  | new => exact inStep_new w
  | act _ ha elapsed ih =>
    rcases submissions_cases _ elapsed ha with ⟨-, hbooks⟩ | ⟨-, hact⟩
    · exact ih.of_keepsBooks hbooks
    · rw [hact]
      exact ih.submit elapsed

/-! ## The history and the variables -/

/-- The history and the variables are those that the submissions lead to. -/
structure Recorded (d : Desk) (ss : List Submission) : Prop where
  entries : d.history.map (fun e => (e.detailed, e.input)) = sinceClear ss
  results : d.history.map (fun e => e.result.mapError EvalError.rejected) <:+
    (answersFrom SymbolTable.empty ((expressions ss).map Prod.snd)).map (·.1.result)
  symbols :
    d.calculator.symbols = variablesAfter SymbolTable.empty ((expressions ss).map Prod.snd)

/-- What keeps the books keeps the history and the variables in step. -/
theorem Recorded.of_keepsBooks {d d' : Desk} {ss : List Submission} (h : Recorded d ss)
    (hbooks : d.KeepsBooks d') : Recorded d' ss := by
  obtain ⟨hentries, hresults, hsymbols⟩ := h
  refine ⟨?_, ?_, ?_⟩
  · rwa [hbooks.history]
  · rwa [hbooks.history]
  · rwa [hbooks.calculator]

/-- A submission that is no expression and does not clear the history changes nothing of it. -/
private theorem Recorded.of_other {d : Desk} {ss : List Submission} {s : Submission}
    (h : Recorded d ss)
    (hexpression : s.expression? = none) (hclear : s ≠ .clear) : Recorded d (ss ++ [s]) := by
  -- neither the expressions nor those since the history was cleared are more than before
  have hexpressions : expressions (ss ++ [s]) = expressions ss := by
    simp [expressions, hexpression]
  have hsince : sinceClear (ss ++ [s]) = sinceClear ss := by
    rw [sinceClear, List.foldl_concat]
    cases s with
    | clear => exact absurd rfl hclear
    | expression detailed text => cases hexpression
    | _ => rfl
  obtain ⟨hentries, hresults, hsymbols⟩ := h
  exact ⟨hsince ▸ hentries, hexpressions ▸ hresults, hexpressions ▸ hsymbols⟩

/-- Clearing the history leaves the variables as they are. -/
private theorem Recorded.clearHistory {d : Desk} {ss : List Submission} (h : Recorded d ss) :
    Recorded d.clearHistory (ss ++ [.clear]) := by
  have hexpressions : expressions (ss ++ [.clear]) = expressions ss := by
    simp [expressions, Submission.expression?]
  have hsince : sinceClear (ss ++ [.clear]) = [] := by
    rw [sinceClear, List.foldl_concat]
    rfl
  refine ⟨hsince.symm, List.nil_suffix, ?_⟩
  rw [hexpressions]
  exact h.symbols

/-- An evaluation is recorded behind the others. -/
private theorem Recorded.evaluate {w : List Char} {d : Desk} {ss : List Submission}
    (h : Recorded d ss)
    (hd : InStep w d) {text : List Char} (htext : '\n' ∉ text) (hword : text ≠ w)
    (detailed : Bool) (elapsed : Nat) :
    Recorded (d.evaluate text detailed elapsed) (ss ++ [.expression detailed text]) := by
  obtain ⟨entry, hhistory, hinput, hdetailed, hanswer⟩ :=
    (hd.evaluate htext detailed elapsed).2 hword
  obtain ⟨hresult, hsymbols⟩ := Prod.mk.inj hanswer
  obtain ⟨hentries, ⟨earlier, hresults⟩, hvariables⟩ := h
  have hexpressions : (expressions (ss ++ [.expression detailed text])).map Prod.snd =
      (expressions ss).map Prod.snd ++ [text] := by
    simp [expressions, Submission.expression?]
  have hsince : sinceClear (ss ++ [.expression detailed text]) =
      sinceClear ss ++ [(detailed, text)] := by
    rw [sinceClear, List.foldl_concat]
    rfl
  -- what was answered before the history was cleared stays in front of the longer list of answers
  refine ⟨?_, ⟨earlier, ?_⟩, ?_⟩
  · rw [hhistory, List.map_append, hentries, hsince, List.map_singleton, hinput, hdetailed]
  · rw [hhistory, List.map_append, hexpressions, Calculator.answersFrom_append_singleton,
      List.map_append, ← hresults, List.map_singleton, hresult, hvariables, List.append_assoc]
    rfl
  · rw [hexpressions, Calculator.variablesAfter_append_singleton, hsymbols, hvariables]

/-- Submitting the entry keeps the history and the variables in step with what was submitted. -/
private theorem Recorded.submit {w : List Char} {d : Desk} {ss : List Submission}
    (h : Recorded d ss) (hd : InStep w d) (elapsed : Nat)
    (hword : ∀ e ∈ expressions [Submission.read w d.entry.chars], e.2 ≠ w) :
    Recorded (d.submit elapsed) (ss ++ [.read w d.entry.chars]) := by
  obtain rfl := hd.exitWord
  have hsubmit := d.submit_eq elapsed
  -- what the entry asks for decides what is added to the submissions
  cases hread : Submission.read d.exitWord d.entry.chars with
  | nothing =>
    simp only [hread] at hsubmit
    rw [hsubmit]
    exact h.of_other rfl (by simp)
  | quit =>
    simp only [hread] at hsubmit
    have hbooks : d.KeepsBooks (d.submit elapsed) := hsubmit ▸ ⟨rfl, rfl, rfl, NoNewline.entry⟩
    exact (h.of_keepsBooks hbooks).of_other rfl (by simp)
  | clear =>
    simp only [hread] at hsubmit
    rw [hsubmit]
    exact h.clearHistory.of_keepsBooks (keepsBooks_clearEntry _)
  | help =>
    simp only [hread] at hsubmit
    have hbooks : d.KeepsBooks (d.submit elapsed) :=
      hsubmit ▸ ⟨rfl, rfl, rfl, fun _ => List.not_mem_nil⟩
    exact (h.of_keepsBooks hbooks).of_other rfl (by simp)
  | expression detailed text =>
    simp only [hread] at hsubmit
    obtain ⟨-, hmem, hsubmit⟩ := hsubmit
    have htext := fun hnewline => hd.noNewline.entry (hmem '\n' hnewline)
    have hne : text ≠ d.exitWord := hword (detailed, text) (by simp [hread, expressions,
      Submission.expression?])
    rw [hsubmit]
    exact (h.evaluate hd htext hne detailed elapsed).of_keepsBooks (keepsBooks_clearEntry _)

/-- After every run the history and the variables are in step with what was submitted, unless an
    expression was the exit word. -/
theorem InUse.recorded {w : List Char} {d : Desk} {ss : List Submission} (h : InUse w d ss)
    (hword : ∀ e ∈ expressions ss, e.2 ≠ w) : Recorded d ss := by
  induction h with
  | new => exact ⟨rfl, List.suffix_rfl, rfl⟩
  | @act d ss h a ha elapsed ih =>
    have hd := h.inStep
    have hexpressions : expressions (ss ++ d.submissions a) =
        expressions ss ++ expressions (d.submissions a) := List.filterMap_append
    -- none of the expressions before this action was the exit word
    rw [hexpressions] at hword
    have hrecorded := ih fun e he => hword e (List.mem_append_left _ he)
    rcases submissions_cases _ elapsed ha with ⟨hnone, hbooks⟩ | ⟨hread, hact⟩
    · rw [hnone, List.append_nil]
      exact hrecorded.of_keepsBooks hbooks
    · rw [hread, hd.exitWord] at hword ⊢
      rw [hact]
      exact hrecorded.submit hd elapsed fun e he => hword e (List.mem_append_right _ he)

/-- No expression that was submitted has an end of line. -/
private theorem InUse.newline_not_mem {w : List Char} {d : Desk} {ss : List Submission}
    (h : InUse w d ss) : ∀ e ∈ expressions ss, '\n' ∉ e.2 := by
  -- an expression has only characters of the entry, which has no end of line
  induction h with
  | new => exact fun e he => absurd he List.not_mem_nil
  | @act d ss h a ha elapsed ih =>
    intro e he
    rw [expressions, List.filterMap_append, List.mem_append] at he
    rcases he with he | he
    · exact ih e he
    · rcases submissions_cases d elapsed ha with ⟨hnone, -⟩ | ⟨hread, -⟩
      · rw [hnone] at he
        cases he
      · rw [hread, List.filterMap_cons] at he
        have hsubmit := d.submit_eq elapsed
        cases hsubmission : Submission.read d.exitWord d.entry.chars with
        | expression detailed text =>
          simp only [hsubmission] at hsubmit
          rw [hsubmission] at he
          rw [List.mem_singleton.1 he]
          exact fun hmem => h.inStep.noNewline.entry (hsubmit.2.1 _ hmem)
        | _ =>
          rw [hsubmission] at he
          cases he

/-- The loop of the desk is a run: the screen is drawn and an event is handled, time after time. -/
theorem InUse.loopFrom {w : List Char} {d : Desk} {ss : List Submission} (h : InUse w d ss)
    (width height elapsed : Nat) (frame : Screen.Frame) {events : List Event}
    (hevents : .press (.char '\n') false ∉ events) :
    ∃ ss', InUse w (Desk.loopFrom width height elapsed d frame events).desk (ss ++ ss') := by
  -- one turn of the loop is two actions: a drawing and an event
  induction events generalizing d ss frame with
  | nil =>
    rw [Desk.loopFrom]
    split
    · exact ⟨[], by rwa [List.append_nil]⟩
    · exact ⟨_, h.act (a := .draw width height) (by simp) elapsed⟩
  | cons event events ih =>
    rw [List.mem_cons, not_or] at hevents
    rw [Desk.loopFrom]
    split
    · exact ⟨[], by rwa [List.append_nil]⟩
    · have hdraw := h.act (a := .draw width height) (by simp) elapsed
      have hhandle := hdraw.act (a := .handle event) (by simpa using Ne.symm hevents.1) elapsed
      obtain ⟨ss', hloop⟩ := ih hhandle (d.draw width height).2 hevents.2
      exact ⟨_, by rwa [List.append_assoc, List.append_assoc] at hloop⟩

/-- Submitting evaluates an expression, once, if one is asked for, and otherwise nothing. -/
theorem InStep.submit_evaluates {w : List Char} {d : Desk} (h : InStep w d) (elapsed : Nat) :
    match Submission.read w d.entry.chars with
    | .expression detailed text => text ≠ [] ∧ (text ≠ w →
        let alone := (Calculator.ofLine d.calculator.symbols text).evaluate false
        ∃ entry, (d.submit elapsed).history = d.history ++ [entry] ∧ entry.input = text ∧
          entry.detailed = detailed ∧
          entry.result.mapError EvalError.rejected = alone.1.result ∧
          (d.submit elapsed).calculator.symbols = alone.2.symbols)
    | _ => (d.submit elapsed).calculator = d.calculator := by
  have hsubmit := d.submit_eq elapsed
  rw [h.exitWord] at hsubmit
  -- nothing but an expression reaches the calculator
  cases hread : Submission.read w d.entry.chars with
  | expression detailed text =>
    simp only [hread] at hsubmit
    obtain ⟨hne, hmem, hsubmit⟩ := hsubmit
    have htext := fun hnewline => h.noNewline.entry (hmem '\n' hnewline)
    refine ⟨hne, fun hword => ?_⟩
    obtain ⟨entry, hhistory, hinput, hdetailed, hanswer⟩ :=
      (h.evaluate htext detailed elapsed).2 hword
    have halone := ((Calculator.awaits_ofLine d.calculator.symbols text).evaluate_settles htext
      false).1
    obtain ⟨hreply, hsymbols⟩ := Prod.mk.inj halone
    obtain ⟨hresult, hafter⟩ := Prod.mk.inj hanswer
    rw [hsubmit]
    refine ⟨entry, hhistory, hinput, hdetailed, ?_, ?_⟩
    · rw [hresult, hreply]
      rfl
    · rw [hsymbols]
      exact hafter
  | _ =>
    simp only [hread] at hsubmit
    have hcalculator := congrArg Desk.calculator hsubmit
    exact hcalculator

/-- After every run the queue of the calculator is empty and its buffer is used up, and entries
    without a request for details have no steps.  Submitting then evaluates one expression, if one
    is asked for: as if the line were the only one.  As long as no expression was the exit word, the
    history lists what was submitted since it was cleared last, with the last of the answers that a
    plain calculator gives to all the expressions, and has the variables of that calculator. -/
theorem in_step_of_use {w : List Char} {d : Desk} {ss : List Submission} (h : InUse w d ss) :
    d.calculator.source.lines = [] ∧ d.calculator.stream.cursor.rest = [] ∧
    (∀ e ∈ d.history, e.detailed = false → e.steps = []) ∧
    (∀ elapsed, match Submission.read w d.entry.chars with
      | .expression detailed text => text ≠ [] ∧ (text ≠ w →
          let alone := (Calculator.ofLine d.calculator.symbols text).evaluate false
          ∃ entry, (d.submit elapsed).history = d.history ++ [entry] ∧ entry.input = text ∧
            entry.detailed = detailed ∧
            entry.result.mapError EvalError.rejected = alone.1.result ∧
            (d.submit elapsed).calculator.symbols = alone.2.symbols)
      | _ => (d.submit elapsed).calculator = d.calculator) ∧
    ((∀ e ∈ expressions ss, e.2 ≠ w) →
      let lines := (expressions ss).map Prod.snd
      let answers := (Calculator.new (LineQueue.mk lines) none).calls false lines.length
      d.history.map (fun e => (e.detailed, e.input)) = sinceClear ss ∧
      d.history.map (fun e => e.result.mapError EvalError.rejected) <:+
        answers.map (·.1.result) ∧
      d.calculator.symbols = (answers.map Prod.snd).getLastD SymbolTable.empty) := by
  have hd := h.inStep
  refine ⟨hd.lines, hd.rest, hd.steps, hd.submit_evaluates, fun hword => ?_⟩
  intro lines answers
  have hlines : ∀ line ∈ lines, '\n' ∉ line := by
    intro line hline
    obtain ⟨e, he, rfl⟩ := List.mem_map.1 hline
    exact h.newline_not_mem e he
  have hanswers : answers = answersFrom SymbolTable.empty lines :=
    Calculator.calls_eq_answersFrom rfl rfl rfl hlines
  obtain ⟨hentries, hresults, hsymbols⟩ := h.recorded hword
  rw [hanswers, Calculator.getLastD_answersFrom]
  exact ⟨hentries, hresults, hsymbols⟩

/-- A line is evaluated, the history is cleared, and two more lines are entered, the first with
    details and the second to be refused.  Their answers are the second and the third that a plain
    calculator gives to the three lines; the line that is recalled is the fourth one. -/
theorem in_step_of_use_of_recalled_line :
    let acts := entering "a = 5".toList ++ entering "CLEAR".toList ++
      entering " Details a 3 +".toList ++ entering "=".toList ++
      [(0, .handle (.mouse .scrollUp)), (0, .select (-1))]
    let d := (Desk.new "exit".toList).after acts
    let lines := ["a = 5".toList, "a 3 +".toList, "=".toList]
    let answers := (Calculator.new (LineQueue.mk lines) none).calls false 3
    (d.calculator.source.lines = [] ∧ d.calculator.stream.cursor.rest = []) ∧
    d.history.map (fun e => (e.detailed, e.input)) = [(true, "a 3 +".toList), (false, ['='])] ∧
    d.history.map (fun e => e.result.mapError EvalError.rejected) <:+ answers.map (·.1.result) ∧
    d.calculator.symbols = (answers.map Prod.snd).getLastD SymbolTable.empty ∧
    ∃ entry, (d.submit 0).history = d.history ++ [entry] ∧ entry.input = "a 3 +".toList ∧
      entry.detailed = false ∧ entry.result.mapError EvalError.rejected =
        ((Calculator.ofLine d.calculator.symbols "a 3 +".toList).evaluate false).1.result := by
  intro acts d lines answers
  have hacts : ∀ act ∈ acts, act.2 ≠ .handle (.press (.char '\n') false) := by decide +kernel
  have hd : InUse "exit".toList d ([] ++ (Desk.new "exit".toList).submitted acts) :=
    InUse.new.after hacts
  have hsubmitted : [] ++ (Desk.new "exit".toList).submitted acts =
      [.expression false "a = 5".toList, .clear, .expression true "a 3 +".toList,
        .expression false ['=']] := by
    decide +kernel
  rw [hsubmitted] at hd
  obtain ⟨hqueue, hbuffer, -, hnext, hrecorded⟩ := in_step_of_use hd
  obtain ⟨hentries, hresults, hsymbols⟩ := hrecorded (by decide)
  -- the entry has the recalled line, which asks for no details
  have hread : Submission.read "exit".toList d.entry.chars = .expression false "a 3 +".toList := by
    decide +kernel
  have hsubmit := hnext 0
  rw [hread] at hsubmit
  obtain ⟨entry, hhistory, hinput, hdetailed, hresult, -⟩ := hsubmit.2 (by decide)
  exact ⟨⟨hqueue, hbuffer⟩, hentries, hresults, hsymbols, entry, hhistory, hinput, hdetailed,
    hresult⟩

end Desk

end DeskCalc
