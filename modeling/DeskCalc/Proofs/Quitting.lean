import DeskCalc.Proofs.DeskInvariants

/-!
# Ways to quit

A desk quits at Ctrl+C and Ctrl+D on its main screen, and at the exit word, submitted on its own or
behind `details `.  Nothing else makes it quit.  The help screen takes no notice of Control, so
Ctrl+C does nothing there; and what is submitted is trimmed before it is compared, so an exit word
that is empty or has blanks at its ends cannot be entered.

## Key results

- `Submission.ends_read_iff`: the texts whose submission quits
- `InStep.quitting_act_iff`: the actions at which a desk in use quits
- `InUse.quitting_after_iff`: a desk quits behind those runs that have such an action
- `InStep.enter_exitWord`: what Enter does with the exit word as the text of the entry
- `quits_exactly`: all of it, for every exit word and every desk in use
-/

namespace DeskCalc

/-! ## Texts that quit -/

namespace Submission

/-- Whether a submission quits: it is the exit word, or an expression that the calculator takes for
    it. -/
def ends (exitWord : List Char) : Submission → Bool
  | quit => true
  | expression _ text => text == exitWord
  | _ => false

/-- The text behind `details `, if a line asks for details, in any case. -/
def detailed? (line : List Char) : Option (List Char) :=
  if "details ".toList <+: line.map Char.toLower then
    some (Text.trim (line.drop "details ".toList.length))
  else none

/-- An empty line asks for no details. -/
private theorem detailed?_nil : detailed? [] = none := rfl

/-- A command is no request for details. -/
private theorem detailed?_of_command {line : List Char} {word : String}
    (hline : line.map Char.toLower = word.toList) (hword : ¬ "details ".toList <+: word.toList) :
    detailed? line = none := by
  rw [← hline] at hword
  exact if_neg hword

/-- The texts that quit are those which without the blanks at their ends are the exit word, unless
    nothing is left of them, and those which have it behind `details `. -/
theorem ends_read_iff (w text : List Char) :
    (read w text).ends w = true ↔
      (Text.trim text ≠ [] ∧ Text.trim text = w) ∨ detailed? (Text.trim text) = some w := by
  unfold read
  dsimp only
  generalize Text.trim text = line
  by_cases hnil : line = []
  · subst hnil
    simp [ends, detailed?_nil]
  by_cases hword : line = w
  · rw [if_neg hnil, if_pos hword]
    exact iff_of_true rfl (.inl ⟨hnil, hword⟩)
  rw [if_neg hnil, if_neg hword]
  -- the line is not the exit word, so what is behind `details ` decides
  suffices h : _ ↔ detailed? line = some w from h.trans (by simp [hword])
  -- the cases of `Submission.read` in its order
  by_cases hclear : line.map Char.toLower = "clear".toList
  · rw [if_pos hclear, detailed?_of_command hclear (by decide)]
    exact iff_of_false Bool.false_ne_true nofun
  by_cases hhelp : line.map Char.toLower = "help".toList
  · rw [if_neg hclear, if_pos hhelp, detailed?_of_command hhelp (by decide)]
    exact iff_of_false Bool.false_ne_true nofun
  rw [if_neg hclear, if_neg hhelp]
  by_cases hdetails : "details ".toList <+: line.map Char.toLower
  · have hsome : detailed? line = some _ := if_pos hdetails
    rw [if_pos hdetails, hsome]
    simp [ends]
  · have hnone : detailed? line = none := if_neg hdetails
    rw [if_neg hdetails, hnone]
    simp [ends, hword]

/-- What is behind `details ` is shorter than the line. -/
private theorem length_lt_of_detailed? {line rest : List Char} (h : detailed? line = some rest) :
    rest.length < line.length := by
  unfold detailed? at h
  split at h
  · next hprefix =>
    have hlong : "details ".toList.length ≤ line.length := by
      simpa using hprefix.length_le
    have hrest : rest = Text.trim (line.drop "details ".toList.length) := (Option.some.inj h).symm
    -- trimming can only make what is behind the word shorter still
    have htrim : rest.length ≤ (line.drop "details ".toList.length).length :=
      hrest ▸ Text.length_trim_le _
    rw [List.length_drop] at htrim
    have hword : "details ".toList.length = 8 := rfl
    omega
  · cases h

end Submission

namespace Desk

/-! ## Actions that quit -/

/-- The actions that end the session: Ctrl+C and Ctrl+D on the main screen, and submitting the exit
    word, on its own or behind `details `, with blanks around it that do not count. -/
inductive Ends (d : Desk) : Action → Prop
  | control {c : Char} (hc : c = 'c' ∨ c = 'd') (hmain : d.helpShown = false) :
      Ends d (.handle (.press (.char c) true))
  | exitWord {a : Action} (ha : d.submissions a ≠ []) (hne : Text.trim d.entry.chars ≠ [])
      (hword : Text.trim d.entry.chars = d.exitWord) : Ends d a
  | details {a : Action} (ha : d.submissions a ≠ [])
      (hword : Submission.detailed? (Text.trim d.entry.chars) = some d.exitWord) : Ends d a

/-- Selecting an entry of the history does not make the desk quit. -/
private theorem quitting_select (d : Desk) (delta : Int) :
    (d.select delta).quitting = d.quitting := by
  unfold select
  dsimp only
  split <;> rfl

/-- A key that submits nothing and is not Ctrl+C or Ctrl+D does not make the desk quit. -/
private theorem quitting_editorKey (d : Desk) (elapsed : Nat) {key : Key} {control : Bool}
    (hsubmit : key ≠ .enter) (hcontrol : ¬ ((key = .char 'c' ∨ key = .char 'd') ∧ control = true)) :
    (d.editorKey elapsed key control).quitting = d.quitting := by
  cases key with
  | enter => exact absurd rfl hsubmit
  | char c =>
    cases control with
    | false => rfl
    | true =>
      have hquit : ¬ (c = 'c' ∨ c = 'd') := by
        rintro (rfl | rfl) <;> simp at hcontrol
      show (if c = 'c' ∨ c = 'd' then { d with quitting := true }
        else if c = 'u' ∨ c = 'U' then d.clearEntry else d).quitting = d.quitting
      rw [if_neg hquit]
      split <;> rfl
  | left | right => cases control <;> rfl
  | up | down | pageUp | pageDown => exact d.quitting_select _
  | function n =>
    match n with
    | 0 => rfl
    | 1 => rfl
    | n + 2 => rfl
  | home | toEnd | backspace | delete | escape | tab => rfl

/-- No key of the help screen makes the desk quit. -/
private theorem quitting_helpKey (d : Desk) (key : Key) :
    (d.helpKey key).quitting = d.quitting := by
  cases key <;> rfl

/-- Turning the wheel does not make the desk quit. -/
private theorem quitting_wheel (d : Desk) (mouse : Mouse) :
    (d.wheel mouse).quitting = d.quitting := by
  cases mouse with
  | other => rfl
  | scrollUp | scrollDown =>
    simp only [wheel]
    split <;> rfl

/-- Drawing does not make the desk quit. -/
private theorem quitting_draw (d : Desk) (width height : Nat) :
    (d.draw width height).1.quitting = d.quitting := by
  unfold draw drawMain layOutHistory
  dsimp only
  split
  · rfl
  · split
    · rfl
    · split <;> rfl

/-- The calculator of a desk in step takes the exit word, and only that, for the end. -/
private theorem InStep.quitting_evaluate_iff {w : List Char} {d : Desk} (h : InStep w d)
    {text : List Char} (htext : '\n' ∉ text) (detailed : Bool) (elapsed : Nat) :
    (d.evaluate text detailed elapsed).quitting = true ↔ d.quitting = true ∨ text = w := by
  by_cases hword : text = w
  · subst hword
    -- the line that is read is the exit word, so the calculator has no more input
    let fed := d.calculator.withSource (d.calculator.source.push text)
    have hsource : fed.source = ⟨[text]⟩ := by
      show LineQueue.mk (d.calculator.source.lines ++ [text]) = _
      rw [h.lines]
      rfl
    have hfill := Calculator.fill_of_queue_cons (s := fed.stream) h.rest hsource
    have hexit : fed.stream.exitWord = some text := h.streamExitWord
    rw [if_pos hexit] at hfill
    rw [evaluate_of_input_error (Calculator.evaluate_of_fill_error hfill detailed) rfl]
    simp
  · -- an expression that is recorded does not end the session
    obtain ⟨entry, hhistory, -⟩ := (h.evaluate htext detailed elapsed).2 hword
    rcases d.evaluate_cases text detailed elapsed with ⟨e, -, -, heq⟩ | heq
    · rw [heq]
      simp [hword]
    · have hlength := congrArg List.length hhistory
      rw [heq, List.length_append, List.length_singleton] at hlength
      change d.history.length = d.history.length + 1 at hlength
      omega

/-- Submitting makes a desk in step quit if what is submitted ends the session. -/
private theorem InStep.quitting_submit_iff {w : List Char} {d : Desk} (h : InStep w d)
    (elapsed : Nat) :
    (d.submit elapsed).quitting = true ↔
      d.quitting = true ∨ (Submission.read w d.entry.chars).ends w = true := by
  have hsubmit := d.submit_eq elapsed
  rw [h.exitWord] at hsubmit
  cases hread : Submission.read w d.entry.chars with
  | nothing | clear | help =>
    simp only [hread] at hsubmit
    rw [hsubmit]
    exact (or_iff_left Bool.false_ne_true).symm
  | quit =>
    simp only [hread] at hsubmit
    rw [hsubmit]
    simp [Submission.ends]
  | expression detailed text =>
    simp only [hread] at hsubmit
    obtain ⟨-, hmem, hsubmit⟩ := hsubmit
    have htext := fun hnewline => h.noNewline.entry (hmem '\n' hnewline)
    rw [hsubmit]
    have heval := h.quitting_evaluate_iff htext detailed elapsed
    simpa [Submission.ends, clearEntry] using heval

/-- An action that submits something ends the session if what it submits does. -/
private theorem ends_iff_of_submits {d : Desk} {a : Action}
    (ha : d.submissions a = [.read d.exitWord d.entry.chars]) :
    d.Ends a ↔ (Submission.read d.exitWord d.entry.chars).ends d.exitWord = true := by
  have hne : d.submissions a ≠ [] := by
    rw [ha]
    exact List.cons_ne_nil _ _
  rw [Submission.ends_read_iff]
  constructor
  · intro hends
    cases hends with
    | control hc hmain => rcases hc with rfl | rfl <;> exact absurd rfl hne
    | exitWord _ htrim hword => exact .inl ⟨htrim, hword⟩
    | details _ hword => exact .inr hword
  · rintro (⟨htrim, hword⟩ | hword)
    · exact .exitWord hne htrim hword
    · exact .details hne hword

/-- An action that submits nothing ends the session if it is Ctrl+C or Ctrl+D on the main
    screen. -/
private theorem ends_iff_of_submissions_nil {d : Desk} {a : Action} (ha : d.submissions a = []) :
    d.Ends a ↔ d.helpShown = false ∧
      (a = .handle (.press (.char 'c') true) ∨ a = .handle (.press (.char 'd') true)) := by
  constructor
  · intro hends
    cases hends with
    | control hc hmain => rcases hc with rfl | rfl <;> simp [hmain]
    | exitWord hne => exact absurd ha hne
    | details hne => exact absurd ha hne
  · rintro ⟨hmain, rfl | rfl⟩
    · exact .control (.inl rfl) hmain
    · exact .control (.inr rfl) hmain

/-- An action that submits nothing makes the desk quit if it ends the session. -/
private theorem quitting_act_iff_of_submissions_nil {d : Desk} {a : Action}
    (ha : d.submissions a = [])
    (elapsed : Nat) : (d.act elapsed a).quitting = true ↔ d.quitting = true ∨ d.Ends a := by
  rw [ends_iff_of_submissions_nil ha]
  -- Ctrl+C and Ctrl+D on the main screen, and every other action
  by_cases hcontrol : d.helpShown = false ∧
      (a = .handle (.press (.char 'c') true) ∨ a = .handle (.press (.char 'd') true))
  · obtain ⟨hmain, hkey⟩ := hcontrol
    have hquit : (d.act elapsed a).quitting = true := by
      rcases hkey with rfl | rfl
      all_goals
        show (if d.helpShown then _ else { d with quitting := true }).quitting = true
        rw [hmain]
        rfl
    exact iff_of_true hquit (.inr ⟨hmain, hkey⟩)
  · suffices hsame : (d.act elapsed a).quitting = d.quitting by
      simp only [hsame, hcontrol, or_false]
    cases a with
    | submit => exact absurd ha (List.cons_ne_nil _ _)
    | select delta => exact d.quitting_select delta
    | page direction => exact d.quitting_select _
    | draw width height => exact d.quitting_draw width height
    | handle event =>
      cases event with
      | mouse mouse => exact d.quitting_wheel mouse
      | release | focus | idle => rfl
      | press key control =>
        -- a key goes to the help screen while that is shown
        by_cases hhelp : d.helpShown = true
        · have hact : d.act elapsed (.handle (.press key control)) = d.helpKey key := if_pos hhelp
          rw [hact, quitting_helpKey]
        · have hact : d.act elapsed (.handle (.press key control)) =
              d.editorKey elapsed key control := if_neg hhelp
          rw [hact]
          apply d.quitting_editorKey elapsed
          · rintro rfl
            have hsubmits : d.submissions (.handle (.press .enter control)) = [_] := if_neg hhelp
            rw [hsubmits] at ha
            cases ha
          · rintro ⟨rfl | rfl, rfl⟩ <;> simp [hhelp] at hcontrol

/-- An action submits the entry, or nothing. -/
private theorem submissions_eq_nil_or (d : Desk) (elapsed : Nat) (a : Action) :
    d.submissions a = [] ∨
      d.submissions a = [.read d.exitWord d.entry.chars] ∧ d.act elapsed a = d.submit elapsed := by
  by_cases ha : a = .handle (.press (.char '\n') false)
  · subst ha
    exact .inl rfl
  · exact (d.submissions_cases elapsed ha).imp And.left id

/-- The actions at which a desk in step quits are those that end the session. -/
theorem InStep.quitting_act_iff {w : List Char} {d : Desk} (h : InStep w d) (elapsed : Nat)
    (a : Action) : (d.act elapsed a).quitting = true ↔ d.quitting = true ∨ d.Ends a := by
  rcases d.submissions_eq_nil_or elapsed a with hnone | ⟨hread, hact⟩
  · exact quitting_act_iff_of_submissions_nil hnone elapsed
  · obtain rfl := h.exitWord
    rw [hact, ends_iff_of_submits hread]
    exact h.quitting_submit_iff elapsed

/-- A run makes a desk in use quit if one of its actions ends the session. -/
theorem InUse.quitting_after_iff {w : List Char} {d : Desk} {ss : List Submission}
    (h : InUse w d ss) {acts : List (Nat × Action)}
    (hacts : ∀ act ∈ acts, act.2 ≠ .handle (.press (.char '\n') false)) :
    (d.after acts).quitting = true ↔
      d.quitting = true ∨
        ∃ before act later, acts = before ++ act :: later ∧ (d.after before).Ends act.2 := by
  -- by induction on the actions; the desk stays in use with each of them
  induction acts generalizing d ss with
  | nil => simp [Desk.after]
  | cons act acts ih =>
    have hnext := h.act (hacts act List.mem_cons_self) act.1
    have hlater := ih hnext fun a ha => hacts a (List.mem_cons_of_mem _ ha)
    show ((d.act act.1 act.2).after acts).quitting = true ↔ _
    rw [hlater, h.inStep.quitting_act_iff act.1 act.2, or_assoc]
    apply or_congr Iff.rfl
    constructor
    · rintro (hends | ⟨before, act', later, rfl, hends⟩)
      · exact ⟨[], act, acts, rfl, hends⟩
      · exact ⟨act :: before, act', later, rfl, hends⟩
    · rintro ⟨before, act', later, heq, hends⟩
      -- the action that ends the session is the first one or a later one
      cases before with
      | nil =>
        obtain ⟨rfl, rfl⟩ := List.cons.inj heq
        exact .inl hends
      | cons b before =>
        obtain ⟨rfl, rfl⟩ := List.cons.inj heq
        exact .inr ⟨before, act', later, rfl, hends⟩

/-! ## The exit word in the entry -/

/-- The exit word is read as such if it has no blanks at its ends, and is not empty. -/
private theorem read_exitWord_ends_iff (w : List Char) :
    (Submission.read w w).ends w = true ↔ Text.trim w = w ∧ w ≠ [] := by
  -- the exit word cannot stand behind `details ` in itself
  have hlong : Submission.detailed? (Text.trim w) ≠ some w := by
    intro hdetailed
    have hlt := Submission.length_lt_of_detailed? hdetailed
    have hle := Text.length_trim_le w
    omega
  rw [Submission.ends_read_iff, or_iff_left hlong]
  constructor
  · rintro ⟨hne, heq⟩
    rw [heq] at hne
    exact ⟨heq, hne⟩
  · rintro ⟨heq, hne⟩
    rw [heq]
    exact ⟨hne, rfl⟩

/-- With the exit word as the text of the entry, Enter makes the desk quit and does nothing else,
    unless the exit word is empty or has blanks at its ends: then it does not make it quit. -/
theorem InStep.enter_exitWord {w : List Char} {d : Desk} (h : InStep w d)
    (hmain : d.helpShown = false) (hentry : d.entry.chars = w) (elapsed : Nat) (control : Bool) :
    let d' := d.act elapsed (.handle (.press .enter control))
    if Text.trim w = w ∧ w ≠ [] then d' = { d with quitting := true }
    else d'.quitting = d.quitting := by
  intro d'
  have hact : d' = d.submit elapsed := by
    show (if d.helpShown then _ else d.submit elapsed) = _
    rw [hmain]
    rfl
  rw [hact]
  -- the exit word is one that trimming leaves as it is, or it is not
  split
  · next hword =>
    have hread : Submission.read d.exitWord d.entry.chars = .quit := by
      rw [h.exitWord, hentry]
      unfold Submission.read
      simp only [hword.1, if_neg hword.2, if_true]
    have hsubmit := d.submit_eq elapsed
    rw [hread] at hsubmit
    exact hsubmit
  · next hword =>
    have hquit := h.quitting_submit_iff elapsed
    rw [hentry, read_exitWord_ends_iff, or_iff_left hword] at hquit
    exact Bool.eq_iff_iff.2 hquit

/-- Whatever the exit word is and whatever has been done to the desk, an action makes it quit if it
    is Ctrl+C or Ctrl+D on the main screen, or if it submits the exit word, on its own or behind
    `details `.  So Ctrl+C works on the main screen and nowhere else, and Enter at the exit word
    itself works, with nothing evaluated, if the exit word is one that trimming leaves as it is. -/
theorem quits_exactly {w : List Char} {d : Desk} {ss : List Submission} (h : InUse w d ss)
    (elapsed : Nat) :
    (∀ a, (d.act elapsed a).quitting = true ↔ d.quitting = true ∨ d.Ends a) ∧
    ((d.act elapsed (.handle (.press (.char 'c') true))).quitting = true ↔
      d.quitting = true ∨ d.helpShown = false) ∧
    (d.helpShown = false → d.entry.chars = w → ∀ control,
      let d' := d.act elapsed (.handle (.press .enter control))
      if Text.trim w = w ∧ w ≠ [] then d' = { d with quitting := true }
      else d'.quitting = d.quitting) := by
  have hd := h.inStep
  refine ⟨hd.quitting_act_iff elapsed, ?_, ?_⟩
  · rw [hd.quitting_act_iff elapsed, ends_iff_of_submissions_nil rfl]
    simp
  · intro hmain hentry
    exact hd.enter_exitWord hmain hentry elapsed

/-- The desk behind F1 is in use; there Ctrl+C does nothing. -/
theorem quits_exactly_behind_help :
    let d := (Desk.new "exit".toList).act 0 (.handle (.press (.function 1) false))
    InUse "exit".toList d [] ∧
      ((d.act 0 (.handle (.press (.char 'c') true))).quitting = true ↔
        d.quitting = true ∨ d.helpShown = false) := by
  intro d
  have hd : InUse "exit".toList d [] := InUse.new.act (by decide) 0
  exact ⟨hd, (quits_exactly hd 0).2.1⟩

/-- The ways to quit do not work from every state: not Ctrl+C on the help screen, and not Enter at
    an exit word that begins with a blank, which is evaluated. -/
theorem not_quitting_from_every_state :
    let help := (Desk.new "exit".toList).act 0 (.handle (.press (.function 1) false))
    let typed := ((Desk.new " q".toList).act 0 (.handle (.press (.char ' ') false))).act 0
      (.handle (.press (.char 'q') false))
    InUse "exit".toList help [] ∧
      (help.act 0 (.handle (.press (.char 'c') true))).quitting = false ∧
    InUse " q".toList typed [] ∧ typed.helpShown = false ∧ typed.entry.chars = " q".toList ∧
      (typed.act 0 (.handle (.press .enter false))).quitting = false ∧
      (typed.act 0 (.handle (.press .enter false))).history.map HistoryEntry.input =
        ["q".toList] := by
  intro help typed
  have hhelp : InUse "exit".toList help [] := InUse.new.act (by decide) 0
  have htyped : InUse " q".toList typed [] := (InUse.new.act (by decide) 0).act (by decide) 0
  refine ⟨hhelp, rfl, htyped, rfl, rfl, ?_, ?_⟩
  · exact htyped.inStep.enter_exitWord rfl rfl 0 false
  · obtain ⟨entry, hhistory, hinput, -⟩ :=
      (htyped.inStep.submit_evaluates 0).2 (show "q".toList ≠ " q".toList by decide)
    have hnew : (typed.act 0 (.handle (.press .enter false))).history = [entry] := hhistory
    rw [hnew, List.map_singleton, hinput]
    rfl

end Desk

end DeskCalc
