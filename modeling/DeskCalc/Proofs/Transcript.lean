import DeskCalc.Proofs.Dialogue
import DeskCalc.Proofs.PromptedLines

/-!
# The transcript of a session

A session over a text writes a prompt, reads a line and writes the report on it, in lockstep.  What
it writes and what it leaves unread is known from the lines of the text up to the exit word and from
the reports on them.  The reports go to a sink of their own or to the stream of the prompts; the
argument is the same for both, and for any host whose reading and writing does not interfere.

## Key results

- `TextHost.dialogue`: the dialogue with a host that reads a text
- `Session.run_transcript`: the ending, the variables, all that is written and what is left unread
-/

namespace DeskCalc

namespace Session

/-! ## The lines that are evaluated -/

/-- The lines in front of the exit word. -/
def linesToExit (exitWord : Option (List Char)) (lines : List (List Char)) : List (List Char) :=
  lines.takeWhile fun line => exitWord ≠ some line

/-- How a session over some lines ends. -/
def endingOf (exitWord : Option (List Char)) (lines : List (List Char)) : SessionEnd :=
  if ∃ line ∈ lines, exitWord = some line then .exit else .endOfInput

/-- What a session over a text leaves unread: what is behind the line with the exit word. -/
def leftUnread (exitWord : Option (List Char)) (text : List Char) : List Char :=
  match endingOf exitWord (textLines text) with
  | .exit => textBehind ((linesToExit exitWord (textLines text)).length + 1) text
  | .endOfInput => []

section

variable {exitWord : Option (List Char)} {line : List Char} {lines : List (List Char)}

/-- No line is evaluated when the first one is the exit word. -/
theorem linesToExit_cons_of_eq (h : exitWord = some line) :
    linesToExit exitWord (line :: lines) = [] :=
  List.takeWhile_cons_of_neg (by simpa using h)

/-- A first line other than the exit word is evaluated. -/
theorem linesToExit_cons_of_ne (h : exitWord ≠ some line) :
    linesToExit exitWord (line :: lines) = line :: linesToExit exitWord lines :=
  List.takeWhile_cons_of_pos (by simpa using h)

/-- Without lines, a session ends at the end of the input. -/
theorem endingOf_nil : endingOf exitWord [] = .endOfInput := by
  rw [endingOf, if_neg (by simp)]

/-- The exit word ends a session. -/
theorem endingOf_cons_of_eq (h : exitWord = some line) :
    endingOf exitWord (line :: lines) = .exit := by
  rw [endingOf, if_pos ⟨line, List.mem_cons_self, h⟩]

/-- A line other than the exit word does not decide how a session ends. -/
theorem endingOf_cons_of_ne (h : exitWord ≠ some line) :
    endingOf exitWord (line :: lines) = endingOf exitWord lines := by
  -- the exit word, if there is one, is among the other lines
  have hiff : (∃ l ∈ line :: lines, exitWord = some l) ↔ ∃ l ∈ lines, exitWord = some l := by
    simp [h]
  simp only [endingOf, hiff]

/-- Behind the exit word, a session leaves the text unread. -/
theorem leftUnread_newline_of_eq {front : List Char} (hfront : '\n' ∉ front) (more : List Char)
    (h : exitWord = some (dropReturn front)) :
    leftUnread exitWord (front ++ '\n' :: more) = more := by
  rw [leftUnread, textLines_newline hfront, endingOf_cons_of_eq h, linesToExit_cons_of_eq h]
  show textBehind (0 + 1) (front ++ '\n' :: more) = more
  rw [textBehind_newline hfront, textBehind_zero]

/-- A line other than the exit word is read, so what is left is left of the text behind it. -/
theorem leftUnread_newline_of_ne {front : List Char} (hfront : '\n' ∉ front) (more : List Char)
    (h : exitWord ≠ some (dropReturn front)) :
    leftUnread exitWord (front ++ '\n' :: more) = leftUnread exitWord more := by
  rw [leftUnread, textLines_newline hfront, endingOf_cons_of_ne h, linesToExit_cons_of_ne h,
    leftUnread, List.length_cons, textBehind_newline hfront]

/-- Nothing is left of a last line. -/
theorem leftUnread_last {last : List Char} (hlast : '\n' ∉ last) :
    leftUnread exitWord last = [] := by
  unfold leftUnread
  split
  · exact textBehind_last hlast _
  · rfl

/-- Nothing is left of the empty text. -/
theorem leftUnread_nil : leftUnread exitWord [] = [] := leftUnread_last List.not_mem_nil

end

/-! ## Hosts that read a text -/

/-- A host that reads a text, with a log of what has been written.  A read adds a prompt to the log,
    and a report adds itself; the one does not disturb the other. -/
structure TextHost (σ : Type) [Host σ] (Log : Type) where
  state : List Char → Log → σ
  prompted : Log → Log
  reported : String → Log → Log
  readLine_nil : ∀ log, LineSource.readLine (state [] log) = (.ended, state [] (prompted log))
  readLine_last : ∀ line log, line ≠ [] → '\n' ∉ line →
    LineSource.readLine (state line log) = (.line line, state [] (prompted log))
  readLine_newline : ∀ front more log, '\n' ∉ front →
    LineSource.readLine (state (front ++ '\n' :: more) log) =
      (.line (dropReturn front), state more (prompted log))
  report_eq : ∀ text unread log,
    Host.report text (state unread log) = (.ok (), state unread (reported text log))

namespace TextHost

variable {σ Log : Type} [FiniteHost σ]

/-- The log of a session with these reports: a prompt in front of each of them, and one in front of
    the farewell. -/
def logAfter (h : TextHost σ Log) : List String → Log → Log
  | [], log => h.reported farewell (h.prompted log)
  | report :: reports, log => h.logAfter reports (h.reported report (h.prompted log))

/-- The dialogue with a host that reads a text. -/
theorem dialogue (h : TextHost σ Log) (exitWord : Option (List Char)) (text : List Char)
    {reports : List String}
    (hlength : reports.length = (linesToExit exitWord (textLines text)).length) (log : Log) :
    Dialogue exitWord (h.state text log) (linesToExit exitWord (textLines text)) reports
      (endingOf exitWord (textLines text))
      (h.state (leftUnread exitWord text) (h.logAfter reports log)) := by
  -- by the lines of the text: there is none, a last one without an end, or one with its end
  induction text using text_induction generalizing reports log with
  | nil =>
    rw [textLines_nil] at hlength ⊢
    obtain rfl : reports = [] := List.length_eq_zero_iff.1 hlength
    rw [endingOf_nil, leftUnread_nil]
    exact .endOfInput (h.readLine_nil log) (h.report_eq _ _ _)
  | last line hne hline =>
    have hread := h.readLine_last line log hne hline
    rw [textLines_last hne hline] at hlength ⊢
    rw [leftUnread_last hline]
    by_cases hword : exitWord = some line
    · rw [linesToExit_cons_of_eq hword] at hlength ⊢
      obtain rfl : reports = [] := List.length_eq_zero_iff.1 hlength
      rw [endingOf_cons_of_eq hword]
      exact .exit hread hword (h.report_eq _ _ _)
    · -- behind the last line, the end of the input is met at once
      rw [linesToExit_cons_of_ne hword] at hlength ⊢
      obtain ⟨report, rfl⟩ : ∃ report, reports = [report] := List.length_eq_one_iff.1 hlength
      rw [endingOf_cons_of_ne hword, endingOf_nil]
      refine .line hread hword (h.report_eq _ _ _) ?_
      exact .endOfInput (h.readLine_nil _) (h.report_eq _ _ _)
  | newline front more hfront ih =>
    have hread := h.readLine_newline front more log hfront
    rw [textLines_newline hfront] at hlength ⊢
    by_cases hword : exitWord = some (dropReturn front)
    · rw [linesToExit_cons_of_eq hword] at hlength ⊢
      obtain rfl : reports = [] := List.length_eq_zero_iff.1 hlength
      rw [endingOf_cons_of_eq hword, leftUnread_newline_of_eq hfront more hword]
      exact .exit hread hword (h.report_eq _ _ _)
    · rw [linesToExit_cons_of_ne hword] at hlength ⊢
      obtain ⟨report, others, rfl⟩ := List.exists_cons_of_length_eq_add_one hlength
      rw [endingOf_cons_of_ne hword, leftUnread_newline_of_ne hfront more hword]
      exact .line hread hword (h.report_eq _ _ _) (ih (Nat.succ.inj hlength) _)

/-- A session over a text. -/
theorem run_eq_logAfter (h : TextHost σ Log) {options : SessionOptions}
    {exitWord : Option (List Char)} {text : List Char} {t t' : SymbolTable} {reports : List String}
    (hreported : Reported options t (linesToExit exitWord (textLines text)) reports t')
    (log : Log) :
    let c : Calculator σ := ⟨TokenStream.new (h.state text log) exitWord, t⟩
    (run options c).1 = .ok (endingOf exitWord (textLines text)) ∧
      (run options c).2.source =
        h.state (leftUnread exitWord text) (h.logAfter reports log) ∧
      (run options c).2.symbols = t' := by
  intro c
  have hlines : ∀ line ∈ linesToExit exitWord (textLines text), '\n' ∉ line := by
    intro line hline
    exact newline_not_mem_of_mem_textLines ((List.takeWhile_prefix _).subset hline)
  exact run_of_dialogue (c := c) (h.dialogue exitWord text hreported.length_eq log) hreported rfl
    hlines

/-! ### The two hosts -/

/-- Prompts and reports go to sinks of their own; the log has both. -/
def separate (prompt : String) : TextHost (Separate Prompted) (List UInt8 × List UInt8) where
  state text log := ⟨Prompted.ofText text prompt log.1, ⟨log.2, none⟩⟩
  prompted log := (log.1 ++ utf8Bytes prompt, log.2)
  reported report log := (log.1, log.2 ++ utf8Bytes report)
  readLine_nil log := by
    show Separate.readLine _ = _
    rw [Separate.readLine, Prompted.readLine_nil]
  readLine_last line log hne hline := by
    show Separate.readLine _ = _
    rw [Separate.readLine, Prompted.readLine_last hne hline]
  readLine_newline front more log hfront := by
    show Separate.readLine _ = _
    rw [Separate.readLine, Prompted.readLine_newline hfront]
  report_eq report unread log := by
    show Separate.report _ _ = _
    rw [Separate.report, Sink.write_unlimited]

/-- Prompts and reports go to one stream. -/
def shared (prompt : String) : TextHost Prompted (List UInt8) where
  state text log := Prompted.ofText text prompt log
  prompted log := log ++ utf8Bytes prompt
  reported report log := log ++ utf8Bytes report
  readLine_nil log := Prompted.readLine_nil prompt log
  readLine_last line log hne hline := Prompted.readLine_last hne hline prompt log
  readLine_newline front more log hfront := Prompted.readLine_newline hfront more prompt log
  report_eq report unread log := by
    let written := (Sink.mk log none).write report
    show (written.1, { Prompted.ofText unread prompt log with sink := written.2 }) = _
    rw [show written = _ from Sink.write_unlimited log report]
    rfl

/-- The log of two sinks: the prompts in one, the reports and the farewell in the other. -/
theorem logAfter_separate (prompt : String) (reports : List String)
    (log : List UInt8 × List UInt8) :
    (separate prompt).logAfter reports log =
      (log.1 ++ (List.replicate (reports.length + 1) prompt).flatMap utf8Bytes,
        log.2 ++ (reports ++ [farewell]).flatMap utf8Bytes) := by
  -- the log is carried along, so it is not fixed in the induction
  induction reports generalizing log with
  | nil => simp [logAfter, separate]
  | cons report reports ih =>
    rw [logAfter, ih]
    simp [separate, List.replicate_succ]

/-- The log of one stream: each prompt in front of the report on its line. -/
private theorem logAfter_shared (prompt : String) (reports : List String) (log : List UInt8) :
    (shared prompt).logAfter reports log =
      log ++
        (reports ++ [farewell]).flatMap fun report => utf8Bytes prompt ++ utf8Bytes report := by
  induction reports generalizing log with
  | nil => simp [logAfter, shared]
  | cons report reports ih =>
    rw [logAfter, ih]
    simp [shared]

end TextHost

/-! ## The transcript -/

/-- A session over a text evaluates the lines in front of the exit word, or all of them, each with
    the variables that the one before it has left.  It writes the reports on these lines and a
    farewell, and a prompt for each of them and one more; on a shared stream each prompt stands in
    front of the report on its line.  What is behind the exit word is left unread. -/
theorem run_transcript (options : SessionOptions) (exitWord : Option (List Char)) (prompt : String)
    (text : List Char) (t : SymbolTable) (before out : List UInt8) :
    let lines := linesToExit exitWord (textLines text)
    let ending := endingOf exitWord (textLines text)
    let unread := utf8Bytes (String.ofList (leftUnread exitWord text))
    let source : Prompted := ⟨utf8Bytes (String.ofList text), prompt, ⟨before, none⟩⟩
    let separate := run options ⟨TokenStream.new (Separate.mk source ⟨out, none⟩) exitWord, t⟩
    let shared := run options ⟨TokenStream.new source exitWord, t⟩
    ∃ reports t', (∀ reports' t'', Reported options t lines reports' t'' ↔
        reports' = reports ∧ t'' = t') ∧
      (separate.1 = .ok ending ∧ separate.2.symbols = t' ∧
        separate.2.source =
          ⟨⟨unread, prompt,
              ⟨before ++ (List.replicate (lines.length + 1) prompt).flatMap utf8Bytes, none⟩⟩,
            ⟨out ++ (reports ++ ["\nBye\n"]).flatMap utf8Bytes, none⟩⟩) ∧
      (shared.1 = .ok ending ∧ shared.2.symbols = t' ∧
        shared.2.source =
          ⟨unread, prompt, ⟨before ++ (reports ++ ["\nBye\n"]).flatMap fun report =>
            utf8Bytes prompt ++ utf8Bytes report, none⟩⟩) := by
  intro lines ending unread source separate shared
  obtain ⟨reports, t', hreported⟩ := exists_reported options t lines
  -- the reports are unique, and both hosts take the same ones
  refine ⟨reports, t', ?_, ?_, ?_⟩
  · intro reports' t''
    constructor
    · exact fun h => h.unique hreported
    · rintro ⟨rfl, rfl⟩
      exact hreported
  · obtain ⟨hend, hsource, hsymbols⟩ :=
      (TextHost.separate prompt).run_eq_logAfter hreported (before, out)
    rw [TextHost.logAfter_separate, hreported.length_eq] at hsource
    exact ⟨hend, hsymbols, hsource⟩
  · obtain ⟨hend, hsource, hsymbols⟩ :=
      (TextHost.shared prompt).run_eq_logAfter hreported before
    rw [TextHost.logAfter_shared] at hsource
    exact ⟨hend, hsymbols, hsource⟩

end Session

end DeskCalc
