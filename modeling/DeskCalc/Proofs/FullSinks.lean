import DeskCalc.Proofs.Transcript

/-!
# Sessions whose sinks run full

A sink with a limit stores of a text what fits and fails when that is not all of it.  A session
stops at the first write that fails.  Up to there it goes as it does with sinks that have no limit,
so the sinks hold the beginning of what would have been written, and the variables are those behind
the lines that were read.

## Key results

- `Sink.write_of_le`, `Sink.write_of_lt`: what a sink with a limit does
- `Session.run_of_broken`: a session whose dialogue with the host breaks off
- `Session.Limits.course`: where the dialogue with a host that reads a text breaks off
- `Session.run_full_sinks`: a session with limits and one without
-/

namespace DeskCalc

/-! ## Sinks with a limit -/

/-- A text that fits is written. -/
theorem Sink.write_of_le {written : List UInt8} {limit : Nat} {text : String}
    (h : (written ++ utf8Bytes text).length ≤ limit) :
    (Sink.mk written (some limit)).write text =
      (.ok (), ⟨written ++ utf8Bytes text, some limit⟩) := by
  rw [List.length_append] at h
  have hfits : (utf8Bytes text).take (limit - written.length) = utf8Bytes text :=
    List.take_of_length_le (by omega)
  simp only [write, fitting, hfits, if_true]

/-- Of a text that does not fit, the limit decides what is stored. -/
theorem Sink.write_of_lt {written : List UInt8} {limit : Nat} {text : String}
    (hwritten : written.length ≤ limit) (h : limit < (written ++ utf8Bytes text).length) :
    (Sink.mk written (some limit)).write text =
      (.error .writerFull, ⟨(written ++ utf8Bytes text).take limit, some limit⟩) := by
  rw [List.length_append] at h
  have hshort : ((utf8Bytes text).take (limit - written.length)).length ≠
      (utf8Bytes text).length := by
    rw [List.length_take]
    omega
  -- all that was written before is kept
  have htake : (written ++ utf8Bytes text).take limit =
      written ++ (utf8Bytes text).take (limit - written.length) := by
    rw [List.take_append, List.take_of_length_le hwritten]
  have hfitting : (Sink.mk written (some limit)).fitting (utf8Bytes text) =
      (utf8Bytes text).take (limit - written.length) := rfl
  rw [write]
  dsimp only
  rw [hfitting, if_neg hshort, htake]

namespace Prompted

/-- Once the prompt has been written, reading does not depend on where it went. -/
private theorem readLine_of_write {prompt : String} {sink sink' : Sink}
    (h : sink.write prompt = (.ok (), sink')) (unread written : List UInt8) :
    readLine ⟨unread, prompt, sink⟩ =
      ((readLine ⟨unread, prompt, ⟨written, none⟩⟩).1,
        { (readLine ⟨unread, prompt, ⟨written, none⟩⟩).2 with sink := sink' }) := by
  simp only [readLine, h, Sink.write_unlimited]
  -- the text is used up, or it has a line, whose bytes are decoded or not
  split
  · rfl
  · split <;> rfl

/-- When the prompt cannot be written, nothing is read. -/
private theorem readLine_of_write_error {prompt : String} {sink sink' : Sink} {fault : Fault}
    (h : sink.write prompt = (.error fault, sink')) (unread : List UInt8) :
    readLine ⟨unread, prompt, sink⟩ = (.failed fault, ⟨unread, prompt, sink'⟩) := by
  simp only [readLine, h]

end Prompted

namespace Session

variable {options : SessionOptions}

/-! ## Dialogues that break off -/

/-- The host hands out lines and takes a report on each of them, until it fails: there is no next
    line, or it does not take a report or the farewell. -/
inductive Broken {σ : Type} [Host σ] (exitWord : Option (List Char)) :
    σ → List (List Char) → List String → Fault → σ → Prop
  | line {s s₁ s₂ s' : σ} {line : List Char} {text : String} {lines : List (List Char)}
      {texts : List String} {fault : Fault}
      (hread : LineSource.readLine s = (.line line, s₁)) (hword : exitWord ≠ some line)
      (hreport : Host.report text s₁ = (.ok (), s₂))
      (h : Broken exitWord s₂ lines texts fault s') :
      Broken exitWord s (line :: lines) (text :: texts) fault s'
  | read {s s' : σ} {fault : Fault} (hread : LineSource.readLine s = (.failed fault, s')) :
      Broken exitWord s [] [] fault s'
  | report {s s₁ s' : σ} {line : List Char} {text : String} {fault : Fault}
      (hread : LineSource.readLine s = (.line line, s₁)) (hword : exitWord ≠ some line)
      (hreport : Host.report text s₁ = (.error fault, s')) :
      Broken exitWord s [line] [text] fault s'
  | exit {s s₁ s' : σ} {line : List Char} {fault : Fault}
      (hread : LineSource.readLine s = (.line line, s₁)) (hword : exitWord = some line)
      (hreport : Host.report farewell s₁ = (.error fault, s')) :
      Broken exitWord s [] [] fault s'
  | endOfInput {s s₁ s' : σ} {fault : Fault} (hread : LineSource.readLine s = (.ended, s₁))
      (hreport : Host.report farewell s₁ = (.error fault, s')) :
      Broken exitWord s [] [] fault s'

section

variable {σ : Type} [FiniteHost σ]

/-- A report that the host refuses ends the turn. -/
private theorem report_eq_error {c : Calculator σ} {text : String} {fault : Fault} {s : σ}
    (h : Host.report text c.source = (.error fault, s)) :
    report c text = (.error fault, c.withSource s) := by
  rw [report, h]

/-- A session goes as its dialogue with the host does, also when it breaks off. -/
theorem run_of_broken {c : Calculator σ} {lines : List (List Char)} {reports : List String}
    {fault : Fault} {s' : σ} {t' : SymbolTable}
    (hbroken : Broken c.stream.exitWord c.source lines reports fault s')
    (hreported : Reported options c.symbols lines reports t')
    (hrest : c.stream.cursor.rest = []) (hlines : ∀ line ∈ lines, '\n' ∉ line) :
    (run options c).1 = .error fault ∧ (run options c).2.source = s' ∧
      (run options c).2.symbols = t' := by
  generalize hs : c.source = s at hbroken
  generalize hword : c.stream.exitWord = exitWord at hbroken
  -- the induction is on the dialogue; the calculator stands in front of the same lines, its buffer
  -- used up
  induction hbroken generalizing c with
  | @line s s₁ s₂ s' line text lines texts fault hread hne hreport _ ih =>
    subst hs hword
    obtain ⟨result, hturn, rfl, hsource, hothers, hnil, hexit⟩ :=
      exists_turn hreported ⟨hrest, ⟨s₁, hread⟩, hne⟩ (hlines line List.mem_cons_self)
    simp only [hread] at hsource
    have hnext := report_eq (c := (c.evaluate false).2) (hsource.symm ▸ hreport)
    rw [run_eq, hturn]
    simp only [hnext]
    exact ih (c := (c.evaluate false).2.withSource s₂) hothers hnil
      (fun l hl => hlines l (List.mem_cons_of_mem _ hl)) rfl hexit
  | @read s s' fault hread =>
    subst hs hword
    cases hreported
    rw [run_eq, Calculator.evaluate_of_fill_error (TokenStream.fill_of_failed hrest hread)]
    exact ⟨rfl, rfl, rfl⟩
  | @report s s₁ s' line text fault hread hne hreport =>
    -- the line has been evaluated when its report is refused
    subst hs hword
    obtain ⟨result, hturn, rfl, hsource, hothers, -⟩ :=
      exists_turn hreported ⟨hrest, ⟨s₁, hread⟩, hne⟩ (hlines line List.mem_cons_self)
    simp only [hread] at hsource
    have hlast := report_eq_error (c := (c.evaluate false).2) (hsource.symm ▸ hreport)
    rw [run_eq, hturn]
    simp only [hlast]
    cases hothers
    exact ⟨trivial, rfl, rfl⟩
  | @exit s s₁ s' line fault hread hexit hreport =>
    subst hs hword
    cases hreported
    rw [run_eq, Calculator.evaluate_of_fill_error (TokenStream.fill_of_exit hrest hread hexit)]
    have hlast := report_eq_error (c := { c with stream := { c.stream with source := s₁ } }) hreport
    simp only [Turn.ofResult, hlast]
    exact ⟨trivial, rfl, rfl⟩
  | @endOfInput s s₁ s' fault hread hreport =>
    subst hs hword
    cases hreported
    rw [run_eq, Calculator.evaluate_of_fill_error (TokenStream.fill_of_ended hrest hread)]
    have hlast := report_eq_error (c := { c with stream := { c.stream with source := s₁ } }) hreport
    simp only [Turn.ofResult, hlast]
    exact ⟨trivial, rfl, rfl⟩

end

/-! ## Where a session over a text breaks off -/

/-- The bytes of `k` prompts. -/
def promptBytes (prompt : String) (k : Nat) : List UInt8 :=
  (List.replicate k prompt).flatMap utf8Bytes

/-- The bytes of the first `k` of some texts. -/
def textBytes (texts : List String) (k : Nat) : List UInt8 := (texts.take k).flatMap utf8Bytes

/-- The first of several prompts. -/
private theorem promptBytes_succ (prompt : String) (k : Nat) :
    promptBytes prompt (k + 1) = utf8Bytes prompt ++ promptBytes prompt k := by
  rw [promptBytes, List.replicate_succ, List.flatMap_cons, promptBytes]

/-- The first of several texts. -/
private theorem textBytes_succ (text : String) (texts : List String) (k : Nat) :
    textBytes (text :: texts) (k + 1) = utf8Bytes text ++ textBytes texts k := by
  rw [textBytes, List.take_succ_cons, List.flatMap_cons, textBytes]

/-- No prompt has no bytes. -/
private theorem promptBytes_zero (prompt : String) : promptBytes prompt 0 = [] := rfl

/-- No text has no bytes. -/
private theorem textBytes_zero (texts : List String) : textBytes texts 0 = [] := rfl

/-- One prompt has the bytes of its text. -/
private theorem promptBytes_one (prompt : String) : promptBytes prompt 1 = utf8Bytes prompt := by
  rw [promptBytes_succ, promptBytes_zero, List.append_nil]

/-- One text has its bytes. -/
private theorem textBytes_one (text : String) (texts : List String) :
    textBytes (text :: texts) 1 = utf8Bytes text := by
  rw [textBytes_succ, textBytes_zero, List.append_nil]

/-- Nothing is behind any lines of the empty text. -/
private theorem textBehind_nil (n : Nat) : textBehind n [] = [] := by
  cases n with
  | zero => exact textBehind_zero []
  | succ n => exact textBehind_last List.not_mem_nil n

/-- What the two sinks of a session may take, and what the session is about. -/
structure Limits where
  exitWord : Option (List Char)
  prompt : String
  prompts : Nat
  out : Nat

namespace Limits

/-- The host that still has `text` to hand out, with what its sinks hold. -/
def state (lim : Limits) (text : List Char) (log : List UInt8 × List UInt8) : Separate Prompted :=
  ⟨⟨utf8Bytes (String.ofList text), lim.prompt, ⟨log.1, some lim.prompts⟩⟩,
    ⟨log.2, some lim.out⟩⟩

variable {lim : Limits} {text more : List Char} {log : List UInt8 × List UInt8} {r : LineRead}

/-- A read whose prompt fits is the one without limits. -/
private theorem readLine_of_le (h : (log.1 ++ utf8Bytes lim.prompt).length ≤ lim.prompts)
    (hread : LineSource.readLine ((TextHost.separate lim.prompt).state text log) = (r,
      (TextHost.separate lim.prompt).state more ((TextHost.separate lim.prompt).prompted log))) :
    LineSource.readLine (lim.state text log) =
      (r, lim.state more (log.1 ++ utf8Bytes lim.prompt, log.2)) := by
  -- the read without limits, as one of the source below
  have hunlimited : Prompted.readLine ⟨utf8Bytes (String.ofList text), lim.prompt, ⟨log.1, none⟩⟩ =
      (r, ⟨utf8Bytes (String.ofList more), lim.prompt, ⟨log.1 ++ utf8Bytes lim.prompt, none⟩⟩) := by
    obtain ⟨hr, hstate⟩ := Prod.mk.inj hread
    exact Prod.ext hr (congrArg Separate.source hstate)
  have hlimited : Prompted.readLine (lim.state text log).source = _ :=
    Prompted.readLine_of_write (Sink.write_of_le h) (utf8Bytes (String.ofList text)) log.1
  rw [hunlimited] at hlimited
  show Separate.readLine (lim.state text log) = _
  rw [Separate.readLine, show LineSource.readLine (lim.state text log).source = _ from hlimited]
  rfl

/-- When the prompt does not fit, no line is handed out. -/
private theorem readLine_of_lt (hlog : log.1.length ≤ lim.prompts)
    (h : lim.prompts < (log.1 ++ utf8Bytes lim.prompt).length) :
    LineSource.readLine (lim.state text log) = (.failed .writerFull,
      lim.state text ((log.1 ++ utf8Bytes lim.prompt).take lim.prompts, log.2)) := by
  have hlimited : Prompted.readLine (lim.state text log).source = _ :=
    Prompted.readLine_of_write_error (Sink.write_of_lt hlog h) (utf8Bytes (String.ofList text))
  show Separate.readLine (lim.state text log) = _
  rw [Separate.readLine, show LineSource.readLine (lim.state text log).source = _ from hlimited]
  rfl

/-- A report that fits is the one without limits. -/
private theorem report_of_le {report : String} (h : (log.2 ++ utf8Bytes report).length ≤ lim.out) :
    Host.report report (lim.state text log) =
      (.ok (), lim.state text (log.1, log.2 ++ utf8Bytes report)) := by
  show Separate.report report (lim.state text log) = _
  rw [Separate.report, show (lim.state text log).out.write report = _ from Sink.write_of_le h]
  rfl

/-- Of a report that does not fit, the sink stores as much as it takes. -/
private theorem report_of_lt {report : String} (hlog : log.2.length ≤ lim.out)
    (h : lim.out < (log.2 ++ utf8Bytes report).length) :
    Host.report report (lim.state text log) = (.error .writerFull,
      lim.state text (log.1, (log.2 ++ utf8Bytes report).take lim.out)) := by
  show Separate.report report (lim.state text log) = _
  rw [Separate.report, show (lim.state text log).out.write report = _ from Sink.write_of_lt hlog h]
  rfl

/-- The dialogue with a host that has `text` to hand out and holds `log` in its sinks.  Either all
    that is written fits, or a prompt does not, or a report or the farewell does not; `k` rounds of
    a prompt and a report have been gone through by then. -/
inductive Course (lim : Limits) (text : List Char) (log : List UInt8 × List UInt8)
    (lines : List (List Char)) (reports : List String) (ending : SessionEnd) : Prop
  | completes
      (hprompts : (log.1 ++ promptBytes lim.prompt (reports.length + 1)).length ≤ lim.prompts)
      (hout : (log.2 ++ textBytes (reports ++ [farewell]) (reports.length + 1)).length ≤ lim.out)
      (h : Dialogue lim.exitWord (lim.state text log) lines reports ending
        (lim.state (leftUnread lim.exitWord text)
          (log.1 ++ promptBytes lim.prompt (reports.length + 1),
            log.2 ++ textBytes (reports ++ [farewell]) (reports.length + 1))))
  | promptBreaks (k : Nat) (hk : k ≤ lines.length)
      (hprompts : (log.1 ++ promptBytes lim.prompt k).length ≤ lim.prompts)
      (hfull : lim.prompts < (log.1 ++ promptBytes lim.prompt (k + 1)).length)
      (hout : (log.2 ++ textBytes (reports ++ [farewell]) k).length ≤ lim.out)
      (h : Broken lim.exitWord (lim.state text log) (lines.take k) (reports.take k) .writerFull
        (lim.state (textBehind k text)
          ((log.1 ++ promptBytes lim.prompt (k + 1)).take lim.prompts,
            log.2 ++ textBytes (reports ++ [farewell]) k)))
  | reportBreaks (k : Nat) (hk : k ≤ lines.length)
      (hprompts : (log.1 ++ promptBytes lim.prompt (k + 1)).length ≤ lim.prompts)
      (hout : (log.2 ++ textBytes (reports ++ [farewell]) k).length ≤ lim.out)
      (hfull : lim.out < (log.2 ++ textBytes (reports ++ [farewell]) (k + 1)).length)
      (h : Broken lim.exitWord (lim.state text log) (lines.take (k + 1)) (reports.take (k + 1))
        .writerFull
        (lim.state (textBehind (k + 1) text)
          (log.1 ++ promptBytes lim.prompt (k + 1),
            (log.2 ++ textBytes (reports ++ [farewell]) (k + 1)).take lim.out)))

/-- A prompt that does not fit breaks the dialogue off before a line is read. -/
private theorem course_of_prompt {lines : List (List Char)} {reports : List String}
    {ending : SessionEnd} (hprompts : log.1.length ≤ lim.prompts) (hout : log.2.length ≤ lim.out)
    (hfull : lim.prompts < (log.1 ++ utf8Bytes lim.prompt).length) :
    Course lim text log lines reports ending := by
  refine .promptBreaks 0 (Nat.zero_le _) ?_ ?_ ?_ ?_
  · rwa [promptBytes_zero, List.append_nil]
  · rwa [promptBytes_one]
  · rwa [textBytes_zero, List.append_nil]
  · rw [promptBytes_one, textBytes_zero, List.append_nil, textBehind_zero]
    exact .read (readLine_of_lt hprompts hfull)

/-- The last round: the host hands out the exit word or has no more lines. -/
private theorem course_of_finish {ending : SessionEnd}
    (hprompts : log.1.length ≤ lim.prompts) (hout : log.2.length ≤ lim.out)
    (hread : LineSource.readLine ((TextHost.separate lim.prompt).state text log) =
      (r, (TextHost.separate lim.prompt).state more ((TextHost.separate lim.prompt).prompted log)))
    (hend : r = .ended ∧ ending = .endOfInput ∨
      ∃ line, r = .line line ∧ lim.exitWord = some line ∧ ending = .exit)
    (hbehind : textBehind 1 text = more) (hleft : leftUnread lim.exitWord text = more) :
    Course lim text log [] [] ending := by
  by_cases hfits : (log.1 ++ utf8Bytes lim.prompt).length ≤ lim.prompts
  · have hlimited := readLine_of_le hfits hread
    -- the prompt is written; now the farewell fits or it does not
    by_cases hlast : (log.2 ++ utf8Bytes farewell).length ≤ lim.out
    · refine .completes (by rwa [List.length_nil, promptBytes_one])
        (by rwa [List.nil_append, List.length_nil, textBytes_one]) ?_
      rw [List.nil_append, List.length_nil, promptBytes_one, textBytes_one, hleft]
      rcases hend with ⟨rfl, rfl⟩ | ⟨line, rfl, hword, rfl⟩
      · exact .endOfInput hlimited (report_of_le hlast)
      · exact .exit hlimited hword (report_of_le hlast)
    · rw [Nat.not_le] at hlast
      refine .reportBreaks 0 (Nat.zero_le _) (by rwa [promptBytes_one])
        (by rwa [textBytes_zero, List.append_nil]) (by rwa [List.nil_append, textBytes_one]) ?_
      rw [List.nil_append, promptBytes_one, textBytes_one, hbehind]
      rcases hend with ⟨rfl, rfl⟩ | ⟨line, rfl, hword, rfl⟩
      · exact .endOfInput hlimited (report_of_lt hout hlast)
      · exact .exit hlimited hword (report_of_lt hout hlast)
  · exact course_of_prompt hprompts hout (Nat.not_le.1 hfits)

/-- A round with a line, and the course of the others. -/
private theorem course_of_line {line : List Char} {lines : List (List Char)} {report : String}
    {reports : List String} {ending : SessionEnd}
    (hprompts : log.1.length ≤ lim.prompts) (hout : log.2.length ≤ lim.out)
    (hread : LineSource.readLine ((TextHost.separate lim.prompt).state text log) =
      (.line line,
        (TextHost.separate lim.prompt).state more ((TextHost.separate lim.prompt).prompted log)))
    (hword : lim.exitWord ≠ some line)
    (hbehind : ∀ k, textBehind (k + 1) text = textBehind k more)
    (hleft : leftUnread lim.exitWord text = leftUnread lim.exitWord more)
    (hothers : ∀ log, log.1.length ≤ lim.prompts → log.2.length ≤ lim.out →
      Course lim more log lines reports ending) :
    Course lim text log (line :: lines) (report :: reports) ending := by
  by_cases hfits : (log.1 ++ utf8Bytes lim.prompt).length ≤ lim.prompts
  · have hlimited := readLine_of_le hfits hread
    by_cases hlast : (log.2 ++ utf8Bytes report).length ≤ lim.out
    · have hreport : Host.report report (lim.state more (log.1 ++ utf8Bytes lim.prompt, log.2)) =
          (.ok (), lim.state more (log.1 ++ utf8Bytes lim.prompt, log.2 ++ utf8Bytes report)) :=
        report_of_le hlast
      -- what has been written counts as one round more
      have hround (k : Nat) : log.1 ++ promptBytes lim.prompt (k + 1) =
          log.1 ++ utf8Bytes lim.prompt ++ promptBytes lim.prompt k := by
        rw [promptBytes_succ, List.append_assoc]
      have htexts (k : Nat) : log.2 ++ textBytes (report :: reports ++ [farewell]) (k + 1) =
          log.2 ++ utf8Bytes report ++ textBytes (reports ++ [farewell]) k := by
        rw [List.cons_append, textBytes_succ, List.append_assoc]
      -- the round fits, so the dialogue ends as that of the other lines does, one round later
      cases hothers (log.1 ++ utf8Bytes lim.prompt, log.2 ++ utf8Bytes report) hfits hlast with
      | completes hp ho h =>
        refine .completes ?_ ?_ ?_
        · rwa [List.length_cons, hround]
        · rwa [List.length_cons, htexts]
        · rw [List.length_cons, hround, htexts, hleft]
          exact .line hlimited hword hreport h
      | promptBreaks k hk hp hfull ho h =>
        refine .promptBreaks (k + 1) (Nat.succ_le_succ hk) ?_ ?_ ?_ ?_
        · rwa [hround]
        · rwa [hround]
        · rwa [htexts]
        · rw [hround, htexts, hbehind, List.take_succ_cons, List.take_succ_cons]
          exact .line hlimited hword hreport h
      | reportBreaks k hk hp ho hfull h =>
        refine .reportBreaks (k + 1) (Nat.succ_le_succ hk) ?_ ?_ ?_ ?_
        · rwa [hround]
        · rwa [htexts]
        · rwa [htexts]
        · rw [hround, htexts, hbehind, List.take_succ_cons, List.take_succ_cons]
          exact .line hlimited hword hreport h
    · rw [Nat.not_le] at hlast
      refine .reportBreaks 0 (Nat.zero_le _) (by rwa [promptBytes_one])
        (by rwa [textBytes_zero, List.append_nil]) (by rwa [List.cons_append, textBytes_one]) ?_
      rw [List.cons_append, promptBytes_one, textBytes_one, hbehind, textBehind_zero]
      exact .report hlimited hword (report_of_lt hout hlast)
  · exact course_of_prompt hprompts hout (Nat.not_le.1 hfits)

/-- The course of the dialogue with a host that reads a text. -/
theorem course (lim : Limits) (text : List Char) {reports : List String}
    (hlength : reports.length = (linesToExit lim.exitWord (textLines text)).length)
    (log : List UInt8 × List UInt8) (hprompts : log.1.length ≤ lim.prompts)
    (hout : log.2.length ≤ lim.out) :
    Course lim text log (linesToExit lim.exitWord (textLines text)) reports
      (endingOf lim.exitWord (textLines text)) := by
  -- a used-up text can only finish
  have hnil : ∀ log : List UInt8 × List UInt8, log.1.length ≤ lim.prompts →
      log.2.length ≤ lim.out → Course lim [] log [] [] .endOfInput := fun log hp ho =>
    course_of_finish hp ho ((TextHost.separate lim.prompt).readLine_nil log) (Or.inl ⟨rfl, rfl⟩)
      (textBehind_last List.not_mem_nil 0) leftUnread_nil
  induction text using text_induction generalizing reports log with
  | nil =>
    rw [textLines_nil] at hlength ⊢
    obtain rfl : reports = [] := List.length_eq_zero_iff.1 hlength
    rw [endingOf_nil]
    exact hnil log hprompts hout
  | last line hne hline =>
    have hread := (TextHost.separate lim.prompt).readLine_last line log hne hline
    rw [textLines_last hne hline] at hlength ⊢
    -- the exit word finishes, any other line is one more round
    by_cases hword : lim.exitWord = some line
    · rw [linesToExit_cons_of_eq hword] at hlength ⊢
      obtain rfl : reports = [] := List.length_eq_zero_iff.1 hlength
      rw [endingOf_cons_of_eq hword]
      exact course_of_finish hprompts hout hread (Or.inr ⟨line, rfl, hword, rfl⟩)
        (textBehind_last hline 0) (leftUnread_last hline)
    · rw [linesToExit_cons_of_ne hword] at hlength ⊢
      obtain ⟨report, rfl⟩ : ∃ report, reports = [report] := List.length_eq_one_iff.1 hlength
      rw [endingOf_cons_of_ne hword, endingOf_nil]
      refine course_of_line hprompts hout hread hword (fun k => ?_) ?_ hnil
      · rw [textBehind_last hline, textBehind_nil]
      · rw [leftUnread_last hline, leftUnread_nil]
  | newline front more hfront ih =>
    have hread := (TextHost.separate lim.prompt).readLine_newline front more log hfront
    rw [textLines_newline hfront] at hlength ⊢
    by_cases hword : lim.exitWord = some (dropReturn front)
    · rw [linesToExit_cons_of_eq hword] at hlength ⊢
      obtain rfl : reports = [] := List.length_eq_zero_iff.1 hlength
      rw [endingOf_cons_of_eq hword]
      refine course_of_finish hprompts hout hread (Or.inr ⟨_, rfl, hword, rfl⟩) ?_
        (leftUnread_newline_of_eq hfront more hword)
      rw [textBehind_newline hfront, textBehind_zero]
    · rw [linesToExit_cons_of_ne hword] at hlength ⊢
      obtain ⟨report, others, rfl⟩ := List.exists_cons_of_length_eq_add_one hlength
      rw [endingOf_cons_of_ne hword]
      exact course_of_line hprompts hout hread hword (textBehind_newline hfront more)
        (leftUnread_newline_of_ne hfront more hword) fun log hp ho =>
          ih (Nat.succ.inj hlength) log hp ho

end Limits

/-! ## A session with limits and one without -/

/-- Fewer prompts are the beginning of more. -/
private theorem promptBytes_prefix (prompt : String) {k l : Nat} (h : k ≤ l) :
    promptBytes prompt k <+: promptBytes prompt l := by
  obtain ⟨d, rfl⟩ := Nat.exists_eq_add_of_le h
  refine ⟨promptBytes prompt d, ?_⟩
  rw [promptBytes, promptBytes, promptBytes, ← List.flatMap_append, List.replicate_append_replicate]

/-- Fewer texts are the beginning of more. -/
private theorem textBytes_prefix (texts : List String) {k l : Nat} (h : k ≤ l) :
    textBytes texts k <+: textBytes texts l := by
  have hprefix : texts.take k <+: texts.take l := List.take_prefix_take_left h
  obtain ⟨more, hmore⟩ := hprefix
  refine ⟨more.flatMap utf8Bytes, ?_⟩
  rw [textBytes, textBytes, ← hmore, List.flatMap_append]

/-- What is taken from the beginning is taken from the whole. -/
private theorem take_eq_of_prefix {front whole : List UInt8} (h : front <+: whole) {n : Nat}
    (hn : n ≤ front.length) : front.take n = whole.take n := by
  obtain ⟨more, rfl⟩ := h
  rw [List.take_append_of_le_length hn]

/-- The first reports on some lines are the reports on the first lines. -/
private theorem Reported.take {t t' : SymbolTable} {lines : List (List Char)}
    {reports : List String} (h : Reported options t lines reports t') (k : Nat) :
    ∃ t'', Reported options t (lines.take k) (reports.take k) t'' := by
  -- along the lines, of which `k` are kept
  induction h generalizing k with
  | nil t =>
    rw [List.take_nil, List.take_nil]
    exact ⟨t, .nil t⟩
  | accepted hvalue _ ih =>
    cases k with
    | zero => exact ⟨_, .nil _⟩
    | succ k =>
      obtain ⟨t'', h⟩ := ih k
      exact ⟨t'', .accepted hvalue h⟩
  | refused hdiagnostic _ ih =>
    cases k with
    | zero => exact ⟨_, .nil _⟩
    | succ k =>
      obtain ⟨t'', h⟩ := ih k
      exact ⟨t'', .refused hdiagnostic h⟩

/-- A session over a text, with prompts and reports going to sinks of their own. -/
def runOver (options : SessionOptions) (exitWord : Option (List Char)) (prompt : String)
    (text : List Char) (t : SymbolTable) (promptLimit outLimit : Option Nat) :
    Except Fault SessionEnd × Calculator (Separate Prompted) :=
  run options ⟨TokenStream.new
    ⟨⟨utf8Bytes (String.ofList text), prompt, Sink.new promptLimit⟩, Sink.new outLimit⟩ exitWord, t⟩

/-- The prompts that have been written. -/
def promptsOf (c : Calculator (Separate Prompted)) : List UInt8 := c.source.source.sink.written

/-- The reports that have been written. -/
def reportsOf (c : Calculator (Separate Prompted)) : List UInt8 := c.source.out.written

/-- The input that has not been read. -/
def unreadOf (c : Calculator (Separate Prompted)) : List UInt8 := c.source.source.unread

variable {t t' : SymbolTable} {text : List Char} {reports : List String}

/-- A session without limits writes a prompt and a report for each line, and one more prompt and the
    farewell. -/
private theorem runOver_unlimited {exitWord : Option (List Char)} (prompt : String)
    (hreported : Reported options t (linesToExit exitWord (textLines text)) reports t') :
    let free := runOver options exitWord prompt text t none none
    let rounds := (linesToExit exitWord (textLines text)).length + 1
    free.1 = .ok (endingOf exitWord (textLines text)) ∧ free.2.symbols = t' ∧
      free.2.source = ⟨⟨utf8Bytes (String.ofList (leftUnread exitWord text)), prompt,
        ⟨promptBytes prompt rounds, none⟩⟩, ⟨textBytes (reports ++ [farewell]) rounds, none⟩⟩ := by
  intro free rounds
  obtain ⟨hend, hsource, hsymbols⟩ :=
    (TextHost.separate prompt).run_eq_logAfter hreported ([], [])
  -- there are as many texts as rounds, so all of them are taken
  have htexts : textBytes (reports ++ [farewell]) rounds =
      (reports ++ [farewell]).flatMap utf8Bytes := by
    rw [textBytes, List.take_of_length_le]
    simp [rounds, hreported.length_eq]
  refine ⟨hend, hsymbols, hsource.trans ?_⟩
  rw [TextHost.logAfter_separate, hreported.length_eq, htexts]
  rfl

/-- A session whose prompt number `k + 1` does not fit has read `k` lines. -/
structure StopsAtPrompt (lim : Limits) (options : SessionOptions) (t : SymbolTable)
    (text : List Char) (reports : List String) (k : Nat) (c : Calculator (Separate Prompted)) :
    Prop where
  prompts_fit : (promptBytes lim.prompt k).length ≤ lim.prompts
  reports_fit : (textBytes (reports ++ [farewell]) k).length ≤ lim.out
  full : lim.prompts < (promptBytes lim.prompt (k + 1)).length
  prompts_eq : promptsOf c = (promptBytes lim.prompt (k + 1)).take lim.prompts
  reports_eq : reportsOf c = textBytes (reports ++ [farewell]) k
  unread_eq : unreadOf c = utf8Bytes (String.ofList (textBehind k text))
  reported : Reported options t ((linesToExit lim.exitWord (textLines text)).take k)
    (reports.take k) c.symbols

/-- A session whose report number `k + 1` does not fit, which may be the farewell, has read `k + 1`
    lines, or has found no more of them. -/
structure StopsAtReport (lim : Limits) (options : SessionOptions) (t : SymbolTable)
    (text : List Char) (reports : List String) (k : Nat) (c : Calculator (Separate Prompted)) :
    Prop where
  prompts_fit : (promptBytes lim.prompt (k + 1)).length ≤ lim.prompts
  reports_fit : (textBytes (reports ++ [farewell]) k).length ≤ lim.out
  full : lim.out < (textBytes (reports ++ [farewell]) (k + 1)).length
  prompts_eq : promptsOf c = promptBytes lim.prompt (k + 1)
  reports_eq : reportsOf c = (textBytes (reports ++ [farewell]) (k + 1)).take lim.out
  unread_eq : unreadOf c = utf8Bytes (String.ofList (textBehind (k + 1) text))
  reported : Reported options t ((linesToExit lim.exitWord (textLines text)).take (k + 1))
    (reports.take (k + 1)) c.symbols

/-- A session with limits writes all, or it stops at a prompt or at a report. -/
private theorem runOver_limited (lim : Limits)
    (hreported : Reported options t (linesToExit lim.exitWord (textLines text)) reports t') :
    let capped := runOver options lim.exitWord lim.prompt text t (some lim.prompts) (some lim.out)
    let rounds := (linesToExit lim.exitWord (textLines text)).length + 1
    ((promptBytes lim.prompt rounds).length ≤ lim.prompts ∧
        (textBytes (reports ++ [farewell]) rounds).length ≤ lim.out ∧
        capped.1 = .ok (endingOf lim.exitWord (textLines text)) ∧ capped.2.symbols = t' ∧
        capped.2.source = lim.state (leftUnread lim.exitWord text)
          (promptBytes lim.prompt rounds, textBytes (reports ++ [farewell]) rounds)) ∨
      capped.1 = .error .writerFull ∧ ∃ k < rounds,
        StopsAtPrompt lim options t text reports k capped.2 ∨
          StopsAtReport lim options t text reports k capped.2 := by
  intro capped rounds
  let c : Calculator (Separate Prompted) :=
    ⟨TokenStream.new (lim.state text ([], [])) lim.exitWord, t⟩
  have hlines : ∀ line ∈ linesToExit lim.exitWord (textLines text), '\n' ∉ line := by
    intro line hline
    exact newline_not_mem_of_mem_textLines ((List.takeWhile_prefix _).subset hline)
  -- no line that is read has a line feed in it
  have hsome (k : Nat) : ∀ line ∈ (linesToExit lim.exitWord (textLines text)).take k, '\n' ∉ line :=
    fun line hline => hlines line (List.take_subset k _ hline)
  cases lim.course text hreported.length_eq ([], []) (Nat.zero_le _) (Nat.zero_le _) with
  | completes hp ho h =>
    obtain ⟨hend, hsource, hsymbols⟩ := run_of_dialogue (c := c) h hreported rfl hlines
    rw [hreported.length_eq] at hp ho hsource
    exact Or.inl ⟨hp, ho, hend, hsymbols, hsource⟩
  | promptBreaks k hk hp hfull ho h =>
    obtain ⟨t'', hfirst⟩ := hreported.take k
    obtain ⟨hend, hsource, rfl⟩ := run_of_broken (c := c) h hfirst rfl (hsome k)
    refine Or.inr ⟨hend, k, Nat.lt_succ_of_le hk, Or.inl ⟨hp, ho, hfull, ?_, ?_, ?_, hfirst⟩⟩
    · exact congrArg (fun s => s.source.sink.written) hsource
    · exact congrArg (fun s => s.out.written) hsource
    · exact congrArg (fun s => s.source.unread) hsource
  | reportBreaks k hk hp ho hfull h =>
    obtain ⟨t'', hfirst⟩ := hreported.take (k + 1)
    obtain ⟨hend, hsource, rfl⟩ := run_of_broken (c := c) h hfirst rfl (hsome (k + 1))
    refine Or.inr ⟨hend, k, Nat.lt_succ_of_le hk, Or.inr ⟨hp, ho, hfull, ?_, ?_, ?_, hfirst⟩⟩
    · exact congrArg (fun s => s.source.sink.written) hsource
    · exact congrArg (fun s => s.out.written) hsource
    · exact congrArg (fun s => s.source.unread) hsource

/-- A session with limits does as one without, if all that is written fits.  Otherwise it stops at
    the first write that does not: both sinks hold the beginning of what would have been written,
    the one that failed as much of it as it takes, what has been read are the lines up to there, and
    the variables are those behind the lines that were evaluated. -/
theorem run_full_sinks (options : SessionOptions) (exitWord : Option (List Char)) (prompt : String)
    (text : List Char) (t : SymbolTable) (m n : Nat) :
    let free := runOver options exitWord prompt text t none none
    let capped := runOver options exitWord prompt text t (some m) (some n)
    let rounds := (linesToExit exitWord (textLines text)).length + 1
    let fits := (promptsOf free.2).length ≤ m ∧ (reportsOf free.2).length ≤ n
    ∃ reports t', Reported options t (linesToExit exitWord (textLines text)) reports t' ∧
      promptsOf free.2 = promptBytes prompt rounds ∧
      reportsOf free.2 = textBytes (reports ++ ["\nBye\n"]) rounds ∧
      (fits → capped.1 = free.1 ∧ capped.2.symbols = free.2.symbols ∧
        promptsOf capped.2 = promptsOf free.2 ∧ reportsOf capped.2 = reportsOf free.2 ∧
        unreadOf capped.2 = unreadOf free.2) ∧
      (¬ fits → capped.1 = .error .writerFull ∧ promptsOf capped.2 <+: promptsOf free.2 ∧
        reportsOf capped.2 <+: reportsOf free.2 ∧
        ∃ k < rounds,
          StopsAtPrompt ⟨exitWord, prompt, m, n⟩ options t text reports k capped.2 ∧
              promptsOf capped.2 = (promptsOf free.2).take m ∨
            StopsAtReport ⟨exitWord, prompt, m, n⟩ options t text reports k capped.2 ∧
              reportsOf capped.2 = (reportsOf free.2).take n) := by
  intro free capped rounds fits
  obtain ⟨reports, t', hreported⟩ :=
    exists_reported options t (linesToExit exitWord (textLines text))
  obtain ⟨hend, hsymbols, hsource⟩ := runOver_unlimited prompt hreported
  have hprompts : promptsOf free.2 = promptBytes prompt rounds :=
    congrArg (fun s => s.source.sink.written) hsource
  have hreports : reportsOf free.2 = textBytes (reports ++ [farewell]) rounds :=
    congrArg (fun s => s.out.written) hsource
  refine ⟨reports, t', hreported, hprompts, hreports, ?_⟩
  rcases runOver_limited ⟨exitWord, prompt, m, n⟩ hreported with
    ⟨hp, ho, hend', hsymbols', hsource'⟩ | ⟨herror, k, hk, hstops⟩
  · have hfits : fits := by
      simp only [fits, hprompts, hreports]
      exact ⟨hp, ho⟩
    refine ⟨fun _ => ⟨hend'.trans hend.symm, hsymbols'.trans hsymbols.symm, ?_, ?_, ?_⟩,
      fun hnot => absurd hfits hnot⟩
    · exact (congrArg (fun s => s.source.sink.written) hsource').trans hprompts.symm
    · exact (congrArg (fun s => s.out.written) hsource').trans hreports.symm
    · exact (congrArg (fun s => s.source.unread) hsource').trans
        (congrArg (fun s => s.source.unread) hsource).symm
  · have hpk := promptBytes_prefix prompt (Nat.succ_le_of_lt hk)
    have hrk := textBytes_prefix (reports ++ [farewell]) (Nat.succ_le_of_lt hk)
    rcases hstops with hstops | hstops
    · have htake := take_eq_of_prefix hpk hstops.full.le
      refine ⟨fun hfits => ?_, fun _ => ⟨herror, ?_, ?_, k, hk, Or.inl ⟨hstops, ?_⟩⟩⟩
      · -- the prompt that did not fit is one of those of the other session
        have hlt : m < (promptBytes prompt (k + 1)).length := hstops.full
        have hle : (promptBytes prompt (k + 1)).length ≤ (promptBytes prompt rounds).length :=
          hpk.length_le
        have hm := hfits.1
        rw [hprompts] at hm
        omega
      · rw [hstops.prompts_eq, hprompts]
        exact (List.take_prefix _ _).trans hpk
      · rw [hstops.reports_eq, hreports]
        exact textBytes_prefix _ hk.le
      · rw [hstops.prompts_eq, hprompts]
        exact htake
    · have htake := take_eq_of_prefix hrk hstops.full.le
      refine ⟨fun hfits => ?_, fun _ => ⟨herror, ?_, ?_, k, hk, Or.inr ⟨hstops, ?_⟩⟩⟩
      · have hlt : n < (textBytes (reports ++ [farewell]) (k + 1)).length := hstops.full
        have hle : (textBytes (reports ++ [farewell]) (k + 1)).length ≤
            (textBytes (reports ++ [farewell]) rounds).length := hrk.length_le
        have hn := hfits.2
        rw [hreports] at hn
        omega
      · rw [hstops.prompts_eq, hprompts]
        exact hpk
      · rw [hstops.reports_eq, hreports]
        exact (List.take_prefix _ _).trans hrk
      · rw [hstops.reports_eq, hreports]
        exact htake

end Session

end DeskCalc
