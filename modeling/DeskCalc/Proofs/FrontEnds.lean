import DeskCalc.Editing.KeyEditor
import DeskCalc.Proofs.Transcript

/-!
# Front ends deliver the same session

A queue of lines, a text behind a prompt and a keyboard hand lines out in their own ways.  When they
deliver the same lines, a session over one of them goes as it does over the others: two calculators
that stand before the same lines with the same variables stay so, turn after turn.

## Key results

- `Session.outcome_eq_of_stands`: the outcome of a session depends on the lines that are delivered
- `LineQueue.delivers`, `Prompted.delivers`, `KeyEditor.delivers`: what the front ends deliver
- `textLines_of_writtenAs`: a text in which lines are written, with either end of line, has these
  lines
- `Session.run_front_ends`: the sessions over the three front ends
-/

namespace DeskCalc

/-- The source hands out these lines and has no more. -/
inductive LineSource.Delivers {σ : Type} [LineSource σ] : σ → List (List Char) → Prop
  | ended {s s' : σ} (hread : readLine s = (.ended, s')) : Delivers s []
  | line {s s' : σ} {line : List Char} {lines : List (List Char)}
      (hread : readLine s = (.line line, s')) (h : Delivers s' lines) : Delivers s (line :: lines)

namespace Session

open Calculator (ofLine)
open LineSource (Delivers)

/-! ## Sessions over the same lines -/

section

variable {σ : Type} [FiniteSource σ]

/-- What can be seen of a session that reports to a sink of its own: its ending, the sink and the
    variables. -/
def outcome (options : SessionOptions) (c : Calculator (Separate σ)) :
    Except Fault SessionEnd × Sink × SymbolTable :=
  let (result, last) := run options c
  (result, last.source.out, last.symbols)

/-- A calculator stands before these lines. -/
structure Stands (c : Calculator (Separate σ)) (exitWord : Option (List Char))
    (lines : List (List Char)) (out : Sink) (t : SymbolTable) : Prop where
  delivers : Delivers c.source.source lines
  rest : c.stream.cursor.rest = []
  exitWord : c.stream.exitWord = exitWord
  out : c.source.out = out
  symbols : c.symbols = t

variable {c : Calculator (Separate σ)} {exitWord : Option (List Char)} {line : List Char}
  {lines : List (List Char)} {out : Sink} {t : SymbolTable}

/-- A source with a sink of its own hands out what the source does. -/
private theorem readLine_of_readLine {s : Separate σ} {r : LineRead} {s' : σ}
    (h : LineSource.readLine s.source = (r, s')) :
    LineSource.readLine s = (r, { s with source := s' }) := by
  show Separate.readLine s = _
  rw [Separate.readLine, h]

/-- A line other than the exit word is answered as if it were the only one, and the calculator
    stands before the lines behind it. -/
private theorem Stands.evaluate (h : Stands c exitWord (line :: lines) out t) (hline : '\n' ∉ line)
    (hword : exitWord ≠ some line) :
    (c.evaluate false).1 = ((ofLine t line).evaluate false).1 ∧
      Stands (c.evaluate false).2 exitWord lines out
        ((ofLine t line).evaluate false).2.symbols := by
  obtain ⟨hdelivers, hrest, rfl, rfl, rfl⟩ := h
  cases hdelivers with
  | @line _ s' _ _ hread hdelivers =>
    have hread' := readLine_of_readLine hread
    have hawaits : c.Awaits line := ⟨hrest, ⟨_, hread'⟩, hword⟩
    obtain ⟨hreply, hsymbols⟩ := hawaits.evaluate_eq_ofLine hline false
    obtain ⟨-, hsource, hexit, hnil⟩ := hawaits.evaluate_settles hline false
    simp only [hread'] at hsource
    refine ⟨hreply, ?_, hnil, hexit, ?_, hsymbols⟩
    · rw [hsource]
      exact hdelivers
    · rw [hsource]

/-- A report changes the sink only. -/
private theorem Stands.report (h : Stands c exitWord lines out t) (text : String) :
    (report c text).1 = (out.write text).1 ∧
      Stands (report c text).2 exitWord lines (out.write text).2 t := by
  obtain ⟨hdelivers, hrest, rfl, rfl, rfl⟩ := h
  exact ⟨rfl, hdelivers, hrest, rfl, rfl, rfl⟩

/-- What is seen of a session that says farewell. -/
private theorem outcome_of_finish {options : SessionOptions} {ending : SessionEnd}
    (hturn : Turn.ofResult (c.evaluate false).1.result = .finish ending)
    (hsource : (c.evaluate false).2.source.out = out)
    (hsymbols : (c.evaluate false).2.symbols = t) :
    outcome options c =
      ((out.write farewell).1.map fun _ => ending, (out.write farewell).2, t) := by
  subst hsource hsymbols
  rw [outcome, run_eq, hturn]
  have hreport : Session.report (c.evaluate false).2 farewell =
      (((c.evaluate false).2.source.out.write farewell).1, (c.evaluate false).2.withSource
        { (c.evaluate false).2.source with
          out := ((c.evaluate false).2.source.out.write farewell).2 }) := rfl
  simp only [hreport]
  cases hwrite : ((c.evaluate false).2.source.out.write farewell).1 with
  | ok => rfl
  | error fault => rfl

/-- The end of the lines, and the exit word, end the session. -/
private theorem Stands.outcome_of_end (options : SessionOptions) (h : Stands c exitWord lines out t)
    (hend : lines = [] ∨ ∃ line, lines.head? = some line ∧ exitWord = some line) :
    outcome options c =
      ((out.write farewell).1.map fun _ => endingOf exitWord lines, (out.write farewell).2, t) := by
  obtain ⟨hdelivers, hrest, rfl, rfl, rfl⟩ := h
  -- the source has ended, or the line that it hands out is the exit word
  cases hdelivers with
  | ended hread =>
    have hfill := TokenStream.fill_of_ended hrest (readLine_of_readLine hread)
    have heq := Calculator.evaluate_of_fill_error hfill false
    rw [endingOf_nil]
    exact outcome_of_finish (heq ▸ rfl) (heq ▸ rfl) (heq ▸ rfl)
  | @line _ s' line lines hread hdelivers =>
    have hword : c.stream.exitWord = some line := by
      simpa using hend
    have hfill := TokenStream.fill_of_exit hrest (readLine_of_readLine hread) hword
    have heq := Calculator.evaluate_of_fill_error hfill false
    rw [endingOf_cons_of_eq hword]
    exact outcome_of_finish (heq ▸ rfl) (heq ▸ rfl) (heq ▸ rfl)

/-- A line that is evaluated is reported on. -/
private theorem exists_turn_ofLine (t : SymbolTable) (line : List Char) :
    ∃ result, Turn.ofResult ((ofLine t line).evaluate false).1.result = .line result := by
  -- a line that is there cannot end the session, so it is accepted or refused
  rcases Calculator.result_ofLine t line false with ⟨v, hv⟩ | ⟨d, hd⟩
  · refine ⟨.ok v, ?_⟩
    rw [hv]
    rfl
  · refine ⟨.error d, ?_⟩
    rw [hd]
    rfl

/-- A line other than the exit word is reported on; if the sink takes the report, the session goes
    on before the lines behind it. -/
private theorem Stands.outcome_of_line (options : SessionOptions)
    (h : Stands c exitWord (line :: lines) out t) (hline : '\n' ∉ line)
    (hword : exitWord ≠ some line) {result : Except Diagnostic Float}
    (hturn : Turn.ofResult ((ofLine t line).evaluate false).1.result = .line result) :
    let t' := ((ofLine t line).evaluate false).2.symbols
    let write := out.write (lineReport options result)
    ∃ next, Stands (σ := σ) next exitWord lines write.2 t' ∧
      outcome options c = match write.1 with
        | .ok () => outcome options next
        | .error fault => (.error fault, write.2, t') := by
  intro t' write
  obtain ⟨hreply, hnext⟩ := h.evaluate hline hword
  obtain ⟨hwrite, hafter⟩ := hnext.report (lineReport options result)
  refine ⟨_, hafter, ?_⟩
  rw [← hreply] at hturn
  rw [outcome, run_eq, hturn]
  simp only
  generalize hreport : Session.report (c.evaluate false).2 (lineReport options result) = reported
    at hwrite hafter ⊢
  obtain ⟨written, next⟩ := reported
  simp only at hwrite hafter
  rw [show write.1 = written from hwrite.symm]
  cases written with
  | ok => rfl
  | error fault =>
    simp only
    rw [hafter.out, hafter.symbols]

end

/-- The outcome of a session depends on the lines before which its calculator stands, the sink and
    the variables, and on nothing else. -/
theorem outcome_eq_of_stands {σ τ : Type} [FiniteSource σ] [FiniteSource τ]
    (options : SessionOptions)
    {c : Calculator (Separate σ)} {c' : Calculator (Separate τ)} {exitWord : Option (List Char)}
    {lines : List (List Char)} {out : Sink} {t : SymbolTable}
    (hlines : ∀ line ∈ lines, '\n' ∉ line) (h : Stands c exitWord lines out t)
    (h' : Stands c' exitWord lines out t) : outcome options c = outcome options c' := by
  induction lines generalizing c c' out t with
  | nil => rw [h.outcome_of_end options (.inl rfl), h'.outcome_of_end options (.inl rfl)]
  | cons line lines ih =>
    by_cases hword : exitWord = some line
    · rw [h.outcome_of_end options (.inr ⟨line, rfl, hword⟩),
        h'.outcome_of_end options (.inr ⟨line, rfl, hword⟩)]
    · -- both report the same, and stand before the other lines if the sink takes the report
      have hline : '\n' ∉ line := hlines line List.mem_cons_self
      obtain ⟨result, hturn⟩ := exists_turn_ofLine t line
      obtain ⟨next, hnext, heq⟩ := h.outcome_of_line options hline hword hturn
      obtain ⟨next', hnext', heq'⟩ := h'.outcome_of_line options hline hword hturn
      have hothers : outcome options next = outcome options next' :=
        ih (fun l hl => hlines l (List.mem_cons_of_mem _ hl)) hnext hnext'
      rw [heq, heq', hothers]

end Session

/-! ## What the front ends deliver -/

open LineSource (Delivers)

/-- A queue delivers its lines. -/
theorem LineQueue.delivers (lines : List (List Char)) : Delivers (LineQueue.mk lines) lines := by
  induction lines with
  | nil => exact .ended rfl
  | cons line lines ih => exact .line rfl ih

/-- A text behind a prompt delivers its lines. -/
theorem Prompted.delivers (text : List Char) (prompt : String) (written : List UInt8) :
    Delivers (ofText text prompt written) (textLines text) := by
  induction text using text_induction generalizing written with
  | nil =>
    rw [textLines_nil]
    exact .ended (readLine_nil prompt written)
  | last line hne hline =>
    rw [textLines_last hne hline]
    exact .line (readLine_last hne hline prompt written) (.ended (readLine_nil prompt _))
  | newline front more hfront ih =>
    rw [textLines_newline hfront]
    exact .line (readLine_newline hfront more prompt written) (ih _)

/-! ### Typed lines -/

namespace KeyEditor

/-- The keys that type a line: its characters, and Enter. -/
def keysOf (line : List Char) : List KeyRead :=
  line.map (fun c => .key (.char c)) ++ [.key (.char '\n')]

/-- A character typed at the end of a line is appended. -/
private theorem insert_ofText (chars : List Char) (c : Char) :
    (EditLine.ofText chars).insert c = EditLine.ofText (chars ++ [c]) := by
  simp [EditLine.ofText, EditLine.insert]

/-- What is typed is appended to the line, which is taken at Enter. -/
private theorem edit_keysOf {line : List Char} (hline : '\n' ∉ line) (e : KeyEditor)
    (chars : List Char) (recalled : Nat) (keys : List KeyRead) :
    ∃ e', e.edit ⟨EditLine.ofText chars, recalled⟩ (keysOf line ++ keys) =
      (.line (chars ++ line), e') ∧ e'.keys = keys := by
  -- by induction on what is typed, with the draft growing at its end
  induction line generalizing e chars with
  | nil =>
    refine ⟨{ (e.redraw (EditLine.ofText chars)).enter chars with keys }, ?_, rfl⟩
    show e.edit _ (.key (.char '\n') :: keys) = _
    rw [edit, List.append_nil]
    rfl
  | cons c line ih =>
    rw [List.mem_cons, not_or] at hline
    obtain ⟨hc, hline⟩ := hline
    obtain ⟨e', hedit, hkeys⟩ := ih hline (e.redraw (EditLine.ofText chars)) (chars ++ [c])
    refine ⟨e', ?_, hkeys⟩
    have hpress : (Draft.mk (EditLine.ofText chars) recalled).press e.history (.char c) =
        ⟨EditLine.ofText (chars ++ [c]), recalled⟩ := by
      rw [← insert_ofText]
      rfl
    rw [List.append_assoc, List.singleton_append] at hedit
    rw [← hedit, ← hpress]
    show e.edit _ (.key (.char c) :: (keysOf line ++ keys)) = _
    rw [edit]
    -- the key is neither Enter nor one of the two that end the input
    · intro h
      exact hc (Key.char.inj h).symm
    · intro h
      cases h
    · intro h
      cases h

/-- The keys that type some lines deliver them, whatever stands in the history. -/
theorem delivers {lines : List (List Char)} (hlines : ∀ line ∈ lines, '\n' ∉ line) {e : KeyEditor}
    (hkeys : e.keys = lines.flatMap keysOf) : Delivers e lines := by
  induction lines generalizing e with
  | nil =>
    have hread : LineSource.readLine e = (.ended, (LineSource.readLine e).2) := by
      show readLine e = (.ended, (readLine e).2)
      rw [readLine, hkeys]
      rfl
    exact .ended hread
  | cons line lines ih =>
    have hline : '\n' ∉ line := hlines line List.mem_cons_self
    rw [List.flatMap_cons] at hkeys
    obtain ⟨e', hedit, hkeys'⟩ := edit_keysOf hline (e.write (clearLine ++ e.prompt)) []
      e.history.length (lines.flatMap keysOf)
    have hread : LineSource.readLine e = (.line line, e') := by
      show readLine e = _
      rw [readLine, hkeys]
      exact hedit
    exact .line hread (ih (fun l hl => hlines l (List.mem_cons_of_mem _ hl)) hkeys')

end KeyEditor

/-! ### Written lines -/

/-- Lines are written in a text, each with a line feed behind it, or a carriage return and a line
    feed.  Behind the last line these may be missing if there is something in the line. -/
inductive WrittenAs : List (List Char) → List Char → Prop
  | nil : WrittenAs [] []
  | unterminated {line : List Char} (hne : line ≠ []) : WrittenAs [line] line
  | lineFeed {line text : List Char} {lines : List (List Char)} (h : WrittenAs lines text) :
      WrittenAs (line :: lines) (line ++ '\n' :: text)
  | returnLineFeed {line text : List Char} {lines : List (List Char)} (h : WrittenAs lines text) :
      WrittenAs (line :: lines) (line ++ '\r' :: '\n' :: text)

/-- A text in which lines are written has these lines. -/
theorem textLines_of_writtenAs {lines : List (List Char)} {text : List Char}
    (h : WrittenAs lines text) (hlines : ∀ line ∈ lines, '\n' ∉ line ∧ line.getLast? ≠ some '\r') :
    textLines text = lines := by
  induction h with
  | nil => exact textLines_nil
  | @unterminated line hne => exact textLines_last hne (hlines line List.mem_cons_self).1
  | @lineFeed line text lines _ ih =>
    obtain ⟨hline, hreturn⟩ := hlines line List.mem_cons_self
    -- no carriage return is dropped that belongs to the line
    have hdrop : dropReturn line = line := if_neg hreturn
    rw [textLines_newline hline, hdrop, ih fun l hl => hlines l (List.mem_cons_of_mem _ hl)]
  | @returnLineFeed line text lines _ ih =>
    obtain ⟨hline, -⟩ := hlines line List.mem_cons_self
    have hfront : '\n' ∉ line ++ ['\r'] := by
      simpa using hline
    have hdrop : dropReturn (line ++ ['\r']) = line := by
      rw [dropReturn, if_pos (by simp), List.dropLast_concat]
    have happend : line ++ '\r' :: '\n' :: text = (line ++ ['\r']) ++ '\n' :: text := by simp
    rw [happend, textLines_newline hfront, hdrop,
      ih fun l hl => hlines l (List.mem_cons_of_mem _ hl)]

/-! ## The three front ends -/

namespace Session

/-- Sessions over a queue of lines, over a text in which they are written behind a prompt, and over
    the keys that type them end in the same way and leave the same sink and the same variables.  If
    the sink has no limit, they end at the exit word or at the end of the lines. -/
theorem run_front_ends (options : SessionOptions) (exitWord : Option (List Char)) (t : SymbolTable)
    (out : Sink) {lines : List (List Char)} {text : List Char}
    (hlines : ∀ line ∈ lines, '\n' ∉ line ∧ line.getLast? ≠ some '\r')
    (htext : WrittenAs lines text) (prompt : String) (written : List UInt8) {e : KeyEditor}
    (hkeys : e.keys = lines.flatMap KeyEditor.keysOf) :
    let source : Prompted := ⟨utf8Bytes (String.ofList text), prompt, ⟨written, none⟩⟩
    let queue := run options
      ⟨TokenStream.new (Separate.mk (LineQueue.mk lines) out) exitWord, t⟩
    let prompted := run options ⟨TokenStream.new (Separate.mk source out) exitWord, t⟩
    let typed := run options ⟨TokenStream.new (Separate.mk e out) exitWord, t⟩
    (prompted.1 = queue.1 ∧ prompted.2.source.out = queue.2.source.out ∧
      prompted.2.symbols = queue.2.symbols) ∧
    (typed.1 = queue.1 ∧ typed.2.source.out = queue.2.source.out ∧
      typed.2.symbols = queue.2.symbols) ∧
    (out.limit = none → queue.1 = .ok (endingOf exitWord lines)) := by
  intro source queue prompted typed
  have hnewline : ∀ line ∈ lines, '\n' ∉ line := fun line hline => (hlines line hline).1
  have htextLines := textLines_of_writtenAs htext hlines
  -- the three calculators stand before the same lines; the queue is the one to compare with
  let c : Calculator (Separate LineQueue) :=
    ⟨TokenStream.new (Separate.mk (LineQueue.mk lines) out) exitWord, t⟩
  have hqueue : Stands c exitWord lines out t := ⟨LineQueue.delivers lines, rfl, rfl, rfl, rfl⟩
  have hprompted : outcome options ⟨TokenStream.new (Separate.mk source out) exitWord, t⟩ =
      outcome options c := by
    refine outcome_eq_of_stands options hnewline ⟨?_, rfl, rfl, rfl, rfl⟩ hqueue
    have hdelivers := Prompted.delivers text prompt written
    rwa [htextLines] at hdelivers
  have htyped : outcome options ⟨TokenStream.new (Separate.mk e out) exitWord, t⟩ =
      outcome options c :=
    outcome_eq_of_stands options hnewline ⟨KeyEditor.delivers hnewline hkeys, rfl, rfl, rfl, rfl⟩
      hqueue
  obtain ⟨hresult, hsink, hsymbols⟩ : prompted.1 = queue.1 ∧
      prompted.2.source.out = queue.2.source.out ∧ prompted.2.symbols = queue.2.symbols := by
    simpa only [outcome, Prod.mk.injEq] using hprompted
  refine ⟨⟨hresult, hsink, hsymbols⟩, ?_, ?_⟩
  · simpa only [outcome, Prod.mk.injEq] using htyped
  · intro hlimit
    obtain ⟨before, limit⟩ := out
    simp only at hlimit
    subst hlimit
    obtain ⟨reports, t', hreported⟩ :=
      exists_reported options t (linesToExit exitWord (textLines text))
    have hend := ((TextHost.separate prompt).run_eq_logAfter hreported (written, before)).1
    rw [htextLines] at hend
    exact hresult.symm.trans hend

/-- The lines `2`, an empty one and `=`, queued, written with either end of line and none behind the
    last, and typed. -/
theorem run_front_ends_mixed_line_ends :
    let lines : List (List Char) := [['2'], [], ['=']]
    let source : Prompted :=
      ⟨utf8Bytes (String.ofList ['2', '\r', '\n', '\n', '=']), ">> ", ⟨[], none⟩⟩
    let e : KeyEditor := ⟨"> ", [['1']], lines.flatMap KeyEditor.keysOf, 1, ""⟩
    let out : Sink := ⟨[], none⟩
    let queue := run ⟨true⟩
      ⟨TokenStream.new (Separate.mk (LineQueue.mk lines) out) none, SymbolTable.empty⟩
    let prompted := run ⟨true⟩
      ⟨TokenStream.new (Separate.mk source out) none, SymbolTable.empty⟩
    let typed := run ⟨true⟩ ⟨TokenStream.new (Separate.mk e out) none, SymbolTable.empty⟩
    prompted.1 = .ok .endOfInput ∧ typed.1 = .ok .endOfInput ∧
      prompted.2.source.out = queue.2.source.out ∧ typed.2.source.out = queue.2.source.out := by
  intro lines source e out queue prompted typed
  have hlines : ∀ line ∈ lines, '\n' ∉ line ∧ line.getLast? ≠ some '\r' := by decide
  have htext : WrittenAs lines ['2', '\r', '\n', '\n', '='] :=
    .returnLineFeed (.lineFeed (.unterminated (by decide)))
  obtain ⟨⟨hprompted, hprompted', -⟩, ⟨htyped, htyped', -⟩, hend⟩ :=
    run_front_ends ⟨true⟩ none SymbolTable.empty out hlines htext ">> " [] (e := e) rfl
  have hqueue : queue.1 = .ok .endOfInput := hend rfl
  exact ⟨hprompted.trans hqueue, htyped.trans hqueue, hprompted', htyped'⟩

end Session

end DeskCalc
