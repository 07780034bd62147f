import DeskCalc.Calculator
import DeskCalc.Proofs.Postfix
import DeskCalc.Proofs.Scanner

/-!
# Evaluation token by token

A calculator cuts a line into lexemes and then takes their tokens.  Here the tokens are scanned one
at a time, each only when the line asks for it, and a refusal is pinned to the place where the
scanner stands.  Both evaluations agree on every calculator whose buffer is used up or ends with an
end of line.

## Key results

- `exists_verdict`: every line that can be read is decided by one of its tokens
- `evaluateByScanning_eq`: evaluating by scanning comes to an end, with the same answer
- `Verdict.evaluate_eq`: the answer is what the token that decides the line makes of it
-/

namespace DeskCalc

namespace Calculator

variable {σ : Type}

/-- Closes a line that has been decided, the stream standing behind the token that decided it. -/
def settle (stream : TokenStream σ) (o : Outcome) : Reply × Calculator σ :=
  match o.result with
  | .ok value => (⟨.ok value, o.trace.steps⟩, ⟨stream, o.symbols⟩)
  | .error rejection =>
    (⟨.error (.rejected ⟨rejection, stream.currentLine, stream.position - 1⟩), o.trace.steps⟩,
      ⟨stream.flush, o.symbols⟩)

/-- Closing a line keeps the variables of its outcome. -/
theorem symbols_settle (stream : TokenStream σ) (o : Outcome) :
    (settle stream o).2.symbols = o.symbols := by
  unfold settle
  split <;> rfl

/-- A line that is closed is answered with a value when its outcome has one. -/
theorem result_settle_eq_ok_iff {stream : TokenStream σ} {o : Outcome} {v : Float} :
    (settle stream o).1.result = .ok v ↔ o.result = .ok v := by
  unfold settle
  split
  · next h => simp [h]
  · next h => simp [h]

/-- A line that is closed is refused as its outcome says, with the column of the last character
    read. -/
theorem result_settle_eq_rejected_iff {stream : TokenStream σ} {o : Outcome} {d : Diagnostic} :
    (settle stream o).1.result = .error (.rejected d) ↔
      ∃ r, o.result = .error r ∧ d = ⟨r, stream.currentLine, stream.position - 1⟩ := by
  unfold settle
  split
  · next h => simp [h]
  · next h => simp [h, eq_comm]

/-! ## Taking tokens as they are scanned -/

variable [LineSource σ]

/-- Takes tokens from `stream` until one of them decides the line. -/
def takeTokens (s : LineState) (stream : TokenStream σ) :
    Except CursorError (Reply × Calculator σ) :=
  match _h : stream.scan with
  | .error e => .error e
  | .ok (.error e, stream') => .ok (⟨.error (.input e), s.trace.steps⟩, ⟨stream', s.symbols⟩)
  | .ok (.ok token, stream') =>
    if _ht : token = .endOfLine then .ok (settle stream' s.finish)
    else
      match s.step token with
      | .error rejection => .ok (settle stream' ⟨.error rejection, s.symbols, s.trace, 1⟩)
      | .ok next => takeTokens next stream'
termination_by stream.ahead
decreasing_by exact TokenStream.ahead_scan_lt _h _ht

/-- Evaluates the next line, scanning each token when the line asks for it. -/
def evaluateByScanning (c : Calculator σ) (detailed : Bool) :
    Except CursorError (Reply × Calculator σ) :=
  takeTokens (LineState.start c.symbols detailed) c.stream

/-- A token that the line takes leads to the next place of the loop. -/
private theorem takeTokens_of_step {s s' : LineState} {stream stream' : TokenStream σ} {t : Token}
    (hscan : stream.scan = .ok (.ok t, stream')) (hstep : LineState.Step s t s') :
    takeTokens s stream = takeTokens s' stream' := by
  have heq := hstep.step_eq
  have ht : t ≠ .endOfLine := by
    rintro rfl
    exact LineState.step_endOfLine_ne_ok s s' heq
  rw [takeTokens, hscan]
  simp only [dif_neg ht, heq]

/-- Tokens that a line takes lead from one place of the loop to another. -/
private theorem takeTokens_of_takes {s s' : LineState} {stream stream' : TokenStream σ}
    {p us : List Token} (htakes : s.Takes p s') (hyields : stream.Yields (p ++ us) stream') :
    ∃ between, between.Yields us stream' ∧ takeTokens s stream = takeTokens s' between := by
  -- the first token leads from `s` to `s₁`, the others from there
  induction p generalizing s stream with
  | nil => exact ⟨stream, hyields, by rw [htakes.eq_of_nil]⟩
  | cons t p ih =>
    obtain ⟨s₁, hstep, htakes⟩ := htakes.exists_of_cons
    obtain _ | ⟨hscan, hyields⟩ := hyields
    obtain ⟨between, hbetween, heq⟩ := ih htakes hyields
    exact ⟨between, hbetween, (takeTokens_of_step hscan hstep).trans heq⟩

/-- A token that decides the line ends the loop. -/
private theorem takeTokens_of_decides {s : LineState} {stream stream' : TokenStream σ} {t : Token}
    {o : Outcome} (hscan : stream.scan = .ok (.ok t, stream')) (hdecides : s.Decides t o) :
    takeTokens s stream = .ok (settle stream' o) := by
  rw [takeTokens, hscan]
  cases hdecides with
  | endOfLine => simp only [↓reduceDIte]
  | refused ht hr => simp only [dif_neg ht, hr.step_eq]

/-- How the next line is decided: it takes the tokens `p`, which bring it to `s`, and the token `t`
    decides it, leaving `stream`. -/
structure Verdict (c : Calculator σ) (detailed : Bool) (p : List Token) (t : Token) (s : LineState)
    (stream : TokenStream σ) (o : Outcome) : Prop where
  takes : (LineState.start c.symbols detailed).Takes p s
  decides : s.Decides t o
  yields : c.stream.Yields (p ++ [t]) stream

/-- Scanning comes to the verdict on the line. -/
theorem Verdict.evaluateByScanning_eq {c : Calculator σ} {detailed : Bool} {p : List Token}
    {t : Token} {s : LineState} {stream : TokenStream σ} {o : Outcome}
    (h : c.Verdict detailed p t s stream o) :
    c.evaluateByScanning detailed = .ok (settle stream o) := by
  obtain ⟨between, hyields, heq⟩ := takeTokens_of_takes h.takes h.yields
  obtain _ | ⟨hscan, hnil⟩ := hyields
  obtain _ | _ := hnil
  rw [evaluateByScanning, heq, takeTokens_of_decides hscan h.decides]

/-! ## The verdict on a line -/

/-- An error of the input leaves the buffer as it is. -/
theorem evaluate_of_fill_error {c : Calculator σ} {stream : TokenStream σ} {e : InputError}
    (hfill : c.stream.fill = (.error e, stream)) (detailed : Bool) :
    c.evaluate detailed = (⟨.error (.input e), []⟩, { c with stream }) := by
  rw [evaluate, hfill]

/-- The line that is pulled may as well have been in the buffer. -/
theorem evaluate_of_fill_ok {c : Calculator σ} {stream : TokenStream σ}
    (hfill : c.stream.fill = (.ok (), stream)) (detailed : Bool) :
    c.evaluate detailed = evaluateBuffered { c with stream } detailed := by
  rw [evaluate, hfill]

omit [LineSource σ] in
/-- An accepted line leaves the cursor behind its end. -/
theorem evaluateBuffered_of_ok {c : Calculator σ} {detailed : Bool} {o : Outcome} {v : Float}
    (h : evaluateLine c.symbols detailed ((Lexeme.line c.stream.cursor.rest).map Lexeme.token) = o)
    (hresult : o.result = .ok v) :
    c.evaluateBuffered detailed = (⟨.ok v, o.trace.steps⟩, ⟨{ c.stream with
      cursor := c.stream.cursor.forward c.stream.cursor.lineLength true
      text := ['\n'] }, o.symbols⟩) := by
  subst h
  simp only [evaluateBuffered, hresult]

omit [LineSource σ] in
/-- A refused line leaves the buffer used up, and the diagnostic points at the last character that
    was read. -/
theorem evaluateBuffered_of_error {c : Calculator σ} {detailed : Bool} {o : Outcome}
    {r : Rejection}
    (h : evaluateLine c.symbols detailed ((Lexeme.line c.stream.cursor.rest).map Lexeme.token) = o)
    (hresult : o.result = .error r) :
    c.evaluateBuffered detailed =
      (⟨.error (.rejected ⟨r, c.stream.cursor.line, c.stream.cursor.position +
          Lexeme.totalSize ((Lexeme.line c.stream.cursor.rest).take o.read) - 1⟩),
        o.trace.steps⟩, ⟨{ c.stream with
          cursor := c.stream.cursor.flush
          text := lastText c.stream.text ((Lexeme.line c.stream.cursor.rest).take o.read) },
        o.symbols⟩) := by
  subst h
  simp only [evaluateBuffered, hresult]

omit [LineSource σ] in
/-- A line that is accepted has been read up to its end. -/
private theorem lineLength_of_takes {cursor : LineCursor} {ls₁ ls₂ : List Lexeme} {l : Lexeme}
    (hline : Lexeme.line cursor.rest = ls₁ ++ l :: ls₂)
    (hls : .endOfLine ∉ ls₁.map Lexeme.token) (hl : l.token = .endOfLine) :
    cursor.lineLength = ((ls₁ ++ [l]).flatMap Lexeme.written).length ∧ l.text = ['\n'] := by
  obtain ⟨rest, more, hrest, hnext⟩ := Lexeme.next?_of_line_eq_append hline
  obtain ⟨rfl, htext⟩ := Lexeme.token_eq_endOfLine_of_next? hnext hl
  rw [← List.append_assoc] at hrest
  refine ⟨?_, htext⟩
  -- no lexeme before the last one has an end of line in it, nor have the spaces
  rw [LineCursor.lineLength_of_append hrest]
  · simp [Lexeme.size, htext, Nat.add_assoc]
  · rw [List.mem_append, not_or]
    refine ⟨Lexeme.newline_not_mem_flatMap_written (fun l' hl' => ?_) fun l' hl' ht => ?_, ?_⟩
    · exact Lexeme.standalone_of_mem_line (hline ▸ List.mem_append_left _ hl')
    · exact hls (List.mem_map.2 ⟨l', hl', ht⟩)
    · exact fun hmem => absurd (List.eq_of_mem_replicate hmem) (by decide)

omit [LineSource σ] in
/-- The evaluation of a buffer ends behind the lexeme that decides the line. -/
private theorem evaluateBuffered_eq_settle {c : Calculator σ} {detailed : Bool}
    {ls₁ ls₂ : List Lexeme} {l : Lexeme} {s : LineState} {o : Outcome}
    (hline : Lexeme.line c.stream.cursor.rest = ls₁ ++ l :: ls₂)
    (htakes : (LineState.start c.symbols detailed).Takes (ls₁.map Lexeme.token) s)
    (hdecides : s.Decides l.token o) :
    c.evaluateBuffered detailed = settle (c.stream.acceptAll (ls₁ ++ [l])) o := by
  obtain ⟨more, hfront⟩ := Lexeme.eq_flatMap_written_append hline
  have hrun := htakes.run_of_decides hdecides (ls₂.map Lexeme.token)
  rw [← List.map_cons, ← List.map_append, ← hline, List.length_map] at hrun
  rw [TokenStream.acceptAll_eq hfront, settle]
  -- an accepted line is left at its end, a refused one behind the lexeme that decided it
  cases hresult : o.result with
  | ok v =>
    have hl := hdecides.eq_endOfLine_of_ok hresult
    -- the lexemes that were read reach behind the end of the line
    obtain ⟨hlength, htext⟩ := lineLength_of_takes hline htakes.endOfLine_not_mem hl
    rw [evaluateBuffered_of_ok hrun hresult, LineCursor.forward_of_append hfront hlength]
    simp [hl, htext, TokenStream.gaveBack]
  | error r =>
    have htake : (ls₁ ++ l :: ls₂).take (ls₁.length + 1) = ls₁ ++ [l] := by
      rw [List.append_cons, List.take_left' (by simp)]
    have hposition : c.stream.cursor.position + Lexeme.totalSize (ls₁ ++ [l]) =
        (((ls₁ ++ [l]).flatMap Lexeme.written).reverse ++ c.stream.cursor.consumed).length := by
      rw [← Lexeme.length_flatMap_written, List.length_append, List.length_reverse, Nat.add_comm]
      rfl
    rw [evaluateBuffered_of_error hrun hresult]
    simp only [hline, htake, hposition]
    simp [lastText, TokenStream.flush, LineCursor.flush, TokenStream.currentLine,
      TokenStream.position, LineCursor.position, LineCursor.line, hfront]

/-- Every line that can be read is decided by one of its lexemes. -/
theorem exists_deciding_lexeme {c : Calculator σ} (hs : c.stream.cursor.Terminated)
    {stream₀ : TokenStream σ} (hfill : c.stream.fill = (.ok (), stream₀)) {front more : List Char}
    (hrest : stream₀.cursor.rest = front ++ '\n' :: more) (hfront : '\n' ∉ front)
    (detailed : Bool) :
    ∃ ls₁ l ls₂ s o, Lexeme.line stream₀.cursor.rest = ls₁ ++ l :: ls₂ ∧
      c.Verdict detailed (ls₁.map Lexeme.token) l.token s (stream₀.acceptAll (ls₁ ++ [l])) o ∧
      c.evaluate detailed = settle (stream₀.acceptAll (ls₁ ++ [l])) o := by
  have htokens := map_token_line_append_newline hfront more
  obtain ⟨p, t, q, s, o, happend, htakes, hdecides⟩ :=
    LineState.exists_decides (LineState.start c.symbols detailed) (lineTokens front)
  -- the token that decides the line comes from a lexeme, and so do the tokens before it
  rw [happend] at htokens
  obtain ⟨ls₁, ls, hline, rfl, hls⟩ := List.map_eq_append_iff.1 htokens
  obtain ⟨l, ls₂, rfl, rfl, rfl⟩ := List.map_eq_cons_iff.1 hls
  rw [← hrest] at hline
  obtain ⟨hs₀, -⟩ := TokenStream.terminated_of_fill_ok hs hfill
  -- the stream stands behind this lexeme, and so does the calculator
  refine ⟨ls₁, l, ls₂, s, o, hline, ⟨htakes, hdecides, ?_⟩, ?_⟩
  · have hsplit : Lexeme.line stream₀.cursor.rest = (ls₁ ++ [l]) ++ ls₂ := by
      rw [hline]
      simp
    have hyields := TokenStream.yields_acceptAll hs₀ hsplit
    rw [List.map_append, List.map_singleton] at hyields
    exact (TokenStream.yields_of_fill_ok hfill (by simp)).2 hyields
  · rw [evaluate_of_fill_ok hfill]
    exact evaluateBuffered_eq_settle (c := { c with stream := stream₀ }) hline htakes hdecides

/-- Every line that can be read is decided by one of its tokens, or by its end. -/
theorem exists_verdict {c : Calculator σ} (hs : c.stream.cursor.Terminated)
    {stream₀ : TokenStream σ} (hfill : c.stream.fill = (.ok (), stream₀)) {front more : List Char}
    (hrest : stream₀.cursor.rest = front ++ '\n' :: more) (hfront : '\n' ∉ front)
    (detailed : Bool) :
    ∃ p t q s stream o, lineTokens front ++ [.endOfLine] = p ++ t :: q ∧
      c.Verdict detailed p t s stream o ∧ c.evaluate detailed = settle stream o ∧
      stream.currentLine = stream₀.currentLine ∧ 0 < stream.position := by
  obtain ⟨ls₁, l, ls₂, s, o, hline, hverdict, heq⟩ :=
    exists_deciding_lexeme hs hfill hrest hfront detailed
  have htokens := map_token_line_append_newline hfront more
  rw [← hrest, hline, List.map_append, List.map_cons] at htokens
  exact ⟨_, _, _, s, _, o, htokens.symm, hverdict, heq, TokenStream.currentLine_acceptAll hline⟩

/-- Evaluating by scanning comes to an end without misuse of the pushback slot, and gives the answer
    of the calculator. -/
theorem evaluateByScanning_eq {c : Calculator σ} (hs : c.stream.cursor.Terminated)
    (detailed : Bool) : c.evaluateByScanning detailed = .ok (c.evaluate detailed) := by
  -- an error of the input ends both evaluations before the first token
  cases hfill : c.stream.fill with
  | mk r stream₀ =>
    cases r with
    | error e =>
      rw [evaluateByScanning, takeTokens, TokenStream.scan_of_fill_error hfill,
        evaluate_of_fill_error hfill]
      rfl
    | ok =>
      obtain ⟨hs₀, hne⟩ := TokenStream.terminated_of_fill_ok hs hfill
      obtain ⟨front, more, hrest, hfront⟩ := hs₀.exists_line hne
      obtain ⟨p, t, q, s, stream, o, -, hverdict, heq, -⟩ :=
        exists_verdict hs hfill hrest hfront detailed
      rw [hverdict.evaluateByScanning_eq, heq]

/-- The answer to a line is what the token that decides it makes of it. -/
theorem Verdict.evaluate_eq {c : Calculator σ} {detailed : Bool} {p : List Token}
    {t : Token} {s : LineState} {stream : TokenStream σ} {o : Outcome}
    (h : c.Verdict detailed p t s stream o) (hs : c.stream.cursor.Terminated) :
    c.evaluate detailed = settle stream o := by
  have heq := h.evaluateByScanning_eq
  rw [Calculator.evaluateByScanning_eq hs] at heq
  exact Except.ok.inj heq

/-! ## A line on its own -/

/-- The next line that a calculator evaluates is `line`, which is not the exit word. -/
structure Awaits (c : Calculator σ) (line : List Char) : Prop where
  rest : c.stream.cursor.rest = []
  readLine : ∃ source, LineSource.readLine c.source = (.line line, source)
  exitWord : c.stream.exitWord ≠ some line

/-- A calculator that awaits a line has nothing in its buffer. -/
theorem Awaits.terminated {c : Calculator σ} {line : List Char} (h : c.Awaits line) :
    c.stream.cursor.Terminated :=
  LineCursor.terminated_of_rest_eq_nil h.rest

/-- The line that is awaited is put in the buffer. -/
theorem Awaits.exists_fill {c : Calculator σ} {line : List Char} (h : c.Awaits line) :
    ∃ stream, c.stream.fill = (.ok (), stream) ∧ stream.cursor = LineCursor.load line := by
  obtain ⟨source, hread⟩ := h.readLine
  exact ⟨_, TokenStream.fill_of_readLine h.rest hread h.exitWord, rfl⟩

/-- The answer to a line comes from its tokens. -/
theorem Awaits.evaluate_eq {c : Calculator σ} {line : List Char} (h : c.Awaits line)
    (hline : '\n' ∉ line) (detailed : Bool) :
    (∀ v, (c.evaluate detailed).1.result = .ok v ↔
      (evaluateLine c.symbols detailed (lineTokens line ++ [.endOfLine])).result = .ok v) ∧
    (c.evaluate detailed).2.symbols =
      (evaluateLine c.symbols detailed (lineTokens line ++ [.endOfLine])).symbols := by
  obtain ⟨stream, hfill, hcursor⟩ := h.exists_fill
  have htokens := map_token_line_append_newline hline []
  rw [evaluate_of_fill_ok hfill]
  -- the answer and the variables are those of the outcome, whatever is left in the buffer
  cases hresult : (evaluateLine c.symbols detailed (lineTokens line ++ [.endOfLine])).result with
  | ok v =>
    rw [evaluateBuffered_of_ok (by simp only [hcursor, LineCursor.load, htokens]) hresult]
    simp
  | error r =>
    rw [evaluateBuffered_of_error (by simp only [hcursor, LineCursor.load, htokens]) hresult]
    simp

/-- The line that is awaited is decided by one of its tokens, or by its end. -/
theorem Awaits.exists_verdict {c : Calculator σ} {line : List Char} (h : c.Awaits line)
    (hline : '\n' ∉ line) (detailed : Bool) :
    ∃ p t q s stream o, lineTokens line ++ [.endOfLine] = p ++ t :: q ∧
      c.Verdict detailed p t s stream o ∧ c.evaluate detailed = settle stream o ∧
      stream.currentLine = line ++ ['\n'] ∧ 0 < stream.position := by
  obtain ⟨stream₀, hfill, hcursor⟩ := h.exists_fill
  have hrest : stream₀.cursor.rest = line ++ '\n' :: [] := by
    rw [hcursor]
    rfl
  have hline₀ : stream₀.currentLine = line ++ ['\n'] := by
    rw [TokenStream.currentLine, hcursor]
    rfl
  obtain ⟨p, t, q, s, stream, o, happend, hverdict, heq, hcurrent, hpos⟩ :=
    Calculator.exists_verdict h.terminated hfill hrest hline detailed
  exact ⟨p, t, q, s, stream, o, happend, hverdict, heq, hcurrent.trans hline₀, hpos⟩

end Calculator

end DeskCalc
