import DeskCalc.Proofs.Evaluation
import DeskCalc.Session

/-!
# Lines do not disturb one another

A string that is pulled from a queue can hold several lines.  They are evaluated one after the
other, each from a fresh start and with the variables that the one before it left; a line that is
refused takes the rest of its string with it.  Calling the calculator until the input ends is
therefore the same as cutting the strings into lines first.

## Key results

- `Holds.evaluate_cons`: one call evaluates the next line of the buffer and moves behind it
- `answers_eq`: the answers to a queue are those to its strings, line by line
- `Reachable.terminated`: the buffer is used up or ends with an end of line, after any calls
- `evaluate_isolates_lines`: the answers to a queue, and what one call may pull
-/

namespace DeskCalc

/-! ## The lines of a string -/

/-- The pieces of a string between its ends of line hold none, and each of them with an end of line
    behind it gives the string with an end of line behind it. -/
private theorem splitOn_newline (line : List Char) :
    (∀ s ∈ line.splitOn '\n', '\n' ∉ s) ∧
      (line.splitOn '\n').flatMap (· ++ ['\n']) = line ++ ['\n'] := by
  induction line with
  | nil => simp
  | cons c cs ih =>
    obtain ⟨hmem, hjoin⟩ := ih
    obtain ⟨s, ss, hss⟩ := List.exists_cons_of_ne_nil (List.splitOn_ne_nil '\n' cs)
    rw [List.splitOn_cons_eq_if_modifyHead]
    -- an end of line starts a new piece, any other character goes in front of the first one
    by_cases hc : c = '\n'
    · subst hc
      simp only [beq_self_eq_true, if_true, List.flatMap_cons, hjoin]
      refine ⟨fun s hs => ?_, rfl⟩
      rcases List.mem_cons.1 hs with rfl | hs
      · exact List.not_mem_nil
      · exact hmem s hs
    · rw [hss] at hmem hjoin ⊢
      simp only [beq_iff_eq, hc, if_false, List.modifyHead_cons]
      refine ⟨fun s' hs' => ?_, ?_⟩
      · rcases List.mem_cons.1 hs' with rfl | hs'
        · rw [List.mem_cons, not_or]
          exact ⟨Ne.symm hc, hmem s List.mem_cons_self⟩
        · exact hmem s' (List.mem_cons_of_mem s hs')
      · rw [List.flatMap_cons] at hjoin ⊢
        rw [List.cons_append, List.cons_append, hjoin, List.cons_append]

/-- The answer to one line of a string: `segment`, in front of which `offset` characters stand. -/
def segmentAnswer (detailed : Bool) (line : List Char) (offset : Nat) (t : SymbolTable)
    (segment : List Char) : Reply × SymbolTable :=
  let o := evaluateLine t detailed (lineTokens segment ++ [.endOfLine])
  let read := (Lexeme.line (segment ++ ['\n'])).take o.read
  let column := offset + Lexeme.totalSize read - 1
  (⟨o.result.mapError fun r => .rejected ⟨r, line ++ ['\n'], column⟩, o.trace.steps⟩, o.symbols)

/-- The answer to a line of a string is a value or a refusal. -/
private theorem segmentAnswer_isInputError {detailed : Bool} {line : List Char} {offset : Nat}
    {t : SymbolTable} {segment : List Char} :
    ¬ (segmentAnswer detailed line offset t segment).1.isInputError = true := by
  unfold segmentAnswer Reply.isInputError
  cases hresult : (evaluateLine t detailed (lineTokens segment ++ [.endOfLine])).result <;>
    simp [hresult, Except.mapError]

/-- The answers to the lines of a string up to the first that is refused, and the variables
    afterwards. -/
def lineAnswers (detailed : Bool) (line : List Char) :
    Nat → SymbolTable → List (List Char) → List (Reply × SymbolTable) × SymbolTable
  | _, t, [] => ([], t)
  | offset, t, segment :: segments =>
    let answer := segmentAnswer detailed line offset t segment
    match answer.1.result with
    | .ok _ =>
      let (answers, t') := lineAnswers detailed line (offset + segment.length + 1) answer.2 segments
      (answer :: answers, t')
    | .error _ => ([answer], answer.2)

/-- The answers to a queue of strings: each string is compared with the exit word as a whole, and
    then cut into lines. -/
def queueAnswers (detailed : Bool) (exitWord : Option (List Char)) :
    SymbolTable → List (List Char) → List (Reply × SymbolTable)
  | t, [] => [(⟨.error (.input .endOfInput), []⟩, t)]
  | t, line :: lines =>
    if exitWord = some line then [(⟨.error (.input .exit), []⟩, t)]
    else
      let (answers, t') := lineAnswers detailed line 0 t (line.splitOn '\n')
      answers ++ queueAnswers detailed exitWord t' lines

namespace Calculator

/-! ## Calling until the input ends -/

section Answers

variable {σ : Type} [FiniteSource σ]

/-- The answers to call after call, up to the first error of the input, each with the variables
    after the call. -/
def answers (c : Calculator σ) (detailed : Bool) : List (Reply × SymbolTable) :=
  ((c.evaluate detailed).1, (c.evaluate detailed).2.symbols) ::
    if _h : (c.evaluate detailed).1.isInputError then []
    else (c.evaluate detailed).2.answers detailed
termination_by c.remaining
decreasing_by exact c.remaining_evaluate_lt detailed _h

/-- The answers depend on the calculator through its next call only. -/
private theorem answers_of_evaluate_eq {c c' : Calculator σ} {detailed : Bool}
    (h : c.evaluate detailed = c'.evaluate detailed) :
    c.answers detailed = c'.answers detailed := by
  rw [answers, h, ← answers]

end Answers

section Calls

variable {σ : Type} [LineSource σ]

/-- The calculators that are left after some calls. -/
inductive Reachable (c₀ : Calculator σ) : Calculator σ → Prop
  | start : Reachable c₀ c₀
  | evaluate {c : Calculator σ} (h : Reachable c₀ c) (detailed : Bool) :
      Reachable c₀ (c.evaluate detailed).2

/-! ## One call -/

/-- The buffer of a calculator stands in `line`, in front of `segments`; or it is used up. -/
structure Holds (c : Calculator σ) (line : List Char) (segments : List (List Char)) : Prop where
  newline : ∀ s ∈ segments, '\n' ∉ s
  rest : c.stream.cursor.rest = segments.flatMap (· ++ ['\n'])
  line : segments ≠ [] → c.stream.currentLine = line ++ ['\n']

omit [LineSource σ] in
/-- The first line of the buffer, and what is behind its end. -/
private theorem Holds.rest_cons {c : Calculator σ} {line segment : List Char}
    {segments : List (List Char)} (h : c.Holds line (segment :: segments)) :
    '\n' ∉ segment ∧
      c.stream.cursor.rest = segment ++ '\n' :: segments.flatMap (· ++ ['\n']) := by
  refine ⟨h.newline segment List.mem_cons_self, ?_⟩
  rw [h.rest, List.flatMap_cons, List.append_assoc]
  rfl

/-- A call evaluates the next line of the buffer, on its own; it moves behind the line if it accepts
    it, and uses the buffer up if not. -/
theorem Holds.evaluate_cons {c : Calculator σ} {line segment : List Char}
    {segments : List (List Char)} (h : c.Holds line (segment :: segments)) (detailed : Bool) :
    let answer := segmentAnswer detailed line c.stream.position c.symbols segment
    let next := (c.evaluate detailed).2
    ((c.evaluate detailed).1, next.symbols) = answer ∧ next.source = c.source ∧
      next.stream.exitWord = c.stream.exitWord ∧
      match answer.1.result with
      | .ok _ =>
        next.Holds line segments ∧ next.stream.position = c.stream.position + segment.length + 1
      | .error _ => next.Holds line [] := by
  intro answer next
  obtain ⟨hsegment, hrest⟩ := h.rest_cons
  have hcurrent : c.stream.cursor.line = line ++ ['\n'] := h.line (List.cons_ne_nil _ _)
  -- the lexemes of the line are those that it has when it stands alone
  have hlexemes : Lexeme.line c.stream.cursor.rest = Lexeme.line (segment ++ ['\n']) := by
    rw [hrest, Lexeme.line_append_newline hsegment]
  have htokens : evaluateLine c.symbols detailed
      ((Lexeme.line c.stream.cursor.rest).map Lexeme.token) =
        evaluateLine c.symbols detailed (lineTokens segment ++ [.endOfLine]) := by
    rw [hlexemes, map_token_line_append_newline hsegment []]
  have heq : c.evaluate detailed = c.evaluateBuffered detailed :=
    evaluate_of_fill_ok (TokenStream.fill_of_rest_ne_nil (by rw [hrest]; simp)) detailed
  -- an accepted line leaves the cursor behind its end, a refused one uses the buffer up
  cases hresult :
      (evaluateLine c.symbols detailed (lineTokens segment ++ [.endOfLine])).result with
  | ok v =>
    have hcursor : c.stream.cursor.forward c.stream.cursor.lineLength true =
        ⟨(segment ++ ['\n']).reverse ++ c.stream.cursor.consumed,
          segments.flatMap (· ++ ['\n']), true⟩ :=
      LineCursor.forward_of_append (by rw [hrest]; simp)
        (by rw [LineCursor.lineLength_of_append hrest hsegment]; simp) true
    rw [evaluateBuffered_of_ok htokens hresult, hcursor] at heq
    simp only [answer, next, segmentAnswer, hresult, Except.mapError, heq]
    refine ⟨trivial, rfl, trivial,
      ⟨fun s hs => h.newline s (List.mem_cons_of_mem _ hs), rfl, fun _ => ?_⟩, ?_⟩
    · rw [← hcurrent, TokenStream.currentLine, LineCursor.line, LineCursor.line, hrest]
      simp
    · simp only [TokenStream.position, LineCursor.position, List.length_append, List.length_reverse,
        List.length_singleton]
      omega
  | error r =>
    rw [evaluateBuffered_of_error htokens hresult, hlexemes, hcurrent] at heq
    simp only [answer, next, segmentAnswer, hresult, Except.mapError, heq]
    exact ⟨rfl, rfl, trivial, by simp, rfl, by simp⟩

/-- A call evaluates the line that is awaited, on its own, and leaves nothing of it. -/
theorem Awaits.evaluate_settles {c : Calculator σ} {line : List Char} (h : c.Awaits line)
    (hline : '\n' ∉ line) (detailed : Bool) :
    ((c.evaluate detailed).1, (c.evaluate detailed).2.symbols) =
      segmentAnswer detailed line 0 c.symbols line ∧
    (c.evaluate detailed).2.source = (LineSource.readLine c.source).2 ∧
    (c.evaluate detailed).2.stream.exitWord = c.stream.exitWord ∧
    (c.evaluate detailed).2.stream.cursor.rest = [] := by
  obtain ⟨source, hread⟩ := h.readLine
  have hfill := TokenStream.fill_of_readLine h.rest hread h.exitWord
  -- the call gives the same answer as one that finds the line in the buffer
  let c₀ : Calculator σ :=
    { c with stream := { c.stream with source, cursor := LineCursor.load line } }
  have heq : c.evaluate detailed = c₀.evaluate detailed := by
    have hne : c₀.stream.cursor.rest ≠ [] := by simp [c₀, LineCursor.load]
    rw [evaluate_of_fill_ok hfill, evaluate_of_fill_ok (TokenStream.fill_of_rest_ne_nil hne)]
  have hholds : c₀.Holds line [line] := by
    refine ⟨?_, ?_, fun _ => rfl⟩
    · intro s hs
      rw [List.mem_singleton.1 hs]
      exact hline
    · rw [List.flatMap_singleton]
      rfl
  obtain ⟨hanswer, hsource, hexit, hnext⟩ := hholds.evaluate_cons detailed
  rw [heq, hread]
  refine ⟨hanswer, hsource, hexit, ?_⟩
  split at hnext
  · exact hnext.1.rest
  · exact hnext.rest

/-! ## What a call pulls -/

/-- A call keeps the buffer as it should be. -/
theorem terminated_evaluate {c : Calculator σ} (h : c.stream.cursor.Terminated) (detailed : Bool) :
    (c.evaluate detailed).2.stream.cursor.Terminated := by
  -- nothing is read but what `fill` has put there
  cases hfill : c.stream.fill with
  | mk r stream =>
    cases r with
    | error e =>
      rw [evaluate_of_fill_error hfill]
      exact TokenStream.cursor_of_fill_error hfill ▸ h
    | ok =>
      obtain ⟨hstream, -⟩ := TokenStream.terminated_of_fill_ok h hfill
      rw [evaluate_of_fill_ok hfill]
      unfold evaluateBuffered
      simp only
      split
      · exact hstream.of_append (List.take_append_drop _ _).symm
      · exact LineCursor.terminated_of_rest_eq_nil rfl

/-- The buffer is used up or ends with an end of line, after any calls. -/
theorem Reachable.terminated {c₀ c : Calculator σ} (h : c₀.Reachable c)
    (h₀ : c₀.stream.cursor.Terminated) : c.stream.cursor.Terminated := by
  induction h with
  | start => exact h₀
  | evaluate _ detailed ih => exact terminated_evaluate ih detailed

/-- While there is something in the buffer, no string is pulled. -/
theorem source_evaluate_of_rest_ne_nil {c : Calculator σ} (h : c.stream.cursor.rest ≠ [])
    (detailed : Bool) : (c.evaluate detailed).2.source = c.source := by
  rw [evaluate_of_fill_ok (TokenStream.fill_of_rest_ne_nil h)]
  exact source_evaluateBuffered _ _

/-- When the buffer is used up, one string is asked for. -/
theorem source_evaluate_of_rest_eq_nil {c : Calculator σ} (h : c.stream.cursor.rest = [])
    (detailed : Bool) : (c.evaluate detailed).2.source = (LineSource.readLine c.source).2 := by
  have hsource := TokenStream.source_fill h
  -- the string has been pulled by `fill`, whatever becomes of it
  cases hfill : c.stream.fill with
  | mk r stream =>
    rw [hfill] at hsource
    cases r with
    | error e =>
      rw [evaluate_of_fill_error hfill]
      exact hsource
    | ok =>
      rw [evaluate_of_fill_ok hfill, source_evaluateBuffered]
      exact hsource

/-- Once a token of the line has been scanned, no string is pulled until the line is decided. -/
private theorem source_of_yields {c : Calculator σ} (hc : c.stream.cursor.Terminated)
    {detailed : Bool} {p : List Token} {s : LineState} {stream : TokenStream σ} (hp : p ≠ [])
    (htakes : (LineState.start c.symbols detailed).Takes p s) (hyields : c.stream.Yields p stream) :
    stream.source = (c.evaluate detailed).2.source := by
  -- if nothing could be pulled, no token has been scanned
  cases hfill : c.stream.fill with
  | mk r stream₀ =>
    cases r with
    | error e =>
      cases hyields with
      | nil => exact absurd rfl hp
      | cons hscan _ =>
        rw [TokenStream.scan_of_fill_error hfill] at hscan
        cases hscan
    | ok =>
      obtain ⟨hstream₀, hne⟩ := TokenStream.terminated_of_fill_ok hc hfill
      rw [evaluate_of_fill_ok hfill, source_evaluateBuffered]
      exact ((TokenStream.yields_of_fill_ok hfill hp).1 hyields).source_eq hstream₀ hne
        htakes.endOfLine_not_mem

end Calls

/-! ## The answers to a queue -/

/-- If the answers to the strings that are still waiting are known, then so are those to the lines
    that are left of a string and to these strings. -/
private theorem answers_of_holds {detailed : Bool} {exitWord : Option (List Char)}
    {lines : List (List Char)}
    (hlines : ∀ c : Calculator LineQueue, c.stream.cursor.rest = [] → c.source = ⟨lines⟩ →
      c.stream.exitWord = exitWord →
      c.answers detailed = queueAnswers detailed exitWord c.symbols lines)
    {line : List Char} {segments : List (List Char)} {c : Calculator LineQueue}
    (h : c.Holds line segments) (hsource : c.source = ⟨lines⟩)
    (hexit : c.stream.exitWord = exitWord) :
    c.answers detailed =
      (lineAnswers detailed line c.stream.position c.symbols segments).1 ++
        queueAnswers detailed exitWord
          (lineAnswers detailed line c.stream.position c.symbols segments).2 lines := by
  induction segments generalizing c with
  | nil => exact hlines c h.rest hsource hexit
  | cons segment segments ih =>
    -- an accepted line leaves the lines behind it, a refused one leaves none
    obtain ⟨hanswer, hsource', hexit', hnext⟩ := h.evaluate_cons detailed
    have hreply := congrArg Prod.fst hanswer
    have hsymbols := congrArg Prod.snd hanswer
    simp only at hreply hsymbols
    have hline : ¬ (c.evaluate detailed).1.isInputError = true := by
      rw [hreply]
      exact segmentAnswer_isInputError
    rw [answers, hanswer, dif_neg hline, lineAnswers]
    cases hresult :
        (segmentAnswer detailed line c.stream.position c.symbols segment).1.result with
    | ok v =>
      simp only [hresult] at hnext ⊢
      rw [ih hnext.1 (hsource'.trans hsource) (hexit'.trans hexit), hnext.2, hsymbols]
      rfl
    | error e =>
      simp only [hresult] at hnext ⊢
      rw [hlines _ hnext.rest (hsource'.trans hsource) (hexit'.trans hexit), hsymbols]
      rfl

/-- Asking a queue for a string drops its first one. -/
theorem lines_readLine (q : LineQueue) : (LineSource.readLine q).2.lines = q.lines.tail := by
  obtain ⟨lines⟩ := q
  cases lines <;> rfl

/-- A calculator whose queue is empty has come to the end of the input. -/
private theorem fill_of_queue_nil {s : TokenStream LineQueue} (hrest : s.cursor.rest = [])
    (hsource : s.source = ⟨[]⟩) : s.fill = (.error .endOfInput, s) := by
  have hread : LineSource.readLine s.source = (.ended, s.source) := by
    rw [hsource]
    rfl
  exact TokenStream.fill_of_ended hrest hread

/-- The first string of a queue is the exit word or goes into the buffer. -/
theorem fill_of_queue_cons {s : TokenStream LineQueue} {line : List Char} {lines : List (List Char)}
    (hrest : s.cursor.rest = []) (hsource : s.source = ⟨line :: lines⟩) :
    s.fill = if s.exitWord = some line then (.error .exit, { s with source := ⟨lines⟩ })
      else (.ok (), { s with source := ⟨lines⟩, cursor := LineCursor.load line }) := by
  have hread : LineSource.readLine s.source = (.line line, ⟨lines⟩) :=
    congrArg LineSource.readLine hsource
  by_cases hexit : s.exitWord = some line
  · rw [if_pos hexit, TokenStream.fill_of_exit hrest hread hexit]
  · rw [if_neg hexit, TokenStream.fill_of_readLine hrest hread hexit]

/-- The answers to a queue are those to its strings, cut into lines. -/
theorem answers_eq {detailed : Bool} {exitWord : Option (List Char)} {lines : List (List Char)}
    {c : Calculator LineQueue} (hrest : c.stream.cursor.rest = []) (hsource : c.source = ⟨lines⟩)
    (hexit : c.stream.exitWord = exitWord) :
    c.answers detailed = queueAnswers detailed exitWord c.symbols lines := by
  -- the induction is on the strings that wait; the lines within a string are a lemma of their own
  induction lines generalizing c with
  | nil =>
    rw [answers, evaluate_of_fill_error (fill_of_queue_nil hrest hsource), queueAnswers]
    rfl
  | cons line lines ih =>
    have hfill := fill_of_queue_cons hrest hsource
    rw [queueAnswers]
    by_cases hword : exitWord = some line
    · rw [hexit, if_pos hword] at hfill
      rw [answers, evaluate_of_fill_error hfill, if_pos hword]
      rfl
    · rw [hexit, if_neg hword] at hfill
      -- the call that pulls the string gives the same answer as one that finds it in the buffer
      let stream : TokenStream LineQueue :=
        ⟨⟨lines⟩, LineCursor.load line, c.stream.text, exitWord⟩
      have hholds : (Calculator.mk stream c.symbols).Holds line (line.splitOn '\n') :=
        ⟨(splitOn_newline line).1, (splitOn_newline line).2.symm, fun _ => rfl⟩
      have heq : c.evaluate detailed = (Calculator.mk stream c.symbols).evaluate detailed := by
        rw [evaluate_of_fill_ok hfill, evaluate_of_fill_ok (TokenStream.fill_of_rest_ne_nil
          (by simp [stream, LineCursor.load]))]
      rw [answers_of_evaluate_eq heq, if_neg hword,
        answers_of_holds (fun c hrest hsource hexit => ih hrest hsource hexit) hholds rfl rfl]
      rfl

/-- Calling a calculator until the input ends gives the answers to the strings of its queue, each
    cut into lines and evaluated line by line.  After any calls, another one comes to its end when
    its tokens are scanned one by one; it pulls nothing while there is something in the buffer, one
    string at most when there is nothing, and nothing behind the first token of a line. -/
theorem evaluate_isolates_lines (lines : List (List Char)) (exitWord : Option (List Char))
    (t : SymbolTable) :
    let c₀ : Calculator LineQueue := ⟨TokenStream.new ⟨lines⟩ exitWord, t⟩
    (∀ detailed, c₀.answers detailed = queueAnswers detailed exitWord t lines) ∧
    ∀ c, c₀.Reachable c → ∀ detailed,
      c.evaluateByScanning detailed = .ok (c.evaluate detailed) ∧
      (c.stream.cursor.rest ≠ [] → (c.evaluate detailed).2.source = c.source) ∧
      (c.stream.cursor.rest = [] →
        (c.evaluate detailed).2.source.lines = c.source.lines.tail) ∧
      ∀ p s stream, p ≠ [] → (LineState.start c.symbols detailed).Takes p s →
        c.stream.Yields p stream → stream.source = (c.evaluate detailed).2.source := by
  intro c₀
  refine ⟨fun detailed => answers_eq rfl rfl rfl, fun c hc detailed => ?_⟩
  have hterminated := hc.terminated (LineCursor.terminated_of_rest_eq_nil rfl)
  refine ⟨evaluateByScanning_eq hterminated detailed,
    fun hne => source_evaluate_of_rest_ne_nil hne detailed, fun hnil => ?_,
    fun p s stream hp htakes hyields => source_of_yields hterminated hp htakes hyields⟩
  rw [source_evaluate_of_rest_eq_nil hnil]
  exact lines_readLine c.source

/-- The string with the lines `=` and `2` is refused at its first character, and the `2` is dropped;
    the exit word comes next. -/
theorem answers_of_refused_string :
    let c : Calculator LineQueue :=
      ⟨TokenStream.new ⟨[['=', '\n', '2'], ['q']]⟩ (some ['q']), SymbolTable.empty⟩
    (c.answers false).map (fun answer => answer.1.result) =
      [.error (.rejected ⟨.unexpected .assign "at start of expression", ['=', '\n', '2', '\n'], 0⟩),
        .error (.input .exit)] := by
  intro c
  have hlexemes : Lexeme.line ['=', '\n'] = [⟨0, ['='], .assign⟩, ⟨0, ['\n'], .endOfLine⟩] := by
    rw [Lexeme.line_of_some rfl, if_neg (by decide), Lexeme.line_of_some rfl, if_pos rfl]
  have hanswer : segmentAnswer false ['=', '\n', '2'] 0 SymbolTable.empty ['='] =
      (⟨.error (.rejected
        ⟨.unexpected .assign "at start of expression", ['=', '\n', '2', '\n'], 0⟩), []⟩,
        SymbolTable.empty) := by
    rw [segmentAnswer, lineTokens, List.singleton_append, hlexemes]
    rfl
  have hsplit : ['=', '\n', '2'].splitOn '\n' = [['='], ['2']] := by
    simp [List.splitOn_cons_eq_if_modifyHead]
  rw [(evaluate_isolates_lines _ _ _).1 false]
  simp [queueAnswers, lineAnswers, hsplit, hanswer]

end Calculator

end DeskCalc
