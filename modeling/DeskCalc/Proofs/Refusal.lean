import DeskCalc.Proofs.Evaluation

/-!
# Refused lines

A line is refused at the first token behind which no accepted line goes on.  A prefix that can still
be completed is completed with a zero, or with as many `+` as there are expressions too many; each
token of it is written out as it was read.

## Key results

- `Draft.exists_completion`: every draft can be completed to a sentence
- `viable_iff`: the prefixes of a line that can be completed are those in front of its refusal
- `Decides.refusal`: the reason for a refusal, by the tokens before it and the depth of the stack
- `evaluate_refuses_at_first_nonviable`: the two for the answer of a calculator
-/

namespace DeskCalc

/-! ## Completing a draft -/

/-- The expressions of a non-empty draft, the latest first, added up. -/
def Expr.total : Expr → List Expr → Expr
  | e, [] => e
  | right, left :: below => total (.binary .add left right) below

/-- Adding up the expressions of a draft writes one `+` for each expression below the one on top. -/
private theorem Draft.tokens_total (target? : Option String) (e : Expr) (below : List Expr) :
    (Sentence.mk target? (e.total below)).tokens =
      Draft.tokens ⟨target?, e :: below⟩ ++ List.replicate below.length (.binary .add) := by
  induction below generalizing e with
  | nil => simp [Sentence.tokens, Draft.tokens, Expr.total]
  | cons left below ih =>
    rw [Expr.total, ih, tokens_cons, tokens_cons, tokens_cons, Expr.tokens, List.length_cons,
      List.replicate_succ]
    simp only [List.append_assoc, List.singleton_append]

namespace Lexeme

/-- The number zero. -/
def zero : Lexeme := ⟨0, ['0'], .number (Decimal.readLiteral ['0'])⟩

/-- The operator `+`. -/
def plus : Lexeme := ⟨0, ['+'], .binary .add⟩

/-- A lexeme that can stand anywhere in a line. -/
def IsInner (l : Lexeme) : Prop := l.Standalone ∧ l.token ≠ .endOfLine

/-- Zero can stand anywhere in a line. -/
private theorem isInner_zero : zero.IsInner := ⟨rfl, by simp [zero]⟩

/-- `+` can stand anywhere in a line. -/
private theorem isInner_plus : plus.IsInner := ⟨rfl, by simp [plus]⟩

/-- What the scanner cuts out of a line without an end can stand anywhere in a line. -/
private theorem isInner_of_mem_line {line : List Char} (hline : '\n' ∉ line) {l : Lexeme}
    (hl : l ∈ Lexeme.line line) : l.IsInner :=
  ⟨standalone_of_mem_line hl, token_ne_endOfLine_of_mem_line hline hl⟩

/-- The length of lexemes written out with the same gap before each of them. -/
private theorem length_flatMap_written_withGap (gap : Nat) (ls : List Lexeme) :
    ((ls.map (withGap gap)).flatMap written).length =
      gap * ls.length + totalSize (ls.map (withGap 0)) := by
  induction ls with
  | nil => rfl
  | cons l ls ih =>
    rw [List.map_cons, List.flatMap_cons, List.length_append, ih, length_written, List.map_cons,
      totalSize_cons, List.length_cons, Nat.mul_succ, size, size]
    simp only [withGap]
    omega

end Lexeme

/-- Every draft can be completed to a sentence. -/
theorem Draft.exists_completion (d : Draft) :
    ∃ ls : List Lexeme, (∀ l ∈ ls, l.IsInner) ∧
      ∃ s : Sentence, s.tokens = d.tokens ++ ls.map Lexeme.token := by
  obtain ⟨target?, waiting⟩ := d
  cases waiting with
  | nil =>
    refine ⟨[Lexeme.zero], by simp [Lexeme.isInner_zero],
      ⟨target?, .number (Decimal.readLiteral ['0'])⟩, ?_⟩
    simp [Sentence.tokens, Draft.tokens, Expr.tokens, Lexeme.zero]
  | cons e below =>
    -- one `+` for each expression below the one on top
    refine ⟨List.replicate below.length Lexeme.plus, fun l hl => ?_, ⟨target?, e.total below⟩, ?_⟩
    · rw [List.eq_of_mem_replicate hl]
      exact Lexeme.isInner_plus
    · rw [Draft.tokens_total, List.map_replicate]
      rfl

/-- Lexemes can be written out as a line in more than one way, so there is one that is not the exit
    word. -/
private theorem exists_line_of_lexemes {ls : List Lexeme} (hne : ls ≠ []) (h : ∀ l ∈ ls, l.IsInner)
    (exitWord : Option (List Char)) :
    ∃ line, '\n' ∉ line ∧ exitWord ≠ some line ∧ lineTokens line = ls.map Lexeme.token := by
  -- one gap more before every lexeme makes a line with the same tokens, but a longer one
  let line (gap : Nat) : List Char := (ls.map (Lexeme.withGap (gap + 1))).flatMap Lexeme.written
  have hspaced (gap : Nat) : ∀ l ∈ ls.map (Lexeme.withGap (gap + 1)),
      l.Standalone ∧ 0 < l.gap ∧ l.token ≠ .endOfLine := by
    intro l hl
    obtain ⟨l', hl', rfl⟩ := List.mem_map.1 hl
    exact ⟨(h l' hl').1, Nat.succ_pos gap, (h l' hl').2⟩
  have hnewline (gap : Nat) : '\n' ∉ line gap :=
    Lexeme.newline_not_mem_flatMap_written (fun l hl => (hspaced gap l hl).1)
      fun l hl => (hspaced gap l hl).2.2
  have htokens (gap : Nat) : lineTokens (line gap) = ls.map Lexeme.token := by
    rw [lineTokens_eq (hnewline gap), Lexeme.line_flatMap_written (hspaced gap), List.map_map]
    rfl
  by_cases hexit : exitWord = some (line 0)
  · refine ⟨line 1, hnewline 1, fun hexit' => ?_, htokens 1⟩
    have hlength := congrArg List.length (Option.some.inj (hexit.symm.trans hexit'))
    have hpos := List.length_pos_iff.2 hne
    simp only [line, Lexeme.length_flatMap_written_withGap] at hlength
    omega
  · exact ⟨line 0, hnewline 0, hexit, htokens 0⟩


/-! ## Prefixes of accepted lines -/

/-- A calculator with the variables `t` accepts the line. -/
def Accepts (exitWord : Option (List Char)) (t : SymbolTable) (line : List Char) : Prop :=
  '\n' ∉ line ∧ exitWord ≠ some line ∧
    ∃ v, ((Calculator.mk (TokenStream.new (LineQueue.mk [line]) exitWord) t).evaluate
      false).1.result = .ok v

/-- The tokens start a line that is accepted, its end included. -/
def Viable (exitWord : Option (List Char)) (t : SymbolTable) (ts : List Token) : Prop :=
  ∃ line, Accepts exitWord t line ∧ ts <+: lineTokens line ++ [.endOfLine]

/-- A line is accepted, whatever the variables are, if its tokens are those of a sentence. -/
private theorem accepts_iff {exitWord : Option (List Char)} {t : SymbolTable} {line : List Char} :
    Accepts exitWord t line ↔
      '\n' ∉ line ∧ exitWord ≠ some line ∧ ∃ s : Sentence, s.tokens = lineTokens line := by
  refine and_congr_right fun hline => and_congr_right fun hexit => ?_
  have hawaits : (Calculator.mk (TokenStream.new (LineQueue.mk [line]) exitWord) t).Awaits line :=
    ⟨rfl, ⟨_, rfl⟩, hexit⟩
  obtain ⟨hresult, -⟩ := hawaits.evaluate_eq hline false
  simp only [hresult, evaluateLine_eq_ok_iff t false _ (endOfLine_not_mem_lineTokens hline)]
  constructor
  · rintro ⟨v, s, hs, -⟩
    exact ⟨s, hs⟩
  · rintro ⟨s, hs⟩
    exact ⟨_, s, hs, rfl⟩

/-- `Viable` goes over to shorter prefixes. -/
private theorem Viable.anti {exitWord : Option (List Char)} {t : SymbolTable} {ts us : List Token}
    (h : Viable exitWord t us) (hts : ts <+: us) : Viable exitWord t ts := by
  obtain ⟨line, haccepts, hus⟩ := h
  exact ⟨line, haccepts, hts.trans hus⟩

/-- What has been taken of a line starts a line that is accepted. -/
private theorem LineState.Takes.viable {t : SymbolTable} {detailed : Bool} {s : LineState}
    {ls : List Lexeme} (h : (LineState.start t detailed).Takes (ls.map Lexeme.token) s)
    (hls : ∀ l ∈ ls, l.IsInner) (exitWord : Option (List Char)) (t' : SymbolTable) :
    Viable exitWord t' (ls.map Lexeme.token) := by
  -- the tokens are those of a draft; its completion is written out behind them
  obtain ⟨d, hd⟩ := h.exists_draft
  obtain ⟨ls', hls', sentence, hsentence⟩ := d.exists_completion
  rw [hd.tokens, ← List.map_append] at hsentence
  have hne : ls ++ ls' ≠ [] := by
    intro hnil
    rw [hnil] at hsentence
    exact sentence.tokens_ne_nil hsentence
  have hinner : ∀ l ∈ ls ++ ls', l.IsInner := by
    intro l hl
    exact (List.mem_append.1 hl).elim (hls l) (hls' l)
  obtain ⟨line, hline, hexit, htokens⟩ := exists_line_of_lexemes hne hinner exitWord
  refine ⟨line, accepts_iff.2 ⟨hline, hexit, sentence, hsentence.trans htokens.symm⟩, ?_⟩
  rw [htokens, List.map_append, List.append_assoc]
  exact List.prefix_append _ _

/-- Behind a token that is refused, no accepted line goes on. -/
private theorem LineState.Decides.not_viable {t : SymbolTable} {detailed : Bool} {p : List Token}
    {s : LineState} {token : Token} {o : Outcome} {r : Rejection}
    (htakes : (LineState.start t detailed).Takes p s) (hdecides : s.Decides token o)
    (hresult : o.result = .error r) (exitWord : Option (List Char)) (t' : SymbolTable) :
    ¬ Viable exitWord t' (p ++ [token]) := by
  rintro ⟨line, haccepts, q, hq⟩
  obtain ⟨hline, -, sentence, hsentence⟩ := accepts_iff.1 haccepts
  -- the line would be accepted here as well, but the token at which it is decided refuses it
  have hok := (evaluateLine_eq_ok_iff t detailed _ (endOfLine_not_mem_lineTokens hline) _).2
    ⟨sentence, hsentence, rfl⟩
  rw [← hq, List.append_assoc, evaluateLine, List.singleton_append,
    htakes.run_of_decides hdecides] at hok
  cases hresult.symm.trans hok

/-- Where a line is refused: the prefixes of its tokens that start an accepted line are those in
    front of the token that is refused. -/
theorem viable_iff {t : SymbolTable} {detailed : Bool} {line : List Char} (hline : '\n' ∉ line)
    {p q : List Token} {s : LineState} {token : Token} {o : Outcome} {r : Rejection}
    (happend : lineTokens line ++ [.endOfLine] = p ++ token :: q)
    (htakes : (LineState.start t detailed).Takes p s) (hdecides : s.Decides token o)
    (hresult : o.result = .error r) (exitWord : Option (List Char)) (t' : SymbolTable)
    {ts : List Token} (hts : ts <+: lineTokens line ++ [.endOfLine]) :
    Viable exitWord t' ts ↔ ts.length ≤ p.length := by
  have hp : p ++ [token] <+: lineTokens line ++ [.endOfLine] := ⟨q, by rw [happend]; simp⟩
  constructor
  · intro hviable
    -- a longer prefix holds the token that is refused
    by_contra hlength
    refine hdecides.not_viable htakes hresult exitWord t' (hviable.anti ?_)
    refine List.prefix_of_prefix_length_le hp hts ?_
    rw [List.length_append, List.length_singleton]
    omega
  · intro hlength
    -- the tokens before the refusal come from lexemes, which can be written out again
    have hpline : p <+: lineTokens line := by
      rcases append_endOfLine_cases happend (endOfLine_not_mem_lineTokens hline) with h | h
      · exact h.2 ▸ List.prefix_rfl
      · exact (List.prefix_append p [token]).trans h.2
    obtain ⟨rest, hrest⟩ := hpline
    rw [lineTokens_eq hline] at hrest
    obtain ⟨ls, ls', hls, rfl, -⟩ := List.map_eq_append_iff.1 hrest.symm
    have hinner : ∀ l ∈ ls, l.IsInner := fun l hl =>
      Lexeme.isInner_of_mem_line hline (hls ▸ List.mem_append_left ls' hl)
    refine (htakes.viable hinner exitWord t').anti ?_
    exact List.prefix_of_prefix_length_le hts ((List.prefix_append _ _).trans hp) hlength


/-! ## The reason for a refusal -/

/-- Why the token `t` is refused behind the tokens `p`, which leave `d` operands on the stack. -/
inductive Refusal : List Token → Token → Nat → Rejection → Prop
  | lexical (p : List Token) (d : Nat) (c : Char) : Refusal p (.invalid c) d (.lexical c)
  | first {t : Token} (ht : (∃ op, t = .binary op) ∨ t = .negate ∨ t = .assign ∨ t = .endOfLine) :
      Refusal [] t 0 (.unexpected t Phase.start.describe)
  | assign {p : List Token} (d : Nat) (hp : p ≠ []) (hname : ∀ n, p ≠ [.name n]) :
      Refusal p .assign d (.unexpected .assign (Phase.after p).describe)
  | binary {p : List Token} {d : Nat} (op : BinaryOp) (hp : p ≠ []) (hd : d < 2) :
      Refusal p (.binary op) d (.underflow op.symbol 2 d)
  | negate (n : String) : Refusal [.name n, .assign] .negate 0 (.underflow '~' 1 0)
  | nothing (n : String) : Refusal [.name n, .assign] .endOfLine 0 .nothingToCommit
  | residual {p : List Token} {d : Nat} (hp : p ≠ []) (hassign : ∀ n, p ≠ [.name n, .assign])
      (hd : 2 ≤ d) : Refusal p .endOfLine d (.residual d)

namespace LineState

/-- Behind the first token, the stack is empty exactly when the target has just been named. -/
private theorem Takes.stack_eq_nil_iff {t : SymbolTable} {detailed : Bool} {s : LineState}
    {p : List Token} (h : (start t detailed).Takes p s) (hp : p ≠ []) :
    s.stack.values = [] ↔ ∃ n, p = [.name n, .assign] := by
  constructor
  · intro hstack
    -- the stack holds the values of the waiting expressions, so the draft is just its target
    obtain ⟨⟨target?, waiting⟩, hd⟩ := h.exists_draft
    have hwaiting : waiting = [] := List.map_eq_nil_iff.1 (hd.stack.symm.trans hstack)
    subst hwaiting
    cases target? with
    | none => exact absurd hd.tokens.symm hp
    | some n => exact ⟨n, hd.tokens.symm⟩
  · rintro ⟨n, rfl⟩
    obtain ⟨s₁, -, h⟩ := h.exists_of_cons
    obtain ⟨s₂, hassign, h⟩ := h.exists_of_cons
    cases hassign
    rw [h.eq_of_nil]
    rfl

/-- The reason for which a token in front of the end of the line is refused. -/
theorem Refuses.refusal {t : SymbolTable} {detailed : Bool} {p : List Token} {s : LineState}
    {token : Token} {r : Rejection} (htakes : (start t detailed).Takes p s)
    (h : s.Refuses token r) : Refusal p token s.stack.size r := by
  -- in the first phase nothing has been taken, so `p` is empty there
  have hstart := htakes.phase_eq_start_iff
  cases h with
  | lexical c => exact .lexical p _ c
  | negateFirst hphase =>
    obtain rfl := hstart.1 hphase
    rw [htakes.eq_of_nil]
    exact .first (by simp)
  | combineFirst op hphase =>
    obtain rfl := hstart.1 hphase
    rw [htakes.eq_of_nil]
    exact .first (by simp)
  | assign hphase =>
    obtain ⟨d, hd⟩ := htakes.exists_draft
    by_cases hp : p = []
    · subst hp
      rw [htakes.eq_of_nil]
      exact .first (by simp)
    · rw [hd.phase]
      refine .assign _ hp fun n hn => hphase n ?_
      rw [hd.phase]
      exact Phase.after_eq_afterName_iff.2 hn
  | negate hphase hstack =>
    obtain ⟨n, rfl⟩ := (htakes.stack_eq_nil_iff (mt hstart.2 hphase)).1 hstack
    rw [OperandStack.size, hstack]
    exact .negate n
  | combine op hphase hstack => exact .binary op (mt hstart.2 hphase) hstack

/-- The reason for which a line is refused at its end. -/
private theorem Takes.refusal_of_finish {t : SymbolTable} {detailed : Bool} {p : List Token}
    {s : LineState} {r : Rejection} (htakes : (start t detailed).Takes p s)
    (hresult : s.finish.result = .error r) : Refusal p .endOfLine s.stack.size r := by
  by_cases hphase : s.phase = .start
  · obtain rfl := htakes.phase_eq_start_iff.1 hphase
    rw [finish_of_start hphase, htakes.eq_of_nil] at hresult
    cases hresult
    rw [htakes.eq_of_nil]
    exact .first (by simp)
  · have hp := mt htakes.phase_eq_start_iff.2 hphase
    cases hstack : s.stack.values with
    | nil =>
      obtain ⟨n, rfl⟩ := (htakes.stack_eq_nil_iff hp).1 hstack
      rw [finish_of_nil hphase hstack] at hresult
      cases hresult
      rw [OperandStack.size, hstack]
      exact .nothing n
    | cons v below =>
      rw [finish_of_cons hphase hstack] at hresult
      cases below with
      | nil => cases hresult
      | cons w below =>
        cases hresult
        -- behind `n =` alone the stack would be empty
        refine .residual hp (fun n hn => ?_) (by simp [OperandStack.size, hstack])
        rw [(htakes.stack_eq_nil_iff hp).2 ⟨n, hn⟩] at hstack
        cases hstack

/-- The reason for a refusal is determined by the tokens before it and the depth of the stack. -/
theorem Decides.refusal {t : SymbolTable} {detailed : Bool} {p : List Token} {s : LineState}
    {token : Token} {o : Outcome} {r : Rejection} (htakes : (start t detailed).Takes p s)
    (hdecides : s.Decides token o) (hresult : o.result = .error r) :
    Refusal p token s.stack.size r := by
  cases hdecides with
  | endOfLine => exact htakes.refusal_of_finish hresult
  | refused ht hr =>
    cases hresult
    exact hr.refusal htakes

end LineState

/-! ## The refusal of a line by a calculator -/

namespace Calculator

variable {σ : Type} [LineSource σ]

/-- A line that a calculator refuses is refused at the first token that no accepted line has in its
    place: the shorter prefixes can be completed, and nothing behind that token has been scanned.
    The reason is determined by the tokens before it and the depth of the stack. -/
theorem evaluate_refuses_at_first_nonviable (c : Calculator σ) (line : List Char)
    (h : c.Awaits line) (hline : '\n' ∉ line) (detailed : Bool) (d : Diagnostic)
    (hd : (c.evaluate detailed).1.result = .error (.rejected d)) :
    ∃ p t s stream, p ++ [t] <+: lineTokens line ++ [.endOfLine] ∧
      (∀ symbols ts, ts <+: lineTokens line ++ [.endOfLine] →
        (Viable c.stream.exitWord symbols ts ↔ ts.length ≤ p.length)) ∧
      (LineState.start c.symbols detailed).Takes p s ∧ Refusal p t s.stack.size d.rejection ∧
      c.stream.Yields (p ++ [t]) stream ∧ d.line = line ++ ['\n'] ∧
      d.column + 1 = stream.position ∧ (c.evaluate detailed).2.stream = stream.flush := by
  obtain ⟨p, t, q, s, stream, o, happend, hverdict, heq, hcurrent, hpos⟩ :=
    h.exists_verdict hline detailed
  obtain ⟨htakes, hdecides, hyields⟩ := hverdict
  rw [heq] at hd ⊢
  obtain ⟨r, hresult, rfl⟩ := result_settle_eq_rejected_iff.1 hd
  refine ⟨p, t, s, stream, ⟨q, by rw [happend]; simp⟩, fun symbols ts hts => ?_, htakes,
    hdecides.refusal htakes hresult, hyields, hcurrent, Nat.sub_add_cancel hpos, ?_⟩
  · exact viable_iff hline happend htakes hdecides hresult _ symbols hts
  · simp only [settle, hresult]

/-- The line `1 +` is refused at `+`, with one operand on the stack. -/
theorem evaluate_refuses_missing_operand :
    let c : Calculator LineQueue := new ⟨[['1', ' ', '+']]⟩ none
    let d : Diagnostic := ⟨.underflow '+' 2 1, ['1', ' ', '+', '\n'], 2⟩
    (c.evaluate false).1.result = .error (.rejected d) ∧
      ∃ p t s, (LineState.start c.symbols false).Takes p s ∧ Refusal p t s.stack.size d.rejection ∧
        ∀ symbols, Viable none symbols p ∧ ¬ Viable none symbols (p ++ [t]) := by
  intro c d
  -- the scanner recurses on the length of the line, so its lexemes are cut off one by one
  have hlexemes : Lexeme.line ['1', ' ', '+', '\n'] =
      [⟨0, ['1'], .number (Decimal.readLiteral ['1'])⟩, ⟨1, ['+'], .binary .add⟩] ++
        Lexeme.line ['\n'] := by
    rw [Lexeme.line_of_some rfl, if_neg (by simp), Lexeme.line_of_some rfl, if_neg (by decide)]
    rfl
  have houtcome : evaluateLine c.symbols false
      ((Lexeme.line ['1', ' ', '+', '\n']).map Lexeme.token) =
        ⟨.error d.rejection, c.symbols, Trace.start false, 2⟩ := by
    rw [hlexemes]
    rfl
  have hd : (c.evaluate false).1.result = .error (.rejected d) := by
    have hbuffered := evaluateBuffered_of_error (c := { c with stream := { c.stream with
      source := LineQueue.empty, cursor := LineCursor.load ['1', ' ', '+'] } }) houtcome rfl
    rw [show c.evaluate false = _ from hbuffered]
    simp only [LineCursor.load, List.cons_append, List.nil_append, hlexemes]
    rfl
  obtain ⟨p, t, s, -, hprefix, hviable, htakes, hrefusal, -⟩ := evaluate_refuses_at_first_nonviable
    c _ ⟨rfl, ⟨_, rfl⟩, by simp [c, new, TokenStream.new]⟩ (by decide) false d hd
  refine ⟨hd, p, t, s, htakes, hrefusal, fun symbols => ⟨?_, ?_⟩⟩
  · exact (hviable symbols p ((List.prefix_append p [t]).trans hprefix)).2 (Nat.le_refl _)
  · intro h
    have hlength := (hviable symbols (p ++ [t]) hprefix).1 h
    rw [List.length_append, List.length_singleton] at hlength
    omega

end Calculator

end DeskCalc
