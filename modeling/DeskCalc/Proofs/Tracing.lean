import DeskCalc.Proofs.Frame
import DeskCalc.Proofs.Interruptions
import DeskCalc.Proofs.Negation

/-!
# The steps of an evaluation

What a reader who asks for details gets to see.  Each token that is taken adds its step at once:
a name its value, an operator what it made of its operands, a number and `=` nothing.  The store at
the end of the line adds the last one.  Of an accepted line these are the nodes of its expression,
number literals apart, in the order in which postfix notation spells them.

## Key results

- `Step.addSteps`, `Takes.addSteps`, `Decides.addSteps`: the steps that one token adds, those of a
  list of tokens, and those of the token that decides the line
- `stepsOf_tokens_append`: the steps of an expression that is spelt
- `Verdict.withDetailed`: a line is decided in the same way whether its steps are kept or not
- `evaluate_trace`: the steps of a call, and that keeping them changes nothing else
-/

namespace DeskCalc

/-! ## The steps of tokens -/

namespace Step

/-- The value of a variable is read. -/
def read (name : String) (value : Float) : Step := ⟨name, value⟩

/-- An operand is negated. -/
def negate (operand : Float) : Step := ⟨"~ " ++ Decimal.valueText operand, -operand⟩

/-- Two operands are combined. -/
def combine (op : BinaryOp) (left right : Float) : Step :=
  ⟨Decimal.valueText left ++ " " ++ op.symbol.toString ++ " " ++ Decimal.valueText right,
    op.apply left right⟩

/-- A value is stored. -/
def store (target : String) (value : Float) : Step :=
  ⟨target ++ " = " ++ Decimal.valueText value, value⟩

end Step

/-- The step that taking a token adds, over the operands that wait before it. -/
def Token.step? (t : SymbolTable) : List Float → Token → Option Step
  | _, .name n => some (.read n (t.value n))
  | v :: _, .negate => some (.negate v)
  | right :: left :: _, .binary op => some (.combine op left right)
  | _, _ => none

/-- The operands that wait after a token has been taken. -/
def Token.operands (t : SymbolTable) : List Float → Token → List Float
  | vs, .number x => x :: vs
  | vs, .name n => t.value n :: vs
  | v :: vs, .negate => -v :: vs
  | right :: left :: vs, .binary op => op.apply left right :: vs
  | _, .assign => []
  | vs, _ => vs

/-- The steps that taking tokens adds, one token after the other. -/
def stepsOf (t : SymbolTable) : List Float → List Token → List Step
  | _, [] => []
  | vs, token :: ts => (token.step? t vs).toList ++ stepsOf t (token.operands t vs) ts

/-- The step that the token that decides a line adds: an end stores the value on top, if any. -/
def Token.finalSteps (target : String) : List Float → Token → List Step
  | v :: _, .endOfLine => [.store target v]
  | _, _ => []

/-- The nodes of an expression, number literals apart, each behind those of its operands. -/
def Expr.steps (t : SymbolTable) : Expr → List Step
  | number _ => []
  | name n => [.read n (t.value n)]
  | negate e => e.steps t ++ [.negate (e.value t)]
  | binary op left right =>
    left.steps t ++ right.steps t ++ [.combine op (left.value t) (right.value t)]

/-- The steps of a sentence: the target is read if it is named, the expression is evaluated, and its
    value is stored. -/
def Sentence.steps (t : SymbolTable) (s : Sentence) : List Step :=
  (s.target?.map fun n => Step.read n (t.value n)).toList ++ s.body.steps t ++
    [.store s.target (s.body.value t)]

/-- The tokens of an expression add its steps and leave its value on top. -/
theorem stepsOf_tokens_append (t : SymbolTable) (e : Expr) (vs : List Float) (ts : List Token) :
    stepsOf t vs (e.tokens ++ ts) = e.steps t ++ stepsOf t (e.value t :: vs) ts := by
  induction e generalizing vs ts with
  | number x => rfl
  | name n => rfl
  | negate e ih =>
    rw [Expr.tokens, List.append_assoc, ih, Expr.steps, List.append_assoc]
    rfl
  | binary op left right ihl ihr =>
    rw [Expr.tokens, List.append_assoc, List.append_assoc, ihl, ihr, Expr.steps,
      List.append_assoc, List.append_assoc]
    rfl

/-- The steps of a sentence are those of its tokens and the store. -/
private theorem Sentence.steps_eq (t : SymbolTable) (s : Sentence) :
    s.steps t = stepsOf t [] s.tokens ++ [.store s.target (s.body.value t)] := by
  obtain ⟨target?, body⟩ := s
  have hbody := stepsOf_tokens_append t body [] []
  rw [List.append_nil, stepsOf, List.append_nil] at hbody
  cases target? with
  | none =>
    rw [steps, tokens, targetTokens, List.nil_append, hbody]
    rfl
  | some n =>
    -- the target is read as an operand first, and the `=` behind it drops that operand
    have htarget : stepsOf t [] (targetTokens (some n) ++ body.tokens) =
        .read n (t.value n) :: stepsOf t [] body.tokens := rfl
    rw [steps, tokens, htarget, hbody]
    rfl

/-- A sentence stores in the variable that its tokens name. -/
private theorem Sentence.targetOf_tokens (s : Sentence) : targetOf s.tokens = s.target := by
  obtain ⟨target?, body⟩ := s
  have htarget := Draft.targetOf_tokens ⟨target?, [body]⟩
  have htokens : Draft.tokens ⟨target?, [body]⟩ = Sentence.tokens ⟨target?, body⟩ := by
    simp [Draft.tokens, Sentence.tokens]
  rwa [htokens] at htarget

/-! ## Keeping steps -/

namespace Trace

/-- Adds several steps if details are asked for. -/
def addSteps (tr : Trace) (steps : List Step) : Trace :=
  if tr.detailed then { tr with steps := tr.steps ++ steps } else tr

/-- Adding no steps changes nothing. -/
@[simp] private theorem addSteps_nil (tr : Trace) : tr.addSteps [] = tr := by
  simp [addSteps]

/-- Steps may be added in two parts. -/
private theorem addSteps_append (tr : Trace) (steps more : List Step) :
    tr.addSteps (steps ++ more) = (tr.addSteps steps).addSteps more := by
  unfold addSteps
  cases hdetailed : tr.detailed <;> simp [hdetailed]

/-- A new trace has the steps that are added, if details are asked for. -/
private theorem steps_addSteps_start (detailed : Bool) (steps : List Step) :
    ((start detailed).addSteps steps).steps = if detailed then steps else [] := by
  cases detailed <;> rfl

end Trace

namespace LineState

/-- The line with another trace. -/
def withTrace (s : LineState) (trace : Trace) : LineState := { s with trace }

variable {t : SymbolTable} {s s' : LineState} {token : Token}

/-- A token that is taken adds its step and does to the operands what it says. -/
theorem Step.addSteps (h : Step s token s') (hvalue : ∀ n, s.symbols.value n = t.value n) :
    s'.trace = s.trace.addSteps (token.step? t s.stack.values).toList ∧
      s'.stack.values = token.operands t s.stack.values ∧
      ∀ n, s'.symbols.value n = t.value n := by
  cases h with
  | number x => exact ⟨(Trace.addSteps_nil _).symm, rfl, hvalue⟩
  | name n =>
    simp only [pushName, SymbolTable.fetch_eq, hvalue n]
    exact ⟨rfl, rfl, fun m => (SymbolTable.value_touch s.symbols n m).trans (hvalue m)⟩
  | negate hphase hstack =>
    -- the step shows the operand, which is got back by negating its negative
    rw [hstack, Binary64.neg_neg]
    exact ⟨rfl, rfl, hvalue⟩
  | combine op hphase hstack =>
    rw [hstack]
    exact ⟨rfl, rfl, hvalue⟩
  | assign n hphase =>
    -- the step of the target was added when its name was read as an operand
    refine ⟨?_, rfl, hvalue⟩
    cases s.stack.values <;> exact (Trace.addSteps_nil _).symm

/-- Tokens that are taken add their steps. -/
theorem Takes.addSteps {ts : List Token} (h : Takes s ts s')
    (hvalue : ∀ n, s.symbols.value n = t.value n) :
    s'.trace = s.trace.addSteps (stepsOf t s.stack.values ts) := by
  induction ts generalizing s with
  | nil =>
    rw [h.eq_of_nil]
    exact (Trace.addSteps_nil _).symm
  | cons token ts ih =>
    obtain ⟨s₁, hstep, htakes⟩ := h.exists_of_cons
    obtain ⟨htrace, hstack, hvalue₁⟩ := hstep.addSteps hvalue
    rw [ih htakes hvalue₁, htrace, hstack, stepsOf, Trace.addSteps_append]

/-- A token that stores no value adds no step at the end. -/
private theorem finalSteps_of_not_stores {target : String} (h : ¬ s.Stores token) :
    token.finalSteps target s.stack.values = [] := by
  unfold Token.finalSteps
  split
  · next hstack =>
    -- the end of a line with a value on top does store it
    refine absurd ⟨rfl, ?_⟩ h
    rw [hstack]
    exact List.cons_ne_nil _ _
  · rfl

/-- Of the tokens that decide a line, only an end that stores a value adds a step. -/
theorem Decides.addSteps {o : Outcome} (h : s.Decides token o)
    (hphase : s.stack.values ≠ [] → s.phase ≠ .start) :
    o.trace = s.trace.addSteps (token.finalSteps s.target s.stack.values) := by
  cases h with
  | refused ht hr => rw [finalSteps_of_not_stores fun hs => ht hs.1, Trace.addSteps_nil]
  | endOfLine =>
    cases hstack : s.stack.values with
    | cons v below =>
      rw [finish_of_cons (hphase (by rw [hstack]; exact List.cons_ne_nil v below)) hstack]
      rfl
    | nil =>
      by_cases hstart : s.phase = .start
      · rw [finish_of_start hstart]
        exact (Trace.addSteps_nil _).symm
      · rw [finish_of_nil hstart hstack]
        exact (Trace.addSteps_nil _).symm

/-! ## The trace decides nothing -/

/-- A token is taken whatever the trace is. -/
private theorem Step.withTrace (h : Step s token s') (trace : Trace) :
    ∃ trace', Step (s.withTrace trace) token (s'.withTrace trace') := by
  cases h with
  | number x => exact ⟨_, .number x⟩
  | name n => exact ⟨_, .name n⟩
  | negate hphase hstack => exact ⟨_, .negate hphase hstack⟩
  | combine op hphase hstack => exact ⟨_, .combine op hphase hstack⟩
  | assign n hphase => exact ⟨_, .assign n hphase⟩

/-- Tokens are taken whatever the trace is. -/
private theorem Takes.withTrace {ts : List Token} (h : Takes s ts s') (trace : Trace) :
    ∃ trace', Takes (s.withTrace trace) ts (s'.withTrace trace') := by
  induction h with
  | nil => exact ⟨trace, .nil⟩
  | snoc _ hstep ih =>
    obtain ⟨trace₁, htakes⟩ := ih
    -- the last token is taken from the trace that the others leave
    obtain ⟨trace₂, hstep⟩ := hstep.withTrace trace₁
    exact ⟨trace₂, htakes.snoc hstep⟩

/-- A token is refused whatever the trace is. -/
private theorem Refuses.withTrace {r : Rejection} (h : Refuses s token r) (trace : Trace) :
    Refuses (s.withTrace trace) token r :=
  h.congr rfl rfl

/-- The end of a line decides the same whatever the trace is. -/
private theorem finish_withTrace (s : LineState) (trace : Trace) :
    ∃ trace', (s.withTrace trace).finish = { s.finish with trace := trace' } := by
  by_cases hphase : s.phase = .start
  · have hphase' : (s.withTrace trace).phase = .start := hphase
    refine ⟨trace, ?_⟩
    rw [finish_of_start hphase, finish_of_start hphase']
    rfl
  · have hphase' : (s.withTrace trace).phase ≠ .start := hphase
    cases hstack : s.stack.values with
    | nil =>
      have hstack' : (s.withTrace trace).stack.values = [] := hstack
      refine ⟨trace, ?_⟩
      rw [finish_of_nil hphase hstack, finish_of_nil hphase' hstack']
      rfl
    | cons v below =>
      have hstack' : (s.withTrace trace).stack.values = v :: below := hstack
      -- here the trace does change, by the step of the store
      refine ⟨trace.addSteps [.store s.target v], ?_⟩
      rw [finish_of_cons hphase hstack, finish_of_cons hphase' hstack']
      rfl

/-- A line is decided in the same way whatever the trace is. -/
private theorem Decides.withTrace {o : Outcome} (h : s.Decides token o) (trace : Trace) :
    ∃ trace', (s.withTrace trace).Decides token { o with trace := trace' } := by
  cases h with
  | endOfLine =>
    obtain ⟨trace', hfinish⟩ := s.finish_withTrace trace
    exact ⟨trace', hfinish ▸ .endOfLine⟩
  | refused ht hr => exact ⟨trace, .refused ht (hr.withTrace trace)⟩

/-- The steps of a line that takes `p` and is then decided go behind those that the trace has. -/
private theorem Takes.addSteps_of_decides {detailed : Bool} {p : List Token} {o : Outcome}
    (htakes : (start t detailed).Takes p s) (hdecides : s.Decides token o) (trace : Trace) :
    (((start t detailed).withTrace trace).run (p ++ [token])).trace =
      trace.addSteps (stepsOf t [] p ++ token.finalSteps (targetOf p) s.stack.values) := by
  -- the line goes the same way whatever trace it starts with
  obtain ⟨trace₁, htakes₁⟩ := htakes.withTrace trace
  obtain ⟨trace₂, hdecides₂⟩ := hdecides.withTrace trace₁
  have hrun := htakes₁.run_of_decides hdecides₂ []
  have hsteps : trace₁ = trace.addSteps (stepsOf t [] p) := htakes₁.addSteps fun _ => rfl
  have hfinal : trace₂ = trace₁.addSteps (token.finalSteps s.target s.stack.values) :=
    hdecides₂.addSteps htakes.phase_ne_start
  rw [hrun, Trace.addSteps_append, ← hsteps, ← htakes.symbols_eq.2]
  exact hfinal

end LineState

/-- The answer to a line that has stored a value: it is accepted, or refused for what is left below
    the value. -/
def Reply.HasStored (r : Reply) : Prop :=
  (∃ v, r.result = .ok v) ∨ ∃ d n, r.result = .error (.rejected d) ∧ d.rejection = .residual n

namespace Calculator

/-- Closing a line hands on the steps of its trace, which change nothing else. -/
private theorem settle_withTrace {σ : Type} (stream : TokenStream σ) (o : Outcome) (trace : Trace) :
    settle stream { o with trace } =
      (⟨(settle stream o).1.result, trace.steps⟩, (settle stream o).2) := by
  unfold settle
  cases o.result <;> rfl

/-- Closing a line hands on the steps of its trace. -/
private theorem steps_settle {σ : Type} (stream : TokenStream σ) (o : Outcome) :
    (settle stream o).1.steps = o.trace.steps := by
  unfold settle
  cases o.result <;> rfl

/-- The answer shows whether the outcome has stored a value. -/
private theorem hasStored_settle_iff {σ : Type} {stream : TokenStream σ} {o : Outcome} :
    (settle stream o).1.HasStored ↔
      (∃ v, o.result = .ok v) ∨ ∃ n, o.result = .error (.residual n) := by
  refine or_congr (exists_congr fun v => result_settle_eq_ok_iff) ?_
  simp only [result_settle_eq_rejected_iff]
  constructor
  · rintro ⟨d, n, ⟨r, hr, rfl⟩, rfl⟩
    exact ⟨n, hr⟩
  · rintro ⟨n, hn⟩
    exact ⟨_, n, ⟨_, hn, rfl⟩, rfl⟩

variable {σ : Type} [LineSource σ]

/-- The characters of the line that the next call evaluates. -/
def nextLine (c : Calculator σ) : List Char :=
  c.stream.fill.2.cursor.rest.takeWhile (· != '\n')

/-- A call gets no line, or it evaluates the line that comes next. -/
theorem input_error_or_verdict {c : Calculator σ} (hc : c.stream.cursor.Terminated)
    (detailed : Bool) :
    (∃ e stream, ∀ detailed, c.evaluate detailed = (⟨.error (.input e), []⟩, { c with stream })) ∨
      ('\n' ∉ c.nextLine ∧ ∃ p t q s stream o,
        lineTokens c.nextLine ++ [.endOfLine] = p ++ t :: q ∧
          c.Verdict detailed p t s stream o) := by
  -- a line is pulled first, or it stands in the buffer
  cases hfill : c.stream.fill with
  | mk r stream₀ =>
    cases r with
    | error e => exact .inl ⟨e, stream₀, evaluate_of_fill_error hfill⟩
    | ok =>
      obtain ⟨hs, hne⟩ := TokenStream.terminated_of_fill_ok hc hfill
      obtain ⟨front, more, hrest, hfront⟩ := hs.exists_line hne
      -- the first line of the buffer ends at its first line feed
      have hnext : c.nextLine = front := by
        have hkeep : ∀ a ∈ front, (a != '\n') = true := by
          intro a ha
          rw [bne_iff_ne]
          rintro rfl
          exact hfront ha
        rw [nextLine, hfill, hrest, List.takeWhile_append_of_pos hkeep]
        simp
      obtain ⟨p, t, q, s, stream, o, happend, hverdict, -⟩ :=
        exists_verdict hc hfill hrest hfront detailed
      rw [hnext]
      exact .inr ⟨hfront, p, t, q, s, stream, o, happend, hverdict⟩

/-- A line is decided by the same token, and in the same way, whether its steps are kept or not. -/
theorem Verdict.withDetailed {c : Calculator σ} {detailed : Bool} {p : List Token} {t : Token}
    {s : LineState} {stream : TokenStream σ} {o : Outcome}
    (h : c.Verdict detailed p t s stream o) (detailed' : Bool) :
    ∃ s' trace, c.Verdict detailed' p t s' stream { o with trace } := by
  obtain ⟨trace, htakes⟩ := h.takes.withTrace (Trace.start detailed')
  obtain ⟨trace', hdecides⟩ := h.decides.withTrace trace
  exact ⟨_, trace', htakes, hdecides, h.yields⟩

/-- Keeping the steps of a call changes neither its answer nor what it leaves. -/
theorem evaluate_detailed_eq {c : Calculator σ} (hc : c.stream.cursor.Terminated)
    (detailed detailed' : Bool) :
    (c.evaluate detailed).1.result = (c.evaluate detailed').1.result ∧
      (c.evaluate detailed).2 = (c.evaluate detailed').2 := by
  rcases input_error_or_verdict hc detailed with
    ⟨e, stream, herror⟩ | ⟨-, p, t, q, s, stream, o, -, hverdict⟩
  · rw [herror, herror]
    exact ⟨rfl, rfl⟩
  · obtain ⟨s', trace, hverdict'⟩ := hverdict.withDetailed detailed'
    have hsettle := settle_withTrace stream o trace
    rw [hverdict.evaluate_eq hc, hverdict'.evaluate_eq hc, hsettle]
    exact ⟨rfl, rfl⟩

/-- The steps of a line that is decided, if they are kept. -/
theorem Verdict.steps_evaluate {c : Calculator σ} {detailed : Bool} {p : List Token} {t : Token}
    {s : LineState} {stream : TokenStream σ} {o : Outcome}
    (h : c.Verdict detailed p t s stream o) (hc : c.stream.cursor.Terminated) :
    (c.evaluate detailed).1.steps =
      if detailed then stepsOf c.symbols [] p ++ t.finalSteps (targetOf p) s.stack.values
      else [] := by
  have hrun := h.takes.run_of_decides h.decides []
  -- a new trace has no steps before those of the line
  have htrace := h.takes.addSteps_of_decides h.decides (Trace.start detailed)
  have hsame : (LineState.start c.symbols detailed).withTrace (Trace.start detailed) =
      LineState.start c.symbols detailed := rfl
  rw [hsame, hrun] at htrace
  rw [h.evaluate_eq hc, steps_settle, ← Trace.steps_addSteps_start, ← htrace]

/-- Without details no step is kept. -/
theorem steps_evaluate_false {c : Calculator σ} (hc : c.stream.cursor.Terminated) :
    (c.evaluate false).1.steps = [] := by
  rcases input_error_or_verdict hc false with
    ⟨e, stream, herror⟩ | ⟨-, p, t, q, s, stream, o, -, hverdict⟩
  · rw [herror]
  · exact hverdict.steps_evaluate hc

/-- The store comes last, exactly when the line has stored a value. -/
private theorem Verdict.steps_of_hasStored {c : Calculator σ} {p : List Token} {t : Token}
    {s : LineState} {stream : TokenStream σ} {o : Outcome}
    (h : c.Verdict true p t s stream o) (hc : c.stream.cursor.Terminated) :
    ((c.evaluate true).1.HasStored → ∃ v,
      (c.evaluate true).2.symbols.get? (targetOf p) = some v ∧
        (c.evaluate true).1.steps = stepsOf c.symbols [] p ++ [.store (targetOf p) v]) ∧
    (¬ (c.evaluate true).1.HasStored → (c.evaluate true).1.steps = stepsOf c.symbols [] p) := by
  -- the answer shows it, and so does the token that decided the line
  have hstored : (c.evaluate true).1.HasStored ↔ s.Stores t := by
    rw [h.evaluate_eq hc, hasStored_settle_iff]
    exact (h.decides.stores_iff h.takes).symm
  have hsteps := h.steps_evaluate hc
  rw [if_pos rfl] at hsteps
  rw [hstored, hsteps]
  constructor
  · intro hstores
    obtain ⟨v, below, hstack⟩ := List.exists_cons_of_ne_nil hstores.2
    refine ⟨v, ?_, ?_⟩
    · rw [h.evaluate_eq hc, symbols_settle, h.decides.symbols_of_stores h.takes hstores hstack,
        h.takes.symbols_eq.2, SymbolTable.get?_assign, if_pos rfl]
    · rw [hstack, hstores.1]
      rfl
  · intro hstores
    rw [LineState.finalSteps_of_not_stores hstores, List.append_nil]

/-- The steps of an accepted line are those of the sentence that it spells. -/
private theorem Verdict.steps_of_ok {c : Calculator σ} {p q : List Token} {t : Token}
    {s : LineState} {stream : TokenStream σ} {o : Outcome} {line : List Char} {v : Float}
    (h : c.Verdict true p t s stream o) (hc : c.stream.cursor.Terminated)
    (hline : '\n' ∉ line) (happend : lineTokens line ++ [.endOfLine] = p ++ t :: q)
    (hv : (c.evaluate true).1.result = .ok v) :
    ∃ sentence : Sentence, sentence.tokens = lineTokens line ∧
      sentence.body.value c.symbols = v ∧ (c.evaluate true).1.steps = sentence.steps c.symbols := by
  have hok : o.result = .ok v := by
    rw [h.evaluate_eq hc] at hv
    exact result_settle_eq_ok_iff.1 hv
  have ht := h.decides.eq_endOfLine_of_ok hok
  subst ht
  -- the line has been taken up to its end, so its tokens are those of the sentence
  have hp : p = lineTokens line := by
    rcases append_endOfLine_cases happend (endOfLine_not_mem_lineTokens hline) with h | h
    · exact h.2
    · exact absurd rfl h.1
  subst hp
  have hline_ok :
      (evaluateLine c.symbols true (lineTokens line ++ [.endOfLine])).result = .ok v := by
    rw [evaluateLine, h.takes.run_of_decides h.decides, hok]
  obtain ⟨sentence, htokens, hvalue⟩ := (evaluateLine_eq_ok_iff c.symbols true _
    (endOfLine_not_mem_lineTokens hline) v).1 hline_ok
  -- an accepted line ends with its value alone on the stack
  obtain ⟨-, hstack⟩ : s.phase ≠ .start ∧ s.stack.values = [v] := by
    cases h.decides with
    | endOfLine => exact LineState.result_finish_eq_ok_iff.1 hok
    | refused ht hr => exact absurd rfl ht
  have htarget : targetOf (lineTokens line) = sentence.target := by
    rw [← htokens]
    exact sentence.targetOf_tokens
  refine ⟨sentence, htokens, hvalue, ?_⟩
  rw [h.steps_evaluate hc, if_pos rfl, sentence.steps_eq, htokens, hstack, htarget, hvalue]
  rfl

/-- Keeping the steps of a call changes neither its answer nor what it leaves.  A call that gets no
    line adds no step.  A line whose tokens `p` are taken before the token `t` decides it adds the
    steps of `p` and then, if it has stored a value, that of the store; they go behind whatever
    steps the trace has, and to no trace that keeps none.  Those of an accepted line are the steps
    of the sentence that it spells. -/
theorem evaluate_trace (c : Calculator σ) (h : c.InUse) :
    let traced := c.evaluate true
    let plain := c.evaluate false
    traced.1.result = plain.1.result ∧ traced.2 = plain.2 ∧ plain.1.steps = [] ∧
    ((∃ e, traced.1.result = .error (.input e) ∧ traced.1.steps = []) ∨
      ∃ p t s stream o, p ++ [t] <+: lineTokens c.nextLine ++ [.endOfLine] ∧
        c.Verdict true p t s stream o ∧ traced = settle stream o ∧
        (traced.1.HasStored → ∃ v, traced.2.symbols.get? (targetOf p) = some v ∧
          traced.1.steps = stepsOf c.symbols [] p ++ [.store (targetOf p) v]) ∧
        (¬ traced.1.HasStored → traced.1.steps = stepsOf c.symbols [] p) ∧
        (∀ trace, (((LineState.start c.symbols true).withTrace trace).run (p ++ [t])).trace =
          trace.addSteps traced.1.steps) ∧
        ∀ v, traced.1.result = .ok v → ∃ sentence : Sentence,
          sentence.tokens = lineTokens c.nextLine ∧ sentence.body.value c.symbols = v ∧
            traced.1.steps = sentence.steps c.symbols) := by
  intro traced plain
  have hc := h.terminated
  obtain ⟨hresult, hafter⟩ := evaluate_detailed_eq hc true false
  refine ⟨hresult, hafter, steps_evaluate_false hc, ?_⟩
  -- there is no line, or a token of it decides
  rcases input_error_or_verdict hc true with
    ⟨e, stream, herror⟩ | ⟨hnewline, p, t, q, s, stream, o, happend, hverdict⟩
  · have htraced : traced = _ := herror true
    rw [htraced]
    exact .inl ⟨e, rfl, rfl⟩
  · obtain ⟨hstored, hunstored⟩ := hverdict.steps_of_hasStored hc
    refine .inr ⟨p, t, s, stream, o, ⟨q, by rw [happend]; simp⟩, hverdict,
      hverdict.evaluate_eq hc, hstored, hunstored, fun trace => ?_, fun v hv => ?_⟩
    · have hsteps : traced.1.steps = _ := hverdict.steps_evaluate hc
      rw [hsteps, if_pos rfl]
      exact hverdict.takes.addSteps_of_decides hverdict.decides trace
    · exact hverdict.steps_of_ok hc hnewline happend hv

/-- The line `x~` reads a variable, negates its value and stores the result in `it`. -/
theorem evaluate_trace_of_negation :
    let c : Calculator LineQueue := new ⟨[['x', '~']]⟩ none
    (c.evaluate true).1.steps =
      [⟨"x", 0.0⟩, ⟨"~ " ++ Decimal.valueText 0.0, -0.0⟩,
        ⟨"it = " ++ Decimal.valueText (-0.0), -0.0⟩] := by
  intro c
  have hline : '\n' ∉ ['x', '~'] := by decide
  have hnext : c.nextLine = ['x', '~'] := rfl
  let s : Sentence := ⟨none, .negate (.name "x")⟩
  have hs : s.tokens = lineTokens ['x', '~'] := by
    rw [lineTokens_eq hline, Lexeme.line_of_some rfl, if_neg (by decide), Lexeme.line_of_some rfl,
      if_neg (by decide), Lexeme.line_of_none rfl]
    rfl
  have hawaits : c.Awaits ['x', '~'] := ⟨rfl, ⟨_, rfl⟩, by simp [c, new, TokenStream.new]⟩
  have hok : (c.evaluate true).1.result = .ok (-0.0) := by
    rw [(hawaits.evaluate_eq hline true).1,
      evaluateLine_eq_ok_iff _ _ _ (endOfLine_not_mem_lineTokens hline)]
    exact ⟨s, hs, rfl⟩
  obtain ⟨-, -, -, hsteps⟩ := evaluate_trace c (.new _ _ _)
  rcases hsteps with ⟨e, he, -⟩ | ⟨p, t, s', stream, o, -, -, -, -, -, -, hsentence⟩
  · rw [hok] at he
    cases he
  · obtain ⟨sentence, htokens, -, hsteps⟩ := hsentence _ hok
    -- no other sentence has these tokens
    have hsame : sentence = s := Sentence.tokens_injective (htokens.trans (hnext ▸ hs.symm))
    rw [hsteps, hsame]
    rfl

end Calculator

end DeskCalc
