import DeskCalc.Proofs.Independence

/-!
# Repeated lines

A line can be evaluated again at once.  If it does not read the variable that it stores in, the
second evaluation gets the same answer as the first, and changes nothing: the names that it reads
are listed already, and its target has the value already.  The name in front of `=` is read as well,
but what it is read as does not matter, because its value is dropped when the `=` is taken.

## Key results

- `Step.matching`, `Takes.matching`, `Decides.matching`: lines that stand alike take and refuse the
  same tokens, as long as the names that are read have the same values
- `exists_decides_matching`: two tables in which the operands of a line have the same values
- `value_evaluateLine`: a line changes no value but that of its target
- `repeated_line_is_idempotent`: a line and the same line again
-/

namespace DeskCalc

/-! ## The target and the operands of a line -/

/-- The target that a line names. -/
def namedTarget? : List Token → Option String
  | .name n :: .assign :: _ => some n
  | _ => none

/-- The tokens of a line behind its named target. -/
def bodyOf : List Token → List Token
  | .name _ :: .assign :: ts => ts
  | ts => ts

/-- A line is its named target, if it has one, and its body. -/
private theorem targetTokens_append_bodyOf (ts : List Token) :
    targetTokens (namedTarget? ts) ++ bodyOf ts = ts := by
  unfold namedTarget? bodyOf
  split <;> simp_all [targetTokens]

namespace LineState

/-! ## Lines that stand alike -/

/-- Two lines stand alike: they are in the same phase, with the same operands, and the names that
    are still to be read have the same values in both. -/
structure Matching (names : List String) (s s' : LineState) : Prop where
  phase : s'.phase = s.phase
  stack : s'.stack = s.stack
  value : ∀ n ∈ names, s'.symbols.value n = s.symbols.value n

variable {names : List String} {s s' s₁ : LineState}

/-- A step that is taken by one line is taken by a line that stands alike, and they stand alike
    behind it. -/
theorem Step.matching {token : Token} (hstep : Step s token s₁) (h : Matching names s s')
    (hnames : ∀ n ∈ namesOf [token], n ∈ names) :
    ∃ s₁', Step s' token s₁' ∧ Matching names s₁ s₁' := by
  cases hstep with
  | number x =>
    refine ⟨_, .number x, ?_, ?_, h.value⟩
    · simp only [h.phase]
    · simp only [pushNumber, h.stack]
  | name n =>
    -- this is the one step that looks at the variables, at the name it reads
    have hvalue : s'.symbols.value n = s.symbols.value n := h.value n (hnames n List.mem_cons_self)
    refine ⟨_, .name n, ?_, ?_, ?_⟩
    · simp only [h.phase]
    · simp only [pushName, SymbolTable.fetch_eq, h.stack, hvalue]
    · intro m hm
      simp only [pushName, SymbolTable.fetch_eq, SymbolTable.value_touch]
      exact h.value m hm
  | negate hphase hstack =>
    rw [← h.phase] at hphase
    rw [← h.stack] at hstack
    exact ⟨_, .negate hphase hstack, rfl, rfl, h.value⟩
  | combine op hphase hstack =>
    rw [← h.phase] at hphase
    rw [← h.stack] at hstack
    exact ⟨_, .combine op hphase hstack, rfl, rfl, h.value⟩
  | assign n hphase =>
    rw [← h.phase] at hphase
    exact ⟨_, .assign n hphase, rfl, rfl, h.value⟩

/-- Lines that stand alike take the same tokens and stand alike behind them. -/
theorem Takes.matching {ts : List Token} (htakes : Takes s ts s₁) (h : Matching names s s')
    (hnames : ∀ n ∈ namesOf ts, n ∈ names) :
    ∃ s₁', Takes s' ts s₁' ∧ Matching names s₁ s₁' := by
  induction htakes with
  | nil => exact ⟨s', .nil, h⟩
  | snoc _ hstep ih =>
    rw [namesOf_append] at hnames
    obtain ⟨s₂, htakes, h₂⟩ := ih fun n hn => hnames n (List.mem_append_left _ hn)
    obtain ⟨s₃, hstep', h₃⟩ :=
      hstep.matching h₂ fun n hn => hnames n (List.mem_append_right _ hn)
    exact ⟨s₃, htakes.snoc hstep', h₃⟩

/-- The end of a line is taken or refused by its phase and its operands. -/
private theorem Matching.result_finish (h : Matching names s s') :
    s'.finish.result = s.finish.result := by
  by_cases hphase : s.phase = .start
  · rw [finish_of_start hphase, finish_of_start (h.phase.trans hphase), h.phase]
  · have hphase' : s'.phase ≠ .start := by rwa [h.phase]
    cases hstack : s.stack.values with
    | nil =>
      rw [finish_of_nil hphase hstack, finish_of_nil hphase' (by rw [h.stack, hstack])]
    | cons v below =>
      rw [finish_of_cons hphase hstack, finish_of_cons hphase' (by rw [h.stack, hstack]), h.stack]

/-- A token that decides one line decides a line that stands alike, with the same result. -/
theorem Decides.matching {token : Token} {o : Outcome} (hdecides : Decides s token o)
    (h : Matching names s s') : ∃ o', Decides s' token o' ∧ o'.result = o.result := by
  cases hdecides with
  | endOfLine => exact ⟨_, .endOfLine, h.result_finish⟩
  | refused ht hr => exact ⟨_, .refused ht (hr.congr h.phase h.stack), rfl⟩

/-! ## The same line over two tables -/

/-- The phase of a line that has been started is read off the tokens it has taken. -/
private theorem Takes.phase_eq {t : SymbolTable} {detailed : Bool} {ts : List Token}
    (h : (start t detailed).Takes ts s) : s.phase = Phase.after ts := by
  obtain ⟨d, hd⟩ := h.exists_draft
  exact hd.phase

/-- Behind a named target, or at the start if none is named, two lines stand alike whatever values
    the target has in their tables. -/
private theorem exists_takes_matching {t t' : SymbolTable} (target? : Option String)
    (h : ∀ n ∈ names, t'.value n = t.value n) (da db : Bool) :
    ∃ s s', (start t da).Takes (targetTokens target?) s ∧
      (start t' db).Takes (targetTokens target?) s' ∧ Matching names s s' := by
  obtain ⟨s, htakes, hstack, -, hvalue⟩ := exists_takes_targetTokens t da target?
  obtain ⟨s', htakes', hstack', -, hvalue'⟩ := exists_takes_targetTokens t' db target?
  refine ⟨s, s', htakes, htakes', ?_, ?_, ?_⟩
  · rw [htakes.phase_eq, htakes'.phase_eq]
  · exact congrArg OperandStack.mk (hstack'.trans hstack.symm)
  · intro n hn
    rw [hvalue, hvalue', h n hn]

/-- If the operands of a line have the same values in two tables, the same token decides the line in
    both, with the same operands waiting and with the same result. -/
theorem exists_decides_matching {t t' : SymbolTable} {ts : List Token}
    (h : ∀ n ∈ namesOf (bodyOf ts), t'.value n = t.value n) (da db : Bool) :
    ∃ p token q s s' o o', ts ++ [.endOfLine] = p ++ token :: q ∧
      (start t da).Takes p s ∧ (start t' db).Takes p s' ∧ s'.stack = s.stack ∧
      s.Decides token o ∧ s'.Decides token o' ∧ o'.result = o.result := by
  -- the target is skipped first, since its values in the two tables may differ
  obtain ⟨s₀, s₀', htarget, htarget', h₀⟩ := exists_takes_matching (namedTarget? ts) h da db
  obtain ⟨p, token, q, s, o, happend, htakes, hdecides⟩ := s₀.exists_decides (bodyOf ts)
  have hread : ∀ n ∈ namesOf p, n ∈ namesOf (bodyOf ts) := fun n hn =>
    mem_namesOf_of_append happend hn
  obtain ⟨s', htakes', hmatching⟩ := htakes.matching h₀ hread
  obtain ⟨o', hdecides', hresult⟩ := hdecides.matching hmatching
  refine ⟨targetTokens (namedTarget? ts) ++ p, token, q, s, s', o, o', ?_, htarget.trans htakes,
    htarget'.trans htakes', hmatching.stack, hdecides, hdecides', hresult⟩
  conv_lhs => rw [← targetTokens_append_bodyOf ts]
  rw [List.append_assoc, happend, List.append_assoc]

/-- A line that is decided alike over the table that it left leaves that table as it is. -/
private theorem Decides.symbols_again {t : SymbolTable} {da db : Bool} {p : List Token}
    {token : Token}
    {o o' : Outcome} (hdecides : s.Decides token o) (hdecides' : s'.Decides token o')
    (htakes : (start t da).Takes p s) (htakes' : (start o.symbols db).Takes p s')
    (hstack : s'.stack = s.stack) : o'.symbols = o.symbols := by
  obtain ⟨hread, htarget⟩ := htakes.symbols_eq
  obtain ⟨hread', htarget'⟩ := htakes'.symbols_eq
  have hstores_iff : s'.Stores token ↔ s.Stores token := by rw [Stores, Stores, hstack]
  by_cases hstores : s.Stores token
  · obtain ⟨v, below, hvalues⟩ := List.exists_cons_of_ne_nil hstores.2
    have hvalues' : s'.stack.values = v :: below := by rw [hstack, hvalues]
    have hfirst : o.symbols = (t.touchAll (namesOf p)).assign (targetOf p) v := by
      rw [hdecides.symbols_of_stores htakes hstores hvalues, hread, htarget]
    -- every name that is read again is listed, and the target has the value that is stored again
    have hlisted : ∀ n ∈ namesOf p, n ∈ o.symbols.names := by
      intro n hn
      rw [hfirst, SymbolTable.names_assign]
      exact List.mem_append_left _ (SymbolTable.mem_names_touchAll.2 (Or.inr hn))
    have hget : o.symbols.get? (targetOf p) = some v := by
      rw [hfirst, SymbolTable.get?_assign, if_pos rfl]
    rw [hdecides'.symbols_of_stores htakes' (hstores_iff.2 hstores) hvalues', hread', htarget',
      SymbolTable.touchAll_of_subset hlisted, SymbolTable.assign_of_get? hget]
  · have hfirst : o.symbols = t.touchAll (namesOf p) := by
      rw [hdecides.symbols_of_not_stores hstores, hread]
    have hlisted : ∀ n ∈ namesOf p, n ∈ o.symbols.names := by
      intro n hn
      rw [hfirst]
      exact SymbolTable.mem_names_touchAll.2 (Or.inr hn)
    rw [hdecides'.symbols_of_not_stores (mt hstores_iff.1 hstores), hread',
      SymbolTable.touchAll_of_subset hlisted]

end LineState

open LineState (exists_decides_matching)

/-- The end of a line is the last of its tokens, so a line that comes to it has taken all others. -/
private theorem eq_of_append_endOfLine {ts p q : List Token} (hts : .endOfLine ∉ ts)
    (happend : ts ++ [.endOfLine] = p ++ .endOfLine :: q) : p = ts := by
  rcases append_endOfLine_cases happend hts with h | h
  · exact h.2
  · exact absurd rfl h.1

/-- A line changes no value but that of its target. -/
theorem value_evaluateLine {t : SymbolTable} {ts : List Token} (hts : .endOfLine ∉ ts) {n : String}
    (hn : n ≠ targetOf ts) (detailed : Bool) :
    (evaluateLine t detailed (ts ++ [.endOfLine])).symbols.value n = t.value n := by
  obtain ⟨p, token, q, s, o, happend, htakes, hdecides⟩ :=
    (LineState.start t detailed).exists_decides ts
  obtain ⟨hsymbols, hstarget⟩ := htakes.symbols_eq
  have hkept : s.symbols.value n = t.value n := by
    rw [hsymbols, SymbolTable.value_touchAll]
  unfold evaluateLine
  rw [happend, htakes.run_of_decides hdecides]
  show o.symbols.value n = t.value n
  -- only a store assigns, and it assigns to the target
  by_cases hstores : s.Stores token
  · obtain ⟨v, below, hstack⟩ := List.exists_cons_of_ne_nil hstores.2
    obtain rfl : p = ts := eq_of_append_endOfLine hts (hstores.1 ▸ happend)
    rw [hdecides.symbols_of_stores htakes hstores hstack, hstarget, SymbolTable.value,
      SymbolTable.get?_assign, if_neg hn]
    exact hkept
  · rw [hdecides.symbols_of_not_stores hstores, hkept]

/-! ## The same line again -/

/-- A line that does not read its target has the same outcome when it is evaluated again, and leaves
    the variables as it found them. -/
private theorem evaluateLine_again {t : SymbolTable} {ts : List Token} (hts : .endOfLine ∉ ts)
    (htarget : targetOf ts ∉ namesOf (bodyOf ts)) (da db : Bool) :
    let first := evaluateLine t da (ts ++ [.endOfLine])
    let second := evaluateLine first.symbols db (ts ++ [.endOfLine])
    second.result = first.result ∧ second.read = first.read ∧ second.symbols = first.symbols := by
  intro first second
  -- the first evaluation has changed none of the operands
  have hvalue : ∀ n ∈ namesOf (bodyOf ts), first.symbols.value n = t.value n := by
    intro n hn
    refine value_evaluateLine hts ?_ da
    rintro rfl
    exact htarget hn
  obtain ⟨p, token, q, s, s', o, o', happend, htakes, htakes', hstack, hdecides, hdecides',
    hresult⟩ := exists_decides_matching hvalue da db
  -- the two outcomes, cut at the token that decides the line
  have hfirst : first = { o with read := p.length + 1 } := by
    rw [← htakes.run_of_decides hdecides q, ← happend]
    rfl
  have hsecond : second = { o' with read := p.length + 1 } := by
    rw [← htakes'.run_of_decides hdecides' q, ← happend]
    rfl
  have hsymbols : first.symbols = o.symbols := by rw [hfirst]
  rw [hsymbols] at htakes'
  rw [hfirst, hsecond]
  refine ⟨hresult, rfl, ?_⟩
  show o'.symbols = o.symbols
  exact hdecides.symbols_again hdecides' htakes htakes' hstack

/-- The answer to a line that does not read its target is the same when it is given again, and the
    variables are too. -/
private theorem lineAnswer_again {line : List Char} (hline : '\n' ∉ line)
    (htarget : targetOf (lineTokens line) ∉ namesOf (bodyOf (lineTokens line)))
    (exitWord : Option (List Char)) (da db : Bool) (t : SymbolTable) :
    let first := lineAnswer exitWord da t line
    let second := lineAnswer exitWord db first.2 line
    second.1.result = first.1.result ∧ second.2 = first.2 := by
  unfold lineAnswer
  split
  · exact ⟨rfl, rfl⟩
  · obtain ⟨hresult, hread, hsymbols⟩ :=
      evaluateLine_again (t := t) (endOfLine_not_mem_lineTokens hline) htarget da db
    refine ⟨?_, hsymbols⟩
    unfold segmentAnswer
    simp only [hresult, hread]

/-- A line that is handed out twice gets the same answer twice, and the second time it changes no
    variable, not even their order; whether it is accepted or refused, and whatever the variables
    are.  All that is asked for is that the line does not read its target, which is the name in
    front of a leading `=`, or else `it`, among its operands. -/
theorem repeated_line_is_idempotent {σ : Type} [LineSource σ] {c : Calculator σ}
    (hrest : c.stream.cursor.rest = []) {line : List Char} (hline : '\n' ∉ line)
    {source source' : σ}
    (hfirst : LineSource.readLine c.source = (.line line, source))
    (hsecond : LineSource.readLine source = (.line line, source'))
    (htarget : targetOf (lineTokens line) ∉ namesOf (bodyOf (lineTokens line))) (da db : Bool) :
    let first := c.evaluate da
    let second := first.2.evaluate db
    second.1.result = first.1.result ∧ second.2.symbols = first.2.symbols := by
  intro first second
  obtain ⟨hreply, hsymbols, hsource, hword, hnil⟩ :=
    Calculator.evaluate_of_readLine hline hrest hfirst da
  obtain ⟨hreply', hsymbols', -⟩ :=
    Calculator.evaluate_of_readLine (c := first.2) hline hnil (hsource ▸ hsecond) db
  obtain ⟨hresult, hagain⟩ := lineAnswer_again hline htarget c.stream.exitWord da db c.symbols
  rw [hword, hsymbols] at hreply' hsymbols'
  constructor
  · rw [hreply', hresult, hreply]
  · rw [hsymbols', hagain, hsymbols]

/-- The line `n=x 2` is refused for the value that it leaves below the one that it stores in `n`,
    and refused again in the same way, with `n` and `x` listed as before. -/
theorem repeated_residual_line :
    let line := ['n', '=', 'x', ' ', '2']
    let c : Calculator LineQueue := Calculator.new ⟨[line, line]⟩ none
    let first := c.evaluate false
    let second := first.2.evaluate false
    first.2.symbols.entries = [("n", Decimal.readLiteral ['2']), ("x", 0.0)] ∧
      second.1.result = first.1.result ∧ second.2.symbols = first.2.symbols := by
  intro line c first second
  have htokens : lineTokens line =
      [.name "n", .assign, .name "x", .number (Decimal.readLiteral ['2'])] := by
    rw [lineTokens_eq (by decide), Lexeme.line_of_some rfl, if_neg nofun, Lexeme.line_of_some rfl,
      if_neg nofun, Lexeme.line_of_some rfl, if_neg nofun, Lexeme.line_of_some rfl, if_neg nofun,
      Lexeme.line_of_none rfl]
    rfl
  obtain ⟨hresult, hsymbols⟩ := repeated_line_is_idempotent (c := c) rfl (by decide) rfl rfl
    (by rw [htokens]; decide) false false
  refine ⟨?_, hresult, hsymbols⟩
  have hanswer : first.2.symbols =
      (evaluateLine SymbolTable.empty false (lineTokens line ++ [.endOfLine])).symbols :=
    (Calculator.evaluate_of_readLine (c := c) (by decide) rfl rfl false).2.1
  rw [hanswer, htokens]
  rfl

end DeskCalc
