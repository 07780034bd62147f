import DeskCalc.Proofs.Evaluation

/-!
# What a line does to the variables

A line lists the names that it reads, and its end stores the top of the stack in the target, even if
the line is then refused.  Nothing else happens to the variables, whatever becomes of the line.

## Key results

- `Decides.symbols_of_stores`, `Decides.symbols_of_not_stores`: the variables behind the token that
  decides a line
- `Decides.stores_iff`: which lines store a value
- `evaluate_entries`: the variables after a line, binding by binding
-/

namespace DeskCalc

/-- The variable that a line with these tokens stores in. -/
def targetOf : List Token → String
  | .name n :: .assign :: _ => n
  | _ => defaultTarget

/-- `targetOf` finds the target of a draft in its tokens. -/
theorem Draft.targetOf_tokens (d : Draft) :
    targetOf d.tokens = d.target?.getD defaultTarget := by
  obtain ⟨target?, waiting⟩ := d
  cases target? with
  | some n => rfl
  | none =>
    -- without a target no token is `=`, so the tokens do not start as an assignment does
    have hassign : .assign ∉ Draft.tokens ⟨none, waiting⟩ := by
      rw [Draft.tokens, targetTokens, List.nil_append, List.mem_flatMap]
      rintro ⟨e, -, he⟩
      exact e.assign_not_mem_tokens he
    unfold targetOf
    split
    · next heq =>
      rw [heq] at hassign
      simp at hassign
    · rfl

namespace LineState

/-- Token `t` is the end of the line, and there is something on the stack. -/
def Stores (s : LineState) (t : Token) : Prop := t = .endOfLine ∧ s.stack.values ≠ []

/-- The tokens that a line has taken list the names that they read, and say what its target is. -/
theorem Takes.symbols_eq {t : SymbolTable} {detailed : Bool} {p : List Token} {s : LineState}
    (h : (start t detailed).Takes p s) :
    s.symbols = t.touchAll (namesOf p) ∧ s.target = targetOf p := by
  obtain ⟨d, hd⟩ := h.exists_draft
  refine ⟨hd.symbols, ?_⟩
  rw [hd.target, ← d.targetOf_tokens, hd.tokens]

/-- At the end of a line with something on the stack, the line has started. -/
theorem Takes.phase_ne_start {t : SymbolTable} {detailed : Bool} {p : List Token} {s : LineState}
    (h : (start t detailed).Takes p s) (hstack : s.stack.values ≠ []) : s.phase ≠ .start := by
  intro hphase
  obtain rfl := h.phase_eq_start_iff.1 hphase
  rw [h.eq_of_nil] at hstack
  exact hstack rfl

/-- The token that decides a line is no name. -/
private theorem Decides.namesOf_eq_nil {s : LineState} {token : Token} {o : Outcome}
    (h : s.Decides token o) : namesOf [token] = [] := by
  cases h with
  | endOfLine => rfl
  | refused ht hr => cases hr <;> rfl

/-- The end of a line with something on the stack stores the top of it in the target. -/
theorem Decides.symbols_of_stores {t : SymbolTable} {detailed : Bool} {p : List Token}
    {s : LineState} {token : Token} {o : Outcome} {v : Float} {below : List Float}
    (htakes : (start t detailed).Takes p s) (hdecides : s.Decides token o)
    (hstores : s.Stores token) (hstack : s.stack.values = v :: below) :
    o.symbols = s.symbols.assign s.target v := by
  obtain ⟨rfl, hne⟩ := hstores
  cases hdecides with
  | endOfLine => rw [finish_of_cons (htakes.phase_ne_start hne) hstack]
  | refused ht hr => exact absurd rfl ht

/-- A line that does not come to its end with something on the stack stores nothing. -/
theorem Decides.symbols_of_not_stores {s : LineState} {token : Token} {o : Outcome}
    (hdecides : s.Decides token o) (h : ¬ s.Stores token) : o.symbols = s.symbols := by
  cases hdecides with
  | refused ht hr => rfl
  | endOfLine =>
    have hstack : s.stack.values = [] := by
      by_contra hne
      exact h ⟨rfl, hne⟩
    by_cases hphase : s.phase = .start
    · rw [finish_of_start hphase]
    · rw [finish_of_nil hphase hstack]

/-- The lines that store are those that are accepted or leave values below the one they store. -/
theorem Decides.stores_iff {t : SymbolTable} {detailed : Bool} {p : List Token} {s : LineState}
    {token : Token} {o : Outcome} (htakes : (start t detailed).Takes p s)
    (hdecides : s.Decides token o) :
    s.Stores token ↔ (∃ v, o.result = .ok v) ∨ ∃ n, o.result = .error (.residual n) := by
  unfold Stores
  -- only the end of a line stores, and it does so unless the stack is empty
  cases hdecides with
  | refused ht hr =>
    simp only [ht, false_and, false_iff]
    cases hr <;> simp
  | endOfLine =>
    cases hstack : s.stack.values with
    | nil =>
      by_cases hphase : s.phase = .start
      · simp [finish_of_start hphase]
      · simp [finish_of_nil hphase hstack]
    | cons v below =>
      have hphase := htakes.phase_ne_start (by rw [hstack]; exact List.cons_ne_nil v below)
      rw [finish_of_cons hphase hstack]
      by_cases hbelow : below = [] <;> simp [hbelow]

end LineState

namespace Calculator

variable {σ : Type} [LineSource σ]

/-- A line lists the names that were scanned until it was decided.  If its end was scanned with
    something on the stack, the top of the stack is then stored in the target; these are the lines
    that are accepted or refused for what is left on the stack.  No line does anything else to the
    variables. -/
theorem evaluate_entries (c : Calculator σ) (line : List Char) (h : c.Awaits line)
    (hline : '\n' ∉ line) (detailed : Bool) :
    ∃ p t s stream o, p ++ [t] <+: lineTokens line ++ [.endOfLine] ∧
      c.Verdict detailed p t s stream o ∧ c.evaluate detailed = settle stream o ∧
      (∀ v below, s.Stores t → s.stack.values = v :: below →
        (c.evaluate detailed).2.symbols.entries =
          SymbolTable.overwrite (targetOf p) v (c.symbols.vivified (namesOf (p ++ [t])))) ∧
      (¬ s.Stores t →
        (c.evaluate detailed).2.symbols.entries = c.symbols.vivified (namesOf (p ++ [t]))) ∧
      (s.Stores t ↔ (∃ v, (c.evaluate detailed).1.result = .ok v) ∨
        ∃ d n, (c.evaluate detailed).1.result = .error (.rejected d) ∧ d.rejection = .residual n) ∧
      c.symbols.Keeps (targetOf p) (c.evaluate detailed).2.symbols := by
  obtain ⟨p, t, q, s, stream, o, happend, hverdict, heq, -⟩ := h.exists_verdict hline detailed
  obtain ⟨htakes, hdecides, -⟩ := id hverdict
  obtain ⟨hsymbols, htarget⟩ := htakes.symbols_eq
  -- the token that decides is no name, so it may be counted to those that are read
  have hread : s.symbols = c.symbols.touchAll (namesOf (p ++ [t])) := by
    rw [hsymbols, namesOf_append, hdecides.namesOf_eq_nil, List.append_nil]
  have hkeeps : c.symbols.Keeps (targetOf p) s.symbols :=
    hsymbols ▸ SymbolTable.keeps_touchAll (targetOf p) c.symbols (namesOf p)
  refine ⟨p, t, s, stream, o, ⟨q, by rw [happend]; simp⟩, hverdict, heq, ?_, ?_, ?_, ?_⟩
  · intro v below hstores hstack
    rw [heq, symbols_settle, hdecides.symbols_of_stores htakes hstores hstack,
      SymbolTable.entries_assign, hread, SymbolTable.entries_touchAll, htarget]
  · intro hstores
    rw [heq, symbols_settle, hdecides.symbols_of_not_stores hstores, hread,
      SymbolTable.entries_touchAll]
  · rw [hdecides.stores_iff htakes, heq]
    refine or_congr (exists_congr fun v => result_settle_eq_ok_iff.symm) ?_
    simp only [result_settle_eq_rejected_iff]
    constructor
    · rintro ⟨n, hn⟩
      exact ⟨_, n, ⟨_, hn, rfl⟩, rfl⟩
    · rintro ⟨d, n, ⟨r, hr, rfl⟩, rfl⟩
      exact ⟨n, hr⟩
  · rw [heq, symbols_settle]
    by_cases hstores : s.Stores t
    · obtain ⟨v, below, hstack⟩ := List.exists_cons_of_ne_nil hstores.2
      rw [hdecides.symbols_of_stores htakes hstores hstack, htarget]
      exact hkeeps.trans (SymbolTable.keeps_assign s.symbols (targetOf p) v)
    · rw [hdecides.symbols_of_not_stores hstores]
      exact hkeeps

/-- The line `x` lists `x` behind `it`, and then overwrites `it` in its place. -/
theorem evaluate_entries_of_name :
    let c : Calculator LineQueue := ⟨TokenStream.new ⟨[['x']]⟩ none, ⟨[("it", 1.0)], by simp⟩⟩
    (c.evaluate false).2.symbols.entries = [("it", 0.0), ("x", 0.0)] := by
  intro c
  have hline : '\n' ∉ ['x'] := by decide
  have hawaits : c.Awaits ['x'] := ⟨rfl, ⟨_, rfl⟩, by simp [c, TokenStream.new]⟩
  have htokens : lineTokens ['x'] = [.name "x"] := by
    rw [lineTokens_eq hline, Lexeme.line_of_some rfl, if_neg (by decide), Lexeme.line_of_none rfl]
    rfl
  have hok : (c.evaluate false).1.result = .ok 0.0 := by
    rw [(hawaits.evaluate_eq hline false).1,
      evaluateLine_eq_ok_iff _ _ _ (endOfLine_not_mem_lineTokens hline), htokens]
    exact ⟨⟨none, .name "x"⟩, rfl, rfl⟩
  obtain ⟨p, t, s, stream, o, ⟨q, hq⟩, hverdict, -, hentries, -, hstores, -⟩ :=
    evaluate_entries c _ hawaits hline false
  -- an accepted line stores, so the verdict is at its end, behind the name
  have hs := hstores.2 (Or.inl ⟨_, hok⟩)
  have hp : p = [.name "x"] := by
    rw [List.append_assoc] at hq
    rcases append_endOfLine_cases hq.symm (endOfLine_not_mem_lineTokens hline) with h | h
    · exact h.2.trans htokens
    · exact absurd hs.1 h.1
  subst hp
  obtain ⟨s', hstep, htakes⟩ := hverdict.takes.exists_of_cons
  cases hstep
  obtain rfl := htakes.eq_of_nil
  rw [hentries 0.0 [] hs rfl, hs.1]
  rfl

end Calculator

end DeskCalc
