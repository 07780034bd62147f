import DeskCalc.Proofs.Evaluation

/-!
# Accepted lines

The lines that a calculator accepts are those whose tokens spell an expression in postfix notation,
optionally behind a name and `=`.

## Key results

- `evaluate_accepts_iff_sentence`: which lines are accepted, with what value, and where it is stored
-/

namespace DeskCalc

namespace Calculator

variable {σ : Type} [LineSource σ]

/-- The tokens that are scanned from a line are those of its lexemes. -/
theorem Awaits.exists_yields {c : Calculator σ} {line : List Char} (h : c.Awaits line)
    (hline : '\n' ∉ line) : ∃ stream, c.stream.Yields (lineTokens line ++ [.endOfLine]) stream := by
  obtain ⟨stream, hfill, hcursor⟩ := h.exists_fill
  -- the lexemes of the buffer are yielded up to its end
  have hall : Lexeme.line stream.cursor.rest = Lexeme.line stream.cursor.rest ++ [] :=
    (List.append_nil _).symm
  have hyields := TokenStream.yields_acceptAll (hcursor ▸ LineCursor.terminated_load line) hall
  rw [hcursor, LineCursor.load, map_token_line_append_newline hline []] at hyields
  exact ⟨_, (TokenStream.yields_of_fill_ok hfill (by simp)).2 hyields⟩

/-- A line is accepted exactly when the tokens that are scanned from it up to its end spell a
    sentence.  There is one such sentence at most; the line has the value of its expression in the
    variables before the line, and its target holds that value afterwards. -/
theorem evaluate_accepts_iff_sentence (c : Calculator σ) (line : List Char) (h : c.Awaits line)
    (hline : '\n' ∉ line) (detailed : Bool) :
    (∃ stream, c.stream.Yields (lineTokens line ++ [.endOfLine]) stream) ∧
    (∀ v, (c.evaluate detailed).1.result = .ok v ↔
      ∃ s : Sentence, s.tokens = lineTokens line ∧ s.body.value c.symbols = v) ∧
    (∀ s s' : Sentence, s.tokens = lineTokens line → s'.tokens = lineTokens line → s = s') ∧
    ∀ s : Sentence, s.tokens = lineTokens line →
      (c.evaluate detailed).2.symbols.get? s.target = some (s.body.value c.symbols) := by
  obtain ⟨hresult, hsymbols⟩ := h.evaluate_eq hline detailed
  refine ⟨h.exists_yields hline, fun v => ?_, fun s s' hs hs' => ?_, fun s hs => ?_⟩
  · rw [hresult]
    exact evaluateLine_eq_ok_iff c.symbols detailed _ (endOfLine_not_mem_lineTokens hline) v
  · exact Sentence.tokens_injective (hs.trans hs'.symm)
  · rw [hsymbols, ← hs]
    exact get?_evaluateLine_target c.symbols detailed s

/-- The line `n=2 3-` stores the difference of two numbers. -/
theorem evaluate_accepts_difference :
    let c : Calculator LineQueue := new ⟨[['n', '=', '2', ' ', '3', '-']]⟩ none
    let difference := Decimal.readLiteral ['2'] - Decimal.readLiteral ['3']
    (c.evaluate false).1.result = .ok difference ∧
      (c.evaluate false).2.symbols.get? "n" = some difference := by
  intro c difference
  have hline : '\n' ∉ ['n', '=', '2', ' ', '3', '-'] := by decide
  let s : Sentence := ⟨some "n", .binary .subtract (.number (Decimal.readLiteral ['2']))
    (.number (Decimal.readLiteral ['3']))⟩
  have hs : s.tokens = lineTokens ['n', '=', '2', ' ', '3', '-'] := by
    rw [lineTokens_eq hline, Lexeme.line_of_some rfl, if_neg (by decide), Lexeme.line_of_some rfl,
      if_neg (by decide), Lexeme.line_of_some rfl, if_neg (by simp), Lexeme.line_of_some rfl,
      if_neg (by simp), Lexeme.line_of_some rfl, if_neg (by decide), Lexeme.line_of_none rfl]
    rfl
  obtain ⟨-, hresult, -, hstored⟩ := evaluate_accepts_iff_sentence c _
    ⟨rfl, ⟨_, rfl⟩, by simp [c, new, TokenStream.new]⟩ hline false
  exact ⟨(hresult difference).2 ⟨s, hs, rfl⟩, hstored s hs⟩

end Calculator

end DeskCalc
