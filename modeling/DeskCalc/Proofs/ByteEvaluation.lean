import DeskCalc.Proofs.Evaluation
import DeskCalc.Proofs.Pushback

/-!
# Evaluation on bytes

A line can be evaluated from a stream on bytes: its tokens are scanned one at a time, and a refusal
asks for the number of characters in front of the byte offset.  Every cut of such an evaluation may
fail, and it may misuse the pushback slot or go on for ever.  None of this happens when the buffer
is used up or ends with an end of line: there is an answer, and it is the one of the calculator.

## Key results

- `ByteStream.Answers.unique`: an evaluation on bytes has one answer
- `TokenStream.scan_toBytes`: a token that is scanned is scanned on bytes
- `Calculator.answers_settle`: a verdict on a line is reached on bytes
- `Calculator.answers_evaluate`: every evaluation comes to its end on bytes
-/

namespace DeskCalc

namespace ByteStream

variable {σ : Type}

/-- Closes a line that has been decided.  None if the line cannot be cut where reading stopped. -/
def settle? (b : ByteStream σ) (o : Outcome) : Option (Reply × ByteStream σ) :=
  match o.result with
  | .ok value => some (⟨.ok value, o.trace.steps⟩, b)
  | .error rejection =>
    b.cursor.position?.map fun position =>
      (⟨.error (.rejected ⟨rejection, b.cursor.line, position - 1⟩), o.trace.steps⟩, b.flush)

/-- The line, of which some tokens have been taken, is evaluated from a stream on bytes: it comes to
    a reply, and leaves a stream and the variables.  There is no reply where a cut fails, where the
    pushback slot is misused, or where tokens are taken for ever. -/
inductive Answers [LineSource σ] :
    LineState → ByteStream σ → Reply → ByteStream σ → SymbolTable → Prop
  | input {s : LineState} {b b' : ByteStream σ} {e : InputError}
      (hscan : b.scan = some (.ok (.error e, b'))) :
      Answers s b ⟨.error (.input e), s.trace.steps⟩ b' s.symbols
  | decided {s : LineState} {b b' after : ByteStream σ} {t : Token} {o : Outcome} {reply : Reply}
      (hscan : b.scan = some (.ok (.ok t, b'))) (hdecides : s.Decides t o)
      (hsettle : b'.settle? o = some (reply, after)) : Answers s b reply after o.symbols
  | taken {s s' : LineState} {b b' after : ByteStream σ} {t : Token} {reply : Reply}
      {symbols : SymbolTable} (hscan : b.scan = some (.ok (.ok t, b'))) (hstep : s.Step t s')
      (h : Answers s' b' reply after symbols) : Answers s b reply after symbols

end ByteStream

/-- A token decides a line in one way, and then it is not taken. -/
theorem LineState.Decides.unique {s : LineState} {t : Token} {o o' : Outcome}
    (h : s.Decides t o) (h' : s.Decides t o') : o' = o := by
  cases h with
  | endOfLine =>
    cases h' with
    | endOfLine => rfl
    | refused ht _ => exact absurd rfl ht
  | refused ht hr =>
    cases h' with
    | endOfLine => exact absurd rfl ht
    | refused _ hr' =>
      have heq := hr.step_eq.symm.trans hr'.step_eq
      rw [Except.error.inj heq]

/-- The token that decides a line is not taken. -/
private theorem LineState.Decides.not_step {s s' : LineState} {t : Token} {o : Outcome}
    (h : s.Decides t o) : ¬ s.Step t s' := by
  intro hstep
  cases h with
  | endOfLine => exact LineState.step_endOfLine_ne_ok s s' hstep.step_eq
  | refused _ hr => exact nomatch hr.step_eq.symm.trans hstep.step_eq

/-- An evaluation on bytes has one answer. -/
theorem ByteStream.Answers.unique {σ : Type} [LineSource σ] {s : LineState}
    {b b₁ b₂ : ByteStream σ} {reply₁ reply₂ : Reply} {t₁ t₂ : SymbolTable}
    (h₁ : Answers s b reply₁ b₁ t₁) (h₂ : Answers s b reply₂ b₂ t₂) :
    reply₂ = reply₁ ∧ b₂ = b₁ ∧ t₂ = t₁ := by
  -- by induction on the first answer; what is scanned next says which rule made the second one
  induction h₁ with
  | input hscan =>
    cases h₂ with
    | input hscan' =>
      cases hscan.symm.trans hscan'
      exact ⟨rfl, rfl, rfl⟩
    | decided hscan' | taken hscan' => cases hscan.symm.trans hscan'
  | decided hscan hdecides hsettle =>
    cases h₂ with
    | input hscan' => cases hscan.symm.trans hscan'
    | decided hscan' hdecides' hsettle' =>
      cases hscan.symm.trans hscan'
      obtain rfl := hdecides.unique hdecides'
      cases hsettle.symm.trans hsettle'
      exact ⟨rfl, rfl, rfl⟩
    | taken hscan' hstep' =>
      cases hscan.symm.trans hscan'
      exact absurd hstep' hdecides.not_step
  | taken hscan hstep _ ih =>
    cases h₂ with
    | input hscan' => cases hscan.symm.trans hscan'
    | decided hscan' hdecides' =>
      cases hscan.symm.trans hscan'
      exact absurd hstep hdecides'.not_step
    | taken hscan' hstep' h₂ =>
      cases hscan.symm.trans hscan'
      cases hstep.step_eq.symm.trans hstep'.step_eq
      exact ih h₂

open ByteStream (Answers)

namespace TokenStream

variable {σ : Type} [LineSource σ]

/-- A token that is scanned is scanned on bytes, and the buffer still ends with an end of line. -/
theorem scan_toBytes {s s' : TokenStream σ} {t : Token} (hs : s.cursor.Terminated)
    (h : s.scan = .ok (.ok t, s')) (moves : List CursorMove) :
    s'.cursor.Terminated ∧
      ∃ ms, (s.toBytes moves).scan = some (.ok (.ok t, s'.toBytes (moves ++ ms))) := by
  rw [scan_eq_next hs] at h
  -- a token was scanned, so there was a line to fill the buffer with
  cases hfill : s.fill with
  | mk r filled =>
    cases r with
    | error e =>
      rw [next, hfill] at h
      cases h
    | ok =>
      obtain ⟨l, rest, hrest, hnext, -, -, hscan⟩ := scan_toBytes_of_fill hs hfill moves
      rw [hnext] at h
      cases h
      refine ⟨?_, _, hscan⟩
      rw [accept_eq, LineCursor.forward_of_append hrest (Lexeme.length_written l).symm]
      exact (terminated_of_fill_ok hs hfill).1.of_append hrest

end TokenStream

namespace Calculator

variable {σ : Type}

/-- Closing a line never fails on bytes. -/
private theorem settle?_toBytes (stream : TokenStream σ) (o : Outcome) (moves : List CursorMove) :
    ∃ ms, (stream.toBytes moves).settle? o =
      some ((settle stream o).1, (settle stream o).2.stream.toBytes (moves ++ ms)) := by
  unfold ByteStream.settle? settle
  cases o.result with
  | ok value => exact ⟨[], by rw [List.append_nil]⟩
  | error rejection =>
    have hposition : (stream.toBytes moves).cursor.position? = some stream.position :=
      LineCursor.position?_toBytes stream.cursor
    refine ⟨[.flush], ?_⟩
    simp only [hposition, Option.map_some, TokenStream.flush_toBytes]
    rfl

variable [LineSource σ]

/-- A verdict is reached on bytes: each token that is taken is scanned there, and the one that
    decides the line too. -/
theorem answers_settle {s s' : LineState} {stream stream' : TokenStream σ} {p : List Token}
    {t : Token} {o : Outcome} (hstream : stream.cursor.Terminated) (htakes : s.Takes p s')
    (hdecides : s'.Decides t o) (hyields : stream.Yields (p ++ [t]) stream')
    (moves : List CursorMove) :
    ∃ ms, Answers s (stream.toBytes moves) (settle stream' o).1
      ((settle stream' o).2.stream.toBytes (moves ++ ms)) o.symbols := by
  -- by induction on the tokens that are taken; the moves of each scan add up
  induction p generalizing s stream moves with
  | nil =>
    obtain rfl := htakes.eq_of_nil
    obtain _ | ⟨hscan, hnil⟩ := hyields
    obtain _ | _ := hnil
    obtain ⟨-, ms, hbytes⟩ := TokenStream.scan_toBytes hstream hscan moves
    obtain ⟨ms', hsettle⟩ := settle?_toBytes stream' o (moves ++ ms)
    rw [List.append_assoc] at hsettle
    exact ⟨_, .decided hbytes hdecides hsettle⟩
  | cons u p ih =>
    obtain ⟨s₁, hstep, htakes⟩ := htakes.exists_of_cons
    obtain _ | ⟨hscan, hyields⟩ := hyields
    obtain ⟨hstream₁, ms, hbytes⟩ := TokenStream.scan_toBytes hstream hscan moves
    obtain ⟨ms', hanswers⟩ := ih hstream₁ htakes hyields (moves ++ ms)
    rw [List.append_assoc] at hanswers
    exact ⟨_, .taken hbytes hstep hanswers⟩

/-- Evaluating on bytes comes to its end, with the answer of the calculator. -/
theorem answers_evaluate {c : Calculator σ} (hs : c.stream.cursor.Terminated) (detailed : Bool)
    (moves : List CursorMove) :
    ∃ ms, Answers (LineState.start c.symbols detailed) (c.stream.toBytes moves)
      (c.evaluate detailed).1 ((c.evaluate detailed).2.stream.toBytes (moves ++ ms))
      (c.evaluate detailed).2.symbols := by
  cases hfill : c.stream.fill with
  | mk r filled =>
    cases r with
    | error e =>
      have hscan := TokenStream.scan_toBytes_of_fill_error hfill moves
      refine ⟨[], ?_⟩
      rw [evaluate_of_fill_error hfill, List.append_nil]
      exact .input (s := LineState.start c.symbols detailed) hscan
    | ok =>
      obtain ⟨hfilled, hne⟩ := TokenStream.terminated_of_fill_ok hs hfill
      -- the buffer holds a line, and the verdict on it is the one that is reached on bytes
      obtain ⟨front, more, hrest, hfront⟩ := hfilled.exists_line hne
      obtain ⟨p, t, q, s, stream, o, -, hverdict, heq, -⟩ :=
        exists_verdict hs hfill hrest hfront detailed
      rw [heq, symbols_settle]
      exact answers_settle hs hverdict.takes hverdict.decides hverdict.yields moves

end Calculator

end DeskCalc
