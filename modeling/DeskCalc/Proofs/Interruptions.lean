import DeskCalc.Proofs.PromptedLines
import DeskCalc.Proofs.Isolation

/-!
# Errors of the input

A call can fail because there is no line: the source has ended, the line is the exit word, or the
source has failed.  All of this comes to light before the first character of a line is read, so such
a call leaves the calculator as it was.  A caller that goes on calling gets the answers that it
would get if the source had never handed out the exit word or a failure.

## Key results

- `evaluate_of_input_error`: an error of the input changes nothing but the source
- `calls_of_skips`: the calls over a source, and over one that leaves out what interrupts them
- `Prompted.skips_purge`, `LineQueue.skips_filter`: leaving lines out of a stream of bytes or of a
  queue
- `evaluate_survives_input_errors`: all of this for a calculator that scans token by token
-/

namespace DeskCalc

/-- The source has handed out the exit word or has failed. -/
def Reply.isInterruption (r : Reply) : Bool :=
  match r.result with
  | .error (.input .exit) => true
  | .error (.input (.failed _)) => true
  | _ => false

/-- What the source hands out leaves a call without a line, although the source has not ended. -/
def LineRead.interrupts (exitWord : Option (List Char)) : LineRead → Bool
  | .line text => exitWord == some text
  | .ended => false
  | .failed _ => true

/-! ## One call -/

/-- `R k s s'` says that `s'` hands out what `s` does, apart from what interrupts calls, which
    happens `k` times at most. -/
def LineSource.Skips {σ τ : Type} [LineSource σ] [LineSource τ] (exitWord : Option (List Char))
    (R : Nat → σ → τ → Prop) : Prop :=
  ∀ k s s', R k s s' →
    ((readLine s).1.interrupts exitWord = true ∧ ∃ k', k' < k ∧ R k' (readLine s).2 s') ∨
    ((readLine s).1.interrupts exitWord = false ∧ (readLine s').1 = (readLine s).1 ∧
      R k (readLine s).2 (readLine s').2)

namespace Calculator

/-- A line of the buffer is accepted or refused. -/
private theorem evaluateBuffered_ne_input {σ : Type} (c : Calculator σ) (detailed : Bool)
    (e : InputError) : (c.evaluateBuffered detailed).1.result ≠ .error (.input e) := by
  unfold evaluateBuffered
  simp only
  split <;> simp

section

variable {σ : Type} [LineSource σ]

/-- A calculator that has been made for a source and called any number of times.  Between two calls
    the source may have been given more input, or have changed in any other way. -/
inductive InUse : Calculator σ → Prop
  | new (source : σ) (exitWord : Option (List Char)) (t : SymbolTable) :
      InUse ⟨TokenStream.new source exitWord, t⟩
  | evaluate {c : Calculator σ} (h : InUse c) (detailed : Bool) : InUse (c.evaluate detailed).2
  | withSource {c : Calculator σ} (h : InUse c) (source : σ) : InUse (c.withSource source)

/-- The buffer of a calculator in use is used up or ends with an end of line. -/
theorem InUse.terminated {c : Calculator σ} (h : c.InUse) : c.stream.cursor.Terminated := by
  induction h with
  | new => exact LineCursor.terminated_of_rest_eq_nil rfl
  | evaluate _ detailed ih => exact terminated_evaluate ih detailed
  | withSource _ _ ih => exact ih

/-- An error of the input changes nothing but the source, which has been asked for one line. -/
theorem evaluate_of_input_error {c : Calculator σ} {detailed : Bool} {e : InputError}
    (h : (c.evaluate detailed).1.result = .error (.input e)) :
    (c.evaluate detailed).1.steps = [] ∧
      (c.evaluate detailed).2 = c.withSource (LineSource.readLine c.source).2 := by
  cases hfill : c.stream.fill with
  | mk r stream =>
    cases r with
    | ok =>
      rw [evaluate_of_fill_ok hfill] at h
      exact absurd h (evaluateBuffered_ne_input _ detailed e)
    | error e' =>
      rw [evaluate_of_fill_error hfill, (TokenStream.eq_of_fill_error hfill).2]
      exact ⟨rfl, rfl⟩

end

/-- When the prompt cannot be written, no byte is read, whether or not a line was needed. -/
private theorem unread_evaluate_of_write_error {c : Calculator Prompted} {fault : Fault}
    (h : (c.source.sink.write c.source.prompt).1 = .error fault) (detailed : Bool) :
    (c.evaluate detailed).2.source.unread = c.source.unread ∧
      (c.stream.cursor.rest = [] →
        (c.evaluate detailed).1.result = .error (.input (.failed fault))) := by
  -- a line is only asked for, and the prompt only written, when the buffer is empty
  by_cases hrest : c.stream.cursor.rest = []
  · have hread : LineSource.readLine c.source =
        (.failed fault, { c.source with sink := (c.source.sink.write c.source.prompt).2 }) := by
      show Prompted.readLine c.source = _
      cases hwrite : c.source.sink.write c.source.prompt with
      | mk result sink =>
        rw [hwrite] at h
        obtain rfl : result = .error fault := h
        rw [Prompted.readLine, hwrite]
    rw [source_evaluate_of_rest_eq_nil hrest, hread]
    refine ⟨rfl, fun _ => ?_⟩
    have hfill := TokenStream.fill_of_failed hrest hread
    rw [evaluate_of_fill_error hfill]
  · rw [source_evaluate_of_rest_ne_nil hrest]
    exact ⟨rfl, fun hnil => absurd hnil hrest⟩

/-! ## Call after call -/

/-- Two calculators are alike up to their sources. -/
structure Alike {σ τ : Type} (c : Calculator σ) (c' : Calculator τ) : Prop where
  cursor : c.stream.cursor = c'.stream.cursor
  text : c.stream.text = c'.stream.text
  exitWord : c.stream.exitWord = c'.stream.exitWord
  symbols : c.symbols = c'.symbols

/-- Another source does not matter to `Alike`. -/
private theorem Alike.withSource {σ τ : Type} {c : Calculator σ} {c' : Calculator τ}
    (h : Alike c c') (source : σ) : Alike (c.withSource source) c' :=
  ⟨h.cursor, h.text, h.exitWord, h.symbols⟩

/-- Calculators that are alike answer to their buffers alike, and no source is asked. -/
private theorem Alike.evaluateBuffered {σ τ : Type} {c : Calculator σ} {c' : Calculator τ}
    (h : Alike c c') (detailed : Bool) :
    (c.evaluateBuffered detailed).1.isInterruption = false ∧
      (c.evaluateBuffered detailed).1 = (c'.evaluateBuffered detailed).1 ∧
      Alike (c.evaluateBuffered detailed).2 (c'.evaluateBuffered detailed).2 ∧
      (c.evaluateBuffered detailed).2.source = c.source ∧
      (c'.evaluateBuffered detailed).2.source = c'.source := by
  obtain ⟨hcursor, htext, hexit, hsymbols⟩ := h
  unfold Calculator.evaluateBuffered
  simp only [hcursor, htext, hsymbols]
  split
  · exact ⟨rfl, rfl, ⟨rfl, rfl, hexit, rfl⟩, rfl, rfl⟩
  · exact ⟨rfl, rfl, ⟨rfl, rfl, hexit, rfl⟩, rfl, rfl⟩

/-- The answers to `n` calls, each with the variables after the call. -/
def calls {σ : Type} [LineSource σ] (c : Calculator σ) (detailed : Bool) :
    Nat → List (Reply × SymbolTable)
  | 0 => []
  | n + 1 =>
    ((c.evaluate detailed).1, (c.evaluate detailed).2.symbols) ::
      (c.evaluate detailed).2.calls detailed n

/-- A call does not change the exit word. -/
private theorem exitWord_evaluate {σ : Type} [LineSource σ] (c : Calculator σ) (detailed : Bool) :
    (c.evaluate detailed).2.stream.exitWord = c.stream.exitWord := by
  -- only filling the buffer could have changed it
  have hbuffered (c : Calculator σ) :
      (c.evaluateBuffered detailed).2.stream.exitWord = c.stream.exitWord := by
    unfold Calculator.evaluateBuffered
    simp only
    split <;> rfl
  cases hfill : c.stream.fill with
  | mk r stream =>
    cases r with
    | error e => rw [evaluate_of_fill_error hfill, (TokenStream.eq_of_fill_error hfill).2]
    | ok =>
      rw [evaluate_of_fill_ok hfill, hbuffered]
      rcases TokenStream.fill_eq_ok hfill with ⟨-, rfl⟩ | ⟨-, text, source, -, -, rfl⟩
      · rfl
      · rfl

variable {σ τ : Type} [LineSource σ] [LineSource τ]

/-- A call is interrupted, and the calculator is as it was; or it is answered in the same way over
    both sources. -/
private theorem Alike.evaluate_of_skips {exitWord : Option (List Char)} {R : Nat → σ → τ → Prop}
    (hR : LineSource.Skips exitWord R) {c : Calculator σ} {c' : Calculator τ} (h : Alike c c')
    (hexit : c.stream.exitWord = exitWord) {k : Nat} (hsources : R k c.source c'.source)
    (detailed : Bool) :
    ((c.evaluate detailed).1.isInterruption = true ∧ Alike (c.evaluate detailed).2 c' ∧
      ∃ k', k' < k ∧ R k' (c.evaluate detailed).2.source c'.source) ∨
    ((c.evaluate detailed).1.isInterruption = false ∧
      (c.evaluate detailed).1 = (c'.evaluate detailed).1 ∧
      Alike (c.evaluate detailed).2 (c'.evaluate detailed).2 ∧
      R k (c.evaluate detailed).2.source (c'.evaluate detailed).2.source) := by
  subst hexit
  by_cases hrest : c.stream.cursor.rest = []
  · -- one line is asked for, over the second source only if the first one hands out a line or ends
    have hrest' : c'.stream.cursor.rest = [] := h.cursor ▸ hrest
    cases hread : LineSource.readLine c.source with
    | mk read source =>
      rcases hR k _ _ hsources with ⟨hinterrupts, hnext⟩ | ⟨hinterrupts, hsame, hnext⟩
      · left
        rw [hread] at hinterrupts hnext
        cases read with
        | line text =>
          have hword : c.stream.exitWord = some text := by
            simpa [LineRead.interrupts] using hinterrupts
          rw [evaluate_of_fill_error (TokenStream.fill_of_exit hrest hread hword)]
          exact ⟨rfl, h.withSource source, hnext⟩
        | ended => cases hinterrupts
        | failed fault =>
          rw [evaluate_of_fill_error (TokenStream.fill_of_failed hrest hread)]
          exact ⟨rfl, h.withSource source, hnext⟩
      · right
        cases hread' : LineSource.readLine c'.source with
        | mk read' source' =>
          rw [hread, hread'] at hsame hnext
          rw [hread] at hinterrupts
          obtain rfl : read' = read := hsame
          cases read' with
          | line text =>
            have hword : c.stream.exitWord ≠ some text := by
              simpa [LineRead.interrupts] using hinterrupts
            have hword' : c'.stream.exitWord ≠ some text := h.exitWord ▸ hword
            rw [evaluate_of_fill_ok (TokenStream.fill_of_readLine hrest hread hword),
              evaluate_of_fill_ok (TokenStream.fill_of_readLine hrest' hread' hword')]
            let loaded : Calculator σ :=
              { c with stream := { c.stream with source, cursor := LineCursor.load text } }
            let loaded' : Calculator τ :=
              { c' with stream := { c'.stream with
                source := source', cursor := LineCursor.load text } }
            have halike : Alike loaded loaded' := ⟨rfl, h.text, h.exitWord, h.symbols⟩
            obtain ⟨hline, hreply, hafter, hsource, hsource'⟩ := halike.evaluateBuffered detailed
            refine ⟨hline, hreply, hafter, ?_⟩
            rw [hsource, hsource']
            exact hnext
          | ended =>
            rw [evaluate_of_fill_error (TokenStream.fill_of_ended hrest hread),
              evaluate_of_fill_error (TokenStream.fill_of_ended hrest' hread')]
            exact ⟨rfl, rfl, ⟨h.cursor, h.text, h.exitWord, h.symbols⟩, hnext⟩
          | failed fault => cases hinterrupts
  · right
    -- what is left of the buffered line is answered without asking any source
    have hrest' : c'.stream.cursor.rest ≠ [] := h.cursor ▸ hrest
    rw [evaluate_of_fill_ok (TokenStream.fill_of_rest_ne_nil hrest),
      evaluate_of_fill_ok (TokenStream.fill_of_rest_ne_nil hrest')]
    obtain ⟨hline, hreply, hafter, hsource, hsource'⟩ := h.evaluateBuffered detailed
    refine ⟨hline, hreply, hafter, ?_⟩
    rw [hsource, hsource']
    exact hsources

/-- The answers over a source are, interruptions apart, those over one that leaves out what
    interrupts; and there are no more interruptions than there is to leave out. -/
theorem calls_of_skips {exitWord : Option (List Char)} {R : Nat → σ → τ → Prop}
    (hR : LineSource.Skips exitWord R) {c : Calculator σ} {c' : Calculator τ} (h : Alike c c')
    (hexit : c.stream.exitWord = exitWord) {k : Nat} (hsources : R k c.source c'.source)
    (detailed : Bool) (n : Nat) :
    let answers := (c.calls detailed n).filter (!·.1.isInterruption)
    answers = c'.calls detailed answers.length ∧ n ≤ answers.length + k := by
  -- by induction on the calls; an interrupted one uses up one of the `k` interruptions
  induction n generalizing c c' k with
  | zero => exact ⟨rfl, Nat.zero_le _⟩
  | succ n ih =>
    have hexit' : (c.evaluate detailed).2.stream.exitWord = exitWord :=
      (exitWord_evaluate c detailed).trans hexit
    intro answers
    rcases h.evaluate_of_skips hR hexit hsources detailed with
      ⟨hline, halike, k', hk, hnext⟩ | ⟨hline, hreply, halike, hnext⟩
    · -- the interrupted call is dropped, and the second calculator has not been called yet
      have hdrop : answers =
          ((c.evaluate detailed).2.calls detailed n).filter (!·.1.isInterruption) :=
        List.filter_cons_of_neg (by simp [hline])
      obtain ⟨hanswers, hlength⟩ := ih halike hexit' hnext
      rw [hdrop]
      exact ⟨hanswers, by omega⟩
    · have hkeep : answers = ((c.evaluate detailed).1, (c.evaluate detailed).2.symbols) ::
          ((c.evaluate detailed).2.calls detailed n).filter (!·.1.isInterruption) :=
        List.filter_cons_of_pos (by simp [hline])
      obtain ⟨hanswers, hlength⟩ := ih halike hexit' hnext
      rw [hkeep, List.length_cons, calls, hreply, halike.symbols, ← hanswers]
      exact ⟨rfl, by omega⟩

end Calculator

/-! ## Leaving lines out -/

/-- The lines of a stream of bytes, each with its end. -/
def Prompted.byteLines (bytes : List UInt8) : List (List UInt8) :=
  if _h : bytes = [] then [] else (splitLine bytes).1 :: byteLines (splitLine bytes).2
termination_by bytes.length
decreasing_by exact length_splitLine_snd_lt _h

/-- A line of bytes is the exit word, or it is not valid UTF-8. -/
def Prompted.interrupts (exitWord : Option (List Char)) (line : List UInt8) : Bool :=
  match decode? line with
  | none => true
  | some text => exitWord == some (stripLineEnd text)

/-- A stream of bytes without the lines that are the exit word or not valid UTF-8. -/
def Prompted.purge (exitWord : Option (List Char)) (bytes : List UInt8) : List UInt8 :=
  ((byteLines bytes).filter (!interrupts exitWord ·)).flatten

namespace Prompted

/-- Without bytes there is no line. -/
private theorem byteLines_nil : byteLines [] = [] := by
  rw [byteLines, dif_pos rfl]

/-- The first of the lines is the one that `splitLine` cuts off. -/
private theorem byteLines_of_ne_nil {bytes : List UInt8} (h : bytes ≠ []) :
    byteLines bytes = (splitLine bytes).1 :: byteLines (splitLine bytes).2 := by
  rw [byteLines, dif_neg h]

/-- A line takes a byte at least. -/
private theorem splitLine_fst_ne_nil {bytes : List UInt8} (h : bytes ≠ []) : (splitLine bytes).1 ≠
    [] := by
  unfold splitLine
  split
  · exact h
  · simp

/-- A line of bytes can be cut off whatever comes behind it, which is nothing if its end is
    missing. -/
private theorem splitLine_fst_append {bytes more : List UInt8}
    (h : (splitLine bytes).2 = [] → more = []) :
    splitLine ((splitLine bytes).1 ++ more) = ((splitLine bytes).1, more) := by
  unfold splitLine at h ⊢
  cases hdrop : bytes.dropWhile (· != lineFeed) with
  | nil =>
    obtain rfl := h (by rw [hdrop])
    simp only [List.append_nil, hdrop]
  | cons b rest =>
    have hb : b = lineFeed := by
      simpa [hdrop] using List.head?_dropWhile_not (· != lineFeed) bytes
    have htake : ∀ a ∈ bytes.takeWhile (· != lineFeed), (a != lineFeed) = true :=
      List.all_eq_true.1 List.all_takeWhile
    simp only [List.append_assoc, List.singleton_append]
    rw [List.dropWhile_append_of_pos htake, List.takeWhile_append_of_pos htake]
    simp

/-- What is read when the prompt can be written. -/
private theorem readLine_unlimited {p : Prompted} (h : p.sink.limit = none) :
    ∃ sink, sink.limit = none ∧ LineSource.readLine p =
      if p.unread = [] then (.ended, { p with sink })
      else (match decode? (splitLine p.unread).1 with
        | none => .failed .invalidUtf8
        | some text => .line (stripLineEnd text),
        { p with sink, unread := (splitLine p.unread).2 }) := by
  obtain ⟨unread, prompt, written, limit⟩ := p
  obtain rfl : limit = none := h
  refine ⟨⟨written ++ utf8Bytes prompt, none⟩, rfl, ?_⟩
  show readLine _ = _
  simp only [readLine, Sink.write_unlimited, List.isEmpty_iff]
  split
  · rfl
  · cases decode? (splitLine unread).1 <;> rfl

/-- A line of bytes interrupts if what is read of it does. -/
private theorem interrupts_readLine (exitWord : Option (List Char)) (line : List UInt8) :
    LineRead.interrupts exitWord (match decode? line with
      | none => .failed .invalidUtf8
      | some text => .line (stripLineEnd text)) = interrupts exitWord line := by
  unfold interrupts
  cases decode? line <;> rfl

/-- Nothing is left of nothing. -/
@[simp] private theorem purge_nil (exitWord : Option (List Char)) : purge exitWord [] = [] := by
  rw [purge, byteLines_nil]
  rfl

/-- A line that interrupts is left out. -/
private theorem purge_of_interrupts {exitWord : Option (List Char)} {bytes : List UInt8}
    (hne : bytes ≠ []) (h : interrupts exitWord (splitLine bytes).1 = true) :
    purge exitWord bytes = purge exitWord (splitLine bytes).2 := by
  rw [purge, byteLines_of_ne_nil hne, List.filter_cons_of_neg (by simp [h]), purge]

/-- Any other line stays in front of what is kept of those behind it. -/
private theorem splitLine_purge {exitWord : Option (List Char)} {bytes : List UInt8}
    (hne : bytes ≠ []) (h : interrupts exitWord (splitLine bytes).1 = false) :
    purge exitWord bytes ≠ [] ∧
      splitLine (purge exitWord bytes) =
        ((splitLine bytes).1, purge exitWord (splitLine bytes).2) := by
  have hpurge : purge exitWord bytes =
      (splitLine bytes).1 ++ purge exitWord (splitLine bytes).2 := by
    rw [purge, byteLines_of_ne_nil hne, List.filter_cons_of_pos (by simp [h]), List.flatten_cons,
      purge]
  rw [hpurge]
  refine ⟨List.append_ne_nil_of_left_ne_nil (splitLine_fst_ne_nil hne) _, ?_⟩
  refine splitLine_fst_append fun hnil => ?_
  rw [hnil, purge_nil]

/-- A stream of bytes without the lines that interrupt hands out those that are left. -/
theorem skips_purge (exitWord : Option (List Char)) :
    LineSource.Skips exitWord fun k (p p' : Prompted) =>
      p.sink.limit = none ∧ p'.sink.limit = none ∧ p'.unread = purge exitWord p.unread ∧
        k = (byteLines p.unread).countP (interrupts exitWord) := by
  rintro k p p' ⟨hlimit, hlimit', hunread, rfl⟩
  obtain ⟨sink, hsink, hread⟩ := readLine_unlimited hlimit
  obtain ⟨sink', hsink', hread'⟩ := readLine_unlimited hlimit'
  -- both streams are at their end, or the first one hands out a line
  by_cases hnil : p.unread = []
  · rw [hnil, purge_nil] at hunread
    rw [if_pos hnil] at hread
    rw [if_pos hunread] at hread'
    rw [hread, hread']
    exact .inr ⟨rfl, rfl, hsink, hsink', by simp only [hunread, hnil, purge_nil], rfl⟩
  · rw [if_neg hnil] at hread
    rw [hread, interrupts_readLine, byteLines_of_ne_nil hnil]
    cases hinterrupts : interrupts exitWord (splitLine p.unread).1 with
    | true =>
      rw [purge_of_interrupts hnil hinterrupts] at hunread
      rw [List.countP_cons_of_pos hinterrupts]
      exact .inl ⟨rfl, _, Nat.lt_succ_self _, hsink, hlimit', hunread, rfl⟩
    | false =>
      -- the line is kept, so the second stream hands it out next
      obtain ⟨hne, hsplit⟩ := splitLine_purge hnil hinterrupts
      rw [if_neg (hunread ▸ hne), hunread, hsplit] at hread'
      rw [List.countP_cons_of_neg (by simp [hinterrupts]), hread']
      exact .inr ⟨rfl, rfl, hsink, hsink', rfl, rfl⟩

end Prompted

/-- A queue without the exit word hands out the lines that are left. -/
theorem LineQueue.skips_filter (exitWord : Option (List Char)) :
    LineSource.Skips exitWord fun k (q q' : LineQueue) =>
      q'.lines = q.lines.filter (exitWord != some ·) ∧
        k = q.lines.countP (exitWord == some ·) := by
  rintro k ⟨lines⟩ ⟨lines'⟩ ⟨hlines, rfl⟩
  obtain rfl : lines' = _ := hlines
  cases lines with
  | nil => exact .inr ⟨rfl, rfl, rfl, rfl⟩
  | cons line lines =>
    by_cases hword : exitWord = some line
    · have hcount : (line :: lines).countP (exitWord == some ·) =
          lines.countP (exitWord == some ·) + 1 := List.countP_cons_of_pos (by simp [hword])
      have hfilter : (line :: lines).filter (exitWord != some ·) =
          lines.filter (exitWord != some ·) := List.filter_cons_of_neg (by simp [hword])
      rw [hcount, hfilter]
      exact .inl ⟨by simpa [LineSource.readLine, readLine, LineRead.interrupts] using hword, _,
        Nat.lt_succ_self _, rfl, rfl⟩
    · have hcount : (line :: lines).countP (exitWord == some ·) =
          lines.countP (exitWord == some ·) := List.countP_cons_of_neg (by simp [hword])
      have hfilter : (line :: lines).filter (exitWord != some ·) =
          line :: lines.filter (exitWord != some ·) := List.filter_cons_of_pos (by simp [hword])
      rw [hcount, hfilter]
      exact .inr ⟨by simpa [LineSource.readLine, readLine, LineRead.interrupts] using hword, rfl,
        rfl, rfl⟩

/-! ## Going on after errors -/

namespace Calculator

/-- A call that is ended by the input, at whatever token that comes to light, leaves the variables,
    the line, the position and the text of the token as they were and records no step; all it has
    done is to ask the source for one line.  A prompt that cannot be written costs no byte of the
    input.  The answers to call after call are therefore, interruptions apart, those that are given
    when the lines that are the exit word or not valid UTF-8 are left out of the input, and there is
    one interruption at most for each of these lines. -/
theorem evaluate_survives_input_errors :
    (∀ (σ : Type) [LineSource σ] (c : Calculator σ), c.InUse → ∀ detailed,
      c.evaluateByScanning detailed = .ok (c.evaluate detailed) ∧
      ∀ e, (c.evaluate detailed).1.result = .error (.input e) →
        let next := (c.evaluate detailed).2
        (c.evaluate detailed).1.steps = [] ∧ next.symbols = c.symbols ∧
          next.stream.currentLine = c.stream.currentLine ∧
          next.stream.position = c.stream.position ∧ next.stream.text = c.stream.text ∧
          next = c.withSource (LineSource.readLine c.source).2) ∧
    (∀ (c : Calculator Prompted) detailed fault,
      (c.source.sink.write c.source.prompt).1 = .error fault →
        (c.evaluate detailed).2.source.unread = c.source.unread ∧
          (c.stream.cursor.rest = [] →
            (c.evaluate detailed).1.result = .error (.input (.failed fault)))) ∧
    (∀ (c : Calculator Prompted) detailed n, c.source.sink.limit = none →
      let purged := c.withSource
        { c.source with unread := Prompted.purge c.stream.exitWord c.source.unread }
      let answers := (c.calls detailed n).filter (!·.1.isInterruption)
      answers = purged.calls detailed answers.length ∧
        n ≤ answers.length +
          (Prompted.byteLines c.source.unread).countP (Prompted.interrupts c.stream.exitWord)) ∧
    ∀ (c : Calculator LineQueue) detailed n,
      let purged := c.withSource ⟨c.source.lines.filter (c.stream.exitWord != some ·)⟩
      let answers := (c.calls detailed n).filter (!·.1.isInterruption)
      answers = purged.calls detailed answers.length ∧
        n ≤ answers.length + c.source.lines.countP (c.stream.exitWord == some ·) := by
  refine ⟨fun σ _ c hc detailed => ⟨evaluateByScanning_eq hc.terminated detailed, fun e he => ?_⟩,
    fun c detailed fault h => unread_evaluate_of_write_error h detailed,
    fun c detailed n hlimit => ?_, fun c detailed n => ?_⟩
  · obtain ⟨hsteps, hnext⟩ := evaluate_of_input_error he
    intro next
    refine ⟨hsteps, ?_, ?_, ?_, ?_, hnext⟩
    all_goals
      simp only [next, hnext]
      rfl
  · intro purged
    have halike : Alike c purged := ⟨rfl, rfl, rfl, rfl⟩
    exact calls_of_skips (Prompted.skips_purge c.stream.exitWord) halike rfl
      ⟨hlimit, hlimit, rfl, rfl⟩ detailed n
  · intro purged
    have halike : Alike c purged := ⟨rfl, rfl, rfl, rfl⟩
    exact calls_of_skips (LineQueue.skips_filter c.stream.exitWord) halike rfl ⟨rfl, rfl⟩
      detailed n

/-- A line that is not valid UTF-8 and the exit word `q` come before the line `1`.  The first call
    fails and changes nothing but the source; the first answer is the one to `1`.  If the prompt
    cannot be written, all of the input is left. -/
theorem evaluate_survives_undecodable_line :
    let input : List UInt8 := [0xFF, 0x0A, 0x71, 0x0A, 0x31, 0x0A]
    let reading (unread : List UInt8) (limit : Option Nat) : Calculator Prompted :=
      ⟨TokenStream.new ⟨unread, ">> ", ⟨[], limit⟩⟩ (some ['q']), SymbolTable.empty⟩
    let c := reading input none
    let purged := reading [0x31, 0x0A] none
    (c.evaluate false).1.result = .error (.input (.failed .invalidUtf8)) ∧
      (c.evaluate false).2 = c.withSource (LineSource.readLine c.source).2 ∧
      ((c.calls false 3).filter (!·.1.isInterruption)).head? =
        some ((purged.evaluate false).1, (purged.evaluate false).2.symbols) ∧
      ((reading input (some 1)).evaluate false).2.source.unread = input := by
  intro input reading c purged
  obtain ⟨hcalls, hprompt, hpurge, -⟩ := evaluate_survives_input_errors
  have hdecode : Prompted.decode? [0xFF, 0x0A] = none := by decide +kernel
  have hdecode' : Prompted.decode? [0x71, 0x0A] = some ['q', '\n'] := by decide +kernel
  have hdecode'' : Prompted.decode? [0x31, 0x0A] = some ['1', '\n'] := by decide +kernel
  have hfailed : (c.evaluate false).1.result = .error (.input (.failed .invalidUtf8)) := by
    obtain ⟨sink, -, hread⟩ := Prompted.readLine_unlimited (p := c.source) rfl
    rw [if_neg (by simp [c, reading, input, source, TokenStream.new])] at hread
    have hsplit : Prompted.splitLine c.source.unread =
        ([0xFF, 0x0A], [0x71, 0x0A, 0x31, 0x0A]) := by
      decide
    simp only [hsplit, hdecode] at hread
    rw [evaluate_of_fill_error (TokenStream.fill_of_failed rfl hread)]
  -- the line that is kept is the last one
  have hbyteLines : Prompted.byteLines input = [[0xFF, 0x0A], [0x71, 0x0A], [0x31, 0x0A]] := by
    simp [input, Prompted.byteLines, Prompted.splitLine, Prompted.lineFeed]
  refine ⟨hfailed, ((hcalls _ c (.new _ _ _) false).2 _ hfailed).2.2.2.2.2, ?_, ?_⟩
  · obtain ⟨hanswers, hlength⟩ := hpurge c false 3 rfl
    have hcount : (Prompted.byteLines c.source.unread).countP
        (Prompted.interrupts c.stream.exitWord) = 2 := by
      show (Prompted.byteLines input).countP (Prompted.interrupts (some ['q'])) = 2
      simp [hbyteLines, Prompted.interrupts, hdecode, hdecode', hdecode'', Prompted.stripLineEnd]
    have hpurged : Prompted.purge c.stream.exitWord c.source.unread = [0x31, 0x0A] := by
      show Prompted.purge (some ['q']) input = _
      simp [Prompted.purge, hbyteLines, Prompted.interrupts, hdecode, hdecode', hdecode'',
        Prompted.stripLineEnd]
    rw [hcount] at hlength
    rw [hpurged] at hanswers
    rw [hanswers]
    generalize ((c.calls false 3).filter (!·.1.isInterruption)).length = m at hlength ⊢
    obtain ⟨m, rfl⟩ : ∃ m', m = m' + 1 := ⟨m - 1, by omega⟩
    rfl
  · exact (hprompt (reading input (some 1)) false .writerFull (by decide +kernel)).1

end Calculator

end DeskCalc
