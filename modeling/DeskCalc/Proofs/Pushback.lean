import DeskCalc.Proofs.ByteCursor

/-!
# Reading through a cursor that counts bytes

A token stream can read its line through a cursor that counts bytes.  Tokens, raw characters,
characters given back, dropped lines and new input may come in any order: the stream on bytes gives
the same answers as the one that holds its line split, and none of its operations fails.  Each move
of the cursor is recorded, so that it can be said which of them a token takes.

## Key results

- `TokenStream.scan_toBytes_of_fill`: scanning a token on bytes, and the moves that it takes
- `TokenStream.Sound.use_toBytes`: every use of a stream on bytes is the use of the stream, and it
  keeps the stream sound
- `TokenStream.pushback_is_sound`: any uses of a stream on bytes, and how it stands behind them
-/

namespace DeskCalc

/-! ## The stream on bytes -/

/-- A line source that is read token by token through a cursor that counts bytes. -/
structure ByteStream (σ : Type) where
  source : σ
  cursor : ByteCursor
  /-- The characters of the token read last. -/
  text : List Char
  /-- The line that ends the session, if there is one. -/
  exitWord : Option (List Char)
  /-- What the cursor went through. -/
  moves : List CursorMove

namespace ByteStream

variable {σ : Type}

/-- A stream at the start of a source. -/
def new (source : σ) (exitWord : Option (List Char)) : ByteStream σ :=
  ⟨source, ByteCursor.empty, [], exitWord, []⟩

/-- Gives the character read last back. -/
def unread (b : ByteStream σ) : Option (Except CursorError (ByteStream σ)) :=
  b.cursor.unread.map fun r =>
    r.map fun cursor => { b with cursor, moves := b.moves ++ [.unread] }

/-- Drops what is left of the line. -/
def flush (b : ByteStream σ) : ByteStream σ :=
  { b with cursor := b.cursor.flush, moves := b.moves ++ [.flush] }

/-- The stream with `c` added to the text of the token. -/
def addToText (b : ByteStream σ) (c : Char) : ByteStream σ := { b with text := b.text ++ [c] }

variable [LineSource σ]

/-- Makes sure that there is something to read, pulling a line if the buffer is used up. -/
def fill (b : ByteStream σ) : Except InputError Unit × ByteStream σ :=
  if b.cursor.isExhausted then
    match LineSource.readLine b.source with
    | (.line text, source) =>
      if b.exitWord = some text then (.error .exit, { b with source })
      else (.ok (), { b with
        source
        cursor := ByteCursor.load text
        moves := b.moves ++ [.load text] })
    | (.ended, source) => (.error .endOfInput, { b with source })
    | (.failed fault, source) => (.error (.failed fault), { b with source })
  else (.ok (), b)

/-- Reads a raw character. -/
def nextChar (b : ByteStream σ) : Option (Except InputError Char × ByteStream σ) :=
  match b.fill with
  | (.error e, b) => some (.error e, b)
  | (.ok (), b) => b.cursor.advance.map fun r =>
    match r with
    | (none, _) => (.error .endOfInput, b)
    | (some c, cursor) => (.ok c, { b with cursor, moves := b.moves ++ [.read c] })

/-- How far the end of the line is away in the buffer. -/
def ahead (b : ByteStream σ) : ℕ ×ₗ ℕ := charsAhead b.cursor.rest

/-- A character that is read stood in front of the buffer, or of the line that was pulled. -/
private theorem rest_of_nextChar {b b' : ByteStream σ} {c : Char}
    (h : b.nextChar = some (.ok c, b')) :
    b.cursor.rest = c :: b'.cursor.rest ∨
      b.cursor.rest = [] ∧ ∃ line, line ++ ['\n'] = c :: b'.cursor.rest := by
  unfold nextChar at h
  split at h
  · cases h
  · next filled hfill =>
    obtain ⟨⟨a?, cursor⟩, hadvance, hr⟩ := Option.map_eq_some_iff.1 h
    cases a? with
    | none => cases hr
    | some a =>
      cases hr
      have hrest := ByteCursor.rest_of_advance hadvance
      -- the buffer that was read is the one that `fill` left
      unfold fill at hfill
      split at hfill
      · next hexhausted =>
        refine Or.inr ⟨ByteCursor.rest_of_isExhausted hexhausted, ?_⟩
        split at hfill
        · next text source hread =>
          split at hfill
          · cases hfill
          · cases hfill
            exact ⟨text, (ByteCursor.rest_load text).symm.trans hrest⟩
        · cases hfill
        · cases hfill
      · cases hfill
        exact Or.inl hrest

/-- Reading a character other than the end of the line brings that end nearer. -/
private theorem ahead_nextChar_lt {b b' : ByteStream σ} {c : Char}
    (h : b.nextChar = some (.ok c, b')) (hc : c ≠ '\n') : b'.ahead < b.ahead := by
  rcases rest_of_nextChar h with hrest | ⟨hnil, line, hline⟩
  · rw [ahead, ahead, hrest]
    exact charsAhead_lt_cons hc _
  · rw [ahead, ahead, hnil]
    exact charsAhead_lt_nil hline hc

/-- Reads up to the first character that is not a space. -/
def skipSpaces (b : ByteStream σ) : Option (Except InputError Char × ByteStream σ) :=
  match _h : b.nextChar with
  | none => none
  | some (.error e, b') => some (.error e, b')
  | some (.ok c, b') => if _hc : c = ' ' then skipSpaces b' else some (.ok c, b')
termination_by b.ahead
decreasing_by exact ahead_nextChar_lt _h (by simp [_hc])

/-- Reads the characters of a token up to and including the first that does not belong to it. -/
def scanRun {α : Type} (k : TokenStream.Continuation α) (state : α) (b : ByteStream σ) :
    Option (Except InputError Unit × ByteStream σ) :=
  match _h : b.nextChar with
  | none => none
  | some (.error e, b') => some (.error e, b')
  | some (.ok c, b') =>
    match _hext : k.extend state c with
    | some state' => scanRun k state' (b'.addToText c)
    | none => some (.ok (), b')
termination_by b.ahead
decreasing_by exact (ahead_nextChar_lt _h (k.ne_newline _hext) :)

/-- A scan goes on if the character belongs to the token. -/
private theorem scanRun_of_nextChar {α : Type} {k : TokenStream.Continuation α} {state : α}
    {b b' : ByteStream σ} {c : Char} (h : b.nextChar = some (.ok c, b')) :
    b.scanRun k state = match k.extend state c with
      | some state' => scanRun k state' (b'.addToText c)
      | none => some (.ok (), b') := by
  rw [scanRun, h]
  simp only
  split <;> simp only [*]

/-- Scans the rest of a number or name, gives the character behind it back, and makes the token of
    the text. -/
def scanOperand {α : Type} (k : TokenStream.Continuation α) (state : α)
    (token : List Char → Token) (b : ByteStream σ) :
    Option (Except CursorError (Except InputError Token × ByteStream σ)) :=
  match b.scanRun k state with
  | none => none
  | some (.error e, b) => some (.ok (.error e, b))
  | some (.ok (), b) => b.unread.map fun r => r.map fun b => (.ok (token b.text), b)

/-- Scans the token that starts with `c`, which has been read. -/
def scanFrom (c : Char) (b : ByteStream σ) :
    Option (Except CursorError (Except InputError Token × ByteStream σ)) :=
  let b := { b with text := [c] }
  match Token.ofSymbol? c with
  | some token => some (.ok (.ok token, b))
  | none =>
    if c.isDigit then
      b.scanOperand TokenStream.numberRun false fun text => .number (Decimal.readLiteral text)
    else if Text.isAlphabetic c then
      b.scanOperand TokenStream.nameRun () fun text => .name (String.ofList text)
    else some (.ok (.ok (.invalid c), b))

/-- Scans a token.  The error inside the option is a misuse of the pushback slot. -/
def scan (b : ByteStream σ) :
    Option (Except CursorError (Except InputError Token × ByteStream σ)) :=
  match b.skipSpaces with
  | none => none
  | some (.error e, b) => some (.ok (.error e, b))
  | some (.ok c, b) => b.scanFrom c

end ByteStream

namespace TokenStream

variable {σ : Type}

/-! ## A stream seen on bytes -/

/-- The stream on bytes that stands where the stream does, behind `moves`. -/
def toBytes (s : TokenStream σ) (moves : List CursorMove) : ByteStream σ :=
  ⟨s.source, s.cursor.toBytes, s.text, s.exitWord, moves⟩

/-- `new` on bytes is `new`, behind no moves. -/
private theorem new_toBytes (source : σ) (exitWord : Option (List Char)) :
    (new source exitWord).toBytes [] = ByteStream.new source exitWord := rfl

/-- `unread` on bytes never goes beyond the start of the line. -/
theorem unread_toBytes (s : TokenStream σ) (moves : List CursorMove) :
    (s.toBytes moves).unread = some (s.unread.map fun s => s.toBytes (moves ++ [.unread])) := by
  rw [ByteStream.unread, toBytes]
  simp only [LineCursor.unread_toBytes, unread]
  cases s.cursor.unread <;> rfl

/-- `flush` on bytes drops what is left of the line. -/
theorem flush_toBytes (s : TokenStream σ) (moves : List CursorMove) :
    (s.toBytes moves).flush = s.flush.toBytes (moves ++ [.flush]) := by
  simp only [ByteStream.flush, toBytes, flush, LineCursor.flush_toBytes]

variable [LineSource σ]

/-- The line that is put in the buffer if it is used up. -/
def pulled (s : TokenStream σ) : List CursorMove :=
  match s.cursor.isExhausted, LineSource.readLine s.source with
  | true, (.line text, _) => if s.exitWord = some text then [] else [.load text]
  | _, _ => []

/-- `fill` on bytes pulls the line that `fill` pulls. -/
private theorem fill_toBytes (s : TokenStream σ) (moves : List CursorMove) :
    (s.toBytes moves).fill = (s.fill.1, s.fill.2.toBytes (moves ++ s.pulled)) := by
  have hexhausted : (s.toBytes moves).cursor.isExhausted = s.cursor.isExhausted :=
    LineCursor.isExhausted_toBytes s.cursor
  unfold ByteStream.fill fill pulled
  rw [hexhausted]
  -- both streams look at the source only if nothing is left to read
  cases s.cursor.isExhausted with
  | false => simp
  | true =>
    simp only [toBytes, if_true]
    cases LineSource.readLine s.source with
    | mk r source =>
      cases r with
      | line text =>
        by_cases hexit : s.exitWord = some text <;> simp [hexit, LineCursor.load_toBytes]
      | ended => simp
      | failed fault => simp

/-- What the cursor goes through when a raw character is read. -/
def charMoves (s : TokenStream σ) : List CursorMove :=
  s.pulled ++ match s.nextChar.1 with
    | .ok c => [.read c]
    | .error _ => []

/-- `nextChar` on bytes never cuts through a character. -/
theorem nextChar_toBytes (s : TokenStream σ) (moves : List CursorMove) :
    (s.toBytes moves).nextChar =
      some (s.nextChar.1, s.nextChar.2.toBytes (moves ++ s.charMoves)) := by
  -- after `fill` the two cursors stand at the same place, where both can read
  unfold ByteStream.nextChar charMoves nextChar
  rw [fill_toBytes]
  cases s.fill with
  | mk r filled =>
    cases r with
    | error e => simp
    | ok =>
      simp only [toBytes, LineCursor.advance_toBytes, Option.map_some]
      cases hadvance : filled.cursor.advance with
      | mk c cursor =>
        cases c with
        | none => simp
        | some c => simp

/-! ## Scanning a token on bytes -/

/-- No line is pulled while there is something to read. -/
private theorem pulled_of_rest_ne_nil {s : TokenStream σ} (h : s.cursor.rest ≠ []) :
    s.pulled = [] := by
  have hexhausted : s.cursor.isExhausted = false := by
    rw [Bool.eq_false_iff]
    exact fun hex => h (LineCursor.isExhausted_eq_true_iff.1 hex)
  simp [pulled, hexhausted]

/-- `nextChar` on bytes reads the first character of the buffer. -/
private theorem nextChar_toBytes_of_rest {s : TokenStream σ} {c : Char} {cs : List Char}
    (h : s.cursor.rest = c :: cs) (moves : List CursorMove) :
    (s.toBytes moves).nextChar =
      some (.ok c, { s with cursor := ⟨c :: s.cursor.consumed, cs, true⟩ : TokenStream σ }.toBytes
        (moves ++ [.read c])) := by
  rw [nextChar_toBytes, charMoves, pulled_of_rest_ne_nil (by simp [h]), nextChar_of_rest h]
  rfl

/-- `skipSpaces` on bytes reads the spaces in front of the buffer and one character more. -/
private theorem skipSpaces_toBytes_of_rest {s : TokenStream σ} {k : Nat} {c : Char} {cs : List Char}
    (hc : c ≠ ' ') (h : s.cursor.rest = List.replicate k ' ' ++ c :: cs) (moves : List CursorMove) :
    (s.toBytes moves).skipSpaces = some (.ok c, { s with cursor :=
      ⟨c :: (List.replicate k ' ' ++ s.cursor.consumed), cs, true⟩ : TokenStream σ }.toBytes
        (moves ++ (List.replicate k ' ' ++ [c]).map .read)) := by
  induction k generalizing s moves with
  | zero =>
    rw [ByteStream.skipSpaces, nextChar_toBytes_of_rest h]
    simp [hc]
  | succ k ih =>
    rw [List.replicate_succ, List.cons_append] at h
    have hspaces : List.replicate k ' ' ++ ' ' :: s.cursor.consumed =
        List.replicate (k + 1) ' ' ++ s.cursor.consumed := by
      rw [List.replicate_succ', List.append_assoc, List.singleton_append]
    rw [ByteStream.skipSpaces, nextChar_toBytes_of_rest h]
    simp only
    -- the space that was read stands behind the cursor, with those of the induction hypothesis
    rw [ih rfl, hspaces]
    simp [List.replicate_succ]

/-- `scanRun` on bytes reads what belongs to the token and one character more. -/
private theorem scanRun_toBytes_of_takeRun {α : Type} {k : Continuation α} {state : α}
    {s : TokenStream σ} {cs taken more : List Char} {x : Char} (hrest : s.cursor.rest = cs)
    (h : takeRun k.extend state cs = (taken, x :: more)) (moves : List CursorMove) :
    (s.toBytes moves).scanRun k state = some (.ok (), { s with
      cursor := ⟨x :: (taken.reverse ++ s.cursor.consumed), more, true⟩
      text := s.text ++ taken : TokenStream σ }.toBytes
        (moves ++ taken.map .read ++ [.read x])) := by
  induction cs generalizing s state taken moves with
  | nil => simp [takeRun] at h
  | cons c cs ih =>
    rw [ByteStream.scanRun_of_nextChar (nextChar_toBytes_of_rest hrest moves)]
    simp only [takeRun] at h
    cases hext : k.extend state c with
    | none =>
      simp only [hext, Prod.mk.injEq, List.cons.injEq] at h
      obtain ⟨rfl, rfl, rfl⟩ := h
      simp
    | some state' =>
      simp only [hext, Prod.mk.injEq] at h
      obtain ⟨rfl, hmore⟩ := h
      simp only
      have hrun : takeRun k.extend state' cs = ((takeRun k.extend state' cs).1, x :: more) := by
        rw [← hmore]
      -- the stream behind `c`, from which the rest of the run is scanned
      let s' : TokenStream σ :=
        { s with cursor := ⟨c :: s.cursor.consumed, cs, true⟩, text := s.text ++ [c] }
      have hih := ih (s := s') rfl hrun (moves ++ [.read c])
      rw [show (ByteStream.addToText _ c) = s'.toBytes (moves ++ [.read c]) from rfl, hih]
      simp [s']

/-- The look at the character behind a number or name. -/
def lookahead (t : Token) (rest : List Char) : List CursorMove :=
  if gaveBack t then (rest.take 1).flatMap fun x => [.read x, .unread] else []

/-- At most one character is looked at, and it is given back. -/
private theorem lookahead_eq (t : Token) (rest : List Char) :
    lookahead t rest = [] ∨ ∃ x, lookahead t rest = [.read x, .unread] := by
  unfold lookahead
  cases gaveBack t with
  | false => exact Or.inl rfl
  | true =>
    cases rest with
    | nil => exact Or.inl rfl
    | cons x more => exact Or.inr ⟨x, rfl⟩

/-- An end of line is a token of its own. -/
private theorem text_eq_newline {l : Lexeme} (hl : l.Standalone) (h : '\n' ∈ l.text) :
    l.text = ['\n'] := by
  by_cases ht : l.token = .endOfLine
  · exact (Lexeme.token_eq_endOfLine_of_next? hl ht).2
  · exact absurd h (Lexeme.newline_not_mem_text hl ht)

/-- A number or name that another character ends is read to its end, and that character is given
    back. -/
private theorem scanOperand_toBytes_of_takeRun {α : Type} (k : Continuation α) {state : α}
    {token : List Char → Token} {s : TokenStream σ} {taken rest : List Char}
    (h : takeRun k.extend state s.cursor.rest = (taken, rest)) (hrest : rest ≠ [])
    (hback : ∀ text, gaveBack (token text) = true) (moves : List CursorMove) :
    (s.toBytes moves).scanOperand k state token =
      some (.ok (.ok (token (s.text ++ taken)), { s with
        cursor := ⟨taken.reverse ++ s.cursor.consumed, rest, false⟩
        text := s.text ++ taken : TokenStream σ }.toBytes
          (moves ++ taken.map .read ++ lookahead (token (s.text ++ taken)) rest))) := by
  obtain ⟨x, more, rfl⟩ := List.exists_cons_of_ne_nil hrest
  rw [ByteStream.scanOperand, scanRun_toBytes_of_takeRun rfl h]
  simp only [unread_toBytes, unread, LineCursor.unread, Except.map, Option.map_some, lookahead,
    hback]
  simp [toBytes]

/-- The scan of a token on bytes whose first character has been read. -/
private theorem scanFrom_toBytes_of_startingAt {s : TokenStream σ} {c : Char}
    {front rest : List Char}
    {gap : Nat} {l : Lexeme} (hfront : c :: s.cursor.rest = front ++ ['\n'])
    (h : Lexeme.startingAt gap c s.cursor.rest = (l, rest)) (moves : List CursorMove) :
    (s.toBytes moves).scanFrom c = some (.ok (.ok l.token, { s with
      cursor := ⟨l.text.tail.reverse ++ s.cursor.consumed, rest,
        !gaveBack l.token && s.cursor.canUnread⟩
      text := l.text : TokenStream σ }.toBytes
        (moves ++ l.text.tail.map .read ++ lookahead l.token rest))) := by
  unfold Lexeme.startingAt at h
  unfold ByteStream.scanFrom
  cases hs : Token.ofSymbol? c with
  | some t =>
    -- a token of one character: nothing more is read
    simp only [hs, Prod.mk.injEq] at h
    obtain ⟨rfl, rfl⟩ := h
    simp [gaveBack_of_ofSymbol? hs, lookahead, toBytes]
  | none =>
    -- the end of the line is still to come
    obtain ⟨left, hleft⟩ : ∃ left, s.cursor.rest = left ++ ['\n'] := by
      cases front with
      | nil =>
        obtain ⟨rfl, -⟩ := List.cons.inj hfront
        cases hs
      | cons a left => exact ⟨left, (List.cons.inj hfront).2⟩
    simp only [hs] at h ⊢
    let s' : TokenStream σ := { s with text := [c] }
    have hs' : { s.toBytes moves with text := [c] } = s'.toBytes moves := rfl
    rw [hs']
    by_cases hd : c.isDigit
    · have hrun : takeRun extendNumber false s.cursor.rest =
          ((Lexeme.splitNumber s.cursor.rest).1, (Lexeme.splitNumber s.cursor.rest).2) :=
        takeRun_extendNumber_false s.cursor.rest
      have hne : (Lexeme.splitNumber s.cursor.rest).2 ≠ [] := by
        rw [hleft, Lexeme.splitNumber_append Lexeme.isStop_newline]
        simp
      rw [if_pos hd] at h ⊢
      rw [splitNumber_cons hd] at h
      obtain ⟨rfl, rfl⟩ := Prod.mk.inj h
      rw [scanOperand_toBytes_of_takeRun numberRun (s := s') hrun hne fun _ => rfl]
      simp [s', gaveBack]
    · rw [if_neg hd] at h ⊢
      by_cases ha : Text.isAlphabetic c
      · have hc : Lexeme.isNameChar c = true := by simp [Lexeme.isNameChar, ha]
        have hrun : takeRun extendName () s.cursor.rest =
            ((Lexeme.splitName s.cursor.rest).1, (Lexeme.splitName s.cursor.rest).2) :=
          takeRun_extendName s.cursor.rest
        have hne : (Lexeme.splitName s.cursor.rest).2 ≠ [] := by
          rw [hleft, Lexeme.splitName_append Lexeme.isStop_newline]
          simp
        rw [if_pos ha] at h ⊢
        rw [splitName_cons hc] at h
        obtain ⟨rfl, rfl⟩ := Prod.mk.inj h
        rw [scanOperand_toBytes_of_takeRun nameRun (s := s') hrun hne fun _ => rfl]
        simp [s', gaveBack]
      · rw [if_neg ha] at h ⊢
        obtain ⟨rfl, rfl⟩ := Prod.mk.inj h
        simp [s', gaveBack, lookahead, toBytes]

/-- Scanning a line on bytes that goes on to its end gives its first lexeme. -/
private theorem scan_toBytes_of_next? {s : TokenStream σ} {front rest : List Char} {l : Lexeme}
    (hrest : s.cursor.rest = front ++ ['\n'])
    (h : Lexeme.next? (front ++ ['\n']) = some (l, rest)) (moves : List CursorMove) :
    (s.toBytes moves).scan = some (.ok (.ok l.token, (s.accept l).toBytes
      (moves ++ l.written.map .read ++ lookahead l.token rest))) := by
  obtain ⟨c, cs, hc, hcs, hstart⟩ := Lexeme.next?_eq_some h
  obtain ⟨more, hmore⟩ := Lexeme.exists_text_startingAt l.gap c cs
  simp only [hstart] at hmore
  -- the end of the line is the last character to be read
  have hlast : c :: cs = (c :: cs).dropLast ++ ['\n'] := by
    have hsome : (c :: cs).getLast? = some '\n' := by
      have := congrArg List.getLast? hcs
      simpa using this.symm
    exact (List.dropLast_append_getLast? '\n' hsome).symm
  let s' : TokenStream σ :=
    { s with cursor := ⟨c :: (List.replicate l.gap ' ' ++ s.cursor.consumed), cs, true⟩ }
  rw [ByteStream.scan, skipSpaces_toBytes_of_rest hc (hrest.trans hcs)]
  simp only
  rw [scanFrom_toBytes_of_startingAt (s := s') hlast hstart, accept_eq,
    LineCursor.forward_of_append (hrest.trans (Lexeme.written_append_of_next? h).symm)
      (Lexeme.length_written l).symm]
  simp [s', Lexeme.written, hmore]

/-- What has been put in the buffer in front of a token: nothing if there was something to read, and
    otherwise the line that the source had next. -/
def Pulls (s : TokenStream σ) (source : σ) (pull : List CursorMove) : Prop :=
  s.cursor.rest ≠ [] ∧ source = s.source ∧ pull = [] ∨
    s.cursor.rest = [] ∧ ∃ line, LineSource.readLine s.source = (.line line, source) ∧
      s.exitWord ≠ some line ∧ pull = [.load line]

/-- `pulled` is what `fill` put in the buffer, if it did not fail. -/
private theorem pulls_of_fill_ok {s s' : TokenStream σ} (h : s.fill = (.ok (), s')) :
    s.Pulls s'.source s.pulled := by
  rcases fill_eq_ok h with ⟨hne, rfl⟩ | ⟨hnil, text, source, hread, hexit, rfl⟩
  · exact Or.inl ⟨hne, rfl, pulled_of_rest_ne_nil hne⟩
  · refine Or.inr ⟨hnil, text, hread, hexit, ?_⟩
    simp only [pulled, LineCursor.isExhausted_eq_true_iff.2 hnil, hread, if_neg hexit]

/-- An error of the input moves no cursor. -/
private theorem pulled_of_fill_error {s s' : TokenStream σ} {e : InputError}
    (h : s.fill = (.error e, s')) : s.pulled = [] := by
  have hrest := LineCursor.isExhausted_eq_true_iff.2 (eq_of_fill_error h).1
  -- the buffer was used up, so the answer of the source decides
  rw [fill, if_pos hrest] at h
  rw [pulled, hrest]
  cases hread : LineSource.readLine s.source with
  | mk r source =>
    rw [hread] at h
    cases r with
    | line text =>
      by_cases hexit : s.exitWord = some text
      · simp [hexit]
      · simp [hexit] at h
    | ended => rfl
    | failed fault => rfl

/-- The moves of the cursor while a token is read: a line may be pulled, and then the spaces in
    front of the token and its text are read from that line, one character after the other, and the
    character behind the text may be looked at. -/
structure TokenMoves (s s' : TokenStream σ) (ms : List CursorMove) : Prop where
  moves_eq : ∃ pull gap back, ms = pull ++ (List.replicate gap ' ' ++ s'.text).map .read ++ back ∧
    s.Pulls s'.source pull ∧ (back = [] ∨ ∃ x, back = [.read x, .unread])
  text_eq : '\n' ∈ s'.text → s'.text = ['\n']

/-- An error of the input ends the scan on bytes before a character has been read. -/
theorem scan_toBytes_of_fill_error {s s' : TokenStream σ} {e : InputError}
    (h : s.fill = (.error e, s')) (moves : List CursorMove) :
    (s.toBytes moves).scan = some (.ok (.error e, s'.toBytes moves)) := by
  have hchar : s.nextChar = (.error e, s') := by
    unfold nextChar
    rw [h]
  rw [ByteStream.scan, ByteStream.skipSpaces, nextChar_toBytes, charMoves, pulled_of_fill_error h,
    hchar]
  simp

/-- The line that is pulled is scanned on bytes as if it had been in the buffer. -/
private theorem scan_toBytes_of_fill_ok {s s' : TokenStream σ} (h : s.fill = (.ok (), s'))
    (moves : List CursorMove) :
    (s.toBytes moves).scan = (s'.toBytes (moves ++ s.pulled)).scan := by
  rcases fill_eq_ok h with ⟨hne, rfl⟩ | ⟨-, text, source, -, -, hs'⟩
  · rw [pulled_of_rest_ne_nil hne, List.append_nil]
  · -- a line is pulled by the first character of a token, so it may as well be there before
    have hne : s'.cursor.rest ≠ [] := by simp [hs', LineCursor.load]
    have hnext : s.nextChar = s'.nextChar := by
      unfold nextChar
      rw [h, fill_of_rest_ne_nil hne]
    have hchar : (s.toBytes moves).nextChar = (s'.toBytes (moves ++ s.pulled)).nextChar := by
      rw [nextChar_toBytes, nextChar_toBytes, charMoves, charMoves, pulled_of_rest_ne_nil hne,
        hnext, List.nil_append, List.append_assoc]
    rw [ByteStream.scan, ByteStream.scan, ByteStream.skipSpaces, ByteStream.skipSpaces, hchar]

/-- A token that is scanned on bytes, from a buffer with something to read. -/
theorem scan_toBytes_of_fill {s s' : TokenStream σ} (hs : s.cursor.Terminated)
    (h : s.fill = (.ok (), s')) (moves : List CursorMove) :
    ∃ l rest, s'.cursor.rest = l.written ++ rest ∧ s.next = (.ok l.token, s'.accept l) ∧
      l.Standalone ∧ (gaveBack l.token = true → rest ≠ []) ∧
      (s.toBytes moves).scan = some (.ok (.ok l.token, (s'.accept l).toBytes
        (moves ++ (s.pulled ++ l.written.map .read ++ lookahead l.token rest)))) := by
  obtain ⟨hs', hne⟩ := terminated_of_fill_ok hs h
  have hrest := hs'.eq_append hne
  obtain ⟨l, rest, hnext⟩ := exists_next?_of_newline s'.cursor.rest.dropLast
  have hscan := scan_toBytes_of_next? hrest hnext (moves ++ s.pulled)
  rw [← hrest] at hnext
  refine ⟨l, rest, (Lexeme.written_append_of_next? hnext).symm, ?_,
    Lexeme.standalone_of_next? hnext, ?_, ?_⟩
  · rw [next, h]
    simp only [hnext]
  · -- the end of the line stands behind a number or name
    intro hback
    have ht : l.token ≠ .endOfLine := by
      intro ht
      rw [ht] at hback
      cases hback
    refine List.ne_nil_of_mem (Lexeme.newline_mem_of_next? hnext ht ?_)
    rw [hrest]
    exact List.mem_append_right _ List.mem_cons_self
  · rw [scan_toBytes_of_fill_ok h, hscan]
    simp only [List.append_assoc]

/-! ## What every use keeps -/

/-- A stream that stands behind `moves`: its line is no line or ends with an end of line, the slot
    is filled only behind a character, and the cursor that counts characters has followed. -/
structure Sound (s : TokenStream σ) (moves : List CursorMove) : Prop where
  line_terminated : ∀ a, s.currentLine.getLast? = some a → a = '\n'
  hasLast : s.cursor.HasLast
  play_eq : IndexCursor.play moves = some s.cursor.toIndex

omit [LineSource σ] in
/-- What is left of a line ends as the line does. -/
theorem Sound.terminated {s : TokenStream σ} {moves : List CursorMove} (h : s.Sound moves) :
    s.cursor.Terminated := by
  intro a ha
  apply h.line_terminated
  rw [currentLine, LineCursor.line, List.getLast?_append, ha]
  rfl

omit [LineSource σ] in
/-- A stream at the start of a source has made no moves. -/
private theorem sound_new (source : σ) (exitWord : Option (List Char)) :
    (new source exitWord).Sound [] where
  line_terminated a ha := by cases ha
  hasLast hcan := by cases hcan
  play_eq := rfl

omit [LineSource σ] in
/-- Moving within a line keeps the line. -/
private theorem Sound.of_moves {s s' : TokenStream σ} {moves ms : List CursorMove}
    (h : s.Sound moves) (hline : s'.currentLine = s.currentLine) (hlast : s'.cursor.HasLast)
    (hms : ms.foldlM IndexCursor.move s.cursor.toIndex = some s'.cursor.toIndex) :
    s'.Sound (moves ++ ms) where
  line_terminated := by rw [hline]; exact h.line_terminated
  hasLast := hlast
  play_eq := by rw [IndexCursor.play_append, h.play_eq]; exact hms

/-- Pulling a line puts a whole line in the buffer. -/
theorem Sound.fill {s : TokenStream σ} {moves : List CursorMove} (h : s.Sound moves) :
    s.fill.2.Sound (moves ++ s.pulled) := by
  cases hfill : s.fill with
  | mk r s' =>
    cases r with
    | error e =>
      rw [pulled_of_fill_error hfill, List.append_nil, (eq_of_fill_error hfill).2]
      exact ⟨h.line_terminated, h.hasLast, h.play_eq⟩
    | ok =>
      rcases fill_eq_ok hfill with ⟨hne, rfl⟩ | ⟨hnil, text, source, hread, hexit, rfl⟩
      · rw [pulled_of_rest_ne_nil hne, List.append_nil]
        exact h
      · -- a line that is pulled is read from its start, with nothing to give back
        have hpulled : s.pulled = [.load text] := by
          simp only [pulled, LineCursor.isExhausted_eq_true_iff.2 hnil, hread, if_neg hexit]
        refine ⟨?_, (fun hcan => by cases hcan), ?_⟩
        · intro a ha
          have hlast : (LineCursor.load text).line.getLast? = some '\n' := by
            simp [LineCursor.line, LineCursor.load]
          exact Option.some.inj (ha.symm.trans hlast)
        · rw [hpulled]
          exact IndexCursor.play_of_move h.play_eq (LineCursor.move_load _ text)

omit [LineSource σ] in
/-- Dropping what is left of the line moves the cursor to its end. -/
theorem Sound.flush {s : TokenStream σ} {moves : List CursorMove} (h : s.Sound moves) :
    s.flush.Sound (moves ++ [.flush]) := by
  refine h.of_moves ?_ (fun hcan => by cases hcan) ?_
  · simp [currentLine, TokenStream.flush, LineCursor.line, LineCursor.flush]
  · rw [List.foldlM_cons, LineCursor.move_flush]
    rfl

omit [LineSource σ] in
/-- Giving a character back moves the cursor back over it and empties the slot. -/
theorem Sound.unread {s s' : TokenStream σ} {moves : List CursorMove} (h : s.Sound moves)
    (hunread : s.unread = .ok s') : s'.Sound (moves ++ [.unread]) := by
  unfold TokenStream.unread at hunread
  cases hcursor : s.cursor.unread with
  | error e => rw [hcursor] at hunread; cases hunread
  | ok c =>
    rw [hcursor] at hunread
    cases hunread
    have hmove := LineCursor.move_of_unread hcursor
    unfold LineCursor.unread at hcursor
    split at hcursor
    · next a consumed hcan hconsumed =>
      cases hcursor
      refine h.of_moves ?_ (fun hcan => by cases hcan) ?_
      · simp [currentLine, LineCursor.line, hconsumed]
      · simpa using hmove
    · cases hcursor

/-- Reading a character fills the slot with it. -/
theorem Sound.nextChar {s : TokenStream σ} {moves : List CursorMove} (h : s.Sound moves) :
    s.nextChar.2.Sound (moves ++ s.charMoves) := by
  have hfilled := h.fill
  unfold charMoves TokenStream.nextChar
  cases hfill : s.fill with
  | mk r filled =>
    rw [hfill] at hfilled
    cases r with
    | error e => simpa using hfilled
    | ok =>
      cases hrest : filled.cursor.rest with
      | nil => simpa [LineCursor.advance, hrest] using hfilled
      | cons a rest =>
        simp only [LineCursor.advance, hrest]
        rw [← List.append_assoc]
        refine hfilled.of_moves ?_ (fun _ => List.cons_ne_nil _ _) ?_
        · simp [currentLine, LineCursor.line, hrest]
        · simpa using LineCursor.move_of_advance hrest

omit [LineSource σ] in
/-- Reading a lexeme that stands in front, and looking at what is behind a number or name. -/
theorem Sound.accept {s : TokenStream σ} {moves : List CursorMove} {l : Lexeme} {rest : List Char}
    (h : s.Sound moves) (hrest : s.cursor.rest = l.written ++ rest) (hl : l.Standalone)
    (hback : gaveBack l.token = true → rest ≠ []) :
    (s.accept l).Sound (moves ++ (l.written.map .read ++ lookahead l.token rest)) := by
  have hne : l.written ≠ [] := List.append_ne_nil_of_right_ne_nil _ hl.text_ne_nil
  have hreads := LineCursor.foldlM_move_read hrest hne
  rw [accept_eq, LineCursor.forward_of_append hrest (Lexeme.length_written l).symm]
  refine h.of_moves ?_ ?_ ?_
  · simp [currentLine, LineCursor.line, hrest]
  · intro _
    simp [hne]
  · rw [List.foldlM_append, hreads]
    -- a number or name has been ended by a look at the character behind it
    cases hgave : gaveBack l.token with
    | false => simp [lookahead, hgave]
    | true =>
      obtain ⟨x, more, rfl⟩ := List.exists_cons_of_ne_nil (hback hgave)
      have hlook : lookahead l.token (x :: more) = [.read x, .unread] := by simp [lookahead, hgave]
      rw [hlook]
      exact LineCursor.foldlM_move_read_unread _ x more true

end TokenStream

/-! ## Uses in any order -/

/-- What can be done to a stream. -/
inductive Use (σ : Type) where
  /-- A token is read. -/
  | token
  /-- A raw character is read. -/
  | char
  /-- The character read last is given back. -/
  | unread
  /-- What is left of the line is dropped. -/
  | flush
  /-- The source is given new input. -/
  | supply (more : σ → σ)

/-- What a stream answers. -/
inductive Answer where
  | token (result : Except CursorError (Except InputError Token))
  | char (result : Except InputError Char)
  | unread (result : Except CursorError Unit)
  | done

/-- The answer to a use, and the stream behind it. -/
def ByteStream.use {σ : Type} [LineSource σ] (b : ByteStream σ) :
    Use σ → Option (Answer × ByteStream σ)
  | .token => b.scan.map fun r =>
    match r with
    | .ok (t, b') => (.token (.ok t), b')
    | .error e => (.token (.error e), b)
  | .char => b.nextChar.map fun r => (.char r.1, r.2)
  | .unread => b.unread.map fun r =>
    match r with
    | .ok b' => (.unread (.ok ()), b')
    | .error e => (.unread (.error e), b)
  | .flush => some (.done, b.flush)
  | .supply more => some (.done, { b with source := more b.source })

/-- The answers to several uses, and the stream behind them. -/
def ByteStream.uses {σ : Type} [LineSource σ] (b : ByteStream σ) :
    List (Use σ) → Option (List Answer × ByteStream σ)
  | [] => some ([], b)
  | u :: us => (b.use u).bind fun r => (r.2.uses us).map fun r' => (r.1 :: r'.1, r'.2)

namespace TokenStream

variable {σ : Type} [LineSource σ]

/-- The answer to a use, and the stream behind it. -/
def use (s : TokenStream σ) : Use σ → Answer × TokenStream σ
  | .token => (.token (.ok s.next.1), s.next.2)
  | .char => (.char s.nextChar.1, s.nextChar.2)
  | .unread =>
    match s.unread with
    | .ok s' => (.unread (.ok ()), s')
    | .error e => (.unread (.error e), s)
  | .flush => (.done, s.flush)
  | .supply more => (.done, { s with source := more s.source })

/-- The answers to several uses, and the stream behind them. -/
def uses (s : TokenStream σ) : List (Use σ) → List Answer × TokenStream σ
  | [] => ([], s)
  | u :: us => ((s.use u).1 :: ((s.use u).2.uses us).1, ((s.use u).2.uses us).2)

/-- Scanning a token on bytes: it never fails, never misuses the slot, and gives the token that is
    cut off the buffer. -/
theorem Sound.scan_toBytes {s : TokenStream σ} {moves : List CursorMove} (h : s.Sound moves) :
    ∃ ms, (s.toBytes moves).scan = some (.ok (s.next.1, s.next.2.toBytes (moves ++ ms))) ∧
      s.next.2.Sound (moves ++ ms) ∧
      (∀ e, s.next.1 = .error e → ms = [] ∧ s.cursor.rest = [] ∧
        s.next.2 = { s with source := (LineSource.readLine s.source).2 }) ∧
      ∀ t, s.next.1 = .ok t → TokenMoves s s.next.2 ms := by
  have hfilled := h.fill
  -- an error of `fill` is the answer; otherwise a lexeme stands in front of the buffer
  cases hfill : s.fill with
  | mk r filled =>
    rw [hfill] at hfilled
    cases r with
    | error e =>
      obtain ⟨hrest, hsource⟩ := eq_of_fill_error hfill
      rw [pulled_of_fill_error hfill] at hfilled
      have hnext : s.next = (.error e, filled) := by
        rw [next, hfill]
      refine ⟨[], ?_, ?_, ?_, ?_⟩
      · rw [scan_toBytes_of_fill_error hfill, hnext, List.append_nil]
      · rw [hnext]
        exact hfilled
      · intro e' _
        rw [hnext]
        exact ⟨rfl, hrest, hsource⟩
      · intro t ht
        rw [hnext] at ht
        cases ht
    | ok =>
      obtain ⟨l, rest, hrest, hnext, hl, hback, hscan⟩ :=
        scan_toBytes_of_fill h.terminated hfill moves
      rw [hnext]
      refine ⟨_, hscan, ?_, ?_, ?_⟩
      · have haccept := hfilled.accept hrest hl hback
        rw [List.append_assoc] at haccept
        simpa only [List.append_assoc] using haccept
      · intro e he
        cases he
      · intro t _
        have hpulls : s.Pulls filled.source s.pulled := pulls_of_fill_ok hfill
        exact ⟨⟨s.pulled, l.gap, _, rfl, hpulls, lookahead_eq l.token rest⟩, text_eq_newline hl⟩

/-- A use of a stream on bytes never fails and is the use of the stream. -/
theorem Sound.use_toBytes {s : TokenStream σ} {moves : List CursorMove} (h : s.Sound moves)
    (u : Use σ) :
    ∃ ms, (s.toBytes moves).use u = some ((s.use u).1, (s.use u).2.toBytes (moves ++ ms)) ∧
      (s.use u).2.Sound (moves ++ ms) := by
  cases u with
  | token =>
    obtain ⟨ms, hscan, hsound, -⟩ := h.scan_toBytes
    exact ⟨ms, by simp only [ByteStream.use, hscan, Option.map_some, use], hsound⟩
  | char =>
    exact ⟨s.charMoves, by simp only [ByteStream.use, nextChar_toBytes, Option.map_some, use],
      h.nextChar⟩
  | unread =>
    rw [use, ByteStream.use, unread_toBytes]
    cases hunread : s.unread with
    | error e => exact ⟨[], by simp [Except.map], by simpa using h⟩
    | ok s' => exact ⟨[.unread], by simp [Except.map], h.unread hunread⟩
  | flush => exact ⟨[.flush], by simp only [ByteStream.use, flush_toBytes, use], h.flush⟩
  | supply more =>
    refine ⟨[], by simp [ByteStream.use, use, toBytes], ?_⟩
    rw [List.append_nil]
    exact ⟨h.line_terminated, h.hasLast, h.play_eq⟩

/-- Any uses of a stream on bytes are the uses of the stream. -/
private theorem Sound.uses_toBytes {s : TokenStream σ} {moves : List CursorMove} (h : s.Sound moves)
    (us : List (Use σ)) :
    ∃ ms, (s.toBytes moves).uses us = some ((s.uses us).1, (s.uses us).2.toBytes (moves ++ ms)) ∧
      (s.uses us).2.Sound (moves ++ ms) := by
  induction us generalizing s moves with
  | nil => exact ⟨[], by simp [ByteStream.uses, uses], by simpa [uses] using h⟩
  | cons u us ih =>
    -- one use keeps the stream sound, so the others start as the first one did
    obtain ⟨ms, huse, hsound⟩ := h.use_toBytes u
    obtain ⟨ms', huses, hsound'⟩ := ih hsound
    rw [List.append_assoc] at huses hsound'
    refine ⟨ms ++ ms', ?_, hsound'⟩
    rw [ByteStream.uses, huse, Option.bind_some, huses]
    rfl

/-- No token is an answer that blames the slot. -/
private theorem exists_ok_of_mem_uses {s : TokenStream σ} {us : List (Use σ)}
    {r : Except CursorError (Except InputError Token)} (h : Answer.token r ∈ (s.uses us).1) :
    ∃ t, r = .ok t := by
  induction us generalizing s with
  | nil => cases h
  | cons u us ih =>
    -- it is the answer to the first use or to a later one
    rcases List.mem_cons.1 h with heq | hmem
    · cases u with
      | token =>
        cases heq
        exact ⟨_, rfl⟩
      | char => cases heq
      | unread =>
        rw [use] at heq
        split at heq <;> cases heq
      | flush => cases heq
      | supply more => cases heq
    · exact ih hmem

/-- A character that was read by the last move can be given back and is then read again. -/
private theorem Sound.unread_of_read {s : TokenStream σ} {moves : List CursorMove}
    (h : s.Sound moves) {c : Char} (hlast : moves.getLast? = some (.read c)) :
    ∃ s', s.unread = .ok s' ∧ s'.nextChar = (.ok c, s) := by
  have hcan : s.cursor.canUnread = true :=
    (IndexCursor.canUnread_iff_of_play h.play_eq).2 ⟨c, hlast⟩
  obtain ⟨a, consumed, hconsumed, hunread⟩ := LineCursor.exists_unread h.hasLast hcan
  -- the character before the cursor is the one of the last move
  have hc : a = c := by
    have hget := (IndexCursor.getElem?_of_play h.play_eq hlast).2
    have ha : (consumed.reverse ++ a :: s.cursor.rest)[consumed.length]? = some a := by
      simp
    simp only [LineCursor.toIndex, LineCursor.position, LineCursor.line, hconsumed,
      List.length_cons, Nat.add_sub_cancel, List.reverse_cons, List.append_assoc,
      List.singleton_append] at hget
    exact Option.some.inj (ha.symm.trans hget)
  let s' : TokenStream σ := { s with cursor := ⟨consumed, a :: s.cursor.rest, false⟩ }
  have hback : s.unread = .ok s' := by
    rw [TokenStream.unread, hunread]
    rfl
  -- reading `c` again leads back to the cursor that gave it back
  have hcursor : (⟨a :: consumed, s.cursor.rest, true⟩ : LineCursor) = s.cursor := by
    rw [← hconsumed, ← hcan]
  refine ⟨s', hback, ?_⟩
  rw [nextChar_of_rest (s := s') rfl, ← hc]
  simp only [s', hcursor]

omit [LineSource σ] in
/-- Nothing can be given back unless the last move was to read. -/
private theorem Sound.unread_of_ne_read {s : TokenStream σ} {moves : List CursorMove}
    (h : s.Sound moves)
    (hlast : ∀ c, moves.getLast? ≠ some (.read c)) : s.unread = .error .nothingToUnread := by
  have hcan : s.cursor.canUnread = false := by
    rw [Bool.eq_false_iff]
    intro hcan
    obtain ⟨c, hc⟩ := (IndexCursor.canUnread_iff_of_play h.play_eq).1 hcan
    exact hlast c hc
  rw [TokenStream.unread, LineCursor.unread_of_canUnread_eq_false hcan]
  rfl

/-- Tokens, raw characters, characters given back, dropped lines and new input may come in any
    order.  Nothing fails in the stream on bytes, which gives the answers of the stream and stands
    where it stands, at a place between two characters of the line, behind as many of them as the
    cursor that counts characters has been moved over.  A character can be given back just if the
    last move was to read it, and it is then the next one to be read.  A token never blames the
    slot; it pulls a line only if all of the last one has been read, and before anything else. -/
theorem pushback_is_sound (source : σ) (exitWord : Option (List Char)) (us : List (Use σ)) :
    ∃ answers s moves, (new source exitWord).uses us = (answers, s) ∧
      (ByteStream.new source exitWord).uses us = some (answers, s.toBytes moves) ∧
      IndexCursor.play moves = some ⟨s.currentLine, s.position, s.cursor.canUnread⟩ ∧
      s.cursor.toBytes.Simulates ⟨s.currentLine, s.position, s.cursor.canUnread⟩ ∧
      (∀ r, Answer.token r ∈ answers → ∃ t, r = .ok t) ∧
      (∀ c, moves.getLast? = some (.read c) →
        ∃ s', s.unread = .ok s' ∧ s'.nextChar = (.ok c, s)) ∧
      ((∀ c, moves.getLast? ≠ some (.read c)) → s.unread = .error .nothingToUnread) ∧
      ∃ ms, (s.toBytes moves).scan = some (.ok (s.next.1, s.next.2.toBytes (moves ++ ms))) ∧
        (∀ e, s.next.1 = .error e → ms = [] ∧ s.cursor.rest = [] ∧
          s.next.2 = { s with source := (LineSource.readLine s.source).2 }) ∧
        ∀ t, s.next.1 = .ok t → TokenMoves s s.next.2 ms := by
  obtain ⟨moves, huses, hsound⟩ := (sound_new source exitWord).uses_toBytes us
  obtain ⟨ms, hscan, -, herror, htoken⟩ := hsound.scan_toBytes
  rw [List.nil_append] at huses hsound hscan
  rw [new_toBytes] at huses
  exact ⟨_, _, moves, rfl, huses, hsound.play_eq, LineCursor.simulates_toBytes hsound.hasLast,
    fun r hr => exists_ok_of_mem_uses hr, fun c hc => hsound.unread_of_read hc,
    hsound.unread_of_ne_read, ms, hscan, herror, htoken⟩

end TokenStream

end DeskCalc
