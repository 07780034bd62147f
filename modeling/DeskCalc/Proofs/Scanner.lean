import DeskCalc.Input.TokenStream
import DeskCalc.Proofs.Lexemes
import Mathlib.Data.List.Basic
import Mathlib.Data.List.Induction
import Mathlib.Data.Prod.Lex

/-!
# Scanning character by character

`TokenStream.next` cuts a whole lexeme off the buffer.  Here a token is scanned one character at a
time instead: each character may pull a line, a number or name is read until a character does not
belong to it, and that character is given back through the pushback slot.  Both readings agree on
every buffer that is used up or ends with an end of line, which is the state that pulling a line
leaves and that every reading keeps.

## Key results

- `scan_eq_next`: scanning never misuses the pushback slot and agrees with `next`
- `ahead_scan_lt`: scanning a token brings the end of the line nearer, on endless sources too
- `yields_acceptAll`: the tokens that are scanned are those of the lexemes of the line
- `Yields.source_eq`: no line is pulled between the first token of a line and its end
-/

namespace DeskCalc

/-- What is left to read, if anything, ends with an end of line. -/
def LineCursor.Terminated (c : LineCursor) : Prop :=
  ∀ a, c.rest.getLast? = some a → a = '\n'

/-- The last character of a terminated rest is the end of the line. -/
theorem LineCursor.Terminated.eq_append {c : LineCursor} (h : c.Terminated) (hne : c.rest ≠ []) :
    c.rest = c.rest.dropLast ++ ['\n'] := by
  have hlast := List.getLast?_eq_some_getLast hne
  rw [h _ hlast] at hlast
  exact (List.dropLast_append_getLast? '\n' hlast).symm

/-- What is left to read starts with a line. -/
theorem LineCursor.Terminated.exists_line {c : LineCursor} (h : c.Terminated) (hne : c.rest ≠ []) :
    ∃ front more, c.rest = front ++ '\n' :: more ∧ '\n' ∉ front := by
  have hmem : '\n' ∈ c.rest := by
    rw [h.eq_append hne]
    exact List.mem_append_right _ List.mem_cons_self
  exact List.eq_append_cons_of_mem hmem

/-- A cursor that stands further on ends as it did. -/
theorem LineCursor.Terminated.of_append {c c' : LineCursor} {front : List Char}
    (h : c.Terminated) (hrest : c.rest = front ++ c'.rest) : c'.Terminated := by
  intro a ha
  refine h a ?_
  rw [hrest, List.getLast?_append, ha]
  rfl

/-- `load` puts an end of line behind the line. -/
theorem LineCursor.terminated_load (line : List Char) : (load line).Terminated := by
  intro a ha
  simpa [load] using ha.symm

/-- Nothing is asked of a buffer that is used up. -/
theorem LineCursor.terminated_of_rest_eq_nil {c : LineCursor} (h : c.rest = []) :
    c.Terminated := by
  intro a ha
  simp [h] at ha

/-- `isExhausted` says whether anything is left to read. -/
@[simp] theorem LineCursor.isExhausted_eq_true_iff {c : LineCursor} :
    c.isExhausted = true ↔ c.rest = [] :=
  List.isEmpty_iff

/-- Moving over a text that stands in front leaves what is behind it. -/
theorem LineCursor.forward_of_append {c : LineCursor} {front more : List Char} {n : Nat}
    (h : c.rest = front ++ more) (hn : n = front.length) (canUnread : Bool) :
    c.forward n canUnread = ⟨front.reverse ++ c.consumed, more, canUnread⟩ := by
  rw [forward, h, hn, List.take_left, List.drop_left]

/-- `lineLength` counts the characters up to and including the first end of line. -/
theorem LineCursor.lineLength_of_append {c : LineCursor} {front more : List Char}
    (h : c.rest = front ++ '\n' :: more) (hfront : '\n' ∉ front) :
    c.lineLength = front.length + 1 := by
  have hne : ∀ a ∈ front, (a != '\n') = true := by
    intro a ha
    rw [bne_iff_ne]
    rintro rfl
    exact hfront ha
  -- so `takeWhile` runs through `front` and stops at the end of the line
  rw [lineLength, h, List.takeWhile_append_of_pos hne]
  simp

/-! ## The way to the end of the line -/

/-- How far the end of the line is away: whether it has still to be pulled, and the characters that
    are left. -/
def charsAhead (rest : List Char) : ℕ ×ₗ ℕ := toLex (if '\n' ∈ rest then 0 else 1, rest.length)

/-- An end of line that is in the buffer is nearer than one that has to be pulled. -/
private theorem charsAhead_lt_of_mem {cs : List Char} (h : '\n' ∈ cs) : charsAhead cs < charsAhead
    [] := by
  rw [charsAhead, if_pos h]
  exact Prod.Lex.toLex_lt_toLex.2 (Or.inl Nat.zero_lt_one)

/-- Behind the first character of a line that was pulled, its end is nearer than before the pull. -/
theorem charsAhead_lt_nil {c : Char} {cs line : List Char} (h : line ++ ['\n'] = c :: cs)
    (hc : c ≠ '\n') : charsAhead cs < charsAhead [] := by
  have hmem : '\n' ∈ c :: cs := h ▸ List.mem_append_right line List.mem_cons_self
  exact charsAhead_lt_of_mem ((List.mem_cons.1 hmem).resolve_left hc.symm)

/-- Behind a character other than the end of the line, that end is nearer. -/
theorem charsAhead_lt_cons {c : Char} (hc : c ≠ '\n') (cs : List Char) :
    charsAhead cs < charsAhead (c :: cs) := by
  -- the end of the line has to be pulled for both texts or for neither, so their lengths decide
  have hmem : '\n' ∈ c :: cs ↔ '\n' ∈ cs := by simp [hc.symm]
  simp only [charsAhead, hmem]
  exact Prod.Lex.toLex_lt_toLex.2 (Or.inr ⟨rfl, Nat.lt_succ_self cs.length⟩)

namespace TokenStream

variable {σ : Type} [LineSource σ]

/-! ## Pulling a line -/

/-- A buffer that can be read from was there before or came from the source. -/
theorem fill_eq_ok {s s' : TokenStream σ} (h : s.fill = (.ok (), s')) :
    (s.cursor.rest ≠ [] ∧ s' = s) ∨
      (s.cursor.rest = [] ∧ ∃ text source, LineSource.readLine s.source = (.line text, source) ∧
        s.exitWord ≠ some text ∧ s' = { s with source, cursor := LineCursor.load text }) := by
  unfold fill at h
  -- by the buffer first, then by the answer of the source
  split at h
  · next hex =>
    refine Or.inr ⟨LineCursor.isExhausted_eq_true_iff.1 hex, ?_⟩
    split at h
    · next text source hread =>
      split at h
      · simp at h
      · next hne =>
        obtain ⟨_, rfl⟩ := Prod.mk.inj h
        exact ⟨text, source, hread, hne, rfl⟩
    · simp at h
    · simp at h
  · next hex =>
    obtain ⟨_, rfl⟩ := Prod.mk.inj h
    exact Or.inl ⟨fun hnil => hex (LineCursor.isExhausted_eq_true_iff.2 hnil), rfl⟩

/-- An error of the input leaves the buffer as it was, and the source behind what was asked for. -/
theorem cursor_of_fill_error {s s' : TokenStream σ} {e : InputError}
    (h : s.fill = (.error e, s')) : s'.cursor = s.cursor := by
  unfold fill at h
  split at h
  · split at h
    · split at h
      · cases h
        rfl
      · cases h
    · cases h
      rfl
    · cases h
      rfl
  · cases h

/-- When the buffer is used up, the source is asked for one line. -/
theorem source_fill {s : TokenStream σ} (h : s.cursor.rest = []) :
    s.fill.2.source = (LineSource.readLine s.source).2 := by
  rw [fill, if_pos (LineCursor.isExhausted_eq_true_iff.2 h)]
  cases hread : LineSource.readLine s.source with
  | mk r source =>
    cases r with
    | line text => by_cases hexit : s.exitWord = some text <;> simp [hexit]
    | ended => rfl
    | failed fault => rfl

/-- A line other than the exit word is put in a buffer that is used up. -/
theorem fill_of_readLine {s : TokenStream σ} {line : List Char} {source : σ}
    (hrest : s.cursor.rest = []) (hread : LineSource.readLine s.source = (.line line, source))
    (hexit : s.exitWord ≠ some line) :
    s.fill = (.ok (), { s with source, cursor := LineCursor.load line }) := by
  rw [fill, if_pos (LineCursor.isExhausted_eq_true_iff.2 hrest), hread]
  simp only [if_neg hexit]

/-- `fill` reports the exit word, which is not put in the buffer. -/
theorem fill_of_exit {s : TokenStream σ} {line : List Char} {source : σ}
    (hrest : s.cursor.rest = []) (hread : LineSource.readLine s.source = (.line line, source))
    (hexit : s.exitWord = some line) : s.fill = (.error .exit, { s with source }) := by
  rw [fill, if_pos (LineCursor.isExhausted_eq_true_iff.2 hrest), hread]
  simp only [if_pos hexit]

/-- `fill` reports the end of the input. -/
theorem fill_of_ended {s : TokenStream σ} {source : σ} (hrest : s.cursor.rest = [])
    (hread : LineSource.readLine s.source = (.ended, source)) :
    s.fill = (.error .endOfInput, { s with source }) := by
  rw [fill, if_pos (LineCursor.isExhausted_eq_true_iff.2 hrest), hread]

/-- `fill` reports a failure of the input. -/
theorem fill_of_failed {s : TokenStream σ} {source : σ} {fault : Fault} (hrest : s.cursor.rest = [])
    (hread : LineSource.readLine s.source = (.failed fault, source)) :
    s.fill = (.error (.failed fault), { s with source }) := by
  rw [fill, if_pos (LineCursor.isExhausted_eq_true_iff.2 hrest), hread]

/-! ## Reading a character brings the end of the line nearer -/

/-- How far the end of the line is away in the buffer. -/
def ahead (s : TokenStream σ) : ℕ ×ₗ ℕ := charsAhead s.cursor.rest

/-- A character that is read can be given back.  It stood in front of the buffer, or of the line
    that was pulled. -/
private theorem cursor_of_nextChar {s s' : TokenStream σ} {c : Char}
    (h : s.nextChar = (.ok c, s')) :
    ∃ consumed more, s'.cursor = ⟨c :: consumed, more, true⟩ ∧
      (s.cursor.rest = c :: more ∨
        s.cursor.rest = [] ∧ ∃ line, line ++ ['\n'] = c :: more) := by
  unfold nextChar at h
  split at h
  · cases h
  · next filled hfill =>
    cases hrest : filled.cursor.rest with
    | nil => simp [LineCursor.advance, hrest] at h
    | cons a rest =>
      simp only [LineCursor.advance, hrest, Prod.mk.injEq, Except.ok.injEq] at h
      obtain ⟨rfl, rfl⟩ := h
      refine ⟨_, _, rfl, ?_⟩
      rcases fill_eq_ok hfill with ⟨-, rfl⟩ | ⟨hnil, text, source, -, -, rfl⟩
      · exact Or.inl hrest
      · exact Or.inr ⟨hnil, text, hrest⟩

/-- Reading a character other than the end of the line brings that end nearer. -/
theorem ahead_nextChar_lt {s s' : TokenStream σ} {c : Char} (h : s.nextChar = (.ok c, s'))
    (hc : c ≠ '\n') : s'.ahead < s.ahead := by
  obtain ⟨consumed, more, hcursor, hrest | ⟨hnil, line, hline⟩⟩ := cursor_of_nextChar h
  · rw [ahead, ahead, hcursor, hrest]
    exact charsAhead_lt_cons hc more
  · rw [ahead, ahead, hcursor, hnil]
    exact charsAhead_lt_nil hline hc

/-! ## The scanner -/

/-- The stream with `c` added to the text of the token. -/
def addToText (s : TokenStream σ) (c : Char) : TokenStream σ := { s with text := s.text ++ [c] }

/-- Reads up to the first character that is not a space. -/
def skipSpaces (s : TokenStream σ) : Except InputError Char × TokenStream σ :=
  match _h : s.nextChar with
  | (.error e, s') => (.error e, s')
  | (.ok c, s') => if _hc : c = ' ' then skipSpaces s' else (.ok c, s')
termination_by s.ahead
decreasing_by exact ahead_nextChar_lt _h (by simp [_hc])

/-- How a number or name goes on behind its first character.  An end of line never belongs to it, so
    that it ends with the line even if the source has no end. -/
structure Continuation (α : Type) where
  /-- Whether a character belongs to the token, given what the state recalls of those before it. -/
  extend : α → Char → Option α
  extend_newline : ∀ state, extend state '\n' = none

/-- A character that belongs to a token is no end of line. -/
theorem Continuation.ne_newline {α : Type} (k : Continuation α) {state state' : α} {c : Char}
    (h : k.extend state c = some state') : c ≠ '\n' := by
  rintro rfl
  rw [k.extend_newline] at h
  cases h

/-- Reads the characters of a token up to and including the first that does not belong to it. -/
def scanRun {α : Type} (k : Continuation α) (state : α) (s : TokenStream σ) :
    Except InputError Unit × TokenStream σ :=
  match _h : s.nextChar with
  | (.error e, s') => (.error e, s')
  | (.ok c, s') =>
    match _hext : k.extend state c with
    | some state' => scanRun k state' (s'.addToText c)
    | none => (.ok (), s')
termination_by s.ahead
decreasing_by exact (ahead_nextChar_lt _h (k.ne_newline _hext) :)

/-- A number goes on with digits and with its first point; the state is whether it has a point. -/
def extendNumber (seenPoint : Bool) (c : Char) : Option Bool :=
  if c.isDigit then some seenPoint
  else if c = '.' ∧ seenPoint = false then some true
  else none

/-- A name goes on with letters and digits. -/
def extendName (_ : Unit) (c : Char) : Option Unit :=
  if Lexeme.isNameChar c then some () else none

/-- How numbers go on. -/
def numberRun : Continuation Bool := ⟨extendNumber, fun _ => rfl⟩

/-- How names go on. -/
def nameRun : Continuation Unit := ⟨extendName, fun _ => rfl⟩

/-- Scans the rest of a number or name, gives the character behind it back, and makes the token of
    the text. -/
def scanOperand {α : Type} (k : Continuation α) (state : α)
    (token : List Char → Token) (s : TokenStream σ) :
    Except CursorError (Except InputError Token × TokenStream σ) :=
  match s.scanRun k state with
  | (.error e, s) => .ok (.error e, s)
  | (.ok (), s) => s.unread.map fun s => (.ok (token s.text), s)

/-- Scans the token that starts with `c`, which has been read. -/
def scanFrom (c : Char) (s : TokenStream σ) :
    Except CursorError (Except InputError Token × TokenStream σ) :=
  let s := { s with text := [c] }
  match Token.ofSymbol? c with
  | some token => .ok (.ok token, s)
  | none =>
    if c.isDigit then
      s.scanOperand numberRun false fun text => .number (Decimal.readLiteral text)
    else if Text.isAlphabetic c then
      s.scanOperand nameRun () fun text => .name (String.ofList text)
    else .ok (.ok (.invalid c), s)

/-- Scans a token.  The outer error is a misuse of the pushback slot. -/
def scan (s : TokenStream σ) : Except CursorError (Except InputError Token × TokenStream σ) :=
  match s.skipSpaces with
  | (.error e, s) => .ok (.error e, s)
  | (.ok c, s) => s.scanFrom c

/-! ## Scanning a token brings the end of the line nearer -/

/-- `skipSpaces` brings the end of the line nearer, unless it stops at that end. -/
private theorem ahead_skipSpaces_lt {s s' : TokenStream σ} {c : Char}
    (h : s.skipSpaces = (.ok c, s')) (hc : c ≠ '\n') : s'.ahead < s.ahead := by
  fun_induction skipSpaces s with
  | case1 s e s₁ hchar => cases h
  | case2 s s₁ hchar ih => exact (ih h).trans (ahead_nextChar_lt hchar (by decide))
  | case3 s a s₁ hchar hne =>
    cases h
    exact ahead_nextChar_lt hchar hc

/-- A scan stops behind a character that can be given back, and with this character the end of the
    line is no farther away than it was. -/
private theorem cursor_of_scanRun {α : Type} {k : Continuation α} {state : α}
    {s s' : TokenStream σ} (h : s.scanRun k state = (.ok (), s')) :
    ∃ x consumed more, s'.cursor = ⟨x :: consumed, more, true⟩ ∧
      charsAhead (x :: more) ≤ s.ahead := by
  -- the induction is on the characters that are read; only the last of them can be given back
  fun_induction scanRun k state s with
  | case1 state s e s₁ hchar => cases h
  | case2 state s a s₁ hchar state' hext ih =>
    obtain ⟨x, consumed, more, hcursor, hle⟩ := ih h
    have hlt : s₁.ahead < s.ahead := ahead_nextChar_lt hchar (k.ne_newline hext)
    exact ⟨x, consumed, more, hcursor, hle.trans hlt.le⟩
  | case3 state s a s₁ hchar hext =>
    cases h
    obtain ⟨consumed, more, hcursor, hrest | ⟨hnil, line, hline⟩⟩ := cursor_of_nextChar hchar
    · exact ⟨a, consumed, more, hcursor, by rw [ahead, hrest]⟩
    · refine ⟨a, consumed, more, hcursor, ?_⟩
      -- the line that was pulled has an end, which the empty buffer had not
      rw [ahead, hnil, ← hline]
      exact (charsAhead_lt_of_mem (by simp)).le

/-- What is given back has been read before, so the rest of a number or name costs nothing at
    worst. -/
private theorem ahead_scanOperand_le {α : Type} {k : Continuation α} {state : α}
    {token : List Char → Token} {s s' : TokenStream σ} {t : Token}
    (h : s.scanOperand k state token = .ok (.ok t, s')) : s'.ahead ≤ s.ahead := by
  unfold scanOperand at h
  split at h
  · cases h
  · next s₁ hrun =>
    obtain ⟨x, consumed, more, hcursor, hle⟩ := cursor_of_scanRun hrun
    simp only [unread, LineCursor.unread, hcursor] at h
    cases h
    exact hle

/-- `scanFrom` moves away from the end of the line by no character that was not read before. -/
private theorem ahead_scanFrom_le {c : Char} {s s' : TokenStream σ} {t : Token}
    (h : s.scanFrom c = .ok (.ok t, s')) : s'.ahead ≤ s.ahead := by
  unfold scanFrom at h
  simp only at h
  split at h
  · cases h
    exact le_rfl
  · split at h
    · exact (ahead_scanOperand_le h :)
    · split at h
      · exact (ahead_scanOperand_le h :)
      · cases h
        exact le_rfl

/-- A token in front of the end of the line brings that end nearer. -/
theorem ahead_scan_lt {s s' : TokenStream σ} {t : Token} (h : s.scan = .ok (.ok t, s'))
    (ht : t ≠ .endOfLine) : s'.ahead < s.ahead := by
  unfold scan at h
  split at h
  · cases h
  · next c s₁ hskip =>
    have hc : c ≠ '\n' := by
      rintro rfl
      cases h
      exact ht rfl
    -- the first character of the token is gone for good, whatever is given back behind it
    exact (ahead_scanFrom_le h).trans_lt (ahead_skipSpaces_lt hskip hc)

/-! ## Scanning a buffer -/

/-- The characters that a scan takes off the front of a text, and those that it leaves. -/
def takeRun {α : Type} (extend : α → Char → Option α) : α → List Char → List Char × List Char
  | _, [] => ([], [])
  | state, c :: cs =>
    match extend state c with
    | some state' => (c :: (takeRun extend state' cs).1, (takeRun extend state' cs).2)
    | none => ([], c :: cs)

/-- Once its point has been read, a number is a run of digits. -/
private theorem takeRun_extendNumber_true (cs : List Char) :
    takeRun extendNumber true cs = (cs.takeWhile Char.isDigit, cs.dropWhile Char.isDigit) := by
  induction cs with
  | nil => rfl
  | cons c cs ih =>
    by_cases hc : c.isDigit <;> simp [takeRun, extendNumber, hc, ih]

/-- `extendNumber` takes off a text what `Lexeme.splitNumber` does. -/
theorem takeRun_extendNumber_false (cs : List Char) :
    takeRun extendNumber false cs = Lexeme.splitNumber cs := by
  induction cs with
  | nil => rfl
  | cons c cs ih =>
    by_cases hc : c.isDigit
    · -- a digit in front of the point changes neither split
      simp only [takeRun, extendNumber, if_pos hc, ih]
      by_cases hpoint : ∃ more, cs.dropWhile Char.isDigit = '.' :: more
      · obtain ⟨more, hmore⟩ := hpoint
        rw [Lexeme.splitNumber_of_point hmore,
          Lexeme.splitNumber_of_point (by rw [List.dropWhile_cons_of_pos hc, hmore]),
          List.takeWhile_cons_of_pos hc]
        rfl
      · have hno : ∀ more, cs.dropWhile Char.isDigit ≠ '.' :: more := fun more h => hpoint ⟨more, h⟩
        rw [Lexeme.splitNumber_of_no_point hno,
          Lexeme.splitNumber_of_no_point (by rw [List.dropWhile_cons_of_pos hc]; exact hno),
          List.takeWhile_cons_of_pos hc, List.dropWhile_cons_of_pos hc]
    · by_cases hdot : c = '.'
      · subst hdot
        rw [Lexeme.splitNumber_of_point (List.dropWhile_cons_of_neg hc)]
        simp [takeRun, extendNumber, takeRun_extendNumber_true]
      · rw [Lexeme.splitNumber_of_no_point (by
          intro more h
          rw [List.dropWhile_cons_of_neg hc] at h
          exact hdot (List.cons.inj h).1)]
        simp [takeRun, extendNumber, hc, hdot]

/-- `extendName` takes off a text what `Lexeme.splitName` does. -/
theorem takeRun_extendName (cs : List Char) :
    takeRun extendName () cs = Lexeme.splitName cs := by
  induction cs with
  | nil => rfl
  | cons c cs ih =>
    by_cases hc : Lexeme.isNameChar c <;>
      simp [takeRun, extendName, Lexeme.splitName, hc, ih]

/-- A buffer that is not used up is read without a look at the source. -/
theorem fill_of_rest_ne_nil {s : TokenStream σ} (h : s.cursor.rest ≠ []) :
    s.fill = (.ok (), s) := by
  unfold fill
  rw [if_neg fun hex => h (LineCursor.isExhausted_eq_true_iff.1 hex)]

/-- An error of the input comes from asking the source for one line, and changes nothing else. -/
theorem eq_of_fill_error {s s' : TokenStream σ} {e : InputError}
    (h : s.fill = (.error e, s')) :
    s.cursor.rest = [] ∧ s' = { s with source := (LineSource.readLine s.source).2 } := by
  have hrest : s.cursor.rest = [] := by
    by_contra hne
    rw [fill_of_rest_ne_nil hne] at h
    cases h
  refine ⟨hrest, ?_⟩
  rw [fill, if_pos (LineCursor.isExhausted_eq_true_iff.2 hrest)] at h
  -- what the source answered is the error, or the exit word
  split at h
  · next hread =>
    rw [hread]
    split at h <;> cases h
    rfl
  · next hread =>
    cases h
    rw [hread]
  · next hread =>
    cases h
    rw [hread]

/-- `nextChar` reads the first character of the buffer, which can be given back. -/
theorem nextChar_of_rest {s : TokenStream σ} {c : Char} {cs : List Char}
    (h : s.cursor.rest = c :: cs) :
    s.nextChar = (.ok c, { s with cursor := ⟨c :: s.cursor.consumed, cs, true⟩ }) := by
  unfold nextChar
  rw [fill_of_rest_ne_nil (by simp [h])]
  simp only [LineCursor.advance, h]

/-- `skipSpaces` reads the spaces in front of the buffer and one character more. -/
private theorem skipSpaces_of_rest {s : TokenStream σ} {k : Nat} {c : Char} {cs : List Char}
    (hc : c ≠ ' ') (h : s.cursor.rest = List.replicate k ' ' ++ c :: cs) :
    s.skipSpaces = (.ok c, { s with cursor :=
      ⟨c :: (List.replicate k ' ' ++ s.cursor.consumed), cs, true⟩ }) := by
  induction k generalizing s with
  | zero =>
    rw [skipSpaces, nextChar_of_rest h]
    simp [hc]
  | succ k ih =>
    rw [List.replicate_succ, List.cons_append] at h
    rw [skipSpaces, nextChar_of_rest h]
    simp only
    rw [ih rfl]
    simp [List.replicate_succ', List.append_assoc]

/-- A scan goes on if the character belongs to the token. -/
private theorem scanRun_of_nextChar {α : Type} {k : Continuation α} {state : α}
    {s s' : TokenStream σ} {c : Char} (h : s.nextChar = (.ok c, s')) :
    s.scanRun k state = match k.extend state c with
      | some state' => scanRun k state' (s'.addToText c)
      | none => (.ok (), s') := by
  rw [scanRun, h]
  simp only
  split <;> simp only [*]

/-- A scan reads what belongs to the token, and one character more. -/
private theorem scanRun_of_takeRun {α : Type} {k : Continuation α} {state : α}
    {s : TokenStream σ} {cs taken more : List Char} {x : Char} (hrest : s.cursor.rest = cs)
    (h : takeRun k.extend state cs = (taken, x :: more)) :
    s.scanRun k state = (.ok (), { s with
      cursor := ⟨x :: (taken.reverse ++ s.cursor.consumed), more, true⟩
      text := s.text ++ taken }) := by
  -- the text of the token grows with each character, so the stream is generalized
  induction cs generalizing s state taken with
  | nil => simp [takeRun] at h
  | cons c cs ih =>
    rw [scanRun_of_nextChar (nextChar_of_rest hrest)]
    simp only [takeRun] at h
    cases hext : k.extend state c with
    | none =>
      simp only [hext, Prod.mk.injEq, List.cons.injEq] at h
      obtain ⟨rfl, rfl, rfl⟩ := h
      simp
    | some state' =>
      simp only [hext, Prod.mk.injEq] at h
      obtain ⟨rfl, hmore⟩ := h
      have hrun : takeRun k.extend state' cs = ((takeRun k.extend state' cs).1, x :: more) := by
        rw [← hmore]
      simp only
      rw [ih rfl hrun]
      simp [addToText]

/-- In a line there is a character that ends a number or name, and it is given back. -/
private theorem scanOperand_of_takeRun {α : Type} (k : Continuation α) {state : α}
    {token : List Char → Token} {s : TokenStream σ} {taken left : List Char}
    (h : takeRun k.extend state s.cursor.rest = (taken, left ++ ['\n'])) :
    s.scanOperand k state token = .ok (.ok (token (s.text ++ taken)), { s with
      cursor := ⟨taken.reverse ++ s.cursor.consumed, left ++ ['\n'], false⟩
      text := s.text ++ taken }) := by
  -- the end of the line stands behind the run at the latest
  obtain ⟨x, more, hx⟩ := List.exists_cons_of_ne_nil
    (List.append_ne_nil_of_right_ne_nil left (List.cons_ne_nil '\n' []))
  rw [hx] at h ⊢
  rw [scanOperand, scanRun_of_takeRun rfl h]
  rfl

/-- A digit in front belongs to the number, wherever its point is. -/
theorem splitNumber_cons {c : Char} (hc : c.isDigit = true) (cs : List Char) :
    Lexeme.splitNumber (c :: cs) = (c :: (Lexeme.splitNumber cs).1, (Lexeme.splitNumber cs).2) := by
  rw [← takeRun_extendNumber_false, ← takeRun_extendNumber_false]
  simp [takeRun, extendNumber, hc]

/-- A letter or digit in front belongs to the name. -/
theorem splitName_cons {c : Char} (hc : Lexeme.isNameChar c = true) (cs : List Char) :
    Lexeme.splitName (c :: cs) = (c :: (Lexeme.splitName cs).1, (Lexeme.splitName cs).2) := by
  simp [Lexeme.splitName, hc]

/-- Whether the character behind the token was looked at and given back. -/
def gaveBack : Token → Bool
  | .number _ | .name _ => true
  | _ => false

omit [LineSource σ] in
/-- `accept` moves over the lexeme, and the slot is empty behind a token that gave a character
    back. -/
theorem accept_eq (s : TokenStream σ) (l : Lexeme) :
    s.accept l = { s with
      cursor := s.cursor.forward l.size (!gaveBack l.token)
      text := l.text } := by
  unfold accept
  cases l.token <;> rfl

/-- Nothing is looked at behind a token of one character. -/
theorem gaveBack_of_ofSymbol? {c : Char} {t : Token} (h : Token.ofSymbol? c = some t) :
    gaveBack t = false := by
  unfold Token.ofSymbol? at h
  split at h <;> simp at h <;> subst h <;> rfl

/-- The scan of a token whose first character has been read, when the line goes on to its end. -/
private theorem scanFrom_of_startingAt {s : TokenStream σ} {c : Char} {cs front rest : List Char}
    {gap : Nat} {l : Lexeme} (hcs : s.cursor.rest = cs) (hfront : c :: cs = front ++ ['\n'])
    (h : Lexeme.startingAt gap c cs = (l, rest)) :
    s.scanFrom c = .ok (.ok l.token, { s with
      cursor := ⟨l.text.tail.reverse ++ s.cursor.consumed, rest,
        !gaveBack l.token && s.cursor.canUnread⟩
      text := l.text }) := by
  subst hcs
  unfold Lexeme.startingAt at h
  unfold scanFrom
  cases hs : Token.ofSymbol? c with
  | some t =>
    -- a token of one character: nothing more is read, so nothing is given back
    simp only [hs, Prod.mk.injEq] at h ⊢
    obtain ⟨rfl, rfl⟩ := h
    simp [gaveBack_of_ofSymbol? hs]
  | none =>
    obtain ⟨front, rfl⟩ : ∃ front', front = c :: front' := by
      cases front with
      | nil =>
        obtain ⟨rfl, -⟩ := List.cons.inj hfront
        exact absurd hs (by decide)
      | cons a front' => exact ⟨front', by rw [(List.cons.inj hfront).1]⟩
    have hrest : s.cursor.rest = front ++ ['\n'] := (List.cons.inj hfront).2
    simp only [hs] at h ⊢
    by_cases hd : c.isDigit
    · have hrun := takeRun_extendNumber_false s.cursor.rest
      rw [if_pos hd] at h ⊢
      rw [splitNumber_cons hd] at h
      rw [hrest, Lexeme.splitNumber_append Lexeme.isStop_newline] at h hrun
      obtain ⟨rfl, rfl⟩ := Prod.mk.inj h
      rw [scanOperand_of_takeRun numberRun (s := { s with text := [c] }) (hrest ▸ hrun)]
      simp [gaveBack]
    · rw [if_neg hd] at h ⊢
      by_cases ha : Text.isAlphabetic c
      · have hc : Lexeme.isNameChar c = true := by simp [Lexeme.isNameChar, ha]
        have hrun := takeRun_extendName s.cursor.rest
        rw [if_pos ha] at h ⊢
        rw [splitName_cons hc] at h
        rw [hrest, Lexeme.splitName_append Lexeme.isStop_newline] at h hrun
        obtain ⟨rfl, rfl⟩ := Prod.mk.inj h
        rw [scanOperand_of_takeRun nameRun (s := { s with text := [c] }) (hrest ▸ hrun)]
        simp [gaveBack]
      · rw [if_neg ha] at h ⊢
        obtain ⟨rfl, rfl⟩ := Prod.mk.inj h
        simp [gaveBack]

/-! ## Scanning and cutting off a lexeme -/

/-- A buffer with something to read has a lexeme if it ends with an end of line. -/
theorem exists_next?_of_newline (front : List Char) :
    ∃ l rest, Lexeme.next? (front ++ ['\n']) = some (l, rest) := by
  cases hnext : Lexeme.next? (front ++ ['\n']) with
  | some p => exact ⟨p.1, p.2, rfl⟩
  | none =>
    -- a buffer without a lexeme is made of spaces, and an end of line is none
    have hspaces := Lexeme.nextFrom?_eq_none_iff.1 hnext
    have hmem : '\n' ∈ front ++ ['\n'] := List.mem_append_right _ List.mem_cons_self
    rw [hspaces] at hmem
    exact absurd (List.eq_of_mem_replicate hmem) (by decide)

/-- Scanning a line that goes on to its end gives its first lexeme. -/
private theorem scan_of_next? {s : TokenStream σ} {front rest : List Char} {l : Lexeme}
    (hrest : s.cursor.rest = front ++ ['\n'])
    (h : Lexeme.next? (front ++ ['\n']) = some (l, rest)) :
    s.scan = .ok (.ok l.token, s.accept l) := by
  obtain ⟨c, cs, hc, hcs, hstart⟩ := Lexeme.next?_eq_some h
  obtain ⟨more, hmore⟩ := Lexeme.exists_text_startingAt l.gap c cs
  simp only [hstart] at hmore
  have hlast : c :: cs = (c :: cs).dropLast ++ ['\n'] := by
    have hsome : (c :: cs).getLast? = some '\n' := by
      have := congrArg List.getLast? hcs
      simpa using this.symm
    exact (List.dropLast_append_getLast? '\n' hsome).symm
  -- the spaces, then the token, then the cursor that `accept` moves over both
  rw [scan, skipSpaces_of_rest hc (hrest.trans hcs)]
  simp only
  rw [scanFrom_of_startingAt rfl hlast hstart, accept_eq,
    LineCursor.forward_of_append (hrest.trans (Lexeme.written_append_of_next? h).symm)
      (Lexeme.length_written l).symm]
  simp [Lexeme.written, hmore]

/-- An error of the input ends the scan before a character has been read. -/
theorem scan_of_fill_error {s s' : TokenStream σ} {e : InputError} (h : s.fill = (.error e, s')) :
    s.scan = .ok (.error e, s') := by
  have hchar : s.nextChar = (.error e, s') := by
    unfold nextChar
    rw [h]
  rw [scan, skipSpaces, hchar]

/-- The line that is pulled is scanned as if it had been in the buffer. -/
theorem scan_of_fill_ok {s s' : TokenStream σ} (h : s.fill = (.ok (), s')) : s.scan = s'.scan := by
  rcases fill_eq_ok h with ⟨-, rfl⟩ | ⟨-, text, source, -, -, hs'⟩
  · rfl
  · have hrest : s'.cursor.rest ≠ [] := by simp [hs', LineCursor.load]
    have hchar : s.nextChar = s'.nextChar := by
      unfold nextChar
      rw [h, fill_of_rest_ne_nil hrest]
    rw [scan, scan, skipSpaces, skipSpaces, hchar]

/-- Pulling a line keeps the buffer as it should be, and leaves something to read. -/
theorem terminated_of_fill_ok {s s' : TokenStream σ} (hs : s.cursor.Terminated)
    (h : s.fill = (.ok (), s')) : s'.cursor.Terminated ∧ s'.cursor.rest ≠ [] := by
  rcases fill_eq_ok h with ⟨hne, rfl⟩ | ⟨-, text, source, -, -, rfl⟩
  · exact ⟨hs, hne⟩
  · exact ⟨LineCursor.terminated_load text, by simp [LineCursor.load]⟩

/-- Scanning never misuses the pushback slot, and it agrees with cutting off a lexeme. -/
theorem scan_eq_next {s : TokenStream σ} (hs : s.cursor.Terminated) : s.scan = .ok s.next := by
  cases hfill : s.fill with
  | mk r s' =>
    cases r with
    | error e => rw [scan_of_fill_error hfill, next, hfill]
    | ok =>
      obtain ⟨hs', hne⟩ := terminated_of_fill_ok hs hfill
      have hrest := hs'.eq_append hne
      obtain ⟨l, rest, hnext⟩ := exists_next?_of_newline s'.cursor.rest.dropLast
      rw [scan_of_fill_ok hfill, scan_of_next? hrest hnext, next, hfill]
      rw [← hrest] at hnext
      simp only [hnext]

/-! ## Reading the lexemes of a line -/

/-- Reading a token from a buffer that is not used up. -/
theorem next_of_next? {s : TokenStream σ} {rest : List Char} {l : Lexeme}
    (h : Lexeme.next? s.cursor.rest = some (l, rest)) : s.next = (.ok l.token, s.accept l) := by
  have hne : s.cursor.rest ≠ [] := by
    intro hnil
    rw [hnil] at h
    cases h
  rw [next, fill_of_rest_ne_nil hne]
  simp only [h]

/-- The stream behind several lexemes. -/
def acceptAll (s : TokenStream σ) (ls : List Lexeme) : TokenStream σ := ls.foldl accept s

omit [LineSource σ] in
/-- `acceptAll` ends with its last lexeme. -/
private theorem acceptAll_append_singleton (s : TokenStream σ) (ls : List Lexeme) (l : Lexeme) :
    s.acceptAll (ls ++ [l]) = (s.acceptAll ls).accept l :=
  List.foldl_concat accept s l ls

omit [LineSource σ] in
/-- Reading lexemes moves the cursor over what they were written as. -/
theorem acceptAll_eq {s : TokenStream σ} {ls : List Lexeme} {more : List Char}
    (hrest : s.cursor.rest = ls.flatMap Lexeme.written ++ more) :
    s.acceptAll ls = { s with
      cursor := ⟨(ls.flatMap Lexeme.written).reverse ++ s.cursor.consumed, more,
        (ls.getLast?.map fun l => !gaveBack l.token).getD s.cursor.canUnread⟩
      text := (ls.getLast?.map Lexeme.text).getD s.text } := by
  induction ls using List.reverseRecOn generalizing more with
  | nil =>
    rw [List.flatMap_nil, List.nil_append] at hrest
    simp [acceptAll, ← hrest]
  | append_singleton ls l ih =>
    rw [List.flatMap_append, List.append_assoc, List.flatMap_singleton] at hrest
    rw [acceptAll_append_singleton, ih hrest, accept_eq,
      LineCursor.forward_of_append rfl (Lexeme.length_written l).symm]
    simp

omit [LineSource σ] in
/-- The line stays the same while its lexemes are read, and some of it is behind the cursor. -/
theorem currentLine_acceptAll {s : TokenStream σ} {ls₁ ls₂ : List Lexeme} {l : Lexeme}
    (h : Lexeme.line s.cursor.rest = ls₁ ++ l :: ls₂) :
    (s.acceptAll (ls₁ ++ [l])).currentLine = s.currentLine ∧
      0 < (s.acceptAll (ls₁ ++ [l])).position := by
  obtain ⟨more, hrest⟩ := Lexeme.eq_flatMap_written_append h
  have hl : l ∈ Lexeme.line s.cursor.rest := by
    rw [h]
    simp
  have hpos := List.length_pos_iff.2 (Lexeme.standalone_of_mem_line hl).text_ne_nil
  rw [acceptAll_eq hrest]
  refine ⟨?_, ?_⟩
  · simp [currentLine, LineCursor.line, hrest]
  · simp only [position, LineCursor.position, List.length_append, List.length_reverse,
      List.flatMap_append, List.flatMap_singleton, Lexeme.length_written, Lexeme.size]
    omega

/-- The lexemes of a line are read one after the other. -/
private theorem next_acceptAll {s : TokenStream σ} {ls₁ ls₂ : List Lexeme} {l : Lexeme}
    (h : Lexeme.line s.cursor.rest = ls₁ ++ l :: ls₂) :
    (s.acceptAll ls₁).next = (.ok l.token, s.acceptAll (ls₁ ++ [l])) := by
  obtain ⟨rest, more, hrest, hnext⟩ := Lexeme.next?_of_line_eq_append h
  rw [acceptAll_append_singleton]
  exact next_of_next? (by rw [acceptAll_eq hrest]; exact hnext)

/-! ## Tokens one after the other -/

/-- The tokens that are scanned from a stream one after the other, and the stream behind them. -/
inductive Yields : TokenStream σ → List Token → TokenStream σ → Prop
  | nil (s : TokenStream σ) : Yields s [] s
  | cons {s s' s'' : TokenStream σ} {t : Token} {ts : List Token}
      (hscan : s.scan = .ok (.ok t, s')) (h : Yields s' ts s'') : Yields s (t :: ts) s''

/-- One more token can be scanned behind those that were. -/
private theorem Yields.snoc {s s' s'' : TokenStream σ} {t : Token} {ts : List Token}
    (h : s.Yields ts s') (hscan : s'.scan = .ok (.ok t, s'')) : s.Yields (ts ++ [t]) s'' := by
  induction h with
  | nil s => exact .cons hscan (.nil s'')
  | cons hscan' _ ih => exact .cons hscan' (ih hscan)

/-- The line that the first token pulls may as well have been in the buffer. -/
theorem yields_of_fill_ok {s s' s'' : TokenStream σ} {ts : List Token}
    (hfill : s.fill = (.ok (), s')) (hne : ts ≠ []) : s.Yields ts s'' ↔ s'.Yields ts s'' := by
  have hscan := scan_of_fill_ok hfill
  constructor
  · rintro (_ | ⟨h, hts⟩)
    · exact absurd rfl hne
    · exact .cons (hscan ▸ h) hts
  · rintro (_ | ⟨h, hts⟩)
    · exact absurd rfl hne
    · exact .cons (hscan ▸ h) hts

/-- The tokens that are scanned are those of the lexemes of the line. -/
theorem yields_acceptAll {s : TokenStream σ} (hs : s.cursor.Terminated) {ls₁ ls₂ : List Lexeme}
    (h : Lexeme.line s.cursor.rest = ls₁ ++ ls₂) :
    s.Yields (ls₁.map Lexeme.token) (s.acceptAll ls₁) := by
  induction ls₁ using List.reverseRecOn generalizing ls₂ with
  | nil => exact .nil s
  | append_singleton ls₁ l ih =>
    rw [List.append_assoc, List.singleton_append] at h
    obtain ⟨rest, -, hrest, -⟩ := Lexeme.next?_of_line_eq_append h
    -- reading lexemes leaves the end of the buffer alone, so the next scan agrees with `next` too
    have hs' : (s.acceptAll ls₁).cursor.Terminated := by
      rw [acceptAll_eq hrest]
      exact hs.of_append hrest
    rw [List.map_append]
    refine (ih h).snoc ?_
    rw [scan_eq_next hs', next_acceptAll h]

/-- A token in front of the end of its line pulls no line and does not use the buffer up. -/
private theorem scan_of_ne_endOfLine {s s' : TokenStream σ} {t : Token} (hs : s.cursor.Terminated)
    (hne : s.cursor.rest ≠ []) (h : s.scan = .ok (.ok t, s')) (ht : t ≠ .endOfLine) :
    s'.source = s.source ∧ s'.cursor.Terminated ∧ s'.cursor.rest ≠ [] := by
  rw [scan_eq_next hs] at h
  cases hnext : Lexeme.next? s.cursor.rest with
  | none =>
    rw [next, fill_of_rest_ne_nil hne] at h
    simp [hnext] at h
  | some p =>
    obtain ⟨l, rest⟩ := p
    rw [next_of_next? hnext] at h
    cases h
    have hrest := (Lexeme.written_append_of_next? hnext).symm
    have hcursor := LineCursor.forward_of_append hrest (Lexeme.length_written l).symm
      (!gaveBack l.token)
    rw [accept_eq]
    simp only [hcursor]
    refine ⟨trivial, hs.of_append hrest, ?_⟩
    -- the end of the line is still to come, since the token is not that
    obtain ⟨front, more, hline, -⟩ := hs.exists_line hne
    refine List.ne_nil_of_mem (Lexeme.newline_mem_of_next? hnext ht ?_)
    rw [hline]
    exact List.mem_append_right _ List.mem_cons_self

/-- Once there is something in the buffer, no line is pulled in front of the end of the line. -/
theorem Yields.source_eq {s s' : TokenStream σ} {ts : List Token} (h : s.Yields ts s')
    (hs : s.cursor.Terminated) (hne : s.cursor.rest ≠ []) (hts : .endOfLine ∉ ts) :
    s'.source = s.source := by
  induction h with
  | nil s => rfl
  | cons hscan _ ih =>
    rw [List.mem_cons, not_or] at hts
    -- the token leaves the buffer as the induction needs it
    obtain ⟨hsource, hs', hne'⟩ := scan_of_ne_endOfLine hs hne hscan (Ne.symm hts.1)
    exact (ih hs' hne' hts.2).trans hsource

end TokenStream

end DeskCalc
