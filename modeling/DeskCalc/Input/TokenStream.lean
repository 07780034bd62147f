import DeskCalc.Input.LineCursor
import DeskCalc.Input.LineSource
import DeskCalc.Lexeme

/-! # Token stream

Tokens read from a line source.  One line at a time is held in a cursor, with an end of line added;
when it is used up, the next line is pulled.  Only the first character of a token can cause a pull:
every buffer ends with an end of line, so no token runs over it. -/

namespace DeskCalc

/-- A line source being read token by token. -/
structure TokenStream (σ : Type) where
  source : σ
  cursor : LineCursor
  /-- The characters of the token read last. -/
  text : List Char
  /-- The line that ends the session, if there is one. -/
  exitWord : Option (List Char)

namespace TokenStream

variable {σ : Type}

/-- A stream at the start of a source. -/
def new (source : σ) (exitWord : Option (List Char)) : TokenStream σ :=
  ⟨source, LineCursor.empty, [], exitWord⟩

/-- The raw line being read, its end included. -/
def currentLine (s : TokenStream σ) : List Char := s.cursor.line

/-- The number of characters of the line already read. -/
def position (s : TokenStream σ) : Nat := s.cursor.position

/-- Gives the character read last back. -/
def unread (s : TokenStream σ) : Except CursorError (TokenStream σ) :=
  s.cursor.unread.map fun cursor => { s with cursor }

/-- Drops what is left of the line. -/
def flush (s : TokenStream σ) : TokenStream σ := { s with cursor := s.cursor.flush }

/-- The stream behind lexeme `l`.  A number or name was ended by looking at the character behind it,
which has been given back; so only after a token of one character can that character be unread. -/
def accept (s : TokenStream σ) (l : Lexeme) : TokenStream σ :=
  { s with
    cursor := s.cursor.forward l.size (match l.token with
      | .number _ | .name _ => false
      | _ => true)
    text := l.text }

variable [LineSource σ]

/-- Makes sure that there is something to read, pulling a line if the buffer is used up.  When that
fails, nothing but the source has changed. -/
def fill (s : TokenStream σ) : Except InputError Unit × TokenStream σ :=
  if s.cursor.isExhausted then
    match LineSource.readLine s.source with
    | (.line text, source) =>
      -- the exit word is never loaded, so no token of it is ever read
      if s.exitWord = some text then (.error .exit, { s with source })
      else (.ok (), { s with source, cursor := LineCursor.load text })
    | (.ended, source) => (.error .endOfInput, { s with source })
    | (.failed fault, source) => (.error (.failed fault), { s with source })
  else (.ok (), s)

/-- Reads a token. -/
def next (s : TokenStream σ) : Except InputError Token × TokenStream σ :=
  match s.fill with
  | (.error e, s) => (.error e, s)
  | (.ok (), s) =>
    match Lexeme.next? s.cursor.rest with
    -- not reached: what `fill` leaves ends with an end of line
    | none => (.error .endOfInput, s)
    | some (l, _) => (.ok l.token, s.accept l)

/-- Reads a raw character. -/
def nextChar (s : TokenStream σ) : Except InputError Char × TokenStream σ :=
  match s.fill with
  | (.error e, s) => (.error e, s)
  | (.ok (), s) =>
    match s.cursor.advance with
    | (none, _) => (.error .endOfInput, s)
    | (some c, cursor) => (.ok c, { s with cursor })

end TokenStream

end DeskCalc
