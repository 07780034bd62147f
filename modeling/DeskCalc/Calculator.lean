import DeskCalc.Diagnostic
import DeskCalc.Input.TokenStream
import DeskCalc.Line

/-! # Calculator

A calculator evaluates the lines of a token stream one after the other against one symbol table.
After an accepted line, reading goes on behind its end; after a refused line, the rest of the buffer
is dropped.  An error of the input leaves the calculator as it was. -/

namespace DeskCalc

/-- A token stream with the variables that its lines read and store. -/
structure Calculator (σ : Type) where
  stream : TokenStream σ
  symbols : SymbolTable

/-- Why there is no value. -/
inductive EvalError where
  /-- The line was refused. -/
  | rejected (diagnostic : Diagnostic)
  /-- There was no line. -/
  | input (error : InputError)

/-- The reason in words. -/
def EvalError.message : EvalError → String
  | rejected diagnostic => diagnostic.message
  | input error => error.message

/-- The answer to a line, with the steps that led to it if details were asked for. -/
structure Reply where
  result : Except EvalError Float
  steps : List Step

/-- The answer is an error of the input. -/
def Reply.isInputError (r : Reply) : Bool :=
  match r.result with
  | .error (.input _) => true
  | _ => false

namespace Calculator

variable {σ : Type}

/-- A calculator without variables. -/
def new (source : σ) (exitWord : Option (List Char)) : Calculator σ :=
  ⟨TokenStream.new source exitWord, SymbolTable.empty⟩

/-- The source of the lines. -/
def source (c : Calculator σ) : σ := c.stream.source

/-- The calculator with another state of its source. -/
def withSource (c : Calculator σ) (source : σ) : Calculator σ :=
  { c with stream := { c.stream with source } }

/-- The text of the last of `lexemes`, or `text` when there is none. -/
def lastText (text : List Char) (lexemes : List Lexeme) : List Char :=
  (lexemes.getLast?.map Lexeme.text).getD text

/-- Evaluates the line that starts at the cursor. -/
def evaluateBuffered (c : Calculator σ) (detailed : Bool) : Reply × Calculator σ :=
  let cursor := c.stream.cursor
  let lexemes := Lexeme.line cursor.rest
  let outcome := evaluateLine c.symbols detailed (lexemes.map Lexeme.token)
  match outcome.result with
  | .ok value =>
    let cursor := cursor.forward cursor.lineLength true
    (⟨.ok value, outcome.trace.steps⟩,
      ⟨{ c.stream with cursor, text := ['\n'] }, outcome.symbols⟩)
  | .error rejection =>
    -- nothing behind the token that decided has been read
    let read := lexemes.take outcome.read
    let position := cursor.position + Lexeme.totalSize read
    let diagnostic : Diagnostic := ⟨rejection, cursor.line, position - 1⟩
    (⟨.error (.rejected diagnostic), outcome.trace.steps⟩,
      ⟨{ c.stream with cursor := cursor.flush, text := lastText c.stream.text read },
        outcome.symbols⟩)

variable [LineSource σ]

/-- Evaluates the next line, keeping its steps when `detailed`. -/
def evaluate (c : Calculator σ) (detailed : Bool) : Reply × Calculator σ :=
  match c.stream.fill with
  -- there is no line, so the variables stay and there are no steps
  | (.error e, stream) => (⟨.error (.input e), []⟩, { c with stream })
  | (.ok (), stream) => evaluateBuffered { c with stream } detailed

end Calculator

end DeskCalc
