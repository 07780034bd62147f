import DeskCalc.CommandLine.Run

/-! # The program

The command line program: it reads standard input line by line and answers each line as soon as it
has been read.  What it answers is decided by the session; here are only reading and printing.

Left out is what has no part in the answers: the log, and for the full-screen calculator the set-up
of the terminal, its raw mode and the polling for events.  That calculator is run over a list of
events instead, by `Desk.loop`. -/

namespace DeskCalc

/-- Prints the bytes of a text at once. -/
def printNow (bytes : List UInt8) : IO Unit := do
  let out ← IO.getStdout
  out.write ⟨bytes.toArray⟩
  out.flush

/-- Reads the bytes of a line behind `read`, its end included; no bytes are the end of the input. -/
partial def readLineBytes (input : IO.FS.Stream) (read : Array UInt8) : IO (List UInt8) := do
  let chunk ← input.read 1
  match chunk.data[0]? with
  | none => return read.toList
  | some byte =>
    let read := read.push byte
    if byte = Prompted.lineFeed then return read.toList else readLineBytes input read

/-- Runs a session on standard input and answers with the exit status.  The prompt is printed here
before each line is read, so each step of the session is handed a line that is already there, behind
no prompt, and what it reports is printed before the next one. -/
partial def interact (options : Options) (calculator : Calculator Prompted) : IO UInt32 := do
  printNow (utf8Bytes options.prompt)
  let unread ← readLineBytes (← IO.getStdin) #[]
  let (ending?, calculator) :=
    Session.step options.session (calculator.withSource ⟨unread, "", Sink.new none⟩)
  printNow calculator.source.sink.written
  match ending? with
  | none => interact options calculator
  | some (.ok _) => return 0
  | some (.error fault) =>
    IO.eprintln ("Error: " ++ fault.message)
    return 1

/-- Runs what a command line asks for. -/
def start (options : Options) : IO UInt32 :=
  match options.mode with
  | .plain =>
    interact options (Calculator.new ⟨[], "", Sink.new none⟩ (some options.exitWord.toList))
  | .fullScreen => do
    IO.eprintln "Error: the full-screen calculator needs a terminal in raw mode"
    return 1

end DeskCalc

open DeskCalc in
/-- Runs a command line. -/
def main (args : List String) : IO UInt32 := do
  match CommandLine.parse args with
  | .error stop =>
    let result := stop.result
    printNow result.stdout
    if result.status ≠ 0 then
      IO.eprintln "error: wrong command line; for more information, try '--help'."
    return result.status.toUInt32
  | .ok options => start options
