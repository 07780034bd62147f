import DeskCalc.CommandLine.Help
import DeskCalc.CommandLine.Options

/-! # Running a command line

What the program does with a command line and its whole standard input, as far as it does not need a
terminal. -/

namespace DeskCalc.CommandLine

/-- What a run leaves behind. -/
structure Result where
  /-- Everything written to standard output. -/
  stdout : List UInt8
  /-- The exit status: 0, or 1 when the input or output failed, or 2 for a wrong command line. -/
  status : Nat
deriving DecidableEq

/-- The text for a command line that asks for text, and the exit status for one that does not lead
to a run. -/
def Stop.result : Stop → Result
  | help long => ⟨utf8Bytes (if long then longHelp else shortHelp), 0⟩
  | version => ⟨utf8Bytes versionText, 0⟩
  | _ => ⟨[], 2⟩

/-- A session on standard input, prompts and reports sharing standard output. -/
def runPlain (options : Options) (input : List UInt8) : Result :=
  let host : Prompted := ⟨input, options.prompt, Sink.new none⟩
  match Session.run options.session (Calculator.new host (some options.exitWord.toList)) with
  | (.ok _, last) => ⟨last.source.sink.written, 0⟩
  | (.error _, last) => ⟨last.source.sink.written, 1⟩

/-- Runs a command line.  The full-screen calculator cannot start without a terminal. -/
def run (args : List String) (input : List UInt8) : Result :=
  match parse args with
  | .error stop => stop.result
  | .ok options =>
    match options.mode with
    | .plain => runPlain options input
    | .fullScreen => ⟨[], 1⟩

end DeskCalc.CommandLine
