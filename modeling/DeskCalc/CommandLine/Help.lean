/-! # Help texts -/

namespace DeskCalc.CommandLine

/-- The answer to `--version`. -/
def versionText : String := "pdacalc 0.1.0\n"

/-- The answer to `-h`. -/
def shortHelp : String :=
  "Postfix desk calculator

Usage: pdacalc [OPTIONS]

Options:
  -m, --mode <MODE>            Front-end to run [default: plain] [possible values: plain, tui]
  -p, --prompt <PROMPT>        Prompt written before each input line [default: \">> \"]
      --exit-word <EXIT_WORD>  Input line that ends the session [default: exit]
      --suppress-no-value      Do not print `no value` after a diagnostic
  -h, --help                   Print help (see more with '--help')
  -V, --version                Print version
"

/-- A line of ten blanks, which stands above each default of the long help. -/
def blankLine : String := "          \n"

/-- The answer to `--help`. -/
def longHelp : String :=
  "Postfix desk calculator

Usage: pdacalc [OPTIONS]

Options:
  -m, --mode <MODE>
          Front-end to run

          Possible values:
          - plain: Prompt on stdin, print results on stdout
          - tui:   Full-screen interface
" ++ blankLine ++ "          [default: plain]

  -p, --prompt <PROMPT>
          Prompt written before each input line
" ++ blankLine ++ "          [default: \">> \"]

      --exit-word <EXIT_WORD>
          Input line that ends the session
" ++ blankLine ++ "          [default: exit]

      --suppress-no-value
          Do not print `no value` after a diagnostic

  -h, --help
          Print help (see a summary with '-h')

  -V, --version
          Print version
"

end DeskCalc.CommandLine
