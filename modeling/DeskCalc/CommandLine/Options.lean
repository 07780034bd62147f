import DeskCalc.Session

/-! # Command line options

The words of a command line are taken from left to right, and the first one that cannot be taken, or
that asks for help or for the version, decides.  A value that stands in a word of its own is taken
only when the next option has been recognised, or at the end of the command line; so a word that no
option explains is reported before a bad value in front of it. -/

namespace DeskCalc

/-- The front ends. -/
inductive Mode where
  /-- Lines from standard input, results on standard output. -/
  | plain
  /-- The full-screen calculator. -/
  | fullScreen
deriving DecidableEq

/-- The name of a mode on the command line, in lower case only. -/
def Mode.ofName? : String → Option Mode
  | "plain" => some plain
  | "tui" => some fullScreen
  | _ => none

/-- What a command line asks for. -/
structure Options where
  mode : Mode
  prompt : String
  exitWord : String
  suppressNoValue : Bool
deriving DecidableEq

/-- What an empty command line asks for. -/
def Options.default : Options := ⟨.plain, ">> ", "exit", false⟩

/-- The options as a session needs them. -/
def Options.session (o : Options) : SessionOptions := ⟨!o.suppressNoValue⟩

namespace CommandLine

/-- Why a command line does not lead to a run. -/
inductive Stop where
  /-- A value is missing, or it is not one that the option accepts. -/
  | invalidValue
  /-- No option explains the word. -/
  | unknownArgument
  /-- An option is given twice. -/
  | conflict
  /-- A value is given to an option that takes none. -/
  | tooManyValues
  /-- Help is asked for, in short or at length. -/
  | help (long : Bool)
  | version
deriving DecidableEq

/-- The options that take a value. -/
inductive Setting where
  | mode
  | prompt
  | exitWord
deriving DecidableEq

/-- What an option name stands for. -/
inductive Meaning where
  | setting (s : Setting)
  | suppress
  | help
  | version
deriving DecidableEq

/-- The options with a long name. -/
def longName? : String → Option Meaning
  | "mode" => some (.setting .mode)
  | "prompt" => some (.setting .prompt)
  | "exit-word" => some (.setting .exitWord)
  | "suppress-no-value" => some .suppress
  | "help" => some .help
  | "version" => some .version
  | _ => none

/-- The options with a short name. -/
def shortName? : Char → Option Meaning
  | 'm' => some (.setting .mode)
  | 'p' => some (.setting .prompt)
  | 'h' => some .help
  | 'V' => some .version
  | _ => none

/-- The options taken so far. -/
structure Given where
  mode : Option Mode
  prompt : Option String
  exitWord : Option String
  suppress : Bool
  /-- The setting named last, with its value if there was a word for it; not yet taken. -/
  pending : Option (Setting × Option String)

namespace Given

/-- No option taken yet. -/
def start : Given := ⟨none, none, none, false, none⟩

/-- Takes a value for a setting that has none yet. -/
def set (g : Given) (setting : Setting) (value : String) : Except Stop Given :=
  match setting with
  | .mode =>
    if g.mode.isSome then .error .conflict
    else
      match Mode.ofName? value with
      | some mode => .ok { g with mode }
      | none => .error .invalidValue
  | .prompt => if g.prompt.isSome then .error .conflict else .ok { g with prompt := value }
  | .exitWord => if g.exitWord.isSome then .error .conflict else .ok { g with exitWord := value }

/-- Takes what is pending. -/
def settle (g : Given) : Except Stop Given :=
  match g.pending with
  | none => .ok g
  | some (_, none) => .error .invalidValue
  | some (setting, some value) => { g with pending := none }.set setting value

/-- Takes a recognised option with the value attached to it, if there is one. -/
def recognise (g : Given) (long : Bool) (attached : Option String) :
    Meaning → Except Stop Given
  | .setting setting => do
    -- what is pending comes first, since its value may be refused
    let g ← g.settle
    match attached with
    | some value => g.set setting value
    | none => return { g with pending := some (setting, none) }
  | .suppress => do
    let g ← g.settle
    if g.suppress then .error .conflict else return { g with suppress := true }
  | .help => do
    let _ ← g.settle
    .error (.help long)
  | .version => do
    let _ ← g.settle
    .error .version

/-- The options, with defaults for what was not given. -/
def options (g : Given) : Options where
  mode := g.mode.getD Options.default.mode
  prompt := g.prompt.getD Options.default.prompt
  exitWord := g.exitWord.getD Options.default.exitWord
  suppressNoValue := g.suppress

end Given

/-- Splits a long option at its first equals sign into its name and the value attached to it. -/
def splitLong (word : List Char) : String × Option String :=
  match word.dropWhile (· != '=') with
  | [] => (String.ofList word, none)
  | _ :: value => (String.ofList (word.takeWhile (· != '=')), some (String.ofList value))

/-- Takes a long option, given without its two hyphens. -/
def takeLong (g : Given) (word : List Char) : Except Stop Given :=
  let (name, attached) := splitLong word
  match longName? name with
  | none => .error .unknownArgument
  | some (.setting s) => g.recognise true attached (.setting s)
  | some meaning =>
    if attached.isSome then .error .tooManyValues else g.recognise true none meaning

/-- The value attached to a short option by what follows it in its word; one equals sign in front
is not part of the value. -/
def attachedShort : List Char → Option String
  | [] => none
  | '=' :: value => some (String.ofList value)
  | value => some (String.ofList value)

/-- Takes a word of short options, given without its hyphen.  The first option that takes a value
takes the rest of the word. -/
def takeShort (g : Given) : List Char → Except Stop Given
  | [] => .ok g
  | c :: rest =>
    match shortName? c with
    | none => .error .unknownArgument
    | some (.setting s) => g.recognise false (attachedShort rest) (.setting s)
    | some meaning => do
      let g ← g.recognise false none meaning
      takeShort g rest

/-- Takes a word that is not an option: the value of the setting before it, or nothing at all. -/
def takeWord (g : Given) (word : String) : Except Stop Given :=
  match g.pending with
  | some (setting, none) => .ok { g with pending := some (setting, some word) }
  | _ => .error .unknownArgument

/-- Takes the words of a command line.  Behind a lone `--` no word is an option, and since no other
words are accepted, none may follow. -/
def take (g : Given) : List String → Except Stop Given
  | [] => g.settle
  | word :: rest =>
    match word.toList with
    | ['-', '-'] => if rest.isEmpty then g.settle else .error .unknownArgument
    | '-' :: '-' :: long => do take (← takeLong g long) rest
    | '-' :: c :: short => do take (← takeShort g (c :: short)) rest
    | _ => do take (← takeWord g word) rest

/-- Reads a command line, the name of the program left out. -/
def parse (args : List String) : Except Stop Options :=
  (take Given.start args).map Given.options

end CommandLine

end DeskCalc
