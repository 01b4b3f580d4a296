import SicAssembler.Command.Switch
import SicAssembler.Text.Lines

/-!
What the command says about its own use: the help, the version, and the complaint about a command
line that cannot be followed.
-/

namespace SicAssembler.Command

def synopsis : String := "Usage: sicasm [OPTIONS] INPUT_FILE"

def versionText : String := "sicasm, version 1.0.0\n"

def helpText : String :=
  Text.unlines
    [synopsis,
      "",
      "  Assemble a SIC-style program in two passes.",
      "",
      "  INPUT_FILE is the assembly source, one 'LABEL OPCODE OPERAND' line per",
      "  statement.",
      "",
      "  Examples:",
      "      sicasm copy.asm                 # Both reports to stdout",
      "      sicasm copy.asm -t ops.txt      # Custom opcode table",
      "      sicasm copy.asm -o copy.obj     # Object program to a file",
      "      sicasm --pass1-only copy.asm    # Symbol table only",
      "",
      "Options:",
      "  -t, --opcodes FILE          Opcode table file, one 'MNEMONIC CODE' pair per",
      "                              line (default: standard SIC instruction set)",
      "  -o, --output FILE           Write the object program to FILE instead of",
      "                              stdout",
      "  -l, --listing FILE          Write the symbol table and intermediate code to",
      "                              FILE instead of stdout",
      "  --pass1-only                Stop after Pass 1",
      "  --strip-trailing-separator  Drop the caret and space that follow the last",
      "                              Text record entry",
      "  -W, --warnings              Print Pass 1 diagnostics (ignored START, unknown",
      "                              opcodes, ...)",
      "  -v, --verbose               Verbose output",
      "  --version                   Show the version and exit.",
      "  --help                      Show this message and exit."]

inductive Parameter where
  | input
  | value (switch : Switch)
  deriving DecidableEq, Repr

def Parameter.hint : Parameter → String
  | .input => "'INPUT_FILE'"
  | .value switch => switch.hint

inductive UsageError where
  | unknownOption (spelling : RawText) (alternatives : List String)
  | valueRefused (spelling : RawText)
  | valueMissing (spelling : RawText)
  | inputMissing
  | extraOperands (operands : List RawText)
  | pathMissing (parameter : Parameter) (path : RawText)
  | pathIsDirectory (parameter : Parameter) (path : RawText)
  | pathUnreadable (parameter : Parameter) (path : RawText)
  deriving DecidableEq, Repr

namespace UsageError

def offer : List String → String
  | [] => ""
  | [one] => " Did you mean " ++ one ++ "?"
  | several =>
    " (Possible options: "
      ++ ", ".intercalate (several.mergeSort fun a b => decide (a ≤ b)) ++ ")"

def message : UsageError → String
  | .unknownOption spelling alternatives =>
    "No such option: " ++ spelling.shown ++ offer alternatives
  | .valueRefused spelling =>
    "Option " ++ spelling.quote ++ " does not take a value."
  | .valueMissing spelling =>
    "Option " ++ spelling.quote ++ " requires an argument."
  | .inputMissing => "Missing argument 'INPUT_FILE'."
  | .extraOperands operands =>
    "Got unexpected extra argument" ++ (if operands.length = 1 then " (" else "s (")
      ++ " ".intercalate (operands.map RawText.shown) ++ ")"
  | .pathMissing parameter path =>
    "Invalid value for " ++ parameter.hint ++ ": File " ++ path.quote ++ " does not exist."
  | .pathIsDirectory parameter path =>
    "Invalid value for " ++ parameter.hint ++ ": File " ++ path.quote ++ " is a directory."
  | .pathUnreadable parameter path =>
    "Invalid value for " ++ parameter.hint ++ ": File " ++ path.quote ++ " is not readable."

/-- Whether the complaint reminds of how the command is called. A switch that is known but given
wrongly needs no reminder. -/
def reminds : UsageError → Bool
  | .valueRefused _ | .valueMissing _ => false
  | _ => true

def reminder : List String :=
  [synopsis, "Try 'sicasm --help' for help.", ""]

def text (error : UsageError) : String :=
  Text.unlines ((if error.reminds then reminder else []) ++ ["Error: " ++ error.message])

end UsageError

end SicAssembler.Command
