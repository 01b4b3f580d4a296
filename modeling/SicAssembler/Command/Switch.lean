import SicAssembler.Text.Raw

/-!
The switches of the command line: how each is spelled, and whether it takes a value.
-/

namespace SicAssembler.Command

inductive Switch where
  | opcodes
  | output
  | listing
  | layoutOnly
  | strip
  | warnings
  | verbose
  | version
  | help
  deriving DecidableEq, Repr

namespace Switch

/-- All switches, in the order in which the help lists them. -/
def all : List Switch :=
  [.opcodes, .output, .listing, .layoutOnly, .strip, .warnings, .verbose, .version, .help]

def long : Switch → String
  | .opcodes => "--opcodes"
  | .output => "--output"
  | .listing => "--listing"
  | .layoutOnly => "--pass1-only"
  | .strip => "--strip-trailing-separator"
  | .warnings => "--warnings"
  | .verbose => "--verbose"
  | .version => "--version"
  | .help => "--help"

def letter? : Switch → Option Char
  | .opcodes => some 't'
  | .output => some 'o'
  | .listing => some 'l'
  | .warnings => some 'W'
  | .verbose => some 'v'
  | _ => none

def takesValue : Switch → Bool
  | .opcodes | .output | .listing => true
  | _ => false

/-- Whether the switch answers the command line by itself. -/
def isAnswer : Switch → Bool
  | .version | .help => true
  | _ => false

def ofLong? (spelling : RawText) : Option Switch :=
  all.find? fun switch => (switch.long : RawText) == spelling

def ofLetter? (letter : Glyph) : Option Switch :=
  all.find? fun switch => switch.letter?.map .char == some letter

/-- The spellings of a switch, as messages name it. -/
def hint (switch : Switch) : String :=
  match switch.letter? with
  | some letter => "'-" ++ String.ofList [letter] ++ "' / '" ++ switch.long ++ "'"
  | none => "'" ++ switch.long ++ "'"

end Switch

end SicAssembler.Command
