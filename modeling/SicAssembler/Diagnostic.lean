import SicAssembler.Location

/-!
Diagnostics: what the layout of a program passes over with a warning. `Diagnostic.report` writes a
list of them, one per line, and counts them in a last line.
-/

namespace SicAssembler

inductive DiagnosticKind where
  | malformedStart
  | unknownMnemonic
  | invalidLabel
  | redefinedLabel
  | malformedByte
  deriving DecidableEq, Repr

def DiagnosticKind.text : DiagnosticKind → String
  | .malformedStart => "malformed start address"
  | .unknownMnemonic => "unknown opcode"
  | .invalidLabel => "invalid label"
  | .redefinedLabel => "redefined label"
  | .malformedByte => "malformed BYTE literal"

structure Diagnostic where
  kind : DiagnosticKind
  message : String
  location : Option Location := none
  deriving DecidableEq, Repr

namespace Diagnostic

def text (diagnostic : Diagnostic) : String :=
  match diagnostic.location with
  | some location => location.text ++ ": warning: " ++ diagnostic.message
  | none => "warning: " ++ diagnostic.message

def countKind (kind : DiagnosticKind) (diagnostics : List Diagnostic) : Nat :=
  diagnostics.countP (·.kind = kind)

/-- The last line of a report. -/
def tally (count : Nat) : String :=
  toString count ++ if count = 1 then " warning" else " warnings"

def report (diagnostics : List Diagnostic) : String :=
  "\n".intercalate (diagnostics.map text ++ [tally diagnostics.length])

end Diagnostic

end SicAssembler
