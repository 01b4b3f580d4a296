import SicAssembler.Disk.Fault
import SicAssembler.Location
import SicAssembler.Text.Numeral
import SicAssembler.Text.Raw
import SicAssembler.Text.Utf8

/-!
What stops an assembly. An `AssemblyError` is a fault of the program or of the order of work, told
by a `Report` that points into the source; a `Failure` is that, or a file, an encoding or a numeral
that could not be used, or a text that could not be printed.
-/

namespace SicAssembler

structure Report where
  message : String
  location : Option Location := none
  hint : Option String := none
  sourceLine : Option String := none
  deriving DecidableEq, Repr

namespace Report

def headline (report : Report) : String :=
  match report.location with
  | some location => location.text ++ ": error: " ++ report.message
  | none => "error: " ++ report.message

/-- A caret under the given column of an indented source line. -/
def caret (column : Int) : String :=
  String.ofList (List.replicate (4 + column - 1).toNat ' ') ++ "^"

/-- The source line, if it is known where it is, and a caret under its column. -/
def excerpt (report : Report) : List String :=
  match report.sourceLine, report.location with
  | some line, some location =>
    ("    " ++ line) :: if location.hasColumn then [caret location.column] else []
  | _, _ => []

def advice (report : Report) : List String :=
  match report.hint with
  | some hint => if hint.isEmpty then [] else ["hint: " ++ hint]
  | none => []

def text (report : Report) : String :=
  "\n".intercalate (report.headline :: report.excerpt ++ report.advice)

end Report

inductive AssemblyError where
  | general (report : Report)
  | source (report : Report)
  | directive (report : Report)
  | opcodeTable (report : Report)
  | malformedCount (directive operand : String) (location : Option Location)
      (sourceLine : Option String)
  | undefinedStart
  deriving DecidableEq, Repr

namespace AssemblyError

def startMissing : String := "Start address not defined."

def report : AssemblyError → Report
  | .general report | .source report | .directive report | .opcodeTable report => report
  | .malformedCount name operand location sourceLine =>
    { message :=
        if operand.isEmpty then name ++ " requires a decimal operand"
        else name ++ " operand '" ++ operand ++ "' is not a decimal number"
      location, sourceLine
      hint := some "reservation counts are plain decimal numbers, e.g. RESW 10" }
  | .undefinedStart =>
    { message := startMissing
      hint := some "begin the program with a line such as 'PROG START 1000'" }

def text (error : AssemblyError) : String := error.report.text

/-- The second pass was asked for before a first one. -/
def layoutMissing : AssemblyError :=
  .general
    { message := "Pass 2 requires a completed Pass 1"
      hint := some "run Pass 1 on the source first" }

def unreadableTable (path : RawText) (fault : FileFault) : AssemblyError :=
  .opcodeTable { message := "cannot read opcode table '" ++ path.shown ++ "': " ++ fault.reason }

end AssemblyError

inductive Failure where
  | assembly (error : AssemblyError)
  | plain (message : String)
  | file (fault : FileFault) (path : RawText)
  | nulInPath
  | encoding (fault : Text.EncodingFault)
  | unprintable (fault : PrintFault)
  | numeral (fault : Text.NumeralFault)
  | missingMnemonic (mnemonic : String)
  deriving DecidableEq, Repr

def Failure.text : Failure → String
  | .assembly error => error.text
  | .plain message => message
  | .file fault path =>
    "[Errno " ++ toString fault.number ++ "] " ++ fault.reason ++ ": " ++ path.quote
  | .nulInPath => "embedded null byte"
  | .encoding fault => fault.message
  | .unprintable fault => fault.message
  | .numeral fault => fault.message
  | .missingMnemonic mnemonic => RawText.quote mnemonic

end SicAssembler
