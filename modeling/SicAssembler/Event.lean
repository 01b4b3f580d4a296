import SicAssembler.Diagnostic
import SicAssembler.Text.Numeral
import SicAssembler.Text.Raw

/-!
The log: what the parts of the assembler tell about their work. Most events are details; those that
report the progress of a session are of more weight when the session is verbose.
-/

namespace SicAssembler

inductive Event where
  | definitionDropped (line fields : Nat)
  | mnemonicRedefined (mnemonic : String) (line : Nat)
  | tableRead (size : Nat)
  | programStarts (name : String) (address : Int)
  | layoutComplete (symbols records : Nat) (finish : Int)
  | codeMissing (mnemonic : String) (address : Int)
  | objectComplete (entries : Nat)
  | objectRefused
  | warned (diagnostic : Diagnostic)
  | tableLoaded (size : Nat)
  | tableLoadedFrom (path : RawText) (size : Nat)
  | layoutBegins (file : String)
  | layoutDone (symbols records : Nat)
  | objectDone (entries bytes : Nat)
  | listingWritten (path : RawText)
  | objectWritten (path : RawText)
  deriving DecidableEq, Repr

inductive Level where
  | debug
  | info
  deriving DecidableEq, Repr

def Level.name : Level → String
  | .debug => "DEBUG"
  | .info => "INFO"

namespace Event

/-- Whether an event reports the progress of a session. -/
def isProgress : Event → Bool
  | .tableLoaded .. | .tableLoadedFrom .. | .layoutBegins .. | .layoutDone ..
  | .objectDone .. | .listingWritten .. | .objectWritten .. => true
  | _ => false

def level (verbose : Bool) (event : Event) : Level :=
  if verbose && event.isProgress then .info else .debug

def message : Event → String
  | .definitionDropped line fields =>
    "Opcode line " ++ toString line ++ " dropped: expected 2 fields, got " ++ toString fields
  | .mnemonicRedefined mnemonic line =>
    "Opcode '" ++ mnemonic ++ "' redefined on line " ++ toString line
  | .tableRead size => "Loaded " ++ toString size ++ " opcodes"
  | .programStarts name address =>
    "Program '" ++ name ++ "' starts at " ++ Text.hex 4 address
  | .layoutComplete symbols records finish =>
    "Pass 1 complete: " ++ toString symbols ++ " symbols, " ++ toString records
      ++ " records, end at " ++ Text.hex 4 finish
  | .codeMissing mnemonic address =>
    "No machine code for '" ++ mnemonic ++ "' at " ++ Text.hex 4 address ++ ", skipped"
  | .objectComplete entries => "Pass 2 complete: " ++ toString entries ++ " object code entries"
  | .objectRefused => "Pass 2 refused: no start address"
  | .warned diagnostic => diagnostic.text
  | .tableLoaded size => "Opcode table loaded: " ++ toString size ++ " opcodes"
  | .tableLoadedFrom path size =>
    "Opcode table loaded from " ++ path.shown ++ ": " ++ toString size ++ " opcodes"
  | .layoutBegins file => "Pass 1: " ++ file
  | .layoutDone symbols records =>
    "Pass 1: " ++ toString symbols ++ " symbols, " ++ toString records ++ " records"
  | .objectDone entries bytes =>
    "Pass 2: " ++ toString entries ++ " entries, " ++ toString bytes ++ " bytes"
  | .listingWritten path => "Wrote listing to " ++ path.shown
  | .objectWritten path => "Wrote object program to " ++ path.shown

def line (verbose : Bool) (event : Event) : String :=
  (event.level verbose).name ++ ": " ++ event.message

end Event

end SicAssembler
