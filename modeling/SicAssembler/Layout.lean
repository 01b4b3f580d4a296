import SicAssembler.Operation
import SicAssembler.SymbolTable

/-!
The first pass: laying a program out in memory. A location counter starts at zero, is set by each
`START` with a hexadecimal operand, and grows by the size of each line that occupies memory; a
label is bound to the counter before its line is counted, and never by a `START` line. The result,
a `Layout`, holds the symbol table, the intermediate code and what was passed over with a warning.

Everything that can fail has failed when a line becomes a `Statement`, so `Layout.ofStatements` is
a plain fold and `Layout.ofSource` fails exactly with the first line that cannot be read.
-/

namespace SicAssembler

/-- A line of the intermediate code: the fields of a source line with its address. The last one
only marks the end. -/
structure Record where
  address : Int
  label : String := ""
  mnemonic : String := ""
  operand : String := ""
  isEnd : Bool := false
  line : Int := 0
  deriving DecidableEq, Repr

namespace Record

def finish (address : Int) : Record :=
  { address, isEnd := true }

def text (record : Record) : String :=
  if record.isEnd then addressText record.address ++ " " ++ endMnemonic
  else " ".intercalate
    [addressText record.address, record.label, record.mnemonic, record.operand]

def textAll (records : List Record) : String :=
  Text.unlines (records.map text)

end Record

structure Progress where
  counter : Int := 0
  start : Option Int := none
  name : String := ""
  symbols : SymbolTable := .empty
  records : Array Record := #[]
  diagnostics : Array Diagnostic := #[]

namespace Progress

def warn (progress : Progress) (line : SourceLine) (kind : DiagnosticKind) (message : String) :
    Progress :=
  { progress with
    diagnostics := progress.diagnostics.push { kind, message, location := some line.location } }

/-- A `START` line: sets the counter and names the program, if its operand is an address. -/
def begin (progress : Progress) (line : SourceLine) : Progress :=
  match Text.hexValue? line.operand with
  | some address =>
    { progress with counter := address, start := some (address : Int), name := line.label }
  | none =>
    progress.warn line .malformedStart
      ("START operand '" ++ line.operand ++ "' is not a hexadecimal address, directive ignored")

def bind (progress : Progress) (label : String) : Progress :=
  { progress with symbols := progress.symbols.insert label progress.counter }

/-- Enters the label of a line in the symbol table, if there is a label and it is a valid one. -/
def define (progress : Progress) (line : SourceLine) : Progress :=
  if line.label.isEmpty then progress
  else if !isLabel line.label then
    progress.warn line .invalidLabel
      ("invalid label '" ++ line.label ++ "' not entered in symbol table")
  else
    match progress.symbols.get? line.label with
    | none => progress.bind line.label
    | some previous =>
      (progress.warn line .redefinedLabel
        ("label '" ++ line.label ++ "' redefined: " ++ addressText previous ++ " -> "
          ++ addressText progress.counter)).bind line.label

/-- Notes what is wrong with a line that is no `START`, its label apart. -/
def inspect (progress : Progress) (statement : Statement) : Progress :=
  let line := statement.line
  match statement.operation with
  | .byte =>
    if (literalSize? line.operand).isSome then progress
    else progress.warn line .malformedByte
      ("BYTE operand '" ++ line.operand ++ "' is neither C'...' nor X'...', no bytes reserved")
  | .unknown =>
    if line.mnemonic.isEmpty || line.mnemonic == endMnemonic then progress
    else progress.warn line .unknownMnemonic
      ("unknown opcode '" ++ line.mnemonic ++ "', line ignored")
  | _ => progress

/-- Adds the record of a line that occupies memory, and moves the counter past it. -/
def place (progress : Progress) (statement : Statement) : Progress :=
  match statement.size with
  | none => progress
  | some size =>
    { progress with
      counter := progress.counter + size
      records := progress.records.push
        { address := progress.counter
          label := statement.line.label
          mnemonic := statement.line.mnemonic
          operand := statement.line.operand
          line := statement.line.number } }

def step (progress : Progress) (statement : Statement) : Progress :=
  match statement.operation with
  | .start => progress.begin statement.line
  | _ => ((progress.define statement.line).inspect statement).place statement

end Progress

structure Layout where
  symbols : SymbolTable
  records : List Record
  start : Option Int
  name : String
  counter : Int
  diagnostics : List Diagnostic
  table : OpcodeTable

namespace Layout

def ofProgress (table : OpcodeTable) (progress : Progress) : Layout where
  symbols := progress.symbols
  records := progress.records.toList ++ [Record.finish progress.counter]
  start := progress.start
  name := progress.name
  counter := progress.counter
  diagnostics := progress.diagnostics.toList
  table := table

def ofStatements (table : OpcodeTable) (statements : List Statement) : Layout :=
  ofProgress table (statements.foldl Progress.step {})

def ofSource (table : OpcodeTable) (file : String) (source : Source) : Except Failure Layout := do
  let statements ← Statement.readAll table file source
  return ofStatements table statements

def hasStart (layout : Layout) : Bool := layout.start.isSome

/-- The bytes from the start address, or from zero, to the end. -/
def length (layout : Layout) : Int :=
  layout.counter - layout.start.getD 0

/-- The event of a `START` line that counts. -/
def startEvent? (statement : Statement) : Option Event :=
  match statement.operation, Text.hexValue? statement.line.operand with
  | .start, some address => some (.programStarts statement.line.label address)
  | _, _ => none

def completion (layout : Layout) : Event :=
  .layoutComplete layout.symbols.size layout.records.length layout.counter

/-- What laying a program out tells, also if it fails. -/
def events (table : OpcodeTable) (file : String) (source : Source) : List Event :=
  (Statement.beforeFailure table file source).filterMap startEvent?
    ++ (ofSource table file source).toOption.toList.map completion

def report (layout : Layout) : String :=
  "Symbol Table:\n" ++ layout.symbols.text ++ "\n\nIntermediate Code:\n"
    ++ Record.textAll layout.records

end Layout

end SicAssembler
