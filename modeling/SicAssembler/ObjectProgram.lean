import SicAssembler.Layout

/-!
The second pass: the object program of a layout. Every record whose mnemonic has a machine code
and that has an operand gives one entry, the code followed by the operand's value in hexadecimal
(`resolve`); the entries are written in one text record between a header and an end record.
-/

namespace SicAssembler

structure ObjectProgram where
  name : String
  start : Int
  entries : List String := []
  deriving DecidableEq, Repr

namespace ObjectProgram

/-- An address as the records show it: at least six hexadecimal digits. -/
def startText (program : ObjectProgram) : String :=
  Text.hex 6 program.start

/-- The bytes of the entries, a word each. -/
def textLength (program : ObjectProgram) : Nat :=
  wordSize * program.entries.length

def headerRecord (program : ObjectProgram) : String :=
  "H ^ " ++ program.name ++ " ^ " ++ program.startText

/-- A record without the spaces at its end, and without a separator before them. -/
def stripSeparator (record : String) : String :=
  match record.toList.reverse.dropWhile (· == ' ') with
  | '^' :: rest => String.ofList rest.reverse
  | kept => String.ofList kept.reverse

/-- The text record, if there are entries. A separator and a space follow the last entry unless
they are stripped. -/
def textRecord? (program : ObjectProgram) (strip : Bool) : Option String :=
  if program.entries.isEmpty then none
  else
    let record := "T ^ " ++ program.startText ++ " ^ " ++ Text.hex 2 program.textLength ++ " ^ "
      ++ String.join (program.entries.map (· ++ "^")) ++ " "
    some (if strip then stripSeparator record else record)

def endRecord (program : ObjectProgram) : String :=
  "E ^ " ++ program.startText

def records (program : ObjectProgram) (strip : Bool) : List String :=
  program.headerRecord :: (program.textRecord? strip).toList ++ [program.endRecord]

def text (program : ObjectProgram) (strip : Bool) : String :=
  Text.unlines (program.records strip)

end ObjectProgram

/-- An operand in hexadecimal: the address of a symbol, the value of a decimal numeral, or zero. -/
def resolve (symbols : SymbolTable) (operand : String) : Except Failure String :=
  match symbols.get? operand with
  | some address => .ok (addressText address)
  | none =>
    match Text.readDecimal operand with
    | .value n => .ok (addressText n)
    | .tooLong digits => .error (.numeral (.tooLong digits))
    | .notDecimal => .ok "0000"

namespace Record

/-- Whether a record may give an entry: it has both a mnemonic and an operand. -/
def hasOperand (record : Record) : Bool :=
  !record.isEnd && !record.mnemonic.isEmpty && !record.operand.isEmpty

def entry? (table : OpcodeTable) (symbols : SymbolTable) (record : Record) :
    Except Failure (Option String) :=
  if record.hasOperand then
    match table.get? record.mnemonic with
    | some code => do
      let operand ← resolve symbols record.operand
      return some (code ++ operand)
    | none => .ok none
  else .ok none

/-- The event of a record that is passed over for want of a machine code. -/
def skipEvent? (table : OpcodeTable) (record : Record) : Option Event :=
  if record.hasOperand && !table.contains record.mnemonic then
    some (.codeMissing record.mnemonic record.address)
  else none

end Record

namespace ObjectProgram

def build (records : List Record) (symbols : SymbolTable) (table : OpcodeTable)
    (start : Option Int) (name : String) : Except Failure ObjectProgram :=
  match start with
  | none => .error (.assembly .undefinedStart)
  | some start => do
    let entries ← records.mapM (Record.entry? table symbols)
    return { name, start, entries := entries.filterMap id }

def buildEvents (records : List Record) (symbols : SymbolTable) (table : OpcodeTable)
    (start : Option Int) (name : String) : List Event :=
  match start with
  | none => []
  | some _ =>
    (records.takeWhile fun record => (record.entry? table symbols).isOk).filterMap
        (Record.skipEvent? table)
      ++ (build records symbols table start name).toOption.toList.map fun program =>
        .objectComplete program.entries.length

end ObjectProgram

namespace Layout

def object (layout : Layout) (table : OpcodeTable) : Except Failure ObjectProgram :=
  ObjectProgram.build layout.records layout.symbols table layout.start layout.name

def objectEvents (layout : Layout) (table : OpcodeTable) : List Event :=
  ObjectProgram.buildEvents layout.records layout.symbols table layout.start layout.name

/-- The report of the second pass. A program without a start address is no failure here, but told
in the report. -/
def objectReport (layout : Layout) (table : OpcodeTable) (strip : Bool) : Except Failure String :=
  match layout.object table with
  | .ok program => .ok ("Object Program:\n" ++ program.text strip)
  | .error (.assembly .undefinedStart) => .ok ("Error: " ++ AssemblyError.startMissing)
  | .error failure => .error failure

def reportEvents (layout : Layout) (table : OpcodeTable) : List Event :=
  layout.objectEvents table ++ if layout.hasStart then [] else [.objectRefused]

end Layout

def assemble (table : OpcodeTable) (file : String) (source : Source) :
    Except Failure ObjectProgram := do
  let layout ← Layout.ofSource table file source
  layout.object layout.table

end SicAssembler
