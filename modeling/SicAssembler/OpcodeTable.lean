import SicAssembler.Event
import SicAssembler.OrderedMap
import SicAssembler.SourceLine

/-!
Opcode tables: which mnemonics are instructions, and the machine code of each. A table is written
as lines of a mnemonic and a code; `OpcodeTable.parse` reads the lines of exactly two fields and
passes over all others, and `OpcodeTable.text` writes a table in that form.
-/

namespace SicAssembler

/-- Machine codes by mnemonic, in the order of definition. -/
abbrev OpcodeTable := OrderedMap String String

namespace OpcodeTable

/-- The mnemonic and the code of a line of two fields. The first of the two is empty when the line
begins with a blank. -/
def definition? (line : String) : Option (String × String) :=
  match fields line with
  | [mnemonic, code] => some (mnemonic.text, code.text)
  | _ => none

def definitions (text : String) : List (String × String) :=
  (Text.lines text).filterMap definition?

/-- The table that a text defines. The last code of a mnemonic counts. -/
def parse (text : String) : OpcodeTable :=
  OrderedMap.ofList (definitions text)

/-- Two texts joined by a line end define the first one's table updated by the second. -/
theorem parse_join (a b : String) :
    parse (a ++ "\n" ++ b) = (parse a).insertAll (definitions b) := by
  simp only [parse, definitions, Text.lines_join, List.filterMap_append, OrderedMap.ofList,
    OrderedMap.insertAll_append]

/-- What reading one line tells, given the mnemonics defined before it. A line without definition
is mentioned only if it is not white space throughout. -/
def lineEvents (known : List String) (number : Nat) (line : String) : List Event :=
  match definition? line with
  | some (mnemonic, _) =>
    if known.contains mnemonic then [.mnemonicRedefined mnemonic number] else []
  | none =>
    if line.toList.all Text.isSpace then []
    else [.definitionDropped number (fields line).length]

def linesEvents (known : List String) (number : Nat) : List String → List Event
  | [] => []
  | line :: rest =>
    lineEvents known number line
      ++ linesEvents ((definition? line).toList.map Prod.fst ++ known) (number + 1) rest

def parseEvents (text : String) : List Event :=
  linesEvents [] 1 (Text.lines text) ++ [.tableRead (parse text).size]

def text (table : OpcodeTable) : String :=
  Text.unlines (table.entries.map fun entry => entry.1 ++ " " ++ entry.2)

/-- The code of a mnemonic that must have one. -/
def code (table : OpcodeTable) (mnemonic : String) : Except Failure String :=
  match table.get? mnemonic with
  | some code => .ok code
  | none => .error (.missingMnemonic mnemonic)

def summary (table : OpcodeTable) : String :=
  "OpcodeTable(" ++ toString table.size ++ " opcodes)"

/-- The standard instruction set of the machine, as definition text. -/
def standardText : String :=
  Text.unlines
    ["ADD 18", "AND 40", "COMP 28", "DIV 24", "J 3C", "JEQ 30", "JGT 34", "JLT 38", "JSUB 48",
      "LDA 00", "LDCH 50", "LDL 08", "LDX 04", "MUL 20", "OR 44", "RD D8", "RSUB 4C", "STA 0C",
      "STCH 54", "STL 14", "STSW E8", "STX 10", "SUB 1C", "TD E0", "TIX 2C", "WD DC"]

def standard : OpcodeTable :=
  parse standardText

end OpcodeTable

end SicAssembler
