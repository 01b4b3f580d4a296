import SicAssembler.OpcodeTable

/-!
What a line asks for. Its mnemonic names a directive, an instruction of the opcode table, or
nothing known (`Operation.classify`); the operation and the operand fix how many bytes the line
occupies (`Operation.size?`). Neither depends on the lines before it.
-/

namespace SicAssembler

inductive Operation where
  | start
  | reserveWords
  | reserveBytes
  | byte
  | word
  | instruction
  | unknown
  deriving DecidableEq, Repr

def wordSize : Nat := 3

/-- The mnemonic that ends a program. It asks for nothing. -/
def endMnemonic : String := "END"

namespace Operation

def directive? : String → Option Operation
  | "START" => some .start
  | "RESW" => some .reserveWords
  | "RESB" => some .reserveBytes
  | "BYTE" => some .byte
  | "WORD" => some .word
  | _ => none

/-- What a mnemonic asks for. Directives come before the opcode table, and the empty mnemonic is
no instruction even if the table has it. -/
def classify (table : OpcodeTable) (mnemonic : String) : Operation :=
  match directive? mnemonic with
  | some operation => operation
  | none =>
    if !mnemonic.isEmpty && table.contains mnemonic then .instruction else .unknown

end Operation

/-- The bytes of a literal: the characters between the quotes of `C'...'`, half of those between
the quotes of `X'...'`, rounded up; anything else is no literal. -/
def literalSize? (operand : String) : Option Nat :=
  let chars := operand.toList
  if 3 ≤ chars.length && chars.getLast? == some '\'' then
    match chars with
    | 'C' :: '\'' :: _ => some (chars.length - 3)
    | 'X' :: '\'' :: _ => some ((chars.length - 2) / 2)
    | _ => none
  else none

def SourceLine.count (line : SourceLine) : Except Failure Nat :=
  match Text.readDecimal line.operand with
  | .value n => .ok n
  | .tooLong digits => .error (.numeral (.tooLong digits))
  | .notDecimal =>
    .error (.assembly
      (.malformedCount line.mnemonic line.operand (some line.location) (some line.text)))

/-- The bytes that a line occupies, or none if the line leaves no trace in the program. -/
def Operation.size? (operation : Operation) (line : SourceLine) : Except Failure (Option Nat) :=
  match operation with
  | .reserveWords => do
    let count ← line.count
    return some (wordSize * count)
  | .reserveBytes => do
    let count ← line.count
    return some count
  | .byte => .ok (some ((literalSize? line.operand).getD 0))
  | .word | .instruction => .ok (some wordSize)
  | .start | .unknown => .ok none

structure Statement where
  line : SourceLine
  operation : Operation
  size : Option Nat
  deriving DecidableEq, Repr

namespace Statement

def ofLine (table : OpcodeTable) (line : SourceLine) : Except Failure Statement := do
  let operation := Operation.classify table line.mnemonic
  let size ← operation.size? line
  return { line, operation, size }

def read (table : OpcodeTable) (file : String) (input : LineInput × Nat) :
    Except Failure Statement := do
  let line ← input.1.read file input.2
  ofLine table line

/-- The statements of a source, up to the first line that cannot be read. -/
def readAll (table : OpcodeTable) (file : String) (source : Source) :
    Except Failure (List Statement) :=
  source.numbered.mapM (read table file)

/-- The statements before the first line that cannot be read. -/
def beforeFailure (table : OpcodeTable) (file : String) (source : Source) : List Statement :=
  ((source.numbered.map (read table file)).takeWhile Except.isOk).filterMap Except.toOption

end Statement

end SicAssembler
