import SicAssembler.Error
import SicAssembler.Text.Lines

/-!
Source lines. A line is split at blanks into fields, of which the first three are its label, its
mnemonic and its operand; a line that begins with a blank has an empty label, and what follows the
third field is ignored. `fields` gives every field with its column, and `SourceLine.read` the line.
-/

namespace SicAssembler

/-- A field of a line and the column of its first character, counted from one. The empty label of
an indented line has column zero. -/
structure Field where
  text : String
  column : Nat
  deriving DecidableEq, Repr

/-- The maximal runs of characters that are not blank, for a text that begins at `column`. -/
def fieldsFrom (column : Nat) : List Char → List Field
  | [] => []
  | c :: rest =>
    if Text.isBlank c then fieldsFrom (column + 1) rest
    else
      let word := c :: rest.takeWhile (!Text.isBlank ·)
      ⟨String.ofList word, column⟩
        :: fieldsFrom (column + word.length) (rest.dropWhile (!Text.isBlank ·))
termination_by text => text.length
decreasing_by
  · simp
  · have := (List.dropWhile_sublist (fun x => !Text.isBlank x) (l := rest)).length_le
    simp only [List.length_cons]
    omega

def omittedLabel : List Char → List Field
  | [] => []
  | c :: _ => if Text.isBlank c then [⟨"", 0⟩] else []

def fields (text : String) : List Field :=
  omittedLabel text.toList ++ fieldsFrom 1 text.toList

/-- A line of the source, taken apart. The column of an absent operand is zero. -/
structure SourceLine where
  number : Int
  text : String
  label : String
  mnemonic : String
  operand : String
  file : String
  operandColumn : Nat
  deriving DecidableEq, Repr

namespace SourceLine

/-- Takes a line apart, without the line end that it may still have. -/
def read (file : String) (number : Int) (text : String) : SourceLine :=
  let text := Text.trimLineEnd text
  let found := fields text
  let word (i : Nat) : String := (found[i]?.map Field.text).getD ""
  { number, text, file
    label := word 0
    mnemonic := word 1
    operand := word 2
    operandColumn := (found[2]?.map Field.column).getD 0 }

/-- Where the line is, its operand if it has one. -/
def location (line : SourceLine) : Location :=
  ⟨line.file, line.number, line.operandColumn⟩

/-- Whether the line has no field but perhaps an omitted label. -/
def isEmpty (line : SourceLine) : Bool :=
  line.label.isEmpty && line.mnemonic.isEmpty && line.operand.isEmpty

def summary (line : SourceLine) : String :=
  "SourceLine(" ++ ", ".intercalate
    [toString line.number, RawText.quote line.label, RawText.quote line.mnemonic,
      RawText.quote line.operand] ++ ")"

end SourceLine

inductive LineInput where
  | text (line : String)
  | value (typeName : String)
  deriving DecidableEq, Repr

def AssemblyError.notText (typeName file : String) (number : Int) : AssemblyError :=
  .source
    { message := "source line must be text, got " ++ typeName
      location := some { file, line := number } }

def LineInput.read (file : String) (number : Int) : LineInput → Except Failure SourceLine
  | .text line => .ok (SourceLine.read file number line)
  | .value typeName => .error (.assembly (.notText typeName file number))

inductive Source where
  | text (program : String)
  | lines (inputs : List LineInput)
  deriving DecidableEq, Repr

namespace Source

def inputs : Source → List LineInput
  | .text program => (Text.lines program).map .text
  | .lines inputs => inputs

def numbered (source : Source) : List (LineInput × Nat) :=
  source.inputs.zipIdx 1

/-- Takes all lines of a source apart, up to the first that is not text. -/
def read (source : Source) (file : String) : Except Failure (List SourceLine) :=
  source.numbered.mapM fun (input, number) => input.read file number

end Source

end SicAssembler
