import SicAssembler.Text.Quoted

/-!
Text from outside. The system hands names and arguments over as bytes. Most of them are text, but a
byte that belongs to no character stands for itself, and messages show it by a code of its own.
-/

namespace SicAssembler

inductive Glyph where
  | char (c : Char)
  | byte (b : UInt8)
  deriving DecidableEq, Repr

namespace Glyph

def char? : Glyph → Option Char
  | .char c => some c
  | .byte _ => none

/-- The character that begins a control sequence. -/
def controlStart : Glyph := .char (Char.ofNat 0x1B)

def bytes : Glyph → List UInt8
  | .char c => String.utf8EncodeChar c
  | .byte b => [b]

/-- The code that stands for a byte in text: one of those that UTF-8 gives to no character. -/
def byteCode (b : UInt8) : Nat := 0xDC00 + b.toNat

def escapeByte (b : UInt8) : List Char :=
  '\\' :: 'u' :: Text.codeDigits 4 (byteCode b)

def shown : Glyph → List Char
  | .char c => [c]
  | .byte b => escapeByte b

def quoted (mark : Char) : Glyph → List Char
  | .char c => Text.escape mark c
  | .byte b => escapeByte b

end Glyph

abbrev RawText := List Glyph

namespace RawText

def ofString (text : String) : RawText := text.toList.map .char

instance : Coe String RawText := ⟨ofString⟩

def bytes (raw : RawText) : List UInt8 := raw.flatMap Glyph.bytes

def size (raw : RawText) : Nat := raw.bytes.length

/-- The characters of a text, each byte that is none replaced by the character that stands for what
cannot be read. -/
def legible (raw : RawText) : String :=
  String.ofList (raw.map fun glyph => glyph.char?.getD (Char.ofNat 0xFFFD))

def shown (raw : RawText) : String := String.ofList (raw.flatMap Glyph.shown)

def quote (raw : RawText) : String :=
  let mark := Text.quoteMark (raw.filterMap Glyph.char?)
  String.ofList (mark :: raw.flatMap (Glyph.quoted mark) ++ [mark])

def leadingBytes : RawText → List UInt8
  | .byte b :: rest => b :: leadingBytes rest
  | _ => []

end RawText

structure PrintFault where
  position : Nat
  bytes : List UInt8
  deriving DecidableEq, Repr

/-- The wording of a fault: one byte is shown, more are given by their positions. -/
def PrintFault.message (fault : PrintFault) : String :=
  match fault.bytes with
  | [byte] =>
    "'utf-8' codec can't encode character '" ++ String.ofList (Glyph.escapeByte byte)
      ++ "' in position " ++ toString fault.position ++ ": surrogates not allowed"
  | bytes =>
    "'utf-8' codec can't encode characters in position " ++ toString fault.position ++ "-"
      ++ toString (fault.position + bytes.length - 1) ++ ": surrogates not allowed"

namespace RawText

def strayFrom (position : Nat) : RawText → Option PrintFault
  | [] => none
  | .char _ :: rest => strayFrom (position + 1) rest
  | .byte b :: rest => some ⟨position, b :: leadingBytes rest⟩

def stray? (raw : RawText) : Option PrintFault := strayFrom 0 raw

end RawText

end SicAssembler
