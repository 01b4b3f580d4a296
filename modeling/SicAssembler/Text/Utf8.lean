/-!
Reading bytes as UTF-8. `decode` accepts exactly the well-formed encodings, so it undoes
`String.toUTF8`; on anything else it names the first ill-formed sequence and what is wrong with it.
-/

namespace SicAssembler.Text

inductive EncodingFlaw where
  | badStart
  | badContinuation
  | truncated
  deriving DecidableEq, Repr

def EncodingFlaw.message : EncodingFlaw → String
  | .badStart => "invalid start byte"
  | .badContinuation => "invalid continuation byte"
  | .truncated => "unexpected end of data"

structure EncodingFault where
  position : Nat
  bytes : List UInt8
  flaw : EncodingFlaw
  deriving DecidableEq, Repr

/-- The wording of a fault: one byte is shown, more are given by their positions. -/
def EncodingFault.message (fault : EncodingFault) : String :=
  match fault.bytes with
  | [byte] =>
    "'utf-8' codec can't decode byte 0x"
      ++ String.ofList ((Nat.toDigits 16 byte.toNat).leftpad 2 '0')
      ++ " in position " ++ toString fault.position ++ ": " ++ fault.flaw.message
  | bytes =>
    "'utf-8' codec can't decode bytes in position " ++ toString fault.position ++ "-"
      ++ toString (fault.position + bytes.length - 1) ++ ": " ++ fault.flaw.message

def isContinuation (byte : UInt8) : Bool :=
  0x80 ≤ byte && byte ≤ 0xBF

/-- Whether a byte may come second after the given first byte: overlong forms, surrogates and code
points past the last one are told by the second byte. -/
def isSecond (first byte : UInt8) : Bool :=
  isContinuation byte &&
    (if first == 0xE0 then 0xA0 ≤ byte
     else if first == 0xED then byte ≤ 0x9F
     else if first == 0xF0 then 0x90 ≤ byte
     else if first == 0xF4 then byte ≤ 0x8F
     else true)

/-- How many bytes follow a first byte, if it is one. -/
def continuationCount? (first : UInt8) : Option Nat :=
  if first ≤ 0x7F then some 0
  else if 0xC2 ≤ first && first ≤ 0xDF then some 1
  else if 0xE0 ≤ first && first ≤ 0xEF then some 2
  else if 0xF0 ≤ first && first ≤ 0xF4 then some 3
  else none

/-- The bytes after `first` that belong to its sequence, at most `count` of them. -/
def continuation (first : UInt8) (count : Nat) (rest : List UInt8) : List UInt8 :=
  match rest with
  | [] => []
  | second :: more =>
    if count == 0 || !isSecond first second then []
    else second :: (more.take (count - 1)).takeWhile isContinuation

/-- The first ill-formed sequence of data that begin at `position`. Data without one are cut short
at their end. -/
def firstFault (position : Nat) : List UInt8 → EncodingFault
  | [] => ⟨position, [], .truncated⟩
  | first :: rest =>
    match continuationCount? first with
    | none => ⟨position, [first], .badStart⟩
    | some count =>
      let found := continuation first count rest
      if found.length == count then firstFault (position + 1 + count) (rest.drop count)
      else if found.length == rest.length then ⟨position, first :: found, .truncated⟩
      else ⟨position, first :: found, .badContinuation⟩
termination_by data => data.length

def decode (bytes : ByteArray) : Except EncodingFault String :=
  match String.fromUTF8? bytes with
  | some text => .ok text
  | none => .error (firstFault 0 bytes.toList)

end SicAssembler.Text
