import SicAssembler.Text.Printable

/-!
Quotation marks, as error messages and descriptions use them. A text stands between single quotes,
or between double quotes when it holds a single quote and no double one, and what would not show
in it is escaped.
-/

namespace SicAssembler.Text

def codeDigits (width n : Nat) : List Char :=
  (Nat.toDigits 16 n).leftpad width '0'

/-- The escape of a character by its code, in the shortest of the three forms that holds it. -/
def escapeCode (c : Char) : List Char :=
  if c.toNat < 0x100 then '\\' :: 'x' :: codeDigits 2 c.toNat
  else if c.toNat < 0x10000 then '\\' :: 'u' :: codeDigits 4 c.toNat
  else '\\' :: 'U' :: codeDigits 8 c.toNat

def escape (mark c : Char) : List Char :=
  if c == mark || c == '\\' then ['\\', c]
  else if c == '\n' then ['\\', 'n']
  else if c == '\r' then ['\\', 'r']
  else if c == '\t' then ['\\', 't']
  else if isPrintable c then [c]
  else escapeCode c

def quoteMark (text : List Char) : Char :=
  if text.contains '\'' && !text.contains '"' then '"' else '\''

end SicAssembler.Text
