/-!
Character classes of the assembler's texts. Source fields are separated by the six `isBlank`
characters only; the wider `isSpace` class decides which lines of an opcode table count as empty.
-/

namespace SicAssembler.Text

def inRanges (ranges : List (Nat × Nat)) (c : Char) : Bool :=
  ranges.any fun range => range.1 ≤ c.toNat && c.toNat ≤ range.2

/-- The characters that separate fields: space, tab, line feed, vertical tab, form feed and
carriage return. -/
def isBlank (c : Char) : Bool :=
  c == ' ' || (9 ≤ c.toNat && c.toNat ≤ 13)

/-- The ranges of the Unicode white space characters, the four information separators included. -/
def spaceRanges : List (Nat × Nat) :=
  [(0x09, 0x0D), (0x1C, 0x20), (0x85, 0x85), (0xA0, 0xA0), (0x1680, 0x1680), (0x2000, 0x200A),
    (0x2028, 0x2029), (0x202F, 0x202F), (0x205F, 0x205F), (0x3000, 0x3000)]

/-- White space in the wide sense: a line of nothing else is empty to a reader. -/
def isSpace (c : Char) : Bool :=
  inRanges spaceRanges c

def isLineEnd (c : Char) : Bool :=
  c == '\r' || c == '\n'

end SicAssembler.Text
