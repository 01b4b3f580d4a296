import SicAssembler.Text.Raw

/-!
Plain text. What is printed to anything but a terminal carries no control sequences: `plain` takes out
every escape character that begins one, together with the rest of the sequence. Such a sequence holds
no second escape character, so the pieces between escape characters are treated one by one.
-/

namespace SicAssembler.RawText

/-- The characters between the opening bracket of a control sequence and its last letter. -/
def isParameter : Glyph → Bool
  | .char c => c.isDigit || c == ';' || c == '?'
  | .byte _ => false

/-- The text after an escape character up to the next one, without the control sequence if it
begins with one: a bracket, parameters and a letter. -/
def dropSequence (piece : RawText) : RawText :=
  match piece with
  | .char '[' :: rest =>
    match rest.dropWhile isParameter with
    | .char last :: kept => if last.isAlpha then kept else Glyph.controlStart :: piece
    | _ => Glyph.controlStart :: piece
  | _ => Glyph.controlStart :: piece

def plain (raw : RawText) : RawText :=
  match raw.splitOn Glyph.controlStart with
  | [] => []
  | first :: pieces => first ++ pieces.flatMap dropSequence

end SicAssembler.RawText
