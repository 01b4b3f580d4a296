import SicAssembler.Command.Arguments
import SicAssembler.Text.Plain

/-!
The toolkit of the program: command lines are read by `Request.parse`, and what is printed depends on
how the two outputs are set up.
-/

namespace SicAssembler.Command

/-- How an output is set up: a terminal is given control sequences, anything else plain text, and a
strict output refuses bytes that are no text. -/
structure Output where
  terminal : Bool := false
  strict : Bool := false
  deriving DecidableEq, Repr

/-- The toolkit with the given outputs. The second shows what is no text by its code. -/
def Toolkit.standard (out err : Output) : Toolkit where
  parse := Request.parse
  terminal := out.terminal
  unstyle := RawText.plain
  fault? raw := if out.strict then raw.stray? else none
  complain text := RawText.shown (if err.terminal then text else RawText.plain text)

/-- The toolkit of a run whose outputs are pipes. -/
def Toolkit.piped : Toolkit := standard {} {}

end SicAssembler.Command
