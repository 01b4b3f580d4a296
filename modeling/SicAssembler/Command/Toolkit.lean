import SicAssembler.Disk

/-!
What the command rests on. A toolkit reads the command line and says what it asks for, and prints what
the command has to say. The command is written for any toolkit; `Toolkit.standard` is the one that the
program runs with.
-/

namespace SicAssembler.Command

structure Options where
  input : RawText
  opcodes : Option RawText := none
  output : Option RawText := none
  listing : Option RawText := none
  layoutOnly : Bool := false
  strip : Bool := false
  warnings : Bool := false
  verbose : Bool := false
  deriving DecidableEq, Repr

inductive Refusal where
  | usage (complaint : String)
  | failure (reason : Failure)
  deriving DecidableEq, Repr

inductive Request where
  | answer (text : String)
  | assemble (options : Options)
  deriving DecidableEq, Repr

/-- How command lines are read and text is printed. The standard output is a terminal or shows no
control sequences, and it may find fault with what it is given; what goes to the standard error output
is always shown. -/
structure Toolkit where
  parse : Disk → List RawText → Except Refusal Request
  terminal : Bool
  unstyle : RawText → RawText
  fault? : RawText → Option PrintFault
  complain : String → String

namespace Toolkit

def shown (toolkit : Toolkit) (raw : RawText) : RawText :=
  if toolkit.terminal then raw else toolkit.unstyle raw

/-- What comes out where a text is printed. A text is refused as a whole. -/
def print (toolkit : Toolkit) (raw : RawText) : Except Failure RawText :=
  match toolkit.fault? (toolkit.shown raw) with
  | some fault => .error (.unprintable fault)
  | none => .ok (toolkit.shown raw)

end Toolkit

end SicAssembler.Command
