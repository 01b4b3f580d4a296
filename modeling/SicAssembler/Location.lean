/-!
Places in a source, as errors and diagnostics name them: `file:line`, and `file:line:column` where
the column is known.
-/

namespace SicAssembler

/-- The name a source has when it comes from no file. -/
def unnamedSource : String := "<input>"

/-- A place in a source. Lines and columns count from one; a column that is not positive is
unknown. -/
structure Location where
  file : String
  line : Int
  column : Int := 0
  deriving DecidableEq, Repr

def Location.hasColumn (location : Location) : Bool :=
  0 < location.column

def Location.text (location : Location) : String :=
  let line := location.file ++ ":" ++ toString location.line
  if location.hasColumn then line ++ ":" ++ toString location.column else line

end SicAssembler
