import SicAssembler.OrderedMap
import SicAssembler.Text.Lines
import SicAssembler.Text.Numeral

/-!
Symbol tables: the addresses of the labels of a program, in the order in which the labels were
first defined.
-/

namespace SicAssembler

/-- An address as the reports show it: at least four hexadecimal digits. -/
def addressText (address : Int) : String :=
  Text.hex 4 address

/-- Whether a text can be defined as a label: a letter, then letters, digits and underscores. -/
def isLabel (text : String) : Bool :=
  match text.toList with
  | [] => false
  | first :: rest => first.isAlpha && rest.all fun c => c.isAlphanum || c == '_'

abbrev SymbolTable := OrderedMap String Int

def SymbolTable.text (symbols : SymbolTable) : String :=
  Text.unlines (symbols.entries.map fun entry => entry.1 ++ ": " ++ addressText entry.2)

end SicAssembler
