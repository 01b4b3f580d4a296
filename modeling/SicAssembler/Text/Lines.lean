import SicAssembler.Text.CharClass

/-!
Texts as lines. A line ends at a line feed and nowhere else (`lines`), so splitting turns a joined
text into the appended lists of its lines: `lines_join`. Text read from a file first has its three
spellings of a line end made one (`unifyNewlines`).
-/

namespace SicAssembler.Text

/-- The lines of a text, split at every line feed. The empty text has one line, an empty one. -/
def lines (text : String) : List String :=
  (text.toList.splitOn '\n').map String.ofList

theorem lines_join (a b : String) : lines (a ++ "\n" ++ b) = lines a ++ lines b := by
  simp [lines, List.splitOn_append_cons_self]

def unlines (texts : List String) : String :=
  String.join (texts.map (· ++ "\n"))

def trimLineEnd (text : String) : String :=
  String.ofList (text.toList.reverse.dropWhile isLineEnd).reverse

/-- One character of `unifyNewlines`, seen from the right: the flag says whether the next character
is a line feed, which stands for a carriage return before it too. -/
def unifyStep (c : Char) (rest : Bool × List Char) : Bool × List Char :=
  if c == '\n' then (true, '\n' :: rest.2)
  else if c == '\r' then (false, if rest.1 then rest.2 else '\n' :: rest.2)
  else (false, c :: rest.2)

/-- A text in which each carriage return, alone or with the line feed after it, is a line feed. -/
def unifyNewlines (text : String) : String :=
  String.ofList (text.toList.foldr unifyStep (false, [])).2

end SicAssembler.Text
