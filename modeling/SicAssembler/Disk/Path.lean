import SicAssembler.Text.Raw

/-!
Paths. A path is split at its slashes; empty parts and single dots name no step, and two dots step
up. `normalize` is the form in which messages show a path; its `root` may be one slash or two.
-/

namespace SicAssembler.Path

def slash : Glyph := .char '/'

def isAbsolute (path : RawText) : Bool :=
  path.head? == some slash

/-- The parts between the slashes, empty ones included. -/
def parts (path : RawText) : List RawText :=
  path.splitOn slash

/-- Whether a path ends in a slash, so that only a directory can have it. -/
def isFolder (path : RawText) : Bool :=
  path.getLast? == some slash

/-- The parts that lead to the directory that holds what a path names. The empty part at their end
asks for a directory. -/
def holderParts (path : RawText) : List RawText :=
  ((parts path).reverse.dropWhile List.isEmpty).tail.reverse ++ [[]]

def isStep (part : RawText) : Bool :=
  !part.isEmpty && part != "."

def maxPartSize : Nat := 255

def maxSize : Nat := 4095

def hasNul (path : RawText) : Bool :=
  path.contains (.char (Char.ofNat 0))

/-- The root that a path starts at. Exactly two slashes are a root of their own kind and stay; any
other number of them is one slash. A path that is not absolute has no root. -/
def root (path : RawText) : RawText :=
  match path with
  | .char '/' :: .char '/' :: .char '/' :: _ => [slash]
  | .char '/' :: .char '/' :: _ => [slash, slash]
  | .char '/' :: _ => [slash]
  | _ => []

/-- A path without the parts that name no step. Steps up are kept. -/
def normalize (path : RawText) : RawText :=
  let text := root path ++ [slash].intercalate ((parts path).filter isStep)
  if text.isEmpty then "." else text

end SicAssembler.Path
