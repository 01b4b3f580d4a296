/-!
How alike two words are, for naming what a mistyped word may have meant. `matched` counts the
characters of a longest common block together with those matched, in the same way, to its left and
to its right; a word is close when that makes up six tenths of the two words.
-/

namespace SicAssembler.Text

structure Block where
  left : Nat
  right : Nat
  size : Nat
  deriving DecidableEq, Repr

def commonLength : List Char → List Char → Nat
  | a :: as, b :: bs => if a == b then commonLength as bs + 1 else 0
  | _, _ => 0

/-- Every pair of positions with the block that starts there, row by row. -/
def blocks (a b : List Char) : List Block :=
  (List.range a.length).flatMap fun i =>
    (List.range b.length).map fun j => ⟨i, j, commonLength (a.drop i) (b.drop j)⟩

/-- The longest common block, the first in `a` and then in `b` among equals. -/
def longestBlock (a b : List Char) : Block :=
  (blocks a b).foldl (fun best block => if best.size < block.size then block else best) ⟨0, 0, 0⟩

/-- The number of characters of two words that match block by block. -/
def matched (a b : List Char) : Nat :=
  let block := longestBlock a b
  if _inside : 0 < block.size ∧ block.left + block.size ≤ a.length then
    matched (a.take block.left) (b.take block.right) + block.size
      + matched (a.drop (block.left + block.size)) (b.drop (block.right + block.size))
  else 0
termination_by a.length
decreasing_by
  all_goals
    simp only [block] at _inside
    simp only [List.length_take, List.length_drop]
    omega

structure Candidate where
  word : String
  matching : Nat
  total : Nat

def Candidate.of (typed word : String) : Candidate :=
  ⟨word, matched word.toList typed.toList, word.length + typed.length⟩

/-- At least six tenths of the characters match. -/
def Candidate.isClose (c : Candidate) : Bool :=
  3 * c.total ≤ 10 * c.matching

/-- Whether a candidate is listed before another: the more alike first, then the later word. -/
def Candidate.before (a b : Candidate) : Bool :=
  let x := a.matching * b.total
  let y := b.matching * a.total
  y < x || (x == y && b.word ≤ a.word)

/-- The at most three closest of some words, the most alike first. -/
def closeMatches (typed : String) (words : List String) : List String :=
  let close := (words.map (Candidate.of typed)).filter Candidate.isClose
  ((close.mergeSort Candidate.before).take 3).map Candidate.word

end SicAssembler.Text
