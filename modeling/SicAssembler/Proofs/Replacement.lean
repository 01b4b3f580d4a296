import SicAssembler.Proofs.Fields
import SicAssembler.Proofs.Positions
import SicAssembler.Proofs.Separators

/-!
One part of a program in place of another. A line can be exchanged without any other line being read
differently (`Source.exists_split_of_read`), and an operand can be put in place of the operand of a
line without any other field being touched (`nthField_putOperand`).
-/

namespace SicAssembler

/-! ### Another operand -/

def putOperand (operand text : String) : String :=
  match (fields text)[2]? with
  | none => text
  | some field =>
    String.ofList (text.toList.take (field.column - 1) ++ operand.toList
      ++ text.toList.drop (field.column - 1 + field.text.length))

theorem nthField_putOperand {operand text : String} (unbroken : Unbroken operand)
    (present : operand ≠ "") (has : nthField text 2 ≠ "") :
    nthField (putOperand operand text) 0 = nthField text 0 ∧
      nthField (putOperand operand text) 1 = nthField text 1 ∧
      nthField (putOperand operand text) 2 = operand := by
  cases found : (fields text)[2]? with
  | none => exact (has (by rw [nthField, found]; rfl)).elim
  | some field =>
    have named : field.text ≠ "" := by
      intro empty
      exact has (by rw [nthField, found]; exact empty)
    have own := unbroken_of_mem_fields (List.mem_of_getElem? found)
    obtain ⟨left, right, split, place, count, ends, begins⟩ := exists_parts_of_field found named
    have front : field.column - 1 = left.length := by omega
    have before : text.toList.take (field.column - 1) = left := by
      rw [split, front, List.append_assoc, List.take_left]
    have after : text.toList.drop (field.column - 1 + field.text.length) = right := by
      rw [split, front, ← String.length_toList, ← List.length_append, List.drop_left]
    have put : putOperand operand text = String.ofList (left ++ operand.toList ++ right) := by
      rw [putOperand, found]
      exact congrArg String.ofList (by rw [before, after])
    have taken : text = String.ofList (left ++ field.text.toList ++ right) := by
      rw [← split, String.ofList_toList]
    rw [put, taken]
    unfold nthField
    rw [fields_of_parts unbroken present ends begins, fields_of_parts own named ends begins,
      List.getElem?_append_left (by omega), List.getElem?_append_left (by omega),
      List.getElem?_append_left (by omega), List.getElem?_append_left (by omega),
      List.getElem?_append_right (by omega), count]
    exact ⟨rfl, rfl, rfl⟩

theorem mem_putOperand {operand text : String} {c : Char}
    (member : c ∈ (putOperand operand text).toList) : c ∈ operand.toList ∨ c ∈ text.toList := by
  unfold putOperand at member
  split at member
  · exact .inr member
  · rw [String.toList_ofList, List.append_assoc] at member
    rcases List.mem_append.mp member with left | rest
    · exact .inr (List.mem_of_mem_take left)
    · rcases List.mem_append.mp rest with inside | right
      · exact .inl inside
      · exact .inr (List.mem_of_mem_drop right)

def LineInput.putOperand (operand : String) : LineInput → LineInput
  | .text line => .text (SicAssembler.putOperand operand line)
  | .value typeName => .value typeName

theorem modify_append_cons {α : Type} (f : α → α) (before : List α) (a : α) (after : List α) :
    (before ++ a :: after).modify before.length f = before ++ f a :: after := by
  rw [List.modify_eq_take_cons_drop (by simp)]
  simp

namespace Source

/-- A program with another operand in place of that of one line, the lines counted from zero. -/
def putOperand (operand : String) (i : Nat) : Source → Source
  | .text program =>
    .text ("\n".intercalate ((Text.lines program).modify i (SicAssembler.putOperand operand)))
  | .lines inputs => .lines (inputs.modify i (LineInput.putOperand operand))

theorem inputs_putOperand {source : Source} {before after : List LineInput} {operand text : String}
    (single : '\n' ∉ operand.toList) (split : source.inputs = before ++ .text text :: after) :
    (source.putOperand operand before.length).inputs =
      before ++ .text (SicAssembler.putOperand operand text) :: after := by
  cases source with
  | lines inputs =>
    change inputs = _ at split
    change inputs.modify _ _ = _
    rw [split, modify_append_cons]
    rfl
  | text program =>
    obtain ⟨earlier, rest, lines, rfl, others⟩ := List.map_eq_append_iff.mp split
    obtain ⟨line, later, rfl, same, rfl⟩ := List.map_eq_cons_iff.mp others
    obtain rfl := LineInput.text.inj same
    have absent : ∀ other ∈ earlier ++ SicAssembler.putOperand operand line :: later,
        '\n' ∉ other.toList := by
      have old : ∀ other ∈ earlier ++ line :: later, '\n' ∉ other.toList :=
        fun other member => Text.not_mem_of_mem_lines (lines ▸ member)
      intro other member ending
      rcases List.mem_append.mp member with front | back
      · exact old other (List.mem_append_left _ front) ending
      · rcases List.mem_cons.mp back with rfl | behind
        · rcases mem_putOperand ending with inside | kept
          · exact single inside
          · exact old line (by simp) kept
        · exact old other (by simp [behind]) ending
    rw [List.length_map, putOperand, lines, modify_append_cons, inputs,
      Text.lines_intercalate absent (by simp), List.map_append, List.map_cons]

end Source

/-! ### Another line -/

/-- A line of a source that was read can be exchanged, and the others are read as before. -/
theorem Source.exists_split_of_read {source : Source} {before after : List LineInput}
    {file text : String} {lines : List SourceLine}
    (split : source.inputs = before ++ .text text :: after)
    (read : source.read file = .ok lines) :
    ∃ earlier later number, lines = earlier ++ SourceLine.read file number text :: later ∧
      (∀ line ∈ earlier, ∃ other n, .text other ∈ before ∧ line = SourceLine.read file n other) ∧
      (∀ line ∈ later, ∃ other n, .text other ∈ after ∧ line = SourceLine.read file n other) ∧
      ∀ (exchanged : Source) (other : String),
        exchanged.inputs = before ++ .text other :: after →
        exchanged.read file = .ok (earlier ++ SourceLine.read file number other :: later) := by
  rw [Source.read, numbered, split, List.zipIdx_append, List.zipIdx_cons, List.mapM_append,
    List.mapM_cons] at read
  obtain ⟨earlier, front, read⟩ := bind_ok read
  obtain ⟨rest, back, read⟩ := bind_ok read
  obtain ⟨line, here, back⟩ := bind_ok back
  obtain ⟨later, behind, back⟩ := bind_ok back
  obtain rfl := pure_ok back
  obtain rfl := pure_ok read
  obtain rfl := Except.ok.inj here
  refine ⟨earlier, later, _, rfl, fun _ => exists_text_of_mapM_read front,
    fun _ => exists_text_of_mapM_read behind, fun exchanged other same => ?_⟩
  rw [Source.read, numbered, same, List.zipIdx_append, List.zipIdx_cons, List.mapM_append,
    List.mapM_cons, front, behind]
  rfl

end SicAssembler
