import Mathlib.Data.List.DropRight
import SicAssembler.Proofs.Runs
import SicAssembler.Proofs.StoppingLines

/-!
What the message about a malformed count shows. It has a line that says where the fault is and what
it is, the source line with a margin, a caret under the operand if there is one, and a hint
(`AssemblyError.lines_of_missing_count`, `AssemblyError.lines_of_count`). The caret stands under the
first character of the operand, whatever stands before it in its line
(`Layout.message_points_at_operand`).
-/

namespace SicAssembler

variable {table : OpcodeTable} {file text : String}

/-! ### Texts of one line -/

namespace Text

def trimReturns (line : String) : String :=
  String.ofList (line.toList.rdropWhile (· == '\r'))

theorem trimLineEnd_eq_trimReturns (single : '\n' ∉ text.toList) :
    trimLineEnd text = trimReturns text := by
  have same : ∀ chars : List Char, '\n' ∉ chars →
      chars.dropWhile isLineEnd = chars.dropWhile (· == '\r') := by
    intro chars absent
    induction chars with
    | nil => rfl
    | cons c rest ih =>
      have other : (c == '\n') = false := beq_false_of_ne (List.ne_of_not_mem_cons absent).symm
      have tail := ih (List.not_mem_of_not_mem_cons absent)
      rw [List.dropWhile_cons, List.dropWhile_cons, isLineEnd, other, Bool.or_false, tail]
  have absent : '\n' ∉ text.toList.reverse := fun member => single (List.mem_reverse.mp member)
  rw [trimLineEnd, trimReturns, List.rdropWhile, same _ absent]

theorem newline_not_mem_trimReturns (single : '\n' ∉ text.toList) :
    '\n' ∉ (trimReturns text).toList := by
  intro member
  rw [trimReturns, String.toList_ofList] at member
  exact single ((List.rdropWhile_prefix _ _).subset member)

theorem newline_not_mem_toDigits (n : Nat) : '\n' ∉ Nat.toDigits 10 n := by
  intro member
  exact absurd (Nat.isDigit_of_mem_toDigits (by omega) (by omega) member) (by decide)

end Text

/-! ### The message -/

namespace AssemblyError

def countHint : String :=
  "hint: reservation counts are plain decimal numbers, e.g. RESW 10"

section Lines

variable {name operand shown : String} {number column : Nat}
  (in_file : '\n' ∉ file.toList) (in_name : '\n' ∉ name.toList) (in_line : '\n' ∉ shown.toList)

include in_file in_name in_line

theorem lines_of_missing_count :
    Text.lines (malformedCount name "" (some ⟨file, number, 0⟩) (some shown)).text =
      [file ++ ":" ++ toString number ++ ": error: " ++ (name ++ " requires a decimal operand"),
        "    " ++ shown, countHint] := by
  have parts : (malformedCount name "" (some ⟨file, number, 0⟩) (some shown)).text =
      "\n".intercalate
        [file ++ ":" ++ toString number ++ ": error: " ++ (name ++ " requires a decimal operand"),
          "    " ++ shown, countHint] := rfl
  rw [parts, Text.lines_intercalate _ (by simp)]
  simp [in_file, in_name, in_line, Text.newline_not_mem_toDigits, countHint]

theorem lines_of_count (present : operand ≠ "") (in_operand : '\n' ∉ operand.toList)
    (placed : 0 < column) :
    Text.lines (malformedCount name operand (some ⟨file, number, column⟩) (some shown)).text =
      [file ++ ":" ++ toString number ++ ":" ++ toString column ++ ": error: "
          ++ (name ++ " operand '" ++ operand ++ "' is not a decimal number"),
        "    " ++ shown, String.ofList (List.replicate (column + 3) ' ') ++ "^", countHint] := by
  have pointed : Location.hasColumn ⟨file, number, column⟩ = true := by
    simpa [Location.hasColumn] using placed
  have nonempty : operand.isEmpty = false := by
    simpa using present
  have indent : (4 + (column : Int) - 1).toNat = column + 3 := by omega
  have parts : (malformedCount name operand (some ⟨file, number, column⟩) (some shown)).text =
      "\n".intercalate
        [file ++ ":" ++ toString number ++ ":" ++ toString column ++ ": error: "
            ++ (name ++ " operand '" ++ operand ++ "' is not a decimal number"),
          "    " ++ shown, String.ofList (List.replicate (column + 3) ' ') ++ "^", countHint] := by
    simp only [text, report, nonempty, Report.text, Report.headline, Location.text, pointed,
      Report.excerpt, Report.caret, indent]
    rfl
  rw [parts, Text.lines_intercalate _ (by simp)]
  simp [in_file, in_name, in_line, in_operand, Text.newline_not_mem_toDigits, countHint]

end Lines

end AssemblyError

/-! ### Where the caret stands -/

theorem SourceLine.operand_of_read {number : Int} {line : SourceLine}
    (taken : line = read file number text) (present : line.operand ≠ "") :
    (fields line.text)[2]? = some ⟨line.operand, line.operandColumn⟩ := by
  subst taken
  simp only [read] at present ⊢
  cases found : (fields (Text.trimLineEnd text))[2]? with
  | none =>
    rw [found] at present
    exact absurd rfl present
  | some field => rfl

/-- In a line with a margin the operand begins under the caret. -/
theorem isPrefix_drop_of_field {field : Field} {i : Nat} (found : (fields text)[i]? = some field)
    (present : field.text ≠ "") :
    field.text.toList <+: ("    " ++ text).toList.drop (field.column + 3) := by
  obtain ⟨left, right, split, place, _⟩ := exists_parts_of_field found present
  have margin : ("    " ++ text).toList =
      ("    ".toList ++ left) ++ (field.text.toList ++ right) := by
    rw [String.toList_append, split]
    simp only [List.append_assoc]
  have width : field.column + 3 = ("    ".toList ++ left).length := by
    rw [place, List.length_append]
    change 1 + left.length + 3 = 4 + left.length
    omega
  rw [margin, width, List.drop_left]
  exact List.prefix_append _ _

namespace Layout

/-- The message about a count that is no number has a line that says where the first such count is
and what it is, its source line with a margin, a caret if there is an operand, and a hint. The line
with the margin shows the operand from the place of the caret on. -/
theorem message_points_at_operand {program name operand : String} {location : Option Location}
    {shown : Option String} {error : AssemblyError}
    (malformed : error = .malformedCount name operand location shown)
    (failed : ofSource table file (.text program) = .error (.assembly error))
    (single : '\n' ∉ file.toList) :
    ∃ before line after, Text.lines program = before ++ line :: after ∧
      (∀ earlier ∈ before, ¬(LineInput.text earlier).Bad) ∧
      name = nthField line 1 ∧ (name = "RESW" ∨ name = "RESB") ∧
      operand = nthField line 2 ∧ Text.isDecimal operand = false ∧
      (operand = "" → Text.lines error.text =
        [file ++ ":" ++ toString (before.length + 1) ++ ": error: "
            ++ (name ++ " requires a decimal operand"),
          "    " ++ Text.trimReturns line, AssemblyError.countHint]) ∧
      (operand ≠ "" → ∃ column i,
        (fields (Text.trimReturns line))[2]? = some ⟨operand, column⟩ ∧
        Text.lines error.text =
          [file ++ ":" ++ toString (before.length + 1) ++ ":" ++ toString column ++ ": error: "
              ++ (name ++ " operand '" ++ operand ++ "' is not a decimal number"),
            "    " ++ Text.trimReturns line, String.ofList (List.replicate i ' ') ++ "^",
            AssemblyError.countHint] ∧
        operand.toList <+: ("    " ++ Text.trimReturns line).toList.drop i) := by
  subst malformed
  obtain ⟨front, input, behind, inputs, good, stops⟩ := exists_stops_of_error failed
  rw [Source.inputs, List.map_eq_append_iff] at inputs
  obtain ⟨before, rest, lines, rfl, here⟩ := inputs
  obtain ⟨line, after, rfl, rfl, rfl⟩ := List.map_eq_cons_iff.mp here
  have unbroken : '\n' ∉ line.toList := Text.not_mem_of_mem_lines (by rw [lines]; simp)
  rw [List.length_map] at stops
  cases stops with
  | malformed taken reserves unreadable =>
    rename_i parsed
    obtain ⟨_, mnemonic, operand⟩ := SourceLine.read_fields file (before.length + 1 : Nat) line
    obtain ⟨_, mnemonic_unbroken, operand_unbroken⟩ :=
      SourceLine.unbroken_of_read file (before.length + 1 : Nat) line
    have pointed := SourceLine.operandColumn_pos_iff file (before.length + 1 : Nat) line
    rw [← taken] at mnemonic operand mnemonic_unbroken operand_unbroken pointed
    have shown : parsed.text = Text.trimReturns line := by
      rw [taken, ← Text.trimLineEnd_eq_trimReturns unbroken]
      rfl
    have shown_line := Text.newline_not_mem_trimReturns unbroken
    have name_line := mnemonic_unbroken.not_mem (c := '\n') rfl
    rw [Text.trimLineEnd_eq_trimReturns unbroken]
    refine ⟨before, line, after, lines, ?_, mnemonic, reserves, operand, unreadable, ?_, ?_⟩
    · exact fun earlier member => good _ (List.mem_map_of_mem member)
    · intro absent
      have unplaced : parsed.operandColumn = 0 := by
        simpa [absent] using pointed
      rw [absent, unplaced]
      exact AssemblyError.lines_of_missing_count single name_line shown_line
    · intro present
      have found := SourceLine.operand_of_read taken present
      rw [shown] at found
      exact ⟨parsed.operandColumn, parsed.operandColumn + 3, found,
        AssemblyError.lines_of_count single name_line shown_line present
          (operand_unbroken.not_mem rfl) (pointed.mpr present),
        isPrefix_drop_of_field found present⟩

/-- A program whose third line, indented by a tab and ended by carriage returns, has a letter in its
count. -/
def ragged : String :=
  "P\tSTART 10\nA RESW 2\r\n\t RESB\x0b 1O\r  \r\r\n END"

theorem message_points_at_operand_of_ragged :
    ∃ error, ofSource .standard "p.asm" (.text ragged) = .error (.assembly error) ∧
      ∃ line ∈ Text.lines ragged, ∃ i,
        (Text.lines error.text)[1]? = some ("    " ++ Text.trimReturns line) ∧
        (Text.lines error.text)[2]? = some (String.ofList (List.replicate i ' ') ++ "^") ∧
        "1O".toList <+: ("    " ++ Text.trimReturns line).toList.drop i := by
  have split : (Source.text ragged).inputs = [.text "P\tSTART 10", .text "A RESW 2\r"]
      ++ .text "\t RESB\x0b 1O\r  \r\r" :: [.text " END"] := by
    decide +kernel
  have read : SourceLine.read "p.asm" 3 "\t RESB\x0b 1O\r  \r\r" =
      ⟨3, "\t RESB\x0b 1O\r  ", "", "RESB", "1O", "p.asm", 9⟩ := by
    decide +kernel
  have failed : ofSource .standard "p.asm" (.text ragged) = _ :=
    ofSource_error_of_split split (by decide +kernel) (.malformed read.symm (.inr rfl) (by decide))
  obtain ⟨before, line, after, lines, _, _, _, _, _, _, pointed⟩ :=
    message_points_at_operand rfl failed (by decide)
  obtain ⟨column, i, _, printed, shows⟩ := pointed (by decide)
  refine ⟨_, failed, line, by rw [lines]; simp, i, ?_, ?_, shows⟩
  all_goals
    rw [printed]
    rfl

end Layout

end SicAssembler
