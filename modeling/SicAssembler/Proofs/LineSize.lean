import Mathlib.Tactic.SplitIfs
import SicAssembler.Proofs.Insertion
import SicAssembler.Proofs.Reading

/-!
What a line asks for, said by its mnemonic and operand alone: which address it sets (`origin?`),
whether it has a place in memory (`Occupies`) and how many bytes (`bytes`). `Statement.size_eq`
shows that a statement is given exactly these bytes, whatever stands before or after its line.
-/

namespace SicAssembler

/-! ### The bytes of a line -/

def decimalValue (text : String) : Nat :=
  Nat.ofDigitChars 10 text.toList 0

theorem readDecimal_eq (text : String) :
    Text.readDecimal text =
      if Text.isDecimal text then
        if Text.maxDigits < text.length then .tooLong text.length else .value (decimalValue text)
      else .notDecimal := by
  unfold Text.readDecimal
  cases Text.isDecimal text <;> rfl

def quoted? (letter : Char) (operand : String) : Option (List Char) :=
  match operand.toList with
  | first :: second :: rest =>
    if first = letter ∧ second = '\'' ∧ rest.getLast? = some '\'' then some rest.dropLast else none
  | _ => none

theorem quoted?_eq_some_iff {letter : Char} {operand : String} {inner : List Char} :
    quoted? letter operand = some inner ↔
      operand.toList = letter :: '\'' :: (inner ++ ['\'']) := by
  unfold quoted?
  split
  · rename_i first second rest chars
    rw [chars]
    constructor
    · intro h
      split at h
      · rename_i found
        obtain ⟨rfl, rfl, last⟩ := found
        rw [← Option.some.inj h, List.dropLast_append_getLast? _ last]
      · cases h
    · intro h
      obtain ⟨rfl, rfl, rfl⟩ : first = letter ∧ second = '\'' ∧ rest = inner ++ ['\''] := by
        simpa using h
      simp
  · rename_i short
    constructor
    · intro h
      cases h
    · intro h
      exact (short _ _ _ h).elim

/-- The bytes of a literal: one for each character of `C'...'`, one for every two of `X'...'`. -/
def literalBytes? (operand : String) : Option Nat :=
  match quoted? 'C' operand, quoted? 'X' operand with
  | some inner, _ => some inner.length
  | none, some inner => some ((inner.length + 1) / 2)
  | none, none => none

theorem literalSize?_eq (operand : String) : literalSize? operand = literalBytes? operand := by
  unfold literalSize? literalBytes? quoted?
  match operand.toList with
  | [] | [_] | [_, _] => simp
  | first :: second :: third :: rest =>
    have ends : (first :: second :: third :: rest).getLast? = (third :: rest).getLast? := by simp
    simp only [ends]
    by_cases last : (third :: rest).getLast? = some '\''
    · by_cases quote : second = '\''
      · subst second
        by_cases character : first = 'C'
        · simp [character, last]
        · by_cases hexadecimal : first = 'X'
          · simp [hexadecimal, last]
          · simp [character, hexadecimal, last]
      · simp [quote, last]
    · simp [last]

/-! ### Lines that count -/

namespace SourceLine

/-- The address that a line sets the counter to: the operand of a `START`, if hexadecimal. -/
def origin? (line : SourceLine) : Option Nat :=
  if line.mnemonic = "START" then Text.hexValue? line.operand else none

/-- Whether a line has a place in memory: it reserves or fills memory, or is an instruction. -/
def Occupies (table : OpcodeTable) (line : SourceLine) : Prop :=
  line.mnemonic ∈ ["RESW", "RESB", "BYTE", "WORD"] ∨
    line.mnemonic ≠ "" ∧ line.mnemonic ≠ "START" ∧ line.mnemonic ∈ table.keys

instance (table : OpcodeTable) : DecidablePred (Occupies table) := fun _ =>
  inferInstanceAs (Decidable (_ ∨ _))

def bytes (line : SourceLine) : Nat :=
  if line.mnemonic = "RESW" then 3 * decimalValue line.operand
  else if line.mnemonic = "RESB" then decimalValue line.operand
  else if line.mnemonic = "BYTE" then (literalBytes? line.operand).getD 0
  else 3

theorem Occupies.mnemonic_ne_start {table : OpcodeTable} {line : SourceLine}
    (occupies : line.Occupies table) : line.mnemonic ≠ "START" := by
  rcases occupies with directive | ⟨_, other, _⟩
  · intro start
    simp [start] at directive
  · exact other

theorem Occupies.mnemonic_ne_empty {table : OpcodeTable} {line : SourceLine}
    (occupies : line.Occupies table) : line.mnemonic ≠ "" := by
  rcases occupies with directive | ⟨present, _, _⟩
  · intro empty
    simp [empty] at directive
  · exact present

theorem count_ok {line : SourceLine} {n : Nat} (h : line.count = .ok n) :
    Text.isDecimal line.operand = true ∧ n = decimalValue line.operand := by
  rw [count, readDecimal_eq] at h
  split_ifs at h with decimal long
  exact ⟨decimal, (Except.ok.inj h).symm⟩

end SourceLine

namespace Operation

theorem directive?_eq (mnemonic : String) :
    directive? mnemonic =
      if mnemonic = "START" then some start
      else if mnemonic = "RESW" then some reserveWords
      else if mnemonic = "RESB" then some reserveBytes
      else if mnemonic = "BYTE" then some byte
      else if mnemonic = "WORD" then some word
      else none := by
  unfold directive?
  split <;> simp_all

theorem classify_eq (table : OpcodeTable) (mnemonic : String) :
    classify table mnemonic =
      if mnemonic = "START" then start
      else if mnemonic = "RESW" then reserveWords
      else if mnemonic = "RESB" then reserveBytes
      else if mnemonic = "BYTE" then byte
      else if mnemonic = "WORD" then word
      else if mnemonic ≠ "" ∧ mnemonic ∈ table.keys then instruction
      else unknown := by
  have instructions : (!mnemonic.isEmpty && table.contains mnemonic) = true ↔
      mnemonic ≠ "" ∧ mnemonic ∈ table.keys := by
    simp [OrderedMap.contains_iff]
  rw [classify, directive?_eq]
  simp only [instructions]
  split_ifs <;> rfl

end Operation

namespace Statement

variable {table : OpcodeTable} {statement : Statement}

theorem operation_eq_start_iff (read : ofLine table statement.line = .ok statement) :
    statement.operation = .start ↔ statement.line.mnemonic = "START" := by
  rw [(ofLine_ok read).2.1, Operation.classify_eq]
  split_ifs <;> simp_all

theorem size_eq (read : ofLine table statement.line = .ok statement) :
    statement.size =
      if statement.line.Occupies table then some statement.line.bytes else none := by
  obtain ⟨_, operation, sized⟩ := ofLine_ok read
  rw [operation, Operation.classify_eq] at sized
  unfold SourceLine.Occupies SourceLine.bytes
  split_ifs at sized with start words reserved filled word known
  · rw [← Except.ok.inj sized]
    simp [start]
  · obtain ⟨count, counted, sized⟩ := bind_ok sized
    rw [pure_ok sized, (SourceLine.count_ok counted).2]
    simp [words, wordSize]
  · obtain ⟨count, counted, sized⟩ := bind_ok sized
    rw [pure_ok sized, (SourceLine.count_ok counted).2]
    simp [reserved]
  · rw [← Except.ok.inj sized]
    simp [filled, literalSize?_eq]
  · rw [← Except.ok.inj sized]
    simp [word, wordSize]
  · rw [← Except.ok.inj sized]
    simp [known, start, words, reserved, filled, wordSize]
  · rw [← Except.ok.inj sized]
    simpa [start, words, reserved, filled, word] using known

theorem isDecimal_of_reservation (read : ofLine table statement.line = .ok statement)
    (reservation : statement.line.mnemonic = "RESW" ∨ statement.line.mnemonic = "RESB") :
    Text.isDecimal statement.line.operand = true := by
  obtain ⟨_, operation, sized⟩ := ofLine_ok read
  rw [operation, Operation.classify_eq] at sized
  rcases reservation with same | same
  all_goals
    simp only [same, String.reduceEq, if_true, if_false] at sized
    obtain ⟨count, counted, _⟩ := bind_ok sized
    exact (SourceLine.count_ok counted).1

end Statement

end SicAssembler
