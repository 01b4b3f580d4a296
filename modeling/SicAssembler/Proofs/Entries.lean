import SicAssembler.ObjectProgram
import SicAssembler.Proofs.Symbols

/-!
The entries of an object program, said by the lines of the program alone. A line gives an entry if
its mnemonic has a code and it has an operand; the operand is looked up among the labels of all
lines, so it may be defined before, on or after the line that names it (`operandText`).
-/

namespace SicAssembler

variable {table : OpcodeTable} {lines : List SourceLine} {symbols : SymbolTable}

/-! ### One entry -/

/-- An operand in hexadecimal: the address of a label, the value of a numeral, or zero. -/
def operandText (table : OpcodeTable) (lines : List SourceLine) (operand : String) : String :=
  match addressOf? table lines operand with
  | some address => addressText address
  | none => if Text.isDecimal operand then addressText (decimalValue operand) else "0000"

def SourceLine.entry? (table : OpcodeTable) (lines : List SourceLine) (line : SourceLine) :
    Option String :=
  if line.mnemonic ≠ "START" ∧ line.mnemonic ≠ "" ∧ line.operand ≠ "" then
    (table.get? line.mnemonic).map fun code => code ++ operandText table lines line.operand
  else none

theorem resolve_ok {operand text : String}
    (bound : symbols.get? operand = (addressOf? table lines operand).map Nat.cast)
    (h : resolve symbols operand = .ok text) : text = operandText table lines operand := by
  unfold resolve at h
  unfold operandText
  cases found : addressOf? table lines operand with
  | some address =>
    rw [bound, found] at h
    exact (Except.ok.inj h).symm
  | none =>
    rw [bound, found, readDecimal_eq] at h
    split_ifs at h ⊢ with decimal long
    · cases h
    · exact (Except.ok.inj h).symm
    · exact (Except.ok.inj h).symm

theorem Record.entry?_ok {record : Record} {result : Option String}
    (bound : ∀ label, symbols.get? label = (addressOf? table lines label).map Nat.cast)
    (h : record.entry? table symbols = .ok result) :
    result = if record.hasOperand then
        (table.get? record.mnemonic).map fun code => code ++ operandText table lines record.operand
      else none := by
  unfold Record.entry? at h
  split_ifs at h ⊢ with operand
  · cases code : table.get? record.mnemonic with
    | none =>
      rw [code] at h
      exact (Except.ok.inj h).symm
    | some code' =>
      rw [code] at h
      obtain ⟨text, resolved, h⟩ := bind_ok h
      rw [pure_ok h, resolve_ok (bound _) resolved]
      rfl
  · exact (Except.ok.inj h).symm

/-- The code that a record is written with, if it has both a code and an operand. -/
def Record.code? (table : OpcodeTable) (record : Record) : Option String :=
  if record.hasOperand then table.get? record.mnemonic else none

theorem Record.entry?_eq (table : OpcodeTable) (symbols : SymbolTable) (record : Record) :
    record.entry? table symbols =
      match record.code? table with
      | none => .ok none
      | some code => (resolve symbols record.operand).map fun text => some (code ++ text) := by
  unfold Record.entry? Record.code?
  split_ifs
  · cases table.get? record.mnemonic with
    | none => rfl
    | some code => cases resolve symbols record.operand <;> rfl
  · rfl

theorem Record.exists_code_of_entry? {record : Record} {entry : String}
    (given : record.entry? table symbols = .ok (some entry)) :
    ∃ code text, table.get? record.mnemonic = some code ∧
      resolve symbols record.operand = .ok text ∧ entry = code ++ text := by
  rw [entry?_eq] at given
  cases coded : record.code? table with
  | none =>
    rw [coded] at given
    cases given
  | some code =>
    rw [coded] at given
    cases resolved : resolve symbols record.operand with
    | error failure =>
      rw [resolved] at given
      cases given
    | ok text =>
      rw [resolved] at given
      unfold code? at coded
      split_ifs at coded
      exact ⟨code, text, coded, rfl, (Option.some.inj (Except.ok.inj given)).symm⟩

/-! ### All entries -/

theorem SourceLine.entry?_of_not_occupies {line : SourceLine} (absent : ¬line.Occupies table) :
    line.entry? table lines = none := by
  unfold entry?
  split_ifs with given
  · have unknown : line.mnemonic ∉ table.keys := by
      intro known
      exact absent (Or.inr ⟨given.2.1, given.1, known⟩)
    rw [table.get?_eq_none_iff.mpr unknown, Option.map_none]
  · rfl

theorem entries_of_recordsOf (lines : List SourceLine) :
    ((recordsOf table lines).filterMap fun record =>
      if record.hasOperand then
        (table.get? record.mnemonic).map fun code => code ++ operandText table lines record.operand
      else none) = lines.filterMap (SourceLine.entry? table lines) := by
  -- Both sides run over the same lines; on the right the addresses have been forgotten.
  conv_rhs =>
    arg 2
    rw [← map_fst_located table lines]
  rw [recordsOf, List.filterMap_map, List.filterMap_map, List.filterMap_filter]
  congr 1
  funext entry
  by_cases occupies : entry.1.Occupies table
  · simp [occupies, occupies.mnemonic_ne_start, SourceLine.entry?, SourceLine.recordAt, Record.hasOperand]
  · simp [occupies, SourceLine.entry?_of_not_occupies occupies]

namespace ObjectProgram

theorem build_ok {records : List Record} {start : Option Int} {name : String}
    {program : ObjectProgram} (h : build records symbols table start name = .ok program) :
    ∃ address entries, start = some address ∧
      records.mapM (Record.entry? table symbols) = .ok entries ∧
      program = { name, start := address, entries := entries.filterMap id } := by
  unfold build at h
  cases start with
  | none => cases h
  | some address =>
    obtain ⟨entries, built, h⟩ := bind_ok h
    exact ⟨address, entries, rfl, built, pure_ok h⟩

end ObjectProgram

theorem assemble_ok {file : String} {source : Source} {program : ObjectProgram}
    (h : assemble table file source = .ok program) :
    ∃ layout lines, Layout.ofSource table file source = .ok layout ∧
      source.read file = .ok lines ∧ layout.Reflects table lines ∧
      layout.object table = .ok program := by
  unfold assemble at h
  obtain ⟨layout, laid, built⟩ := bind_ok h
  obtain ⟨lines, read, reflects⟩ := Layout.reflects_of_ofSource laid
  rw [reflects.kept] at built
  exact ⟨layout, lines, laid, read, reflects, built⟩

/-- The meaning of a program: name and start address from the last `START` that counts, and one
entry for each line whose mnemonic has a code and that has an operand. -/
theorem assemble_reflects_lines {file : String} {source : Source} {program : ObjectProgram}
    (assembled : assemble table file source = .ok program) :
    ∃ lines, source.read file = .ok lines ∧
      (∃ before line after address, lines = before ++ line :: after ∧
        line.origin? = some address ∧ (∀ later ∈ after, later.origin? = none) ∧
        program.name = line.label ∧ program.start = (address : Nat)) ∧
      program.entries = lines.filterMap (SourceLine.entry? table lines) := by
  obtain ⟨layout, lines, _, read, reflects, built⟩ := assemble_ok assembled
  obtain ⟨start, results, started, mapped, rfl⟩ := ObjectProgram.build_ok built
  refine ⟨lines, read, ?_, ?_⟩
  · rw [reflects.start, Option.map_eq_some_iff] at started
    obtain ⟨address, found, rfl⟩ := started
    obtain ⟨before, line, after, split, origin, fresh, name⟩ := exists_split_of_startOf found
    exact ⟨before, line, after, address, split, origin, fresh, reflects.name.trans name, rfl⟩
  · rw [mapM_eq_map (fun _ _ => Record.entry?_ok reflects.get?_symbols) mapped, List.filterMap_map,
      reflects.records, List.filterMap_append, ← entries_of_recordsOf]
    simp [Record.finish, Record.hasOperand]

theorem assemble_reflects_forward_references :
    ∃ program, assemble Layout.oneInstruction unnamedSource
        (.lines [.text "P START 10", .text "A ADD B", .text " ADD 17", .text " ADD ?",
          .text "B NOP", .text "B WORD", .text "A ADD A"]) = .ok program ∧
      program.entries = ["180019", "180011", "180000", "18001C"] := by
  refine (exists_ok (by decide +kernel)).imp fun program assembled => ⟨assembled, ?_⟩
  obtain ⟨lines, read, _, entries⟩ := assemble_reflects_lines assembled
  obtain rfl := Except.ok.inj (read.symm.trans rfl)
  exact entries.trans (by decide +kernel)

end SicAssembler
