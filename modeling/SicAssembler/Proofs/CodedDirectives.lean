import SicAssembler.Proofs.Entries

/-!
Directives that the opcode table has a code for. The first pass puts directives before the table,
the second asks the table alone, so the two differ on what an instruction is: exactly on the
directives that have both a code and an operand (`encodes_coded_records`).
-/

namespace SicAssembler

variable {table : OpcodeTable} {lines : List SourceLine} {symbols : SymbolTable}

/-- A record that gives an entry. -/
def Record.Encoded (table : OpcodeTable) (symbols : SymbolTable) (record : Record) : Prop :=
  ∃ entry, record.entry? table symbols = .ok (some entry)

theorem Operation.classify_eq_instruction_iff (table : OpcodeTable) (mnemonic : String) :
    Operation.classify table mnemonic = .instruction ↔
      mnemonic ∉ ["START", "RESW", "RESB", "BYTE", "WORD"] ∧ mnemonic ≠ "" ∧
        mnemonic ∈ table.keys := by
  rw [Operation.classify_eq]
  split_ifs <;> simp_all

namespace Layout

variable {layout : Layout} {record : Record}

theorem hasOperand_iff (reflects : layout.Reflects table lines) (member : record ∈ layout.records) :
    record.hasOperand = true ↔ record.operand ≠ "" := by
  rcases reflects.record_cases member with ⟨_, line, _, _, occupies, rfl⟩ | rfl
  · simp [Record.hasOperand, SourceLine.recordAt, occupies.mnemonic_ne_empty]
  · simp [Record.hasOperand, Record.finish]

theorem mem_keys_iff_of_record (reflects : layout.Reflects table lines)
    (member : record ∈ layout.records) (operand : record.operand ≠ "") :
    record.mnemonic ∈ table.keys ↔
      Operation.classify table record.mnemonic = .instruction ∨
        record.mnemonic ∈ ["RESW", "RESB", "BYTE", "WORD"] ∧ record.mnemonic ∈ table.keys := by
  rw [Operation.classify_eq_instruction_iff]
  rcases reflects.record_cases member with ⟨_, line, _, _, occupies, rfl⟩ | rfl
  · have other := occupies.mnemonic_ne_start
    have present := occupies.mnemonic_ne_empty
    change line.mnemonic ∈ table.keys ↔ line.mnemonic ∉ "START" :: _ ∧ _ ∨ line.mnemonic ∈ _ ∧ _
    rw [List.mem_cons, or_iff_right other]
    tauto
  · exact (operand rfl).elim

theorem isSome_entry?_iff (reflects : layout.Reflects table lines)
    (member : record ∈ layout.records) {result : Option String}
    (h : record.entry? table layout.symbols = .ok result) :
    result.isSome = true ↔ record.operand ≠ "" ∧ record.mnemonic ∈ table.keys := by
  have given := Record.entry?_ok reflects.get?_symbols h
  rw [← hasOperand_iff reflects member, ← table.get?_isSome_iff, given]
  split_ifs with operand
  · simp [operand]
  · simp [operand]

theorem encoded_iff (reflects : layout.Reflects table lines) (member : record ∈ layout.records)
    {result : Option String} (h : record.entry? table layout.symbols = .ok result) :
    record.Encoded table layout.symbols ↔
      record.operand ≠ "" ∧ record.mnemonic ∈ table.keys := by
  rw [← isSome_entry?_iff reflects member h, Record.Encoded, h, Option.isSome_iff_exists]
  simp

end Layout

/-- The records that give an entry are those with an operand whose mnemonic has a code, be it the
mnemonic of an instruction or of a directive. So the second pass takes exactly the instructions of
the first if and only if no directive with a code has an operand. -/
theorem encodes_coded_records {file : String} {source : Source} {program : ObjectProgram}
    (assembled : assemble table file source = .ok program) :
    ∃ layout, Layout.ofSource table file source = .ok layout ∧
      List.Forall₂ (fun record entry => record.entry? table layout.symbols = .ok (some entry))
        (layout.records.filter fun record =>
          record.operand ≠ "" ∧ record.mnemonic ∈ table.keys) program.entries ∧
      (∀ record ∈ layout.records, record.Encoded table layout.symbols ↔
        record.operand ≠ "" ∧ (Operation.classify table record.mnemonic = .instruction ∨
          record.mnemonic ∈ ["RESW", "RESB", "BYTE", "WORD"] ∧ record.mnemonic ∈ table.keys)) ∧
      ((∀ record ∈ layout.records, record.Encoded table layout.symbols ↔
          Operation.classify table record.mnemonic = .instruction ∧ record.operand ≠ "") ↔
        ∀ record ∈ layout.records, record.mnemonic ∈ ["RESW", "RESB", "BYTE", "WORD"] →
          record.mnemonic ∈ table.keys → record.operand = "") := by
  obtain ⟨layout, lines, laid, _, reflects, built⟩ := assemble_ok assembled
  obtain ⟨start, results, _, mapped, rfl⟩ := ObjectProgram.build_ok built
  have encoded : ∀ record ∈ layout.records, record.Encoded table layout.symbols ↔
      record.operand ≠ "" ∧ record.mnemonic ∈ table.keys := by
    intro record member
    obtain ⟨result, entry⟩ := mapM_ok_mem_left mapped member
    exact Layout.encoded_iff reflects member entry
  refine ⟨layout, laid, forall₂_filterMap_of_mapM ?_ mapped, ?_, ?_, ?_⟩
  · intro record member result entry
    exact Layout.isSome_entry?_iff reflects member entry
  · intro record member
    rw [encoded record member]
    exact and_congr_right (Layout.mem_keys_iff_of_record reflects member)
  · intro agree record member directive known
    by_contra operand
    have instruction := ((agree record member).mp ((encoded record member).mpr ⟨operand, known⟩)).1
    rw [Operation.classify_eq_instruction_iff] at instruction
    exact instruction.1 (List.mem_cons_of_mem _ directive)
  · intro silent record member
    rw [encoded record member]
    constructor
    · rintro ⟨operand, known⟩
      rcases (Layout.mem_keys_iff_of_record reflects member operand).mp known with
        instruction | ⟨directive, _⟩
      · exact ⟨instruction, operand⟩
      · exact (operand (silent record member directive known)).elim
    · rintro ⟨instruction, operand⟩
      exact ⟨operand, ((Operation.classify_eq_instruction_iff table _).mp instruction).2.2⟩

def codedWord : OpcodeTable := .ofList [("ADD", "18"), ("WORD", "FF")]

theorem encodes_coded_records_of_bare_word :
    ∃ program, assemble codedWord unnamedSource
        (.lines [.text "P START 10", .text "A ADD A", .text "B WORD"]) = .ok program ∧
      ∃ layout, Layout.ofSource codedWord unnamedSource
          (.lines [.text "P START 10", .text "A ADD A", .text "B WORD"]) = .ok layout ∧
        ∀ record ∈ layout.records, record.Encoded codedWord layout.symbols ↔
          Operation.classify codedWord record.mnemonic = .instruction ∧ record.operand ≠ "" := by
  refine (exists_ok (by decide +kernel)).imp fun program assembled => ⟨assembled, ?_⟩
  obtain ⟨layout, laid, _, _, agree⟩ := encodes_coded_records assembled
  refine ⟨layout, laid, agree.mpr (of_decide_eq_true ?_)⟩
  exact value_of_ok laid (fun layout => decide (∀ record ∈ layout.records,
    record.mnemonic ∈ ["RESW", "RESB", "BYTE", "WORD"] → record.mnemonic ∈ codedWord.keys →
      record.operand = "")) (by decide +kernel)

/-- The second pass does not put directives before the table: a word with a code and an operand
gives an entry, though it is no instruction. -/
theorem word_with_code_is_encoded :
    ∃ program layout record, assemble codedWord unnamedSource
        (.text "P START 10\nA WORD 5") = .ok program ∧
      Layout.ofSource codedWord unnamedSource (.text "P START 10\nA WORD 5") = .ok layout ∧
      record ∈ layout.records ∧ record.Encoded codedWord layout.symbols ∧
      Operation.classify codedWord record.mnemonic = .word ∧ program.entries = ["FF0005"] := by
  obtain ⟨program, assembled⟩ := exists_ok
    (x := assemble codedWord unnamedSource (.text "P START 10\nA WORD 5"))
    (by decide +kernel)
  obtain ⟨layout, laid⟩ := exists_ok
    (x := Layout.ofSource codedWord unnamedSource (.text "P START 10\nA WORD 5"))
    (by decide +kernel)
  refine ⟨program, layout, ⟨0x10, "A", "WORD", "5", false, 2⟩, assembled, laid, ?_, ⟨"FF0005", ?_⟩,
    rfl, ?_⟩
  · exact of_decide_eq_true (value_of_ok laid
      (fun layout => decide (⟨0x10, "A", "WORD", "5", false, 2⟩ ∈ layout.records)) (by decide +kernel))
  · exact value_of_ok laid (fun layout =>
      Record.entry? codedWord layout.symbols ⟨0x10, "A", "WORD", "5", false, 2⟩) (by decide +kernel)
  · exact value_of_ok assembled ObjectProgram.entries (by decide +kernel)

end SicAssembler
