import SicAssembler.Proofs.DefinitionLines

/-!
Opcode tables and their texts. A table is read back from what was written for it exactly if its
mnemonics and codes are single words, of which only a mnemonic may be empty (`Writable`); every table
that was read is of that kind (`writable_parse`). Reading two texts one after the other updates the
table of the first by that of the second, since only what is left of a text's definitions counts
(`OrderedMap.insertAll_entries_ofList`).
-/

namespace SicAssembler.OpcodeTable

variable {table : OpcodeTable} {mnemonic code : String}

/-- A table that its text determines: no blank in a mnemonic or a code, and no empty code. -/
def Writable (table : OpcodeTable) : Prop :=
  ∀ entry ∈ table.entries, Unbroken entry.1 ∧ Unbroken entry.2 ∧ entry.2 ≠ ""

/-! ### Writing and reading -/

/-- A mnemonic and a code with a space between them are read back, an empty mnemonic too. -/
theorem definition?_written (mnemonic_unbroken : Unbroken mnemonic) (code_unbroken : Unbroken code)
    (present : code ≠ "") : definition? (mnemonic ++ " " ++ code) = some (mnemonic, code) := by
  refine definition?_eq_some_iff.mpr
    ⟨" ", "", ?_, mnemonic_unbroken, ⟨?_, by simp⟩, ⟨code_unbroken, present⟩, ?_⟩
  · rw [String.append_empty]
  · exact List.forall_mem_singleton.mpr rfl
  · intro c member
    cases member

theorem lines_text (writable : table.Writable) :
    Text.lines table.text = table.entries.map (fun entry => entry.1 ++ " " ++ entry.2) ++ [""] := by
  apply Text.lines_unlines
  intro line member
  obtain ⟨entry, present, rfl⟩ := List.mem_map.mp member
  obtain ⟨mnemonic_unbroken, code_unbroken, _⟩ := writable entry present
  have parts : (entry.1 ++ " " ++ entry.2).toList =
      entry.1.toList ++ ' ' :: entry.2.toList := by simp
  rw [parts, List.mem_append, List.mem_cons, not_or, not_or]
  exact ⟨mnemonic_unbroken.not_mem rfl, by decide, code_unbroken.not_mem rfl⟩

theorem definitions_text (writable : table.Writable) : definitions table.text = table.entries := by
  have last : definition? "" = none := by decide +kernel
  rw [definitions, lines_text writable, List.filterMap_append, List.filterMap_map,
    List.filterMap_cons_none last, List.filterMap_nil, List.append_nil]
  refine (List.filterMap_congr fun entry present => ?_).trans List.filterMap_some
  obtain ⟨mnemonic_unbroken, code_unbroken, nonempty⟩ := writable entry present
  exact definition?_written mnemonic_unbroken code_unbroken nonempty

theorem parse_text (writable : table.Writable) : parse table.text = table := by
  rw [parse, definitions_text writable, OrderedMap.ofList_entries]

/-- Whatever a table was read from, its mnemonics and codes are fields of lines. -/
theorem writable_parse (text : String) : (parse text).Writable := by
  intro entry member
  obtain ⟨line, _, gap, tail, _, unbroken, _, code, _⟩ :=
    mem_definitions_iff.mp (OrderedMap.mem_of_mem_ofList member)
  exact ⟨unbroken, code⟩

/-- A table is found again in its text, in the same order, exactly if its mnemonics and codes are
single words and no code is empty. All tables that are read are such, so reading what was written
for a table that was read gives this table. -/
theorem text_determines_table :
    (∀ table : OpcodeTable, (parse table.text).entries = table.entries ↔ table.Writable) ∧
      ∀ text, (parse text).Writable ∧ parse (parse text).text = parse text := by
  refine ⟨fun table => ⟨fun same => ?_, fun writable => ?_⟩, fun text => ?_⟩
  · have read := writable_parse table.text
    rwa [Writable, same] at read
  · rw [parse_text writable]
  · have read := writable_parse text
    exact ⟨read, parse_text read⟩

example : (parse (text (.ofList [("", "18"), ("ADD", "1C")]))).entries =
    [("", "18"), ("ADD", "1C")] := by decide +kernel

/-! ### One text after another -/

/-- One text after another gives the first one's table updated by the second's: the mnemonics of
the first keep their places, a code of the second replaces one of the first, and the new mnemonics
of the second follow in their order. -/
theorem parse_join_updates (a b : String) :
    parse (a ++ "\n" ++ b) = (parse a).insertAll (parse b).entries ∧
      (parse (a ++ "\n" ++ b)).entries =
        (parse a).entries.map (fun entry => (entry.1, ((parse b).get? entry.1).getD entry.2)) ++
          (parse b).entries.filter fun entry => entry.1 ∉ (parse a).keys := by
  have joined : parse (a ++ "\n" ++ b) = (parse a).insertAll (parse b).entries := by
    rw [parse_join, ← OrderedMap.insertAll_entries_ofList]
    rfl
  refine ⟨joined, ?_⟩
  rw [joined, OrderedMap.entries_insertAll_entries]

end SicAssembler.OpcodeTable
