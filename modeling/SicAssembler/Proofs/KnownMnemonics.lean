import SicAssembler.Proofs.Entries

/-!
What an assembly asks of its opcode table. The first pass asks which mnemonics of the source are in
the table and the second asks for the codes of those, so tables that agree on the mnemonics of a
source (`Source.mnemonics`) lay it out alike and assemble it to the same object program, or fail in
the same way. The empty mnemonic is asked for by neither pass.
-/

namespace SicAssembler

variable {table other : OpcodeTable} {source : Source} {file : String}

theorem mapM_congr {ε α β : Type} {f g : α → Except ε β} {xs : List α}
    (same : ∀ x ∈ xs, f x = g x) : xs.mapM f = xs.mapM g := by
  induction xs with
  | nil => rfl
  | cons x rest ih =>
    have tail := ih fun y member => same y (List.mem_cons_of_mem _ member)
    rw [List.mapM_cons, List.mapM_cons, same x List.mem_cons_self, tail]

/-! ### The mnemonics of a source -/

def LineInput.mnemonic? : LineInput → Option String
  | .text line => some (SourceLine.read unnamedSource 1 line).mnemonic
  | .value _ => none

/-- The mnemonics that stand in a source, the empty one left out. -/
def Source.mnemonics (source : Source) : List String :=
  (source.inputs.filterMap LineInput.mnemonic?).filter (· ≠ "")

theorem Source.mem_mnemonics {text : String} (present : .text text ∈ source.inputs) (number : Int)
    (named : (SourceLine.read file number text).mnemonic ≠ "") :
    (SourceLine.read file number text).mnemonic ∈ source.mnemonics := by
  have listed : (SourceLine.read file number text).mnemonic ∈
      source.inputs.filterMap LineInput.mnemonic? :=
    List.mem_filterMap.mpr ⟨.text text, present, rfl⟩
  exact List.mem_filter.mpr ⟨listed, decide_eq_true named⟩

/-! ### The first pass -/

theorem Operation.classify_congr {mnemonic : String}
    (known : mnemonic ≠ "" → (mnemonic ∈ table.keys ↔ mnemonic ∈ other.keys)) :
    classify table mnemonic = classify other mnemonic := by
  have instruction : (mnemonic ≠ "" ∧ mnemonic ∈ table.keys) ↔
      (mnemonic ≠ "" ∧ mnemonic ∈ other.keys) :=
    and_congr_right known
  rw [classify_eq, classify_eq]
  simp only [instruction]

theorem Statement.readAll_congr
    (known : ∀ mnemonic ∈ source.mnemonics, mnemonic ∈ table.keys ↔ mnemonic ∈ other.keys) :
    readAll table file source = readAll other file source := by
  apply mapM_congr
  rintro ⟨input, number⟩ member
  have listed : input ∈ source.inputs := List.fst_mem_of_mem_zipIdx member
  cases input with
  | value typeName => rfl
  | text text =>
    have same : Operation.classify table (SourceLine.read file number text).mnemonic =
        Operation.classify other (SourceLine.read file number text).mnemonic := by
      apply Operation.classify_congr
      intro named
      exact known _ (Source.mem_mnemonics listed number named)
    simp only [read, LineInput.read, ofLine, bind, Except.bind, same]

theorem Layout.ofSource_congr
    (known : ∀ mnemonic ∈ source.mnemonics, mnemonic ∈ table.keys ↔ mnemonic ∈ other.keys) :
    ofSource other file source =
      (ofSource table file source).map fun layout => { layout with table := other } := by
  rw [ofSource, ofSource, Statement.readAll_congr known]
  cases Statement.readAll other file source <;> rfl

/-! ### The second pass -/

theorem Layout.mem_mnemonics_of_record {layout : Layout} (laid : ofSource table file source = .ok layout)
    {record : Record} (member : record ∈ layout.records) (operand : record.hasOperand = true) :
    record.mnemonic ∈ source.mnemonics := by
  obtain ⟨lines, read, reflects⟩ := reflects_of_ofSource laid
  rcases reflects.record_cases member with ⟨before, line, after, split, occupies, rfl⟩ | rfl
  · obtain ⟨text, number, present, rfl⟩ :=
      exists_text_of_mapM_read read (show line ∈ lines by simp [split])
    have listed := Source.mem_mnemonics present number occupies.mnemonic_ne_empty
    simpa only [SourceLine.recordAt] using listed
  · cases operand

theorem Layout.object_congr {layout : Layout} (laid : ofSource table file source = .ok layout)
    {codes codes' : OpcodeTable}
    (coded : ∀ mnemonic ∈ source.mnemonics, codes.get? mnemonic = codes'.get? mnemonic) :
    layout.object codes = layout.object codes' := by
  have entries : layout.records.mapM (Record.entry? codes layout.symbols) =
      layout.records.mapM (Record.entry? codes' layout.symbols) := by
    apply mapM_congr
    intro record member
    unfold Record.entry?
    split_ifs with operand
    · rw [coded _ (mem_mnemonics_of_record laid member operand)]
    · rfl
  unfold object ObjectProgram.build
  rw [entries]

theorem assemble_congr
    (coded : ∀ mnemonic ∈ source.mnemonics, table.get? mnemonic = other.get? mnemonic) :
    assemble other file source = assemble table file source := by
  have known : ∀ mnemonic ∈ source.mnemonics, mnemonic ∈ table.keys ↔ mnemonic ∈ other.keys := by
    intro mnemonic member
    rw [← OrderedMap.get?_isSome_iff, ← OrderedMap.get?_isSome_iff, coded mnemonic member]
  unfold assemble
  rw [Layout.ofSource_congr known]
  cases laid : Layout.ofSource table file source with
  | error failure => rfl
  | ok layout =>
    obtain ⟨_, _, reflects⟩ := Layout.reflects_of_ofSource laid
    change layout.object other = layout.object layout.table
    rw [reflects.kept, Layout.object_congr laid coded]

/-! ### Other tables -/

theorem Source.empty_not_mem_mnemonics : "" ∉ source.mnemonics := by
  intro member
  have named := (List.mem_filter.mp member).2
  cases named

theorem assemble_insertAll {rows : List (String × String)}
    (foreign : ∀ row ∈ rows, row.1 = "" ∨ row.1 ∉ source.mnemonics) :
    assemble (table.insertAll rows) file source = assemble table file source := by
  apply assemble_congr
  intro mnemonic member
  have absent : (OrderedMap.ofList rows).get? mnemonic = none := by
    rw [OrderedMap.get?_eq_none_iff, OrderedMap.keys_ofList, List.mem_eraseDups]
    intro added
    obtain ⟨row, present, rfl⟩ := List.mem_map.mp added
    rcases foreign row present with empty | unused
    · exact Source.empty_not_mem_mnemonics (empty ▸ member)
    · exact unused member
  rw [OrderedMap.get?_insertAll, absent, Option.none_or]

/-- The result of an assembly depends on the mnemonics of the source alone: on which of them are in
the table, and on their codes. -/
theorem assembles_by_own_mnemonics (table : OpcodeTable) (file : String) (source : Source) :
    (∀ other : OpcodeTable,
      (∀ mnemonic ∈ source.mnemonics, mnemonic ∈ table.keys ↔ mnemonic ∈ other.keys) →
      Layout.ofSource other file source =
          (Layout.ofSource table file source).map (fun layout => { layout with table := other }) ∧
        ((∀ mnemonic ∈ source.mnemonics, mnemonic ∈ table.keys →
            other.get? mnemonic = table.get? mnemonic) →
          (∀ x y, Layout.ofSource table file source = .ok x →
            Layout.ofSource other file source = .ok y → y.object y.table = x.object x.table) ∧
          assemble other file source = assemble table file source)) ∧
    (∀ rows : List (String × String),
      (∀ row ∈ rows, row.1 = "" ∨ row.1 ∉ source.mnemonics) →
      assemble (table.insertAll rows) file source = assemble table file source) ∧
    (∀ definitions added : String,
      (∀ row ∈ OpcodeTable.definitions added, row.1 = "" ∨ row.1 ∉ source.mnemonics) →
      assemble (.parse (definitions ++ "\n" ++ added)) file source =
        assemble (.parse definitions) file source) ∧
    ∀ other : OpcodeTable, other.entries.Perm table.entries →
      assemble other file source = assemble table file source := by
  refine ⟨?_, fun rows => assemble_insertAll, ?_, ?_⟩
  · intro other known
    refine ⟨Layout.ofSource_congr known, fun given => ?_⟩
    have coded : ∀ mnemonic ∈ source.mnemonics, table.get? mnemonic = other.get? mnemonic := by
      intro mnemonic member
      by_cases present : mnemonic ∈ table.keys
      · exact (given mnemonic member present).symm
      · have missing := mt (known mnemonic member).mpr present
        rw [table.get?_eq_none_iff.mpr present, other.get?_eq_none_iff.mpr missing]
    have same : assemble other file source = assemble table file source := assemble_congr coded
    refine ⟨fun x y laid laid_other => ?_, same⟩
    rwa [assemble, assemble, laid, laid_other] at same
  · intro definitions added foreign
    rw [OpcodeTable.parse_join]
    exact assemble_insertAll foreign
  · intro other same
    apply assemble_congr
    intro mnemonic _
    exact OrderedMap.get?_of_perm same.symm mnemonic

/-- A program with an instruction, a line of nothing but a label, a mnemonic that no table has and a
directive. -/
def mixedProgram : Source :=
  .text "P START 10\nA ADD A\nB\n FOO A\nC WORD 7"

theorem assembles_by_own_mnemonics_of_mixedProgram :
    (OpcodeTable.parse " STRAY\nSUB 1C\nADD 18").get? "" = some "STRAY" ∧
      assemble (.parse " STRAY\nSUB 1C\nADD 18") unnamedSource mixedProgram =
        .ok { name := "P", start := 0x10, entries := ["180010"] } ∧
      assemble (.parse "ADD 18\n STRAY\nSUB 1C") unnamedSource mixedProgram =
        .ok { name := "P", start := 0x10, entries := ["180010"] } := by
  have plain : assemble (.parse "ADD 18") unnamedSource mixedProgram =
      .ok { name := "P", start := 0x10, entries := ["180010"] } := by decide +kernel
  obtain ⟨by_table, _, by_rows, _⟩ :=
    assembles_by_own_mnemonics (.parse "ADD 18") unnamedSource mixedProgram
  obtain ⟨_, coded⟩ := by_table (.parse " STRAY\nSUB 1C\nADD 18") (by decide +kernel)
  obtain ⟨_, same⟩ := coded (by decide +kernel)
  have more := by_rows "ADD 18" " STRAY\nSUB 1C" (by decide +kernel)
  exact ⟨by decide +kernel, same.trans plain, more.trans plain⟩

end SicAssembler
