import SicAssembler.Proofs.Fields
import SicAssembler.Proofs.Symbols

/-!
Layouts as text. A report shows the symbols and the records of a layout, each on a line of words
joined by spaces. Labels, mnemonics and operands are fields of lines, so they are words, if perhaps
empty ones; the end has two words and every other record four (`Record.ofText?_text`), and no
symbol has the empty line that ends the symbols. So a report tells all that it shows
(`Layout.report_determines_layout`).
-/

namespace SicAssembler

/-! ### Lines of a report -/

namespace Record

variable {record : Record}

/-- What a report shows of a record: all but the number of its line. -/
def shown (record : Record) : Int × String × String × String × Bool :=
  (record.address, record.label, record.mnemonic, record.operand, record.isEnd)

def ofText? (line : String) : Option (Int × String × String × String × Bool) :=
  match Text.pieces ' ' line with
  | [address, _] => (Text.hexValue? address).map fun n : Nat => (n, "", "", "", true)
  | [address, label, mnemonic, operand] =>
    (Text.hexValue? address).map fun n : Nat => (n, label, mnemonic, operand, false)
  | _ => none

structure Legible (record : Record) : Prop where
  address : ∃ n : Nat, record.address = n
  label : Unbroken record.label
  mnemonic : Unbroken record.mnemonic
  operand : Unbroken record.operand
  bare : record.isEnd = true → record.label = "" ∧ record.mnemonic = "" ∧ record.operand = ""

def words (record : Record) : List String :=
  if record.isEnd then [addressText record.address, endMnemonic]
  else [addressText record.address, record.label, record.mnemonic, record.operand]

theorem text_eq (record : Record) : record.text = " ".intercalate record.words := by
  unfold text words
  split_ifs
  · simp
  · rfl

theorem Legible.unbroken_words (legible : record.Legible) :
    ∀ word ∈ record.words, Unbroken word := by
  obtain ⟨n, place⟩ := legible.address
  have address : Unbroken (addressText record.address) := by
    rw [place]
    exact unbroken_hex 4 n
  unfold words
  split_ifs
  · simp only [List.forall_mem_cons]
    exact ⟨address, by decide, by simp⟩
  · simp only [List.forall_mem_cons]
    exact ⟨address, legible.label, legible.mnemonic, legible.operand, by simp⟩

theorem words_ne_nil (record : Record) : record.words ≠ [] := by
  unfold words
  split_ifs <;> simp

theorem Legible.ofText?_text (legible : record.Legible) :
    ofText? record.text = some record.shown := by
  obtain ⟨n, place⟩ := legible.address
  have value : Text.hexValue? (addressText n) = some n := Text.hexValue?_hex 4 n
  rw [ofText?, text_eq, pieces_of_unbroken legible.unbroken_words record.words_ne_nil, words]
  cases ending : record.isEnd with
  | true =>
    obtain ⟨label, mnemonic, operand⟩ := legible.bare ending
    simp only [if_true, value, Option.map_some, shown, place, label, mnemonic, operand, ending]
  | false =>
    simp only [Bool.false_eq_true, if_false, value, Option.map_some, shown, place, ending]

end Record

namespace SymbolTable

def line (entry : String × Int) : String :=
  entry.1 ++ ": " ++ addressText entry.2

def ofLine? (text : String) : Option (String × Int) :=
  match Text.pieces ' ' text with
  | [label, address] =>
    (Text.hexValue? address).map fun n : Nat => (String.ofList label.toList.dropLast, n)
  | _ => none

theorem line_eq (entry : String × Int) :
    line entry = " ".intercalate [entry.1 ++ ":", addressText entry.2] := by
  simp [line, ← String.toList_inj]

theorem unbroken_lineWords {label : String} (unbroken : Unbroken label) (n : Nat) :
    ∀ word ∈ [label ++ ":", addressText n], Unbroken word := by
  simp only [List.forall_mem_cons]
  refine ⟨?_, unbroken_hex 4 n, by simp⟩
  intro c member
  rw [String.toList_append] at member
  rcases List.mem_append.mp member with own | colon
  · exact unbroken c own
  · rw [List.mem_singleton.mp colon]
    rfl

theorem line_ne_empty (entry : String × Int) : line entry ≠ "" := by
  simp [line]

theorem ofLine?_line {label : String} (unbroken : Unbroken label) (n : Nat) :
    ofLine? (line (label, n)) = some (label, (n : Int)) := by
  have value : Text.hexValue? (addressText n) = some n := Text.hexValue?_hex 4 n
  rw [ofLine?, line_eq, pieces_of_unbroken (unbroken_lineWords unbroken n) (by simp)]
  simp [value]

end SymbolTable

/-! ### Whole reports -/

namespace Layout

variable {table : OpcodeTable} {file : String} {source : Source} {layout : Layout}

def reportLines (layout : Layout) : List String :=
  "Symbol Table:" :: (layout.symbols.entries.map SymbolTable.line
    ++ "" :: "" :: "Intermediate Code:" :: layout.records.map Record.text)

theorem report_eq (layout : Layout) : layout.report = Text.unlines layout.reportLines := by
  have symbols : layout.symbols.text = Text.unlines (layout.symbols.entries.map SymbolTable.line) :=
    rfl
  change "Symbol Table:\n" ++ layout.symbols.text ++ "\n\nIntermediate Code:\n"
    ++ Text.unlines (layout.records.map Record.text) = _
  rw [reportLines, symbols, Text.unlines_cons, Text.unlines_append, Text.unlines_cons,
    Text.unlines_cons, Text.unlines_cons]
  simp [← String.toList_inj]

structure Legible (layout : Layout) : Prop where
  symbols : ∀ entry ∈ layout.symbols.entries, Unbroken entry.1 ∧ ∃ n : Nat, entry.2 = n
  records : ∀ record ∈ layout.records, record.Legible

theorem legible_of_ofSource (laid : ofSource table file source = .ok layout) : layout.Legible := by
  obtain ⟨lines, read, reflects⟩ := reflects_of_ofSource laid
  constructor
  · intro entry member
    rw [reflects.symbols] at member
    have bound := OrderedMap.mem_of_mem_ofList member
    obtain ⟨place, kept, rfl⟩ := List.mem_map.mp bound
    obtain ⟨before, after, split, _⟩ := exists_split_of_mem_located (List.mem_filter.mp kept).1
    have listed : place.1 ∈ lines := by simp [split]
    exact ⟨(Source.unbroken_of_read read listed).1, place.2, rfl⟩
  · intro record member
    rcases reflects.record_cases member with ⟨before, line, after, split, _, rfl⟩ | rfl
    · have listed : line ∈ lines := by simp [split]
      obtain ⟨label, mnemonic, operand⟩ := Source.unbroken_of_read read listed
      exact ⟨⟨_, rfl⟩, label, mnemonic, operand, fun ending => by cases ending⟩
    · exact ⟨⟨_, rfl⟩, unbroken_empty, unbroken_empty, unbroken_empty, fun _ => ⟨rfl, rfl, rfl⟩⟩

theorem Legible.lines_report (legible : layout.Legible) :
    Text.lines layout.report = layout.reportLines ++ [""] := by
  rw [report_eq]
  apply Text.lines_unlines
  have symbols : ∀ line ∈ layout.symbols.entries.map SymbolTable.line, '\n' ∉ line.toList := by
    rw [List.forall_mem_map]
    intro entry member
    obtain ⟨unbroken, n, address⟩ := legible.symbols entry member
    rw [SymbolTable.line_eq, address]
    exact newline_not_mem_of_unbroken (SymbolTable.unbroken_lineWords unbroken n)
  have records : ∀ line ∈ layout.records.map Record.text, '\n' ∉ line.toList := by
    rw [List.forall_mem_map]
    intro record member
    rw [Record.text_eq]
    exact newline_not_mem_of_unbroken (legible.records record member).unbroken_words
  simp only [reportLines, List.forall_mem_cons, List.forall_mem_append]
  exact ⟨by decide, symbols, by decide, by decide, by decide, records⟩

/-- The first empty line ends the symbols. -/
theorem sections_reportLines (layout : Layout) :
    layout.reportLines.tail.takeWhile (· ≠ "") = layout.symbols.entries.map SymbolTable.line ∧
      layout.reportLines.tail.dropWhile (· ≠ "") =
        "" :: "" :: "Intermediate Code:" :: layout.records.map Record.text := by
  have written : ∀ line ∈ layout.symbols.entries.map SymbolTable.line,
      decide (line ≠ "") = true := by
    rw [List.forall_mem_map]
    intro entry _
    exact decide_eq_true (SymbolTable.line_ne_empty entry)
  rw [reportLines, List.tail_cons, List.takeWhile_append_of_pos written,
    List.dropWhile_append_of_pos written]
  simp

theorem Legible.map_ofLine? (legible : layout.Legible) :
    (layout.symbols.entries.map SymbolTable.line).map SymbolTable.ofLine? =
      layout.symbols.entries.map some := by
  rw [List.map_map, List.map_inj_left]
  rintro ⟨label, address⟩ member
  obtain ⟨unbroken, n, rfl⟩ := legible.symbols _ member
  exact SymbolTable.ofLine?_line unbroken n

theorem Legible.map_ofText? (legible : layout.Legible) :
    (layout.records.map Record.text).map Record.ofText? =
      (layout.records.map Record.shown).map some := by
  rw [List.map_map, List.map_map, List.map_inj_left]
  intro record member
  exact (legible.records record member).ofText?_text

theorem getLast?_records (laid : ofSource table file source = .ok layout) :
    layout.records.getLast? = some (Record.finish layout.counter) := by
  obtain ⟨lines, _, reflects⟩ := reflects_of_ofSource laid
  rw [reflects.records, ← reflects.counter, List.getLast?_concat]

/-- Layouts with the same report have the same symbols in the same order, the same records up to the
numbers of their lines, and the same counter, whatever the programs and the opcode tables. -/
theorem report_determines_layout {table' : OpcodeTable} {file' : String} {source' : Source}
    {other : Layout} (laid : ofSource table file source = .ok layout)
    (other_laid : ofSource table' file' source' = .ok other) (same : layout.report = other.report) :
    layout.symbols.entries = other.symbols.entries ∧
      layout.records.map Record.shown = other.records.map Record.shown ∧
      layout.counter = other.counter := by
  have legible := legible_of_ofSource laid
  have other_legible := legible_of_ofSource other_laid
  have lines : layout.reportLines = other.reportLines := by
    have read := congrArg Text.lines same
    rw [legible.lines_report, other_legible.lines_report] at read
    exact List.append_cancel_right read
  obtain ⟨symbols, records⟩ := sections_reportLines layout
  obtain ⟨other_symbols, other_records⟩ := sections_reportLines other
  rw [lines, other_symbols] at symbols
  rw [lines, other_records] at records
  have shown : layout.records.map Record.shown = other.records.map Record.shown := by
    have texts := (List.cons.inj (List.cons.inj (List.cons.inj records).2).2).2
    have read := congrArg (List.map Record.ofText?) texts
    rw [legible.map_ofText?, other_legible.map_ofText?] at read
    exact (List.map_injective_iff.mpr (fun _ _ => Option.some.inj) read).symm
  refine ⟨?_, shown, ?_⟩
  · have read := congrArg (List.map SymbolTable.ofLine?) symbols
    rw [legible.map_ofLine?, other_legible.map_ofLine?] at read
    exact (List.map_injective_iff.mpr (fun _ _ => Option.some.inj) read).symm
  · -- The last record of either layout is the end, which stands at the counter.
    have last := congrArg List.getLast? shown
    rw [List.getLast?_map, List.getLast?_map, getLast?_records laid, getLast?_records other_laid]
      at last
    exact congrArg Prod.fst (Option.some.inj last)

def silentLine : Source × Source :=
  (.lines [.text "A ADD B", .text "? ADD", .text "B RESB 65536"],
    .lines [.text "* NOTE", .text "A ADD B", .text "? ADD ", .text "B RESB 65536"])

theorem report_determines_layout_of_silentLine :
    ∃ x y, ofSource oneInstruction unnamedSource silentLine.1 = .ok x ∧
      ofSource (OpcodeTable.parse "ADD FF") unnamedSource silentLine.2 = .ok y ∧
      x.report = y.report ∧ x.symbols.entries = [("A", 0), ("B", 6)] ∧
      y.symbols.entries = x.symbols.entries ∧ y.counter = 0x10006 := by
  obtain ⟨x, laid⟩ := exists_ok
    (x := ofSource oneInstruction unnamedSource silentLine.1) (by decide +kernel)
  obtain ⟨y, again⟩ := exists_ok
    (x := ofSource (OpcodeTable.parse "ADD FF") unnamedSource silentLine.2) (by decide +kernel)
  have report : x.report = Text.unlines ["Symbol Table:", "A: 0000", "B: 0006", "", "",
      "Intermediate Code:", "0000 A ADD B", "0003 ? ADD ", "0006 B RESB 65536", "10006 END"] :=
    value_of_ok laid Layout.report (by decide +kernel)
  have same : x.report = y.report :=
    report.trans (value_of_ok again Layout.report (by decide +kernel)).symm
  obtain ⟨symbols, _, counter⟩ := report_determines_layout laid again same
  refine ⟨x, y, laid, again, same, ?_, symbols.symm, counter.symm.trans ?_⟩
  · exact value_of_ok laid (fun layout => layout.symbols.entries) (by decide +kernel)
  · exact value_of_ok laid Layout.counter (by decide +kernel)

end Layout

end SicAssembler
