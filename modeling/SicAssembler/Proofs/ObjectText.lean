import SicAssembler.Proofs.Entries
import SicAssembler.Proofs.TableTexts

/-!
Object programs as text. The records are words joined by spaces, and no word of an assembled program
holds a blank: the name is a field of a line, and an entry is a field of the opcode table and a
numeral (`legible_of_assembled`). So the text falls apart into the same words again, whatever the
name is, and the program can be read off it (`ofText?_text`).
-/

namespace SicAssembler

namespace ObjectProgram

variable {program : ObjectProgram}

/-! ### Records as words -/

theorem stripSeparator_append (record : String) : stripSeparator (record ++ "^ ") = record := by
  have reversed : (record ++ "^ ").toList.reverse = ' ' :: '^' :: record.toList.reverse := by simp
  unfold stripSeparator
  rw [reversed]
  simp

def headerWords (program : ObjectProgram) : List String :=
  ["H", "^", program.name, "^", program.startText]

def textWords (program : ObjectProgram) : List String :=
  ["T", "^", program.startText, "^", Text.hex 2 program.textLength, "^"]

theorem headerRecord_eq (program : ObjectProgram) :
    program.headerRecord = " ".intercalate program.headerWords := by
  simp [headerRecord, headerWords, ← String.toList_inj]

theorem endRecord_eq (program : ObjectProgram) :
    program.endRecord = " ".intercalate ["E", "^", program.startText] := by
  simp [endRecord, ← String.toList_inj]

/-- The text record with its end, and without. -/
theorem textRecord?_eq (some : program.entries ≠ []) :
    program.textRecord? true =
        .some ("T ^ " ++ program.startText ++ " ^ " ++ Text.hex 2 program.textLength ++ " ^ "
          ++ "^".intercalate program.entries) ∧
      program.textRecord? false =
        .some ("T ^ " ++ program.startText ++ " ^ " ++ Text.hex 2 program.textLength ++ " ^ "
          ++ "^".intercalate program.entries ++ "^ ") := by
  have body : String.join (program.entries.map (· ++ "^")) =
      "^".intercalate program.entries ++ "^" := by
    rw [Text.join_terminated, Text.intercalate_concat_empty _ some]
  have ends : ∀ record : String, record ++ "^" ++ " " = record ++ "^ " := by
    intro record
    rw [String.append_assoc]
    rfl
  have present : program.entries.isEmpty = false := by simpa using some
  unfold textRecord?
  simp only [present, body, ← String.append_assoc, ends, stripSeparator_append, if_true]
  exact ⟨rfl, rfl⟩

/-- What stands in the text record after the words before the entries. -/
def entryWords (program : ObjectProgram) (strip : Bool) : List String :=
  if strip then ["^".intercalate program.entries]
  else ["^".intercalate (program.entries ++ [""]), ""]

theorem textRecord?_eq_words (some : program.entries ≠ []) (strip : Bool) :
    program.textRecord? strip =
      .some (" ".intercalate (program.textWords ++ program.entryWords strip)) := by
  obtain ⟨stripped, whole⟩ := textRecord?_eq some
  cases strip with
  | true =>
    rw [stripped]
    simp [textWords, entryWords, ← String.toList_inj]
  | false =>
    rw [whole]
    simp [textWords, entryWords, Text.intercalate_concat_empty _ some, ← String.toList_inj]

/-! ### Reading a text back -/

def heading? (record : String) : Option (String × Nat) :=
  match Text.pieces ' ' record with
  | [_, _, name, _, start] => (Text.hexValue? start).map (Prod.mk name)
  | _ => none

def entriesOf (record : String) : List String :=
  (Text.pieces '^' ((Text.pieces ' ' record)[6]?.getD "")).filter (· ≠ "")

/-- The program that a text is of, with or without a separator at the end of its entries. -/
def ofText? (text : String) : Option ObjectProgram :=
  match Text.lines text with
  | [header, _, _] => (heading? header).map fun (name, start) => { name, start }
  | [header, record, _, _] =>
    (heading? header).map fun (name, start) => { name, start, entries := entriesOf record }
  | _ => none

structure Legible (program : ObjectProgram) : Prop where
  name : Unbroken program.name
  start : ∃ n : Nat, program.start = n
  entries : ∀ entry ∈ program.entries, Unbroken entry ∧ entry ≠ "" ∧ '^' ∉ entry.toList

namespace Legible

theorem unbroken_startText (legible : program.Legible) : Unbroken program.startText := by
  obtain ⟨n, start⟩ := legible.start
  rw [startText, start]
  exact unbroken_hex 6 n

theorem unbroken_headerWords (legible : program.Legible) :
    ∀ word ∈ program.headerWords, Unbroken word := by
  have start := legible.unbroken_startText
  simp only [headerWords, List.forall_mem_cons]
  exact ⟨by decide, by decide, legible.name, by decide, start, by simp⟩

theorem unbroken_textWords (legible : program.Legible) :
    ∀ word ∈ program.textWords, Unbroken word := by
  have start := legible.unbroken_startText
  simp only [textWords, List.forall_mem_cons]
  exact ⟨by decide, by decide, start, by decide, unbroken_hex 2 _, by decide, by simp⟩

theorem unbroken_entryWords (legible : program.Legible) (strip : Bool) :
    ∀ word ∈ program.entryWords strip, Unbroken word := by
  have mark : Unbroken "^" := by decide
  have entries : ∀ entry ∈ program.entries, Unbroken entry :=
    fun entry member => (legible.entries entry member).1
  cases strip with
  | true =>
    simp only [entryWords, if_true, List.forall_mem_singleton]
    exact unbroken_intercalate mark entries
  | false =>
    simp only [entryWords, Bool.false_eq_true, if_false, List.forall_mem_cons]
    refine ⟨unbroken_intercalate mark (List.forall_mem_append.mpr ⟨entries, ?_⟩), unbroken_empty,
      by simp⟩
    exact List.forall_mem_singleton.mpr unbroken_empty

theorem heading?_headerRecord (legible : program.Legible) {n : Nat} (start : program.start = n) :
    heading? program.headerRecord = some (program.name, n) := by
  have pieces := pieces_of_unbroken legible.unbroken_headerWords (by simp [headerWords])
  rw [heading?, headerRecord_eq, pieces, headerWords, startText, start]
  simp only [Text.hexValue?_hex, Option.map_some]

theorem entriesOf_textRecord (legible : program.Legible) (some : program.entries ≠ [])
    (strip : Bool) :
    entriesOf (" ".intercalate (program.textWords ++ program.entryWords strip)) =
      program.entries := by
  have unbroken : ∀ word ∈ program.textWords ++ program.entryWords strip, Unbroken word :=
    List.forall_mem_append.mpr ⟨legible.unbroken_textWords, legible.unbroken_entryWords strip⟩
  have absent : ∀ entry ∈ program.entries, '^' ∉ entry.toList :=
    fun entry member => (legible.entries entry member).2.2
  have kept : program.entries.filter (· ≠ "") = program.entries := by
    rw [List.filter_eq_self]
    intro entry member
    exact decide_eq_true (legible.entries entry member).2.1
  rw [entriesOf, pieces_of_unbroken unbroken (by simp [textWords])]
  cases strip with
  | true =>
    change (Text.pieces '^' ("^".intercalate program.entries)).filter (· ≠ "") = _
    rw [Text.pieces_intercalate rfl absent some, kept]
  | false =>
    change (Text.pieces '^' ("^".intercalate (program.entries ++ [""]))).filter (· ≠ "") = _
    have absent_rest : ∀ text ∈ program.entries ++ [""], '^' ∉ text.toList :=
      List.forall_mem_append.mpr ⟨absent, List.forall_mem_singleton.mpr (by decide)⟩
    -- The rest after the last separator is empty, and no entry is.
    have dropped : [""].filter (· ≠ "") = [] := by simp
    rw [Text.pieces_intercalate rfl absent_rest (by simp), List.filter_append, kept, dropped,
      List.append_nil]

theorem lines_text (legible : program.Legible) (strip : Bool) :
    Text.lines (program.text strip) = program.records strip ++ [""] := by
  apply Text.lines_unlines
  intro record member
  have end_words : ∀ word ∈ ["E", "^", program.startText], Unbroken word := by
    have start := legible.unbroken_startText
    simp only [List.forall_mem_cons]
    exact ⟨by decide, by decide, start, by simp⟩
  rcases List.mem_append.mp member with front | last
  · rcases List.mem_cons.mp front with rfl | inner
    · rw [headerRecord_eq]
      exact newline_not_mem_of_unbroken legible.unbroken_headerWords
    · by_cases some : program.entries = []
      · simp [textRecord?, some] at inner
      · rw [textRecord?_eq_words some strip, Option.toList_some, List.mem_singleton] at inner
        rw [inner]
        exact newline_not_mem_of_unbroken (List.forall_mem_append.mpr
          ⟨legible.unbroken_textWords, legible.unbroken_entryWords strip⟩)
  · rw [List.mem_singleton.mp last, endRecord_eq]
    exact newline_not_mem_of_unbroken end_words

theorem ofText?_text (legible : program.Legible) (strip : Bool) :
    ofText? (program.text strip) = some program := by
  obtain ⟨n, start⟩ := legible.start
  have heading := legible.heading?_headerRecord start
  rw [ofText?, legible.lines_text, records]
  by_cases empty : program.entries = []
  · have absent : program.textRecord? strip = none := by simp [textRecord?, empty]
    rw [absent]
    simp only [Option.toList_none, List.cons_append, List.nil_append, heading, Option.map_some]
    rw [← start, ← empty]
  · rw [textRecord?_eq_words empty strip]
    simp only [Option.toList_some, List.cons_append, List.nil_append, heading, Option.map_some,
      legible.entriesOf_textRecord empty]
    rw [← start]

end Legible

end ObjectProgram

/-! ### Assembled programs -/

variable {table : OpcodeTable} {lines : List SourceLine} {symbols : SymbolTable}

theorem unbroken_nameOf (unbroken : ∀ line ∈ lines, Unbroken line.label) :
    Unbroken (nameOf lines) := by
  unfold nameOf
  cases last : (lines.filter fun line => line.origin?.isSome).getLast? with
  | none => exact unbroken_empty
  | some line => exact unbroken line (List.mem_of_mem_filter (List.mem_of_getLast? last))

theorem exists_hex_of_resolve {operand text : String}
    (bound : symbols.get? operand = (addressOf? table lines operand).map Nat.cast)
    (resolved : resolve symbols operand = .ok text) : ∃ n : Nat, text = Text.hex 4 n := by
  rw [resolve_ok bound resolved, operandText]
  cases addressOf? table lines operand with
  | some address => exact ⟨address, rfl⟩
  | none =>
    split_ifs
    · exact ⟨decimalValue operand, rfl⟩
    · exact ⟨0, by decide +kernel⟩

namespace ObjectProgram

/-- A program assembled under a table that was written as text, with no separator in its codes. -/
def Assembled (program : ObjectProgram) : Prop :=
  ∃ definitions file source,
    (∀ mnemonic code, (OpcodeTable.parse definitions).get? mnemonic = some code →
      '^' ∉ code.toList) ∧
    assemble (OpcodeTable.parse definitions) file source = .ok program

/-- A program is legible if no code of its table holds a blank or a separator. -/
theorem legible_of_codes {file : String} {source : Source} {program : ObjectProgram}
    (codes : ∀ mnemonic code, table.get? mnemonic = some code → Unbroken code ∧ '^' ∉ code.toList)
    (assembled : assemble table file source = .ok program) : program.Legible := by
  obtain ⟨layout, lines, _, read, reflects, built⟩ := assemble_ok assembled
  obtain ⟨_, results, started, mapped, rfl⟩ := build_ok built
  rw [reflects.start, Option.map_eq_some_iff] at started
  obtain ⟨start, _, rfl⟩ := started
  refine ⟨?_, ⟨start, rfl⟩, fun entry member => ?_⟩
  · rw [reflects.name]
    exact unbroken_nameOf fun line member => (Source.unbroken_of_read read member).1
  · obtain ⟨result, present, rfl⟩ := List.mem_filterMap.mp member
    obtain ⟨record, _, given⟩ := mapM_ok_mem mapped present
    obtain ⟨code, text, found, resolved, rfl⟩ := Record.exists_code_of_entry? given
    obtain ⟨n, rfl⟩ := exists_hex_of_resolve (reflects.get?_symbols _) resolved
    obtain ⟨code_unbroken, code_plain⟩ := codes record.mnemonic code found
    refine ⟨?_, ?_, ?_⟩
    · intro c inside
      rw [String.toList_append] at inside
      rcases List.mem_append.mp inside with front | back
      · exact code_unbroken c front
      · exact unbroken_hex 4 n c back
    · intro empty
      have none := congrArg String.toList empty
      rw [String.toList_append] at none
      exact Text.toList_hex_ne_nil 4 n (List.append_eq_nil_iff.mp none).2
    · intro inside
      rw [String.toList_append] at inside
      rcases List.mem_append.mp inside with front | back
      · exact code_plain front
      · exact Text.not_mem_hex 4 n (by decide) back

theorem legible_of_assembled {program : ObjectProgram} (assembled : program.Assembled) :
    program.Legible := by
  obtain ⟨definitions, file, source, plain, assembled⟩ := assembled
  refine legible_of_codes (fun mnemonic code found => ?_) assembled
  have defined := (OrderedMap.get?_eq_some_iff _ _ _).mp found
  exact ⟨(OpcodeTable.writable_parse definitions _ defined).2.1, plain mnemonic code found⟩

theorem length_records (program : ObjectProgram) (strip : Bool) :
    (program.records strip).length = if program.entries = [] then 2 else 3 := by
  rw [records]
  split_ifs with empty
  · simp [textRecord?, empty]
  · simp [textRecord?_eq_words empty]

/-- Assembled programs are told apart by their texts: a program can be read off its text, in which
each record is one line, whatever the program is called. The text record is the same with and
without the separator that may end it, for entries of any text. -/
theorem text_determines_program (strip : Bool) :
    (∀ program other : ObjectProgram, program.Assembled → other.Assembled →
      program.text strip = other.text strip → program = other) ∧
    (∀ program : ObjectProgram, program.Assembled →
      ofText? (program.text strip) = some program ∧
      Text.lines (program.text strip) = program.records strip ++ [""] ∧
      (program.records strip).length = if program.entries = [] then 2 else 3) ∧
    ∀ program : ObjectProgram, program.entries ≠ [] →
      ∃ record, program.textRecord? true = some record ∧
        program.textRecord? false = some (record ++ "^ ") ∧
        record = "T ^ " ++ program.startText ++ " ^ " ++ Text.hex 2 program.textLength ++ " ^ "
          ++ "^".intercalate program.entries := by
  refine ⟨fun program other assembled other_assembled same => ?_, fun program assembled => ?_,
    fun program some => ?_⟩
  · have own := (legible_of_assembled assembled).ofText?_text strip
    have others := (legible_of_assembled other_assembled).ofText?_text strip
    rw [same, others] at own
    exact (Option.some.inj own).symm
  · have legible := legible_of_assembled assembled
    exact ⟨legible.ofText?_text strip, legible.lines_text strip, length_records program strip⟩
  · obtain ⟨stripped, whole⟩ := textRecord?_eq some
    exact ⟨_, stripped, whole, rfl⟩

def markedProgram : Source :=
  .lines [.text "^ START 10", .text "A ADD A", .text " ADD ^"]

theorem text_determines_program_of_markedProgram :
    ∃ program, assemble (OpcodeTable.parse "ADD 18") unnamedSource markedProgram = .ok program ∧
      program.text false = "H ^ ^ ^ 000010\nT ^ 000010 ^ 06 ^ 180010^180000^ \nE ^ 000010\n" ∧
      ofText? (program.text false) = some program ∧ (program.records false).length = 3 := by
  refine (exists_ok (by decide +kernel)).imp fun program assembled => ⟨assembled, ?_, ?_⟩
  · exact value_of_ok assembled (fun program => program.text false) (by decide +kernel)
  · have codes : (OpcodeTable.parse "ADD 18").entries = [("ADD", "18")] := by decide +kernel
    have plain : ∀ mnemonic code, (OpcodeTable.parse "ADD 18").get? mnemonic = some code →
        '^' ∉ code.toList := by
      intro mnemonic code found
      rw [OrderedMap.get?, codes, List.lookup_cons] at found
      split at found
      · rw [← Option.some.inj found]
        decide
      · cases found
    obtain ⟨_, law, _⟩ := text_determines_program false
    obtain ⟨read, _, count⟩ := law program ⟨_, _, _, plain, assembled⟩
    refine ⟨read, count.trans (if_neg fun empty => ?_)⟩
    have two : program.entries.length = 2 :=
      value_of_ok assembled (fun program => program.entries.length) (by decide +kernel)
    rw [empty] at two
    cases two

end ObjectProgram

end SicAssembler
