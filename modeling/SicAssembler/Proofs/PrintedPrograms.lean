import SicAssembler.Proofs.ObjectText
import SicAssembler.Proofs.Relocation
import SicAssembler.Proofs.ReportText

/-!
Intermediate code as a program. A report shows each record as an address and a line of fields; with
a `START` line in front and the addresses taken off, these lines are a program themselves
(`Layout.printedLines`). What a layout holds depends on the fields of its lines (`SourceLine.bare`)
and, labels apart, on the lines that have a place in memory only, so that program is laid out as the
one that was printed, provided all its records come after the last base.
-/

namespace SicAssembler

variable {table : OpcodeTable} {lines others before after more : List SourceLine}
  {line first other : SourceLine} {start : Nat}

/-! ### Fields alone -/

def SourceLine.bare (line : SourceLine) : SourceLine :=
  { line with number := 0, text := "", file := "", operandColumn := 0 }

def Record.unnumbered (record : Record) : Record :=
  { record with line := 0 }

theorem keepsFields_bare : KeepsFields SourceLine.bare :=
  ⟨fun _ => rfl, fun _ => rfl, fun _ => rfl⟩

theorem SourceLine.bare_eq_iff :
    line.bare = other.bare ↔
      line.label = other.label ∧ line.mnemonic = other.mnemonic ∧ line.operand = other.operand := by
  simp [bare]

theorem SourceLine.acceptable_of_bare (same : line.bare = other.bare)
    (acceptable : line.Acceptable) : other.Acceptable := by
  obtain ⟨_, mnemonic, operand⟩ := bare_eq_iff.mp same
  unfold Acceptable at acceptable ⊢
  rwa [← mnemonic, ← operand]

theorem recordsOf_map_bare (table : OpcodeTable) (lines : List SourceLine) :
    recordsOf table (lines.map SourceLine.bare) = (recordsOf table lines).map Record.unnumbered :=
  keepsFields_bare.recordsOf_map Record.unnumbered (fun _ _ => rfl) lines

/-! ### Lines without a place in memory -/

theorem counterAfter_filter (plain : ∀ line ∈ lines, line.origin? = none) :
    counterAfter table (lines.filter (SourceLine.Occupies table)) = counterAfter table lines := by
  have kept : ∀ line ∈ lines.filter (SourceLine.Occupies table), line.origin? = none :=
    fun line member => plain line (List.mem_of_mem_filter member)
  have filtered := counterAfter_append_of_plain table [] kept
  have whole := counterAfter_append_of_plain table [] plain
  rw [List.filter_filter] at filtered
  simp only [Bool.and_self] at filtered
  exact filtered.trans whole.symm

theorem recordsOf_filter (plain : ∀ line ∈ lines, line.origin? = none) :
    recordsOf table (lines.filter (SourceLine.Occupies table)) = recordsOf table lines := by
  induction lines using List.reverseRecOn with
  | nil => rfl
  | append_singleton lines line ih =>
    have earlier : ∀ line ∈ lines, line.origin? = none :=
      fun line member => plain line (List.mem_append_left _ member)
    rw [List.filter_append, recordsOf_concat]
    by_cases occupies : line.Occupies table
    · rw [List.filter_cons_of_pos (by simpa using occupies), List.filter_nil, recordsOf_concat,
        ih earlier, counterAfter_filter earlier]
    · rw [List.filter_cons_of_neg (by simpa using occupies), List.filter_nil, List.append_nil,
        ih earlier, if_neg occupies, List.append_nil]

theorem bindingsOf_filter (plain : ∀ line ∈ lines, line.origin? = none)
    (placed : ∀ line ∈ lines, line.Defines → line.Occupies table) :
    bindingsOf table (lines.filter (SourceLine.Occupies table)) = bindingsOf table lines := by
  induction lines using List.reverseRecOn with
  | nil => rfl
  | append_singleton lines line ih =>
    have earlier : ∀ line ∈ lines, line.origin? = none :=
      fun line member => plain line (List.mem_append_left _ member)
    have rest := ih earlier fun line member => placed line (List.mem_append_left _ member)
    rw [List.filter_append, bindingsOf_concat]
    by_cases occupies : line.Occupies table
    · rw [List.filter_cons_of_pos (by simpa using occupies), List.filter_nil, bindingsOf_concat,
        rest, counterAfter_filter earlier]
    · have silent : ¬line.Defines := fun defines => occupies (placed line (by simp) defines)
      rw [List.filter_cons_of_neg (by simpa using occupies), List.filter_nil, List.append_nil,
        rest, if_neg silent, List.append_nil]

/-! ### The same lines in memory -/

/-- Lines that have the same fields, those without a place in memory left out. -/
def SameInMemory (table : OpcodeTable) (lines others : List SourceLine) : Prop :=
  (lines.filter (SourceLine.Occupies table)).map SourceLine.bare =
    (others.filter (SourceLine.Occupies table)).map SourceLine.bare

namespace SameInMemory

variable (same : SameInMemory table lines others) (plain : ∀ line ∈ lines, line.origin? = none)
  (others_plain : ∀ line ∈ others, line.origin? = none)

include same plain others_plain

theorem counterAfter_eq : counterAfter table lines = counterAfter table others := by
  rw [← counterAfter_filter plain, ← keepsFields_bare.counterAfter_map, same,
    keepsFields_bare.counterAfter_map, counterAfter_filter others_plain]

theorem recordsOf_eq :
    (recordsOf table lines).map Record.unnumbered =
      (recordsOf table others).map Record.unnumbered := by
  rw [← recordsOf_filter plain, ← recordsOf_map_bare, same, recordsOf_map_bare,
    recordsOf_filter others_plain]

theorem bindingsOf_eq (placed : ∀ line ∈ lines, line.Defines → line.Occupies table)
    (others_placed : ∀ line ∈ others, line.Defines → line.Occupies table) :
    bindingsOf table lines = bindingsOf table others := by
  rw [← bindingsOf_filter plain placed, ← keepsFields_bare.bindingsOf_map, same,
    keepsFields_bare.bindingsOf_map, bindingsOf_filter others_plain others_placed]

end SameInMemory

namespace Layout

variable {layout again : Layout}

/-- Programs that have one base of the same name and address and the same lines in memory, all of
them after it, are laid out alike. -/
theorem eq_of_sameInMemory (reflects : layout.Reflects table (before ++ first :: after))
    (again_reflects : again.Reflects table (other :: more)) (set : first.origin? = some start)
    (other_set : other.origin? = some start) (label : other.label = first.label)
    (plain : ∀ line ∈ after, line.origin? = none)
    (more_plain : ∀ line ∈ more, line.origin? = none)
    (empty : ∀ line ∈ before, ¬line.Occupies table) (same : SameInMemory table more after) :
    again.start = layout.start ∧ again.name = layout.name ∧ again.counter = layout.counter ∧
      again.records.map Record.unnumbered = layout.records.map Record.unnumbered := by
  rw [← List.nil_append (other :: more)] at again_reflects
  have counter : again.counter = layout.counter := by
    rw [again_reflects.counter, reflects.counter,
      counterAfter_append_of_origin _ (by rw [other_set]; rfl),
      counterAfter_append_of_origin _ (by rw [set]; rfl),
      counterAfter_cons_of_origin other_set more_plain, counterAfter_cons_of_origin set plain,
      same.counterAfter_eq more_plain plain]
  refine ⟨?_, ?_, counter, ?_⟩
  · rw [again_reflects.start, reflects.start, startOf_of_base _ other_set more_plain,
      startOf_of_base _ set plain]
  · rw [again_reflects.name, reflects.name, nameOf_of_base _ other_set more_plain,
      nameOf_of_base _ set plain, label]
  · -- The numbers of the lines go before or after the records are moved to their base.
    have commutes : Record.unnumbered ∘ Record.shifted start =
        Record.shifted start ∘ Record.unnumbered := rfl
    rw [again_reflects.records, reflects.records, ← again_reflects.counter, ← reflects.counter,
      counter, recordsOf_of_base other_set more_plain (by simp), recordsOf_of_base set plain empty,
      List.map_append, List.map_append, List.map_map, List.map_map, commutes, ← List.map_map,
      ← List.map_map, same.recordsOf_eq more_plain plain]

theorem symbols_of_sameInMemory (reflects : layout.Reflects table (before ++ first :: after))
    (again_reflects : again.Reflects table (other :: more)) (set : first.origin? = some start)
    (other_set : other.origin? = some start) (plain : ∀ line ∈ after, line.origin? = none)
    (more_plain : ∀ line ∈ more, line.origin? = none)
    (silent : ∀ line ∈ before, ¬line.Defines) (same : SameInMemory table more after)
    (placed : ∀ line ∈ after, line.Defines → line.Occupies table)
    (more_placed : ∀ line ∈ more, line.Defines → line.Occupies table) :
    again.symbols = layout.symbols := by
  rw [← List.nil_append (other :: more)] at again_reflects
  rw [again_reflects.symbols, reflects.symbols, bindingsOf_of_base other_set more_plain (by simp),
    bindingsOf_of_base set plain silent,
    same.bindingsOf_eq more_plain plain more_placed placed]

/-- The numbers of the lines are not seen in an object program. -/
theorem object_eq_of_unnumbered (start : again.start = layout.start)
    (name : again.name = layout.name) (symbols : again.symbols = layout.symbols)
    (records : again.records.map Record.unnumbered = layout.records.map Record.unnumbered)
    (codes : OpcodeTable) : again.object codes = layout.object codes := by
  have unseen : ∀ records : List Record, records.mapM (Record.entry? codes layout.symbols) =
      (records.map Record.unnumbered).mapM (Record.entry? codes layout.symbols) := by
    intro records
    rw [List.mapM_map]
    rfl
  unfold object ObjectProgram.build
  rw [start, name, symbols, unseen again.records, records, ← unseen]

end Layout

/-! ### Records as lines of a program -/

/-- What a report shows of a record after its address and the space that follows. -/
def Record.statementText (record : Record) : String :=
  String.ofList (record.text.toList.drop ((addressText record.address).length + 1))

theorem Record.statementText_eq {record : Record} (inner : record.isEnd = false) :
    record.statementText =
      record.label ++ " " ++ record.mnemonic ++ " " ++ record.operand := by
  have text : record.text = addressText record.address ++ " " ++
      (record.label ++ " " ++ record.mnemonic ++ " " ++ record.operand) := by
    simp [Record.text, inner, ← String.toList_inj]
  have address : (addressText record.address).length + 1 =
      (addressText record.address ++ " ").toList.length := by
    rw [String.length_toList, String.length_append]
    rfl
  rw [statementText, text, String.toList_append, address, List.drop_left, String.ofList_toList]

theorem SourceLine.read_written (file : String) (number : Int) {label mnemonic operand : String}
    (label_unbroken : Unbroken label) (mnemonic_unbroken : Unbroken mnemonic)
    (operand_unbroken : Unbroken operand) (present : mnemonic ≠ "") :
    (read file number (label ++ " " ++ mnemonic ++ " " ++ operand)).label = label ∧
      (read file number (label ++ " " ++ mnemonic ++ " " ++ operand)).mnemonic = mnemonic ∧
      (read file number (label ++ " " ++ mnemonic ++ " " ++ operand)).operand = operand := by
  obtain ⟨first, second, third⟩ :=
    read_fields file number (label ++ " " ++ mnemonic ++ " " ++ operand)
  rw [first, second, third]
  exact nthField_written label_unbroken mnemonic_unbroken operand_unbroken
    fun empty => (present empty).elim

/-- A line that was read and has a place in memory is found again in its record. -/
theorem SourceLine.bare_read_statementText {source : Source} {file : String}
    (read_source : source.read file = .ok lines) (member : line ∈ lines)
    (occupies : line.Occupies table) (name : String) (number address : Int) :
    (read name number (line.recordAt address).statementText).bare = line.bare := by
  obtain ⟨label, mnemonic, operand⟩ := Source.unbroken_of_read read_source member
  rw [bare_eq_iff, Record.statementText_eq rfl]
  exact read_written name number label mnemonic operand occupies.mnemonic_ne_empty

theorem SourceLine.read_empty (name : String) (number : Int) :
    (read name number "").label = "" ∧ (read name number "").mnemonic = "" := by
  obtain ⟨label, mnemonic, _⟩ := read_fields name number ""
  rw [label, mnemonic]
  decide +kernel

namespace Layout

variable {layout : Layout} {source : Source} {file : String}

/-- The program that a layout shows: a base with its name and start address, and its records without
their addresses. -/
def printedLines (layout : Layout) : List String :=
  (layout.name ++ " START " ++ addressText (layout.start.getD 0)) ::
    (layout.records.filter fun record => !record.isEnd).map Record.statementText

theorem acceptable_of_ofSource (laid : ofSource table file source = .ok layout)
    (read : source.read file = .ok lines) (member : line ∈ lines) : line.Acceptable := by
  obtain ⟨statements, interpreted, rfl⟩ := ofSource_ok laid
  obtain ⟨same, interpreted⟩ := Statement.readAll_ok interpreted
  obtain rfl := Except.ok.inj (same.symm.trans read)
  obtain ⟨statement, present, rfl⟩ := List.mem_map.mp member
  rw [← Statement.isOk_ofLine_iff table, interpreted statement present]
  rfl

theorem occupies_of_record (reflects : layout.Reflects table lines)
    (ordered : lines.Pairwise fun earlier later => earlier.number < later.number)
    (member : line ∈ lines) {record : Record} (present : record ∈ layout.records)
    (inner : record.isEnd = false) (number : record.line = line.number) :
    line.Occupies table := by
  rcases reflects.record_cases present with ⟨earlier, own, later, rfl, occupies, rfl⟩ | rfl
  · have numbers := List.pairwise_append.mp ordered
    have behind := (List.pairwise_cons.mp numbers.2.1).1
    change own.number = line.number at number
    rcases List.mem_append.mp member with inside | rest
    · have := numbers.2.2 line inside own List.mem_cons_self
      omega
    · rcases List.mem_cons.mp rest with rfl | inside
      · exact occupies
      · have := behind line inside
        omega
  · cases inner

theorem isOk_ofSource_of_read (table : OpcodeTable) (read : source.read file = .ok lines)
    (acceptable : ∀ line ∈ lines, line.Acceptable) :
    (ofSource table file source).isOk = true := by
  rw [isOk_ofSource_iff]
  intro input member
  obtain ⟨i, bound, rfl⟩ := List.getElem_of_mem member
  have pointwise := mapM_ok_iff.mp read
  have numbered : i < source.numbered.length := by simpa [Source.numbered] using bound
  have taken := pointwise.get numbered (pointwise.length_eq ▸ numbered)
  have listed := List.get_mem lines ⟨i, pointwise.length_eq ▸ numbered⟩
  simp only [List.get_eq_getElem, Source.numbered, List.getElem_zipIdx] at taken
  cases given : source.inputs[i] with
  | text text =>
    rw [given] at taken
    rw [LineInput.acceptable_text_iff file (1 + i : Nat)]
    exact Except.ok.inj taken ▸ acceptable _ listed
  | value typeName =>
    rw [given] at taken
    cases taken

/-- A printed line is that of a line in memory; the others are empty. -/
theorem printed_cases (read : source.read file = .ok lines) {trailing : List String}
    (blank : ∀ text ∈ trailing, text = "") (name : String) {text : String}
    (member : text ∈ (recordsOf table lines).map Record.statementText ++ trailing) :
    (∃ line ∈ lines, line.Occupies table ∧
      ∀ number, (SourceLine.read name number text).bare = line.bare) ∨ text = "" := by
  rcases List.mem_append.mp member with shown | rest
  · obtain ⟨record, present, rfl⟩ := List.mem_map.mp shown
    obtain ⟨_, line, _, split, occupies, rfl⟩ := exists_split_of_mem_recordsOf present
    have listed : line ∈ lines := by simp [split]
    exact .inl ⟨line, listed, occupies, fun number =>
      SourceLine.bare_read_statementText read listed occupies name number _⟩
  · exact .inr (blank text rest)

theorem sameInMemory_printed (read : source.read file = .ok lines) {trailing : List String}
    (blank : ∀ text ∈ trailing, text = "") (name : String) (n : Nat) :
    SameInMemory table
      ((((recordsOf table lines).map Record.statementText ++ trailing).zipIdx n).map fun entry =>
        SourceLine.read name entry.2 entry.1) lines := by
  have filtered : ∀ lines : List SourceLine,
      (lines.filter (SourceLine.Occupies table)).map SourceLine.bare =
        (lines.map SourceLine.bare).filter (SourceLine.Occupies table) := by
    intro lines
    rw [List.filter_map]
    simp only [Function.comp_def, keepsFields_bare.occupies_iff]
  have unnumbered : ∀ texts : List String,
      ((texts.zipIdx n).map fun entry => SourceLine.read name entry.2 entry.1).map SourceLine.bare =
        texts.map fun text => (SourceLine.read name 0 text).bare := by
    intro texts
    conv_rhs => rw [← List.zipIdx_map_fst n texts]
    rw [List.map_map, List.map_map]
    rfl
  have shown : (recordsOf table lines).map
      (fun record => (SourceLine.read name 0 record.statementText).bare) =
        (lines.filter (SourceLine.Occupies table)).map SourceLine.bare :=
    map_recordsOf fun line member occupies address =>
      SourceLine.bare_read_statementText read member occupies name 0 address
  have idle : (trailing.map fun text => (SourceLine.read name 0 text).bare).filter
      (SourceLine.Occupies table) = [] := by
    rw [List.filter_eq_nil_iff, List.forall_mem_map]
    intro text member
    rw [blank text member]
    have absent : ¬(SourceLine.read name 0 "").Occupies table := fun occupies =>
      occupies.mnemonic_ne_empty (SourceLine.read_empty name 0).2
    simpa [keepsFields_bare.occupies_iff] using absent
  rw [SameInMemory, filtered, unnumbered, List.map_append, List.map_map, List.filter_append, idle,
    List.append_nil]
  change ((recordsOf table lines).map fun record =>
    (SourceLine.read name 0 record.statementText).bare).filter _ = _
  rw [shown, ← filtered, List.filter_filter]
  simp only [Bool.and_self]

theorem lines_printed {text : String} (unbroken : Unbroken layout.name) {n : Nat}
    (started : layout.start = some (n : Int)) (legible : layout.Legible)
    (printed : text = Text.unlines layout.printedLines ∨
      text = "\n".intercalate layout.printedLines) :
    ∃ trailing, (∀ text ∈ trailing, text = "") ∧
      Text.lines text = layout.printedLines ++ trailing := by
  have absent : ∀ line ∈ layout.printedLines, '\n' ∉ line.toList := by
    rw [printedLines, List.forall_mem_cons, List.forall_mem_map]
    constructor
    · have words : layout.name ++ " START " ++ addressText (layout.start.getD 0) =
          " ".intercalate [layout.name, "START", addressText n] := by
        rw [started]
        simp [← String.toList_inj]
      rw [words]
      apply newline_not_mem_of_unbroken
      simp only [List.forall_mem_cons]
      exact ⟨unbroken, by decide, unbroken_hex 4 n, by simp⟩
    · intro record member
      obtain ⟨present, inner⟩ := List.mem_filter.mp member
      obtain ⟨_, label, mnemonic, operand, _⟩ := legible.records record present
      have words : record.statementText =
          " ".intercalate [record.label, record.mnemonic, record.operand] := by
        rw [Record.statementText_eq (by simpa using inner)]
        simp [← String.toList_inj]
      rw [words]
      apply newline_not_mem_of_unbroken
      simp only [List.forall_mem_cons]
      exact ⟨label, mnemonic, operand, by simp⟩
  rcases printed with rfl | rfl
  · exact ⟨[""], by simp, Text.lines_unlines absent⟩
  · exact ⟨[], by simp, by
      rw [Text.lines_intercalate absent (by simp [printedLines]), List.append_nil]⟩

/-- What the program that a layout shows is read as: a base, and lines that are in memory or empty. -/
theorem exists_read_printed (reflects : layout.Reflects table lines)
    (laid : ofSource table file source = .ok layout) (read : source.read file = .ok lines)
    (found : startOf lines = some start) {text : String} (printed :
      text = Text.unlines layout.printedLines ∨ text = "\n".intercalate layout.printedLines)
    (name : String) :
    ∃ other more, (Source.text text).read name = .ok (other :: more) ∧
      other.origin? = some start ∧ other.label = layout.name ∧ SameInMemory table more lines ∧
      other.Acceptable ∧ ∀ line ∈ more, line.Acceptable ∧ line.origin? = none ∧
        (line.Defines → line.Occupies table) := by
  have unbroken : Unbroken layout.name := by
    rw [reflects.name]
    exact unbroken_nameOf fun line member => (Source.unbroken_of_read read member).1
  have begins : layout.start = some (start : Int) := by
    rw [reflects.start, found]
    rfl
  obtain ⟨trailing, blank, texts⟩ :=
    lines_printed unbroken begins (legible_of_ofSource laid) printed
  have base : layout.name ++ " START " ++ addressText start =
      layout.name ++ " " ++ "START" ++ " " ++ addressText start := by
    simp [← String.toList_inj]
  have inputs : (Source.text text).inputs =
      ((layout.name ++ " " ++ "START" ++ " " ++ addressText start) ::
        ((recordsOf table lines).map Record.statementText ++ trailing)).map LineInput.text := by
    rw [Source.inputs, texts, printedLines, begins, Option.getD_some, base, filter_records reflects]
    rfl
  obtain ⟨label, mnemonic, operand⟩ := SourceLine.read_written name 1 unbroken
    (show Unbroken "START" by decide) (unbroken_hex 4 start) (by decide)
  refine ⟨_, _, Source.read_texts inputs name, ?_, label, sameInMemory_printed read blank name _,
    ?_, ?_⟩
  · exact (if_pos mnemonic).trans (operand ▸ Text.hexValue?_hex 4 start)
  · intro reservation
    rcases reservation with words | bytes
    · exact absurd (mnemonic.symm.trans words) (by decide)
    · exact absurd (mnemonic.symm.trans bytes) (by decide)
  · intro line member
    obtain ⟨⟨shown, n⟩, present, rfl⟩ := List.mem_map.mp member
    rcases printed_cases read blank name (List.fst_mem_of_mem_zipIdx present) with
      ⟨line, listed, occupies, same⟩ | rfl
    · have again : (SourceLine.read name n shown).Occupies table := by
        rwa [← keepsFields_bare.occupies_iff, same, keepsFields_bare.occupies_iff]
      exact ⟨SourceLine.acceptable_of_bare (same n).symm (acceptable_of_ofSource laid read listed),
        SourceLine.origin?_of_not_start again.mnemonic_ne_start, fun _ => again⟩
    · obtain ⟨unlabelled, idle⟩ := SourceLine.read_empty name n
      refine ⟨?_, SourceLine.origin?_of_not_start (by rw [idle]; decide), ?_⟩
      · unfold SourceLine.Acceptable
        rw [idle]
        exact fun reservation => absurd reservation (by decide)
      · unfold SourceLine.Defines
        rw [unlabelled, not_isLabel_empty]
        rintro ⟨_, impossible⟩
        cases impossible

/-- The program that a layout shows is laid out as the layout was, if all records come after the last
base. If moreover all labels stand on lines with a record, it has the same symbols, and the object
programs are the same under every table. -/
theorem lays_out_printed (laid : ofSource table file source = .ok layout)
    (read : source.read file = .ok lines) (started : layout.hasStart = true)
    (late : ∀ line ∈ lines, line.origin?.isSome = true → ∀ record ∈ layout.records,
      record.isEnd = false → line.number < record.line)
    {text : String} (printed : text = Text.unlines layout.printedLines ∨
      text = "\n".intercalate layout.printedLines) (name : String) :
    ∃ again, ofSource table name (.text text) = .ok again ∧ again.start = layout.start ∧
      again.name = layout.name ∧ again.counter = layout.counter ∧
      again.records.map Record.shown = layout.records.map Record.shown ∧
      ((∀ line ∈ lines, line.mnemonic ≠ "START" → line.label ≠ "" →
          ∃ record ∈ layout.records, record.isEnd = false ∧ record.line = line.number) →
        again.symbols = layout.symbols ∧ ∀ codes, again.object codes = layout.object codes) := by
  obtain ⟨_, read_here, reflects⟩ := reflects_of_ofSource laid
  obtain rfl := Except.ok.inj (read.symm.trans read_here)
  have ordered := Source.pairwise_number read
  rw [hasStart, reflects.start, Option.isSome_map] at started
  obtain ⟨start, found⟩ := Option.isSome_iff_exists.mp started
  obtain ⟨other, more, reread, other_set, label, same, acceptable, rest⟩ :=
    exists_read_printed reflects laid read found printed name
  obtain ⟨before, first, after, rfl, set, plain, named⟩ := exists_split_of_startOf found
  have empty : ∀ line ∈ before, ¬line.Occupies table :=
    not_occupies_of_late reflects ordered (by rw [set]; rfl) late
  have more_plain : ∀ line ∈ more, line.origin? = none := fun line member => (rest line member).2.1
  have same_after : SameInMemory table more after := by
    have none_before : before.filter (SourceLine.Occupies table) = [] := by
      simpa [List.filter_eq_nil_iff] using empty
    have absent : ¬first.Occupies table := fun occupies =>
      occupies.mnemonic_ne_start (SourceLine.mnemonic_of_origin (by rw [set]; rfl))
    rwa [SameInMemory, List.filter_append, none_before, List.nil_append,
      List.filter_cons_of_neg (by simpa using absent)] at same
  have all_acceptable : ∀ line ∈ other :: more, line.Acceptable :=
    List.forall_mem_cons.mpr ⟨acceptable, fun line member => (rest line member).1⟩
  obtain ⟨again, laid_again⟩ :=
    exists_ok (isOk_ofSource_of_read table reread all_acceptable)
  obtain ⟨_, reread_here, again_reflects⟩ := reflects_of_ofSource laid_again
  obtain rfl := Except.ok.inj (reread.symm.trans reread_here)
  obtain ⟨again_start, again_name, counter, records⟩ := eq_of_sameInMemory reflects again_reflects
    set other_set (label.trans (reflects.name.trans named)) plain more_plain empty same_after
  refine ⟨again, laid_again, again_start, again_name, counter, ?_, fun labelled => ?_⟩
  · have shown := congrArg (List.map Record.shown) records
    rwa [List.map_map, List.map_map] at shown
  · have placed : ∀ line ∈ before ++ first :: after, line.Defines → line.Occupies table := by
      intro line member defines
      have present : line.label ≠ "" := by
        intro absent
        rw [SourceLine.Defines, absent, not_isLabel_empty] at defines
        cases defines.2
      obtain ⟨record, kept, inner, number⟩ := labelled line member defines.1 present
      exact occupies_of_record reflects ordered member kept inner number
    have symbols : again.symbols = layout.symbols :=
      symbols_of_sameInMemory reflects again_reflects set other_set plain more_plain
        (fun line member defines => empty line member
          (placed line (List.mem_append_left _ member) defines)) same_after
        (fun line member => placed line (by simp [member])) fun line member => (rest line member).2.2
    exact ⟨symbols, object_eq_of_unnumbered again_start again_name symbols records⟩

/-- A program with lines that leave no trace, a name that is no label, a wide address and fields that
are missing. -/
def untidyProgram : Source :=
  .lines [.text " NOTE", .text "2nd  START 0fffe x", .text "A ADD  A", .text "\tADD", .text " END A"]

theorem lays_out_printed_of_untidyProgram :
    ∃ layout again, ofSource oneInstruction unnamedSource untidyProgram = .ok layout ∧
      "\n".intercalate layout.printedLines = "2nd START FFFE\nA ADD A\n ADD " ∧
      ofSource oneInstruction unnamedSource (.text "2nd START FFFE\nA ADD A\n ADD ") = .ok again ∧
      again.counter = 0x10004 ∧
      again.records.map Record.shown =
        [(0xFFFE, "A", "ADD", "A", false), (0x10001, "", "ADD", "", false),
          (0x10004, "", "", "", true)] ∧
      again.symbols.entries = [("A", 0xFFFE)] ∧
      again.object oneInstruction = .ok { name := "2nd", start := 0xFFFE, entries := ["18FFFE"] } := by
  obtain ⟨layout, laid, facts⟩ := exists_of_map_ok
    (x := ofSource oneInstruction unnamedSource untidyProgram)
    (f := fun layout => decide
      ((∀ record ∈ layout.records, record.isEnd = false → 2 < record.line) ∧
        (∃ record ∈ layout.records, record.isEnd = false ∧ record.line = 3) ∧
        layout.hasStart = true ∧
        "\n".intercalate layout.printedLines = "2nd START FFFE\nA ADD A\n ADD " ∧
        layout.counter = 0x10004 ∧
        layout.records.map Record.shown =
          [(0xFFFE, "A", "ADD", "A", false), (0x10001, "", "ADD", "", false),
            (0x10004, "", "", "", true)] ∧
        layout.symbols.entries = [("A", 0xFFFE)] ∧
        layout.object oneInstruction =
          .ok { name := "2nd", start := 0xFFFE, entries := ["18FFFE"] }))
    (b := true) (by decide +kernel)
  obtain ⟨later, third, started, shown, counter, records, symbols, object⟩ :=
    of_decide_eq_true facts
  obtain ⟨lines, read, facts⟩ := exists_of_map_ok (x := untidyProgram.read unnamedSource)
    (f := fun lines => decide
      ((∀ line ∈ lines, line.origin?.isSome = true → line.number = 2) ∧
        ∀ line ∈ lines, line.mnemonic ≠ "START" → line.label ≠ "" → line.number = 3))
    (b := true) (by decide +kernel)
  obtain ⟨base, labelled⟩ := of_decide_eq_true facts
  obtain ⟨again, laid_again, _, _, counter_again, records_again, same⟩ :=
    lays_out_printed laid read started (fun line member origin record kept inner =>
      base line member origin ▸ later record kept inner) (.inr shown.symm) unnamedSource
  obtain ⟨symbols_again, objects⟩ := same fun line member other named =>
    labelled line member other named ▸ third
  exact ⟨layout, again, laid, shown, laid_again, counter_again.trans counter,
    records_again.trans records, by rw [symbols_again, symbols], (objects _).trans object⟩

end Layout

end SicAssembler
