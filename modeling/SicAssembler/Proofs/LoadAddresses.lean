import SicAssembler.Proofs.Bases
import SicAssembler.Proofs.CodedDirectives

/-!
Where the loader puts the entries. An object program holds its entries one after the other from the
start address, a word each, while the layout leaves room for every record. If the records all come
after the last base they are laid out without gaps (`Contiguous`), so an entry's record never
stands before the place the loader gives it, and stands exactly there for all entries if and only
if nothing that takes room is passed over before the last of them.
-/

namespace SicAssembler

variable {table : OpcodeTable} {lines more : List SourceLine} {symbols : SymbolTable}

/-! ### Records without gaps -/

namespace Record

/-- The bytes that a record reserves, those of a line with its mnemonic and operand; none at the
end. -/
def bytes (record : Record) : Nat :=
  if record.isEnd then 0
  else SourceLine.bytes
    { number := record.line
      text := ""
      label := record.label
      mnemonic := record.mnemonic
      operand := record.operand
      file := unnamedSource
      operandColumn := 0 }

theorem bytes_recordAt (line : SourceLine) (address : Int) :
    (line.recordAt address).bytes = line.bytes := rfl

theorem bytes_finish (address : Int) : (Record.finish address).bytes = 0 := rfl

/-- Records that follow each other from an address on, each right after the bytes of the one
before. -/
def Contiguous (address : Int) : List Record → Prop
  | [] => True
  | record :: rest => record.address = address ∧ Contiguous (address + record.bytes) rest

def bytesOf (records : List Record) : Nat := (records.map bytes).sum

theorem contiguous_append {address : Int} {front back : List Record} :
    Contiguous address (front ++ back) ↔
      Contiguous address front ∧ Contiguous (address + bytesOf front) back := by
  induction front generalizing address with
  | nil => simp [Contiguous, bytesOf]
  | cons record rest ih =>
    have further : address + record.bytes + bytesOf rest = address + bytesOf (record :: rest) := by
      simp [bytesOf, Int.add_assoc]
    rw [List.cons_append, Contiguous, ih, further, Contiguous, and_assoc]

/-! ### Records chosen from them -/

section Chosen

variable {p : Record → Prop} [DecidablePred p] {address : Int} {records : List Record}

theorem le_address_of_chosen (words : ∀ record ∈ records, p record → record.bytes = 3)
    (laid : Contiguous address records) {k : Nat} {record : Record}
    (found : (records.filter p)[k]? = some record) : address + 3 * k ≤ record.address := by
  induction records generalizing address k with
  | nil => cases found
  | cons head rest ih =>
    obtain ⟨here, rest_laid⟩ := laid
    have rest_words : ∀ record ∈ rest, p record → record.bytes = 3 :=
      fun record member => words record (List.mem_cons_of_mem _ member)
    by_cases chosen : p head
    · have size := words head List.mem_cons_self chosen
      rw [List.filter_cons_of_pos (by simpa using chosen)] at found
      cases k with
      | zero =>
        obtain rfl := Option.some.inj found
        simp [here]
      | succ k =>
        have next := ih rest_words rest_laid found
        omega
    · rw [List.filter_cons_of_neg (by simpa using chosen)] at found
      have next := ih rest_words rest_laid found
      omega

theorem length_chosen_le (words : ∀ record ∈ records, p record → record.bytes = 3) :
    3 * (records.filter p).length ≤ bytesOf records := by
  induction records with
  | nil => simp
  | cons head rest ih =>
    have further := ih fun record member => words record (List.mem_cons_of_mem _ member)
    have total : bytesOf (head :: rest) = head.bytes + bytesOf rest := by simp [bytesOf]
    by_cases chosen : p head
    · have size := words head List.mem_cons_self chosen
      rw [List.filter_cons_of_pos (by simpa using chosen), List.length_cons]
      omega
    · rw [List.filter_cons_of_neg (by simpa using chosen)]
      omega

/-- The chosen records stand a word apart if and only if those passed over before the last of them
take no room. -/
theorem address_eq_of_chosen_iff (words : ∀ record ∈ records, p record → record.bytes = 3)
    (laid : Contiguous address records) :
    (∀ (k : Nat) record, (records.filter p)[k]? = some record → record.address = address + 3 * k) ↔
      records.Pairwise fun earlier later => p later → p earlier ∨ earlier.bytes = 0 := by
  induction records generalizing address with
  | nil => simp
  | cons head rest ih =>
    obtain ⟨here, rest_laid⟩ := laid
    have rest_words : ∀ record ∈ rest, p record → record.bytes = 3 :=
      fun record member => words record (List.mem_cons_of_mem _ member)
    rw [List.pairwise_cons, ← ih rest_words rest_laid]
    by_cases chosen : p head
    · have size := words head List.mem_cons_self chosen
      rw [List.filter_cons_of_pos (by simpa using chosen)]
      constructor
      · intro apart
        refine ⟨fun _ _ _ => .inl chosen, fun k record found => ?_⟩
        have next := apart (k + 1) record found
        omega
      · rintro ⟨_, apart⟩ k record found
        cases k with
        | zero =>
          obtain rfl := Option.some.inj found
          simp [here]
        | succ k =>
          have next := apart k record found
          omega
    · rw [List.filter_cons_of_neg (by simpa using chosen)]
      constructor
      · intro apart
        -- The first record chosen later leaves no room for this one.
        have empty : ∀ later ∈ rest, p later → head.bytes = 0 := by
          intro later member taken
          have kept : later ∈ rest.filter p := List.mem_filter.mpr ⟨member, by simpa using taken⟩
          obtain ⟨k, found⟩ := List.mem_iff_getElem?.mp kept
          have lower := le_address_of_chosen rest_words rest_laid found
          have next := apart k later found
          omega
        refine ⟨fun later member taken => .inr (empty later member taken), fun k record found => ?_⟩
        have member := List.mem_of_getElem? found
        obtain ⟨member, taken⟩ := List.mem_filter.mp member
        have size := empty record member (of_decide_eq_true taken)
        have next := apart k record found
        omega
      · rintro ⟨passed, apart⟩ k record found
        obtain ⟨member, taken⟩ := List.mem_filter.mp (List.mem_of_getElem? found)
        have size := (passed record member (of_decide_eq_true taken)).resolve_left chosen
        have next := apart k record found
        omega

end Chosen

end Record

/-! ### The layout after a base -/

theorem exists_contiguous_of_plain (table : OpcodeTable) (lines : List SourceLine)
    (plain : ∀ line ∈ more, line.origin? = none) :
    ∃ records, recordsOf table (lines ++ more) = recordsOf table lines ++ records ∧
      Record.Contiguous (counterAfter table lines) records ∧
      counterAfter table (lines ++ more) = counterAfter table lines + Record.bytesOf records := by
  induction more using List.reverseRecOn with
  | nil => exact ⟨[], by simp, trivial, by simp [Record.bytesOf]⟩
  | append_singleton more line ih =>
    obtain ⟨records, placed, laid, reached⟩ :=
      ih fun line member => plain line (List.mem_append_left _ member)
    rw [← List.append_assoc, recordsOf_concat, placed, counterAfter_concat (plain line (by simp)),
      reached]
    split_ifs with occupies
    · refine ⟨records ++ [line.recordAt ↑(counterAfter table lines + Record.bytesOf records)],
        by simp, ?_, ?_⟩
      · rw [Record.contiguous_append]
        exact ⟨laid, by simp [SourceLine.recordAt], trivial⟩
      · simp [Record.bytesOf, Record.bytes_recordAt, Nat.add_assoc]
    · exact ⟨records, by simp, laid, by simp⟩

/-! ### The entries of a program -/

instance (table : OpcodeTable) (symbols : SymbolTable) :
    DecidablePred (Record.Encoded table symbols) := fun record =>
  match given : record.entry? table symbols with
  | .ok (some entry) => isTrue ⟨entry, given⟩
  | .ok none => isFalse fun ⟨_, other⟩ => by simp [given] at other
  | .error _ => isFalse fun ⟨_, other⟩ => by simp [given] at other

namespace Layout

variable {file : String} {source : Source} {layout : Layout} {program : ObjectProgram}

def encoded (layout : Layout) (table : OpcodeTable) : List Record :=
  layout.records.filter (Record.Encoded table layout.symbols)

theorem exists_record_of_occupies {line : SourceLine} (reflects : layout.Reflects table lines)
    (member : line ∈ lines) (occupies : line.Occupies table) :
    ∃ record ∈ layout.records, record.isEnd = false ∧ record.line = line.number := by
  have numbers : (recordsOf table lines).map Record.line =
      (lines.filter (SourceLine.Occupies table)).map SourceLine.number :=
    map_recordsOf fun _ _ _ _ => rfl
  have listed : line.number ∈ (recordsOf table lines).map Record.line := by
    rw [numbers]
    exact List.mem_map_of_mem (List.mem_filter.mpr ⟨member, decide_eq_true occupies⟩)
  obtain ⟨record, present, number⟩ := List.mem_map.mp listed
  obtain ⟨_, _, _, _, _, rfl⟩ := exists_split_of_mem_recordsOf present
  refine ⟨_, ?_, rfl, number⟩
  rw [reflects.records]
  exact List.mem_append_left _ present

/-- If all records come after a base, no line before it has a place in memory. -/
theorem not_occupies_of_late {before after : List SourceLine} {first : SourceLine}
    (reflects : layout.Reflects table (before ++ first :: after))
    (ordered : (before ++ first :: after).Pairwise fun earlier later =>
      earlier.number < later.number)
    (set : first.origin?.isSome = true)
    (late : ∀ line ∈ before ++ first :: after, line.origin?.isSome = true →
      ∀ record ∈ layout.records, record.isEnd = false → line.number < record.line) :
    ∀ line ∈ before, ¬line.Occupies table := by
  intro line member occupies
  obtain ⟨record, present, inner, number⟩ :=
    exists_record_of_occupies reflects (List.mem_append_left _ member) occupies
  have behind := late first (by simp) set record present inner
  have earlier := (List.pairwise_append.mp ordered).2.2 line member first List.mem_cons_self
  omega

/-- If all records come after the last base, they follow each other from the start address on. -/
theorem contiguous_of_late (reflects : layout.Reflects table lines) {start : Nat}
    (started : startOf lines = some start)
    (ordered : lines.Pairwise fun earlier later => earlier.number < later.number)
    (late : ∀ line ∈ lines, line.origin?.isSome = true → ∀ record ∈ layout.records,
      record.isEnd = false → line.number < record.line) :
    Record.Contiguous start layout.records ∧
      layout.counter = start + Record.bytesOf layout.records := by
  obtain ⟨before, first, after, rfl, origin, plain, _⟩ := exists_split_of_startOf started
  have base : counterAfter table (before ++ [first]) = start := counterAfter_concat_of_origin origin
  obtain ⟨records, placed, laid, reached⟩ :=
    exists_contiguous_of_plain table (before ++ [first]) plain
  rw [← List.append_cons, base] at reached
  rw [← List.append_cons] at placed
  have counted := reflects.counter
  have all := reflects.records
  rw [placed] at all
  have early : recordsOf table (before ++ [first]) = [] := by
    have set : first.origin?.isSome = true := by rw [origin]; rfl
    have absent : ¬first.Occupies table :=
      fun occupies => occupies.mnemonic_ne_start (SourceLine.mnemonic_of_origin set)
    exact recordsOf_eq_nil (List.forall_mem_append.mpr
      ⟨not_occupies_of_late reflects ordered set late, List.forall_mem_singleton.mpr absent⟩)
  rw [early, List.nil_append, reached] at all
  rw [base] at laid
  rw [reached] at counted
  rw [all, counted, Record.contiguous_append]
  refine ⟨⟨laid, rfl, trivial⟩, ?_⟩
  simp [Record.bytesOf, Record.bytes_finish]

theorem bytes_of_encoded (reflects : layout.Reflects table lines)
    (directives : ∀ name ∈ ["RESW", "RESB", "BYTE", "WORD"], name ∉ table.keys) {record : Record}
    (member : record ∈ layout.records) (encoded : record.Encoded table layout.symbols) :
    record.bytes = 3 := by
  obtain ⟨entry, given⟩ := encoded
  have known := ((encoded_iff reflects member given).mp ⟨entry, given⟩).2
  have operand := ((encoded_iff reflects member given).mp ⟨entry, given⟩).1
  rcases reflects.record_cases member with ⟨_, line, _, _, _, rfl⟩ | rfl
  · have other : ∀ name ∈ ["RESW", "RESB", "BYTE", "WORD"], line.mnemonic ≠ name := by
      rintro name directive rfl
      exact directives _ directive known
    rw [Record.bytes_recordAt, SourceLine.bytes, if_neg (other _ (by simp)),
      if_neg (other _ (by simp)), if_neg (other _ (by simp))]
  · exact (operand rfl).elim

/-- The loader's places against the layout, for a table without codes for directives and records
that all come after the last base: the record of the entry `k` does not stand before the word `k`
of the text, so the text is no longer than the program; and each entry is loaded where its record
stands if and only if every record before the last encoded one is encoded or takes no room. -/
theorem loads_entries_at_records {lines : List SourceLine}
    (directives : ∀ name ∈ ["RESW", "RESB", "BYTE", "WORD"], name ∉ table.keys)
    (assembled : assemble table file source = .ok program)
    (laid : ofSource table file source = .ok layout) (read : source.read file = .ok lines)
    (late : ∀ line ∈ lines, line.origin?.isSome = true → ∀ record ∈ layout.records,
      record.isEnd = false → line.number < record.line) :
    List.Forall₂ (fun record entry => record.entry? table layout.symbols = .ok (some entry))
        (layout.encoded table) program.entries ∧
      (∀ (k : Nat) record, (layout.encoded table)[k]? = some record →
        program.start + 3 * k ≤ record.address) ∧
      program.textLength ≤ layout.length ∧
      ((∀ (k : Nat) record, (layout.encoded table)[k]? = some record →
          record.address = program.start + 3 * k) ↔
        layout.records.Pairwise fun earlier later => later.Encoded table layout.symbols →
          earlier.Encoded table layout.symbols ∨ earlier.bytes = 0) := by
  obtain ⟨_, _, laid_here, read_here, reflects, built⟩ := assemble_ok assembled
  obtain rfl := Except.ok.inj (laid.symm.trans laid_here)
  obtain rfl := Except.ok.inj (read.symm.trans read_here)
  obtain ⟨_, results, started, mapped, rfl⟩ := ObjectProgram.build_ok built
  have begins := started
  rw [reflects.start, Option.map_eq_some_iff] at started
  obtain ⟨start, found, rfl⟩ := started
  obtain ⟨contiguous, counted⟩ :=
    contiguous_of_late reflects found (Source.pairwise_number read) late
  have words : ∀ record ∈ layout.records, record.Encoded table layout.symbols → record.bytes = 3 :=
    fun record member => bytes_of_encoded reflects directives member
  have given : List.Forall₂ (fun record entry => record.entry? table layout.symbols = .ok (some entry))
      (layout.encoded table) (results.filterMap id) := by
    apply forall₂_filterMap_of_mapM _ mapped
    intro record _ result entry
    rw [Record.Encoded, entry, Option.isSome_iff_exists]
    simp
  refine ⟨given, fun k record => Record.le_address_of_chosen words contiguous, ?_,
    Record.address_eq_of_chosen_iff words contiguous⟩
  have bound := Record.length_chosen_le words
  have count : (layout.encoded table).length = (results.filterMap id).length := given.length_eq
  rw [encoded] at count
  rw [ObjectProgram.textLength, Layout.length, begins, counted, ← count, Option.getD_some, wordSize]
  omega

/-- A program of two entries with a record between them that takes no room, and one after them that
does. -/
def tightProgram : Source :=
  .lines [.text "P START 10", .text "A ADD B", .text "B BYTE 5", .text " ADD A", .text "C WORD 1"]

theorem loads_entries_at_records_of_tightProgram :
    ∃ program layout, assemble oneInstruction unnamedSource tightProgram = .ok program ∧
      ofSource oneInstruction unnamedSource tightProgram = .ok layout ∧
      program.start = 0x10 ∧ program.entries = ["180013", "180010"] ∧
      ∀ (k : Nat) record, (layout.encoded oneInstruction)[k]? = some record →
        record.address = program.start + 3 * k := by
  obtain ⟨program, assembled⟩ := exists_ok
    (x := assemble oneInstruction unnamedSource tightProgram) (by decide +kernel)
  obtain ⟨layout, laid⟩ := exists_ok
    (x := ofSource oneInstruction unnamedSource tightProgram) (by decide +kernel)
  obtain ⟨lines, read⟩ := exists_ok (x := tightProgram.read unnamedSource) (by decide +kernel)
  have base : ∀ line ∈ lines, line.origin?.isSome = true → line.number = 1 :=
    of_decide_eq_true (value_of_ok read (fun lines => decide
      (∀ line ∈ lines, line.origin?.isSome = true → line.number = 1)) (by decide +kernel))
  have later : ∀ record ∈ layout.records, record.isEnd = false → 1 < record.line :=
    of_decide_eq_true (value_of_ok laid (fun layout => decide
      (∀ record ∈ layout.records, record.isEnd = false → 1 < record.line)) (by decide +kernel))
  obtain ⟨_, _, _, exactly⟩ := loads_entries_at_records (by decide +kernel) assembled laid read
    fun line member origin record kept inner => base line member origin ▸ later record kept inner
  refine ⟨program, layout, assembled, laid, value_of_ok assembled ObjectProgram.start
    (by decide +kernel), value_of_ok assembled ObjectProgram.entries (by decide +kernel),
    exactly.mpr ?_⟩
  exact of_decide_eq_true (value_of_ok laid (fun layout => decide (layout.records.Pairwise
    fun earlier later => later.Encoded oneInstruction layout.symbols →
      earlier.Encoded oneInstruction layout.symbols ∨ earlier.bytes = 0)) (by decide +kernel))

end Layout

end SicAssembler
