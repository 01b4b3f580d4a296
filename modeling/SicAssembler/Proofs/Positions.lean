import SicAssembler.Proofs.Acceptance
import SicAssembler.Proofs.Warnings

/-!
Lines in other positions. The number of a line and the file it is from are passed on to its record
and its diagnostics and decide nothing else: lines that keep their fields (`KeepsFields`) keep their
addresses and their labels. So lines moved to other numbers have the same warnings, moved with them,
and a program has the same layout, the diagnostics apart, under every file name
(`Layout.ofSource_renamed`).
-/

namespace SicAssembler

/-! ### Lines that keep their fields -/

structure KeepsFields (f : SourceLine → SourceLine) : Prop where
  label (line : SourceLine) : (f line).label = line.label
  mnemonic (line : SourceLine) : (f line).mnemonic = line.mnemonic
  operand (line : SourceLine) : (f line).operand = line.operand

namespace KeepsFields

variable {table : OpcodeTable} {f : SourceLine → SourceLine}

theorem origin? (keeps : KeepsFields f) (line : SourceLine) :
    (f line).origin? = line.origin? := by
  rw [SourceLine.origin?, keeps.mnemonic, keeps.operand, SourceLine.origin?]

theorem occupies_iff (keeps : KeepsFields f) (line : SourceLine) :
    (f line).Occupies table ↔ line.Occupies table := by
  rw [SourceLine.Occupies, keeps.mnemonic, SourceLine.Occupies]

theorem defines_iff (keeps : KeepsFields f) (line : SourceLine) :
    (f line).Defines ↔ line.Defines := by
  rw [SourceLine.Defines, keeps.mnemonic, keeps.label, SourceLine.Defines]

theorem bytes (keeps : KeepsFields f) (line : SourceLine) : (f line).bytes = line.bytes := by
  rw [SourceLine.bytes, keeps.mnemonic, keeps.operand, SourceLine.bytes]

theorem startOf_map (keeps : KeepsFields f) (lines : List SourceLine) :
    startOf (lines.map f) = startOf lines := by
  rw [startOf, List.filterMap_map, startOf]
  simp only [Function.comp_def, keeps.origin?]

theorem nameOf_map (keeps : KeepsFields f) (lines : List SourceLine) :
    nameOf (lines.map f) = nameOf lines := by
  rw [nameOf, List.filter_map, List.getLast?_map, Option.map_map, nameOf]
  simp only [Function.comp_def, keeps.origin?, keeps.label]

theorem counterAfter_map (keeps : KeepsFields f) (lines : List SourceLine) :
    counterAfter table (lines.map f) = counterAfter table lines := by
  induction lines using List.reverseRecOn with
  | nil => rfl
  | append_singleton lines line ih =>
    rw [List.map_append, List.map_singleton]
    have same := keeps.origin? line
    cases origin : line.origin? with
    | some address =>
      rw [counterAfter_concat_of_origin (same.trans origin), counterAfter_concat_of_origin origin]
    | none =>
      rw [counterAfter_concat (same.trans origin), counterAfter_concat origin, ih]
      simp only [keeps.occupies_iff, keeps.bytes]

theorem addressOf?_map (keeps : KeepsFields f) (lines : List SourceLine) (label : String) :
    addressOf? table (lines.map f) label = addressOf? table lines label := by
  induction lines using List.reverseRecOn with
  | nil => rfl
  | append_singleton lines line ih =>
    rw [List.map_append, List.map_singleton, addressOf?_concat, addressOf?_concat, ih,
      keeps.counterAfter_map]
    simp only [keeps.defines_iff, keeps.label]

theorem bindingsOf_map (keeps : KeepsFields f) (lines : List SourceLine) :
    bindingsOf table (lines.map f) = bindingsOf table lines := by
  induction lines using List.reverseRecOn with
  | nil => rfl
  | append_singleton lines line ih =>
    rw [List.map_append, List.map_singleton, bindingsOf_concat, bindingsOf_concat, ih,
      keeps.counterAfter_map]
    simp only [keeps.defines_iff, keeps.label]

/-- Records change as the records of single lines do. -/
theorem recordsOf_map (keeps : KeepsFields f) (change : Record → Record)
    (changed : ∀ line address, (f line).recordAt address = change (line.recordAt address))
    (lines : List SourceLine) :
    recordsOf table (lines.map f) = (recordsOf table lines).map change := by
  induction lines using List.reverseRecOn with
  | nil => rfl
  | append_singleton lines line ih =>
    rw [List.map_append, List.map_singleton, recordsOf_concat, recordsOf_concat, ih,
      keeps.counterAfter_map, List.map_append, changed]
    simp only [keeps.occupies_iff]
    split_ifs <;> rfl

section Warnings

variable {change : Diagnostic → Diagnostic}
  (changed : ∀ line kind message, (f line).warning kind message = change (line.warning kind message))

include changed

theorem labelWarnings (keeps : KeepsFields f) (line : SourceLine) (previous : Option Int)
    (address : Int) :
    (f line).labelWarnings previous address = (line.labelWarnings previous address).map change := by
  unfold SourceLine.labelWarnings SourceLine.redefinition
  simp only [keeps.label, keeps.mnemonic, changed]
  split_ifs
  · rfl
  · rw [List.map_map]
    rfl
  · rfl

theorem fieldWarnings (keeps : KeepsFields f) (line : SourceLine) :
    (f line).fieldWarnings table = (line.fieldWarnings table).map change := by
  unfold SourceLine.fieldWarnings
  simp only [keeps.mnemonic, keeps.operand, keeps.origin?, keeps.occupies_iff, changed]
  split_ifs <;> rfl

/-- Warnings change as the warnings of single lines do, after lines with the same addresses. -/
theorem warnings (keeps : KeepsFields f) {before others : List SourceLine}
    (counter : counterAfter table others = counterAfter table before)
    (address : ∀ label, addressOf? table others label = addressOf? table before label)
    (line : SourceLine) :
    (f line).warnings table others = (line.warnings table before).map change := by
  rw [SourceLine.warnings, SourceLine.warnings, keeps.labelWarnings changed,
    keeps.fieldWarnings changed, keeps.label, address, counter, List.map_append]

theorem diagnosticsOf_map (keeps : KeepsFields f) (lines : List SourceLine) :
    diagnosticsOf table (lines.map f) = (diagnosticsOf table lines).map change := by
  induction lines using List.reverseRecOn with
  | nil => rfl
  | append_singleton lines line ih =>
    rw [List.map_append, List.map_singleton, diagnosticsOf_concat, diagnosticsOf_concat, ih,
      keeps.warnings changed (keeps.counterAfter_map lines) (keeps.addressOf?_map lines),
      List.map_append]

end Warnings

end KeepsFields

/-! ### Other numbers -/

def SourceLine.moved (n : Int) (line : SourceLine) : SourceLine :=
  { line with number := line.number + n }

def Record.moved (n : Int) (record : Record) : Record :=
  if record.isEnd then record else { record with line := record.line + n }

def Diagnostic.moved (n : Int) (diagnostic : Diagnostic) : Diagnostic :=
  { diagnostic with
    location := diagnostic.location.map fun location => { location with line := location.line + n } }

theorem keepsFields_moved (n : Int) : KeepsFields (SourceLine.moved n) :=
  ⟨fun _ => rfl, fun _ => rfl, fun _ => rfl⟩

theorem SourceLine.warning_moved (n : Int) (line : SourceLine) (kind : DiagnosticKind)
    (message : String) :
    (line.moved n).warning kind message = (line.warning kind message).moved n := rfl

theorem recordsOf_map_moved (table : OpcodeTable) (n : Int) (lines : List SourceLine) :
    recordsOf table (lines.map (SourceLine.moved n)) =
      (recordsOf table lines).map (Record.moved n) :=
  (keepsFields_moved n).recordsOf_map (Record.moved n) (fun _ _ => rfl) lines

theorem diagnosticsOf_map_moved (table : OpcodeTable) (n : Int) (lines : List SourceLine) :
    diagnosticsOf table (lines.map (SourceLine.moved n)) =
      (diagnosticsOf table lines).map (Diagnostic.moved n) :=
  (keepsFields_moved n).diagnosticsOf_map (SourceLine.warning_moved n) lines

/-! ### Other files -/

def SourceLine.inFile (file : String) (line : SourceLine) : SourceLine :=
  { line with file }

theorem keepsFields_inFile (file : String) : KeepsFields (SourceLine.inFile file) :=
  ⟨fun _ => rfl, fun _ => rfl, fun _ => rfl⟩

theorem Source.read_renamed {source : Source} {file : String} {lines : List SourceLine}
    (read : source.read file = .ok lines) (other : String) :
    source.read other = .ok (lines.map (SourceLine.inFile other)) := by
  apply mapM_ok_iff.mpr
  rw [List.forall₂_map_right_iff]
  refine (mapM_ok_iff.mp read).imp fun (input, number) line taken => ?_
  cases input with
  | text text =>
    obtain rfl := Except.ok.inj taken
    simp only [LineInput.read, SourceLine.read, SourceLine.inFile]
  | value typeName => cases taken

/-- The name that a program goes by is seen in the diagnostics alone. -/
theorem Layout.ofSource_renamed {table : OpcodeTable} {file : String} {source : Source}
    {layout : Layout} (laid : ofSource table file source = .ok layout) (other : String) :
    ∃ renamed, ofSource table other source = .ok renamed ∧
      layout = { renamed with diagnostics := layout.diagnostics } := by
  have accepted : (ofSource table other source).isOk = true := by
    rw [isOk_ofSource_iff, ← isOk_ofSource_iff table file, laid]
    rfl
  obtain ⟨renamed, again⟩ := exists_ok accepted
  refine ⟨renamed, again, ?_⟩
  obtain ⟨lines, read, reflects⟩ := reflects_of_ofSource laid
  obtain ⟨same, reread, other_reflects⟩ := reflects_of_ofSource again
  obtain rfl := Except.ok.inj ((Source.read_renamed read other).symm.trans reread)
  have keeps := keepsFields_inFile other
  have records : recordsOf table (lines.map (SourceLine.inFile other)) = recordsOf table lines :=
    (keeps.recordsOf_map id (fun _ _ => rfl) lines).trans (List.map_id _)
  change Layout.mk _ _ _ _ _ _ _ = _
  rw [Layout.mk.injEq]
  refine ⟨?_, ?_, ?_, ?_, ?_, rfl, reflects.kept.trans other_reflects.kept.symm⟩
  · rw [reflects.symbols, other_reflects.symbols, keeps.bindingsOf_map]
  · rw [reflects.records, other_reflects.records, records, keeps.counterAfter_map]
  · rw [reflects.start, other_reflects.start, keeps.startOf_map]
  · rw [reflects.name, other_reflects.name, keeps.nameOf_map]
  · rw [reflects.counter, other_reflects.counter, keeps.counterAfter_map]

end SicAssembler
