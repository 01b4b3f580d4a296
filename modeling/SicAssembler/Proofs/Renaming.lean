import Mathlib.Algebra.Group.End
import SicAssembler.Proofs.Fields
import SicAssembler.Proofs.LoadAddresses
import SicAssembler.Proofs.Positions

/-!
Programs under other labels. A label is no numeral, no literal and holds no blank, so to exchange
labels for labels leaves every other reading of an operand as it was (`readDecimal_rename`,
`literalBytes?_rename`). A line and its renamed line (`SourceLine.Renamed`) therefore set, occupy
and define alike, and two programs of such lines come to the same addresses and the same entries.
-/

namespace SicAssembler

/-! ### Labels -/

abbrev Label := { text : String // isLabel text = true }

section Labels

variable {text : String}

theorem exists_cons_of_isLabel (valid : isLabel text = true) :
    ∃ first rest, text.toList = first :: rest ∧ first.isAlpha = true ∧
      ∀ c ∈ rest, c.isAlphanum = true ∨ c = '_' := by
  unfold isLabel at valid
  split at valid
  · cases valid
  · rename_i first rest chars
    rw [Bool.and_eq_true, List.all_eq_true] at valid
    exact ⟨first, rest, chars, valid.1, fun c member => by simpa using valid.2 c member⟩

theorem isAlpha_iff (c : Char) :
    c.isAlpha = true ↔ (65 ≤ c.toNat ∧ c.toNat ≤ 90) ∨ (97 ≤ c.toNat ∧ c.toNat ≤ 122) := by
  change (decide (65 ≤ c.val ∧ c.val ≤ 90) || (decide (97 ≤ c.val) && decide (c.val ≤ 122))) = true
    ↔ _
  simp only [Bool.or_eq_true, Bool.and_eq_true, decide_eq_true_eq, UInt32.le_iff_toNat_le]
  rfl

theorem le_toNat_of_isAlphanum {c : Char} (alphanumeric : c.isAlphanum = true) : 48 ≤ c.toNat := by
  rcases Bool.or_eq_true_iff.mp alphanumeric with letter | digit
  · have bounds := (isAlpha_iff c).mp letter
    omega
  · exact ((Text.isDigit_iff c).mp digit).1

theorem unbroken_of_isLabel (valid : isLabel text = true) : Unbroken text := by
  obtain ⟨first, rest, chars, letter, others⟩ := exists_cons_of_isLabel valid
  intro c member
  apply Text.isBlank_of_le
  rw [chars] at member
  rcases List.mem_cons.mp member with rfl | inside
  · exact le_toNat_of_isAlphanum (by rw [Char.isAlphanum, letter, Bool.true_or])
  · rcases others c inside with alphanumeric | rfl
    · exact le_toNat_of_isAlphanum alphanumeric
    · decide

theorem not_isDecimal_of_isLabel (valid : isLabel text = true) : Text.isDecimal text = false := by
  obtain ⟨first, rest, chars, letter, _⟩ := exists_cons_of_isLabel valid
  have other : first.isDigit = false := by
    rw [← Bool.not_eq_true, Text.isDigit_iff]
    have bounds := (isAlpha_iff first).mp letter
    omega
  simp [Text.isDecimal, chars, other]

theorem literalBytes?_of_isLabel (valid : isLabel text = true) : literalBytes? text = none := by
  obtain ⟨first, rest, chars, _, others⟩ := exists_cons_of_isLabel valid
  have unquoted : ∀ letter, quoted? letter text = none := by
    intro letter
    apply Option.eq_none_iff_forall_ne_some.mpr
    intro inner found
    have quoted := quoted?_eq_some_iff.mp found
    rw [chars, List.cons.injEq] at quoted
    -- The second character would be a quote.
    rcases others '\'' (by rw [quoted.2]; exact List.mem_cons_self) with alphanumeric | same
    · exact absurd alphanumeric (by decide)
    · exact absurd same (by decide)
  rw [literalBytes?, unquoted, unquoted]

/-! ### Other labels -/

/-- A text under other labels, the same if it is none. -/
def rename (f : Equiv.Perm Label) (text : String) : String :=
  Equiv.Perm.ofSubtype f text

variable (f : Equiv.Perm Label)

theorem rename_injective : Function.Injective (rename f) :=
  (Equiv.Perm.ofSubtype f).injective

theorem rename_of_not_isLabel (other : isLabel text = false) : rename f text = text :=
  Equiv.Perm.ofSubtype_apply_of_not_mem f (by simp [other])

theorem isLabel_rename (text : String) : isLabel (rename f text) = isLabel text :=
  Bool.eq_iff_iff.mpr (Equiv.Perm.ofSubtype_apply_mem_iff_mem f text)

theorem rename_empty : rename f "" = "" :=
  rename_of_not_isLabel f not_isLabel_empty

theorem rename_eq_empty_iff : rename f text = "" ↔ text = "" :=
  (rename_injective f).eq_iff' (rename_empty f)

/-- What no label has, a renamed text has exactly as before. -/
theorem eq_of_rename {α : Type} {reading : String → α} {none : α}
    (unread : ∀ {text}, isLabel text = true → reading text = none) (text : String) :
    reading (rename f text) = reading text := by
  cases valid : isLabel text with
  | false => rw [rename_of_not_isLabel f valid]
  | true => rw [unread valid, unread ((isLabel_rename f text).trans valid)]

theorem literalBytes?_rename (text : String) :
    literalBytes? (rename f text) = literalBytes? text :=
  eq_of_rename f literalBytes?_of_isLabel text

theorem readDecimal_rename (text : String) :
    Text.readDecimal (rename f text) = Text.readDecimal text := by
  apply eq_of_rename f
  intro text valid
  rw [readDecimal_eq, not_isDecimal_of_isLabel valid, if_neg Bool.false_ne_true]

theorem isDecimal_rename (text : String) :
    Text.isDecimal (rename f text) = Text.isDecimal text :=
  eq_of_rename f not_isDecimal_of_isLabel text

theorem rename_of_isDecimal (decimal : Text.isDecimal text = true) : rename f text = text := by
  apply rename_of_not_isLabel
  by_contra valid
  rw [not_isDecimal_of_isLabel (Bool.not_eq_false _ ▸ valid)] at decimal
  cases decimal

theorem unbroken_rename (unbroken : Unbroken text) : Unbroken (rename f text) := by
  cases valid : isLabel text with
  | false => rwa [rename_of_not_isLabel f valid]
  | true => exact unbroken_of_isLabel ((isLabel_rename f text).trans valid)

end Labels

variable (f : Equiv.Perm Label)

/-! ### One line -/

namespace SourceLine

/-- A line and the same line under other labels. A `START` keeps its fields, for its label is a name
and its operand an address. -/
structure Renamed (line renamed : SourceLine) : Prop where
  mnemonic : renamed.mnemonic = line.mnemonic
  label : renamed.label = if line.mnemonic = "START" then line.label else rename f line.label
  operand :
    renamed.operand = if line.mnemonic = "START" then line.operand else rename f line.operand
  number : renamed.number = line.number

variable {f} {table : OpcodeTable} {line renamed : SourceLine}

theorem Renamed.of_not_start (same : line.Renamed f renamed) (other : line.mnemonic ≠ "START") :
    renamed.label = rename f line.label ∧ renamed.operand = rename f line.operand := by
  rw [same.label, same.operand, if_neg other, if_neg other]
  exact ⟨rfl, rfl⟩

theorem Renamed.origin? (same : line.Renamed f renamed) : renamed.origin? = line.origin? := by
  unfold SourceLine.origin?
  rw [same.mnemonic]
  split_ifs with start
  · rw [same.operand, if_pos start]
  · rfl

theorem Renamed.occupies_iff (same : line.Renamed f renamed) :
    renamed.Occupies table ↔ line.Occupies table := by
  rw [Occupies, same.mnemonic, Occupies]

theorem Renamed.defines_iff (same : line.Renamed f renamed) : renamed.Defines ↔ line.Defines := by
  unfold Defines
  rw [same.mnemonic]
  refine and_congr_right fun other => ?_
  rw [(same.of_not_start other).1, isLabel_rename]

theorem Renamed.acceptable_iff (same : line.Renamed f renamed) :
    renamed.Acceptable ↔ line.Acceptable := by
  unfold Acceptable
  rw [same.mnemonic]
  refine imp_congr_right fun reservation => ?_
  have other : line.mnemonic ≠ "START" := by
    rintro start
    simp [start] at reservation
  rw [(same.of_not_start other).2, isDecimal_rename]
  refine and_congr_right fun decimal => ?_
  rw [rename_of_isDecimal f decimal]

theorem Renamed.bytes (same : line.Renamed f renamed) (acceptable : line.Acceptable) :
    renamed.bytes = line.bytes := by
  -- A reservation that was accepted has a numeral for its operand, which no renaming touches.
  unfold SourceLine.bytes
  rw [same.mnemonic]
  split_ifs with words reserved filled
  · have operand := (same.of_not_start (by rw [words]; decide)).2
    rw [operand, rename_of_isDecimal f (acceptable (.inl words)).1]
  · have operand := (same.of_not_start (by rw [reserved]; decide)).2
    rw [operand, rename_of_isDecimal f (acceptable (.inr reserved)).1]
  · have operand := (same.of_not_start (by rw [filled]; decide)).2
    rw [operand, literalBytes?_rename]
  · rfl

theorem Renamed.kind_labelWarnings (same : line.Renamed f renamed) (previous : Option Int)
    (address : Int) :
    (renamed.labelWarnings previous address).map Diagnostic.kind =
      (line.labelWarnings previous address).map Diagnostic.kind := by
  unfold labelWarnings
  rw [same.mnemonic]
  by_cases start : line.mnemonic = "START"
  · rw [if_pos (.inl start), if_pos (.inl start)]
  · have named : renamed.label = "" ↔ line.label = "" := by
      rw [(same.of_not_start start).1, rename_eq_empty_iff]
    have valid : isLabel renamed.label = isLabel line.label := by
      rw [(same.of_not_start start).1, isLabel_rename]
    simp only [named, valid]
    split_ifs
    · rfl
    · cases previous <;> rfl
    · rfl

theorem Renamed.kind_fieldWarnings (same : line.Renamed f renamed) (table : OpcodeTable) :
    (renamed.fieldWarnings table).map Diagnostic.kind =
      (line.fieldWarnings table).map Diagnostic.kind := by
  unfold fieldWarnings
  rw [same.mnemonic, same.origin?]
  by_cases filled : line.mnemonic = "BYTE"
  · have literal : literalBytes? renamed.operand = literalBytes? line.operand := by
      rw [(same.of_not_start (by rw [filled]; decide)).2, literalBytes?_rename]
    rw [literal]
    simp only [filled]
    split_ifs <;> rfl
  · simp only [filled, if_false, same.occupies_iff]
    split_ifs <;> rfl

end SourceLine

/-! ### A run of lines -/

/-- Lists that agree item by item are built up from their ends alike. -/
@[elab_as_elim]
theorem forall₂_concat_induction {α β : Type} {R : α → β → Prop}
    {motive : ∀ xs ys, List.Forall₂ R xs ys → Prop} (nil : motive [] [] .nil)
    (concat : ∀ xs ys x y (front : List.Forall₂ R xs ys) (last : R x y), motive xs ys front →
      motive (xs ++ [x]) (ys ++ [y]) (List.rel_append front (.cons last .nil)))
    {xs : List α} {ys : List β} (related : List.Forall₂ R xs ys) : motive xs ys related := by
  have backwards : ∀ {xs ys} (related : List.Forall₂ R xs ys),
      motive xs.reverse ys.reverse (List.forall₂_reverse_iff.mpr related) := by
    intro xs ys related
    induction related with
    | nil => exact nil
    | cons first rest ih =>
      simp only [List.reverse_cons]
      exact concat _ _ _ _ _ first ih
  have reversed := List.forall₂_reverse_iff.mpr related
  simpa only [List.reverse_reverse] using backwards reversed

def Record.renamed (record : Record) : Record :=
  { record with label := rename f record.label, operand := rename f record.operand }

section Run

variable {f} {table : OpcodeTable} {lines others : List SourceLine}

abbrev Renamings (f : Equiv.Perm Label) (lines others : List SourceLine) : Prop :=
  List.Forall₂ (fun line renamed => line.Renamed f renamed ∧ line.Acceptable) lines others

namespace Renamings

theorem counterAfter_eq (same : Renamings f lines others) :
    counterAfter table others = counterAfter table lines := by
  induction same using forall₂_concat_induction with
  | nil => rfl
  | concat lines others line renamed _ related ih =>
    obtain ⟨same, acceptable⟩ := related
    have origin := same.origin?
    cases set : line.origin? with
    | some address =>
      rw [counterAfter_concat_of_origin set, counterAfter_concat_of_origin (origin.trans set)]
    | none =>
      rw [counterAfter_concat set, counterAfter_concat (origin.trans set), ih,
        same.bytes acceptable]
      simp only [same.occupies_iff]

theorem startOf_eq (same : Renamings f lines others) : startOf others = startOf lines := by
  induction same using forall₂_concat_induction with
  | nil => rfl
  | concat lines others line renamed _ related ih =>
    rw [startOf_concat, startOf_concat, ih, related.1.origin?]

theorem nameOf_eq (same : Renamings f lines others) : nameOf others = nameOf lines := by
  induction same using forall₂_concat_induction with
  | nil => rfl
  | concat lines others line renamed _ related ih =>
    rw [nameOf_concat, nameOf_concat, ih, related.1.origin?]
    split_ifs with set
    · rw [related.1.label, if_pos (SourceLine.mnemonic_of_origin set)]
    · rfl

theorem bindingsOf_eq (same : Renamings f lines others) :
    bindingsOf table others = (bindingsOf table lines).map (Prod.map (rename f) id) := by
  induction same using forall₂_concat_induction with
  | nil => rfl
  | concat lines others line renamed front related ih =>
    rw [bindingsOf_concat, bindingsOf_concat, ih, counterAfter_eq front, List.map_append]
    simp only [related.1.defines_iff]
    split_ifs with defines
    · rw [(related.1.of_not_start defines.1).1]
      rfl
    · rfl

theorem get?_symbols (same : Renamings f lines others) (label : String) :
    (addressOf? table others (rename f label)).map Nat.cast =
      (addressOf? table lines label).map (Nat.cast : Nat → Int) := by
  rw [← get?_ofList_bindingsOf, ← get?_ofList_bindingsOf, bindingsOf_eq same,
    OrderedMap.get?_of_entries_map (rename_injective f) id
      (OrderedMap.entries_ofList_map (rename_injective f) id _), Option.map_id]
  rfl

theorem recordsOf_eq (same : Renamings f lines others) :
    recordsOf table others = (recordsOf table lines).map (Record.renamed f) := by
  induction same using forall₂_concat_induction with
  | nil => rfl
  | concat lines others line renamed front related ih =>
    rw [recordsOf_concat, recordsOf_concat, ih, counterAfter_eq front, List.map_append]
    simp only [related.1.occupies_iff]
    split_ifs with occupies
    · obtain ⟨label, operand⟩ := related.1.of_not_start occupies.mnemonic_ne_start
      simp only [SourceLine.recordAt, Record.renamed, List.map_singleton, label, operand,
        related.1.mnemonic, related.1.number]
    · rfl

theorem bytes_recordsOf (same : Renamings f lines others) :
    (recordsOf table others).map Record.bytes = (recordsOf table lines).map Record.bytes := by
  induction same using forall₂_concat_induction with
  | nil => rfl
  | concat lines others line renamed front related ih =>
    rw [recordsOf_concat, recordsOf_concat, List.map_append, List.map_append, ih]
    simp only [related.1.occupies_iff]
    split_ifs
    · rw [List.map_singleton, List.map_singleton, Record.bytes_recordAt, Record.bytes_recordAt,
        related.1.bytes related.2]
    · rfl

theorem kind_diagnosticsOf (same : Renamings f lines others) :
    (diagnosticsOf table others).map Diagnostic.kind =
      (diagnosticsOf table lines).map Diagnostic.kind := by
  induction same using forall₂_concat_induction with
  | nil => rfl
  | concat lines others line renamed front related ih =>
    have previous : line.mnemonic ≠ "START" →
        (addressOf? table others renamed.label).map Nat.cast =
          (addressOf? table lines line.label).map (Nat.cast : Nat → Int) := by
      intro other
      rw [(related.1.of_not_start other).1, get?_symbols front]
    rw [diagnosticsOf_concat, diagnosticsOf_concat, List.map_append, List.map_append, ih,
      SourceLine.warnings, SourceLine.warnings, List.map_append, List.map_append,
      related.1.kind_labelWarnings, related.1.kind_fieldWarnings, counterAfter_eq front]
    congr 2
    by_cases start : line.mnemonic = "START"
    · simp only [SourceLine.labelWarnings, start, true_or, if_true]
    · rw [previous start]

end Renamings

end Run

/-! ### Entries -/

section Entries

variable {f} {codes : OpcodeTable} {symbols symbols' : SymbolTable}

theorem resolve_rename (bound : ∀ label, symbols'.get? (rename f label) = symbols.get? label)
    (operand : String) : resolve symbols' (rename f operand) = resolve symbols operand := by
  rw [resolve, resolve, bound, readDecimal_rename]

theorem Record.entry?_renamed
    (bound : ∀ label, symbols'.get? (rename f label) = symbols.get? label) (record : Record) :
    Record.entry? codes symbols' (record.renamed f) = record.entry? codes symbols := by
  have present : (rename f record.operand).isEmpty = record.operand.isEmpty := by
    rw [Bool.eq_iff_iff, String.isEmpty_iff, String.isEmpty_iff, rename_eq_empty_iff]
  have has : (record.renamed f).hasOperand = record.hasOperand := by
    simp only [hasOperand, renamed, present]
  have code : (record.renamed f).code? codes = record.code? codes := by
    rw [code?, has]
    rfl
  have operand : (record.renamed f).operand = rename f record.operand := rfl
  rw [entry?_eq, entry?_eq, code, operand, resolve_rename bound]

end Entries

/-! ### Programs written from fields -/

structure LineFields where
  label : String
  mnemonic : String
  operand : String
  label_unbroken : Unbroken label := by decide +kernel
  mnemonic_unbroken : Unbroken mnemonic := by decide +kernel
  operand_unbroken : Unbroken operand := by decide +kernel
  bare : mnemonic = "" → operand = "" := by decide +kernel

namespace LineFields

def text (line : LineFields) : String :=
  line.label ++ " " ++ line.mnemonic ++ " " ++ line.operand

/-- The fields under other labels, those of a `START` apart. -/
def renamed (line : LineFields) : LineFields :=
  if line.mnemonic = "START" then line
  else
    { label := rename f line.label
      mnemonic := line.mnemonic
      operand := rename f line.operand
      label_unbroken := unbroken_rename f line.label_unbroken
      mnemonic_unbroken := line.mnemonic_unbroken
      operand_unbroken := unbroken_rename f line.operand_unbroken
      bare := fun empty => (rename_eq_empty_iff f).mpr (line.bare empty) }

theorem read_text (file : String) (number : Int) (line : LineFields) :
    (SourceLine.read file number line.text).label = line.label ∧
      (SourceLine.read file number line.text).mnemonic = line.mnemonic ∧
      (SourceLine.read file number line.text).operand = line.operand := by
  obtain ⟨label, mnemonic, operand⟩ := SourceLine.read_fields file number line.text
  rw [label, mnemonic, operand]
  exact nthField_written line.label_unbroken line.mnemonic_unbroken line.operand_unbroken line.bare

theorem renamed_read (file : String) (number : Int) (line : LineFields) :
    (SourceLine.read file number line.text).Renamed f
      (SourceLine.read file number (line.renamed f).text) := by
  obtain ⟨label, mnemonic, operand⟩ := read_text file number line
  obtain ⟨label', mnemonic', operand'⟩ := read_text file number (line.renamed f)
  constructor
  · rw [mnemonic', mnemonic, renamed]
    split_ifs <;> rfl
  · rw [label', label, mnemonic, renamed]
    split_ifs <;> rfl
  · rw [operand', operand, mnemonic, renamed]
    split_ifs <;> rfl
  · simp only [SourceLine.read]

end LineFields

def writtenProgram (lines : List LineFields) : Source :=
  .lines (lines.map fun line => .text line.text)

theorem read_writtenProgram (file : String) (lines : List LineFields) :
    (writtenProgram lines).read file =
      .ok ((lines.zipIdx 1).map fun entry => SourceLine.read file entry.2 entry.1.text) := by
  have inputs : (writtenProgram lines).inputs =
      (lines.map LineFields.text).map LineInput.text := by
    rw [List.map_map]
    rfl
  rw [Source.read_texts inputs, List.zipIdx_map, List.map_map]
  rfl

theorem isOk_writtenProgram_renamed (table : OpcodeTable) (file : String)
    (lines : List LineFields) :
    (Layout.ofSource table file (writtenProgram (lines.map (LineFields.renamed f)))).isOk =
      (Layout.ofSource table file (writtenProgram lines)).isOk := by
  rw [Bool.eq_iff_iff, Layout.isOk_ofSource_iff, Layout.isOk_ofSource_iff]
  simp only [writtenProgram, Source.inputs, List.forall_mem_map]
  refine forall₂_congr fun line _ => ?_
  rw [LineInput.acceptable_text_iff file 1, LineInput.acceptable_text_iff file 1]
  exact (line.renamed_read f file 1).acceptable_iff

theorem renamings_of_ofSource {table : OpcodeTable} {file : String} {lines : List LineFields}
    {layout : Layout} (laid : Layout.ofSource table file (writtenProgram lines) = .ok layout) :
    Renamings f ((lines.zipIdx 1).map fun entry => SourceLine.read file entry.2 entry.1.text)
      (((lines.map (LineFields.renamed f)).zipIdx 1).map fun entry =>
        SourceLine.read file entry.2 entry.1.text) := by
  have accepted := (Layout.isOk_ofSource_iff table file (writtenProgram lines)).mp
    (by rw [laid]; rfl)
  simp only [writtenProgram, Source.inputs, List.forall_mem_map] at accepted
  rw [List.zipIdx_map, List.map_map, Renamings, List.forall₂_map_left_iff,
    List.forall₂_map_right_iff, List.forall₂_same]
  intro entry member
  have present := List.fst_mem_of_mem_zipIdx member
  exact ⟨entry.1.renamed_read f file entry.2,
    (LineInput.acceptable_text_iff file entry.2 _).mp (accepted entry.1 present)⟩

namespace Layout

/-- A program written from fields, and the same program under other labels. Both are laid out or
neither, with the same addresses, sizes, start, name and kinds of diagnostics; the records and the
symbol table are the same under the other labels; and the object programs are the same. -/
theorem lays_out_renamed (table : OpcodeTable) (file : String) (lines : List LineFields) :
    (ofSource table file (writtenProgram (lines.map (LineFields.renamed f)))).isOk =
        (ofSource table file (writtenProgram lines)).isOk ∧
      ∀ x y, ofSource table file (writtenProgram lines) = .ok x →
        ofSource table file (writtenProgram (lines.map (LineFields.renamed f))) = .ok y →
        y.records = x.records.map (Record.renamed f) ∧
        y.records.map Record.bytes = x.records.map Record.bytes ∧
        y.counter = x.counter ∧ y.start = x.start ∧ y.name = x.name ∧ y.length = x.length ∧
        y.diagnostics.map Diagnostic.kind = x.diagnostics.map Diagnostic.kind ∧
        y.symbols.entries = x.symbols.entries.map (Prod.map (rename f) id) ∧
        ∀ codes, y.object codes = x.object codes := by
  refine ⟨isOk_writtenProgram_renamed f table file lines, fun x y laid again => ?_⟩
  have same := renamings_of_ofSource f laid
  -- What each layout holds is known of its lines, and the lines are renamings of each other.
  obtain ⟨own, read, reflects⟩ := reflects_of_ofSource laid
  obtain ⟨others, reread, other_reflects⟩ := reflects_of_ofSource again
  obtain rfl := Except.ok.inj ((read_writtenProgram file lines).symm.trans read)
  obtain rfl := Except.ok.inj ((read_writtenProgram file _).symm.trans reread)
  have noted := diagnostics_eq laid read
  have other_noted := diagnostics_eq again reread
  generalize (lines.zipIdx 1).map (fun entry => SourceLine.read file entry.2 entry.1.text) = own
    at same reflects noted
  generalize ((lines.map (LineFields.renamed f)).zipIdx 1).map (fun entry =>
    SourceLine.read file entry.2 entry.1.text) = others at same other_reflects other_noted
  have counter : y.counter = x.counter := by
    rw [other_reflects.counter, reflects.counter, same.counterAfter_eq]
  have start : y.start = x.start := by
    rw [other_reflects.start, reflects.start, same.startOf_eq]
  have name : y.name = x.name := by
    rw [other_reflects.name, reflects.name, same.nameOf_eq]
  have records : y.records = x.records.map (Record.renamed f) := by
    have finish : (Record.finish (counterAfter table own)).renamed f =
        Record.finish (counterAfter table own) := by
      simp only [Record.renamed, Record.finish, rename_empty]
    rw [other_reflects.records, reflects.records, same.recordsOf_eq, same.counterAfter_eq,
      List.map_append, List.map_singleton, finish]
  have symbols : y.symbols.entries = x.symbols.entries.map (Prod.map (rename f) id) := by
    rw [other_reflects.symbols, reflects.symbols, same.bindingsOf_eq,
      OrderedMap.entries_ofList_map (rename_injective f)]
  have bound : ∀ label, y.symbols.get? (rename f label) = x.symbols.get? label := by
    intro label
    rw [OrderedMap.get?_of_entries_map (rename_injective f) id symbols, Option.map_id]
    rfl
  refine ⟨records, ?_, counter, start, name, ?_, ?_, symbols, fun codes => ?_⟩
  · rw [other_reflects.records, reflects.records, List.map_append, List.map_append,
      same.bytes_recordsOf, same.counterAfter_eq]
  · rw [length, length, counter, start]
  · rw [noted, other_noted, same.kind_diagnosticsOf]
  · unfold object ObjectProgram.build
    rw [records, start, name]
    simp only [List.mapM_map, Function.comp_def, Record.entry?_renamed bound]

/-- A program in which `ABC` is a name, an address and a label. -/
def ambiguousProgram : List LineFields :=
  [{ label := "ABC", mnemonic := "START", operand := "ABC" },
    { label := "A", mnemonic := "ADD", operand := "ABC" },
    { label := "ABC", mnemonic := "BYTE", operand := "C'A'" },
    { label := "", mnemonic := "ADD", operand := "A" },
    { label := "A", mnemonic := "RESW", operand := "2" },
    { label := "", mnemonic := "ADD", operand := "X" }]

def swappedLabels : Equiv.Perm Label := Equiv.swap ⟨"A", rfl⟩ ⟨"ABC", rfl⟩

theorem lays_out_renamed_of_ambiguousProgram :
    ∃ x y, ofSource oneInstruction unnamedSource (writtenProgram ambiguousProgram) = .ok x ∧
      ofSource oneInstruction unnamedSource
        (writtenProgram (ambiguousProgram.map (LineFields.renamed swappedLabels))) = .ok y ∧
      x.symbols.entries = [("A", 0xAC3), ("ABC", 0xABF)] ∧
      y.symbols.entries = [("ABC", 0xAC3), ("A", 0xABF)] ∧ y.name = "ABC" ∧
      y.object oneInstruction =
        .ok { name := "ABC", start := 0xABC, entries := ["180ABF", "180AC3", "180000"] } := by
  obtain ⟨accepted, law⟩ :=
    lays_out_renamed swappedLabels oneInstruction unnamedSource ambiguousProgram
  obtain ⟨x, laid⟩ := exists_ok
    (x := ofSource oneInstruction unnamedSource (writtenProgram ambiguousProgram))
    (by decide +kernel)
  obtain ⟨y, again⟩ := exists_ok (accepted.trans (by rw [laid]; rfl))
  obtain ⟨_, _, _, _, name, _, _, symbols, objects⟩ := law x y laid again
  have entries : x.symbols.entries = [("A", 0xAC3), ("ABC", 0xABF)] :=
    value_of_ok laid (fun layout => layout.symbols.entries) (by decide +kernel)
  refine ⟨x, y, laid, again, entries, ?_, name.trans (value_of_ok laid Layout.name
    (by decide +kernel)), ?_⟩
  · rw [symbols, entries]
    decide +kernel
  · rw [objects]
    exact value_of_ok laid (fun layout => layout.object oneInstruction) (by decide +kernel)

end Layout

end SicAssembler
