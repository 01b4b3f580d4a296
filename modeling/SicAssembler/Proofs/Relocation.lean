import SicAssembler.Proofs.Concatenation
import SicAssembler.Proofs.LoadAddresses
import SicAssembler.Proofs.Replacement

/-!
Programs at other addresses. The lines after the one base of a program are laid out as if they
began at zero and then moved there (`located_cons_of_origin`), so another operand of that `START`
moves every address by the same distance (`Layout.Shifted`). In the object program the operands that
are labels move with them; numerals and operands without a value stay (`Relocates`).
-/

namespace SicAssembler

variable {table : OpcodeTable} {before after : List SourceLine} {first other line : SourceLine}
  {start address : Nat}

/-! ### Lines after the one base -/

def Record.shifted (d : Int) (record : Record) : Record :=
  { record with address := record.address + d }

theorem Record.shifted_shifted (a b : Int) (record : Record) :
    (record.shifted a).shifted b = record.shifted (a + b) := by
  simp only [shifted, Int.add_assoc]

theorem counterAfter_cons_of_origin (set : first.origin? = some start)
    (plain : ∀ line ∈ after, line.origin? = none) :
    counterAfter table (first :: after) = start + counterAfter table after := by
  have alone := counterAfter_append_of_plain table [] plain
  have behind := counterAfter_append_of_plain table [first] plain
  have base : counterAfter table [first] = start := by
    rw [← List.nil_append [first], counterAfter_concat_of_origin set]
  have zero : counterAfter table [] = 0 := rfl
  rw [List.nil_append, zero, Nat.zero_add] at alone
  rw [List.singleton_append, base] at behind
  rw [behind, alone]

/-- The addresses after a base are those of the lines alone, counted from it. -/
theorem located_cons_of_origin (set : first.origin? = some start)
    (plain : ∀ line ∈ after, line.origin? = none) :
    located table (first :: after) =
      (first, 0) :: (located table after).map (Prod.map id (start + ·)) := by
  induction after using List.reverseRecOn with
  | nil => exact located_concat [] first
  | append_singleton after line ih =>
    have earlier : ∀ line ∈ after, line.origin? = none :=
      fun line member => plain line (List.mem_append_left _ member)
    rw [← List.cons_append, located_concat, ih earlier, located_concat, List.map_append,
      counterAfter_cons_of_origin set earlier, List.cons_append]
    rfl

theorem recordsOf_of_base (set : first.origin? = some start)
    (plain : ∀ line ∈ after, line.origin? = none)
    (empty : ∀ line ∈ before, ¬line.Occupies table) :
    recordsOf table (before ++ first :: after) =
      (recordsOf table after).map (Record.shifted start) := by
  have some_origin : first.origin?.isSome = true := by rw [set]; rfl
  have absent : ¬first.Occupies table :=
    fun occupies => occupies.mnemonic_ne_start (SourceLine.mnemonic_of_origin some_origin)
  rw [recordsOf_append_of_origin _ _ some_origin, recordsOf_eq_nil empty, List.nil_append, recordsOf,
    located_cons_of_origin set plain, List.filter_cons_of_neg (by simpa using absent), recordsOf,
    List.filter_map, List.map_map, List.map_map]
  congr 1
  funext entry
  simp only [Function.comp_apply, Prod.map_fst, Prod.map_snd, id, SourceLine.recordAt,
    Record.shifted, Int.natCast_add, Int.add_comm]

theorem bindingsOf_of_base (set : first.origin? = some start)
    (plain : ∀ line ∈ after, line.origin? = none) (silent : ∀ line ∈ before, ¬line.Defines) :
    bindingsOf table (before ++ first :: after) =
      (bindingsOf table after).map (Prod.map id (· + (start : Int))) := by
  have some_origin : first.origin?.isSome = true := by rw [set]; rfl
  have undefined : ¬first.Defines :=
    fun defines => defines.1 (SourceLine.mnemonic_of_origin some_origin)
  have none_before : bindingsOf table before = [] := by
    rw [bindingsOf, List.map_eq_nil_iff, List.filter_eq_nil_iff]
    intro entry member
    obtain ⟨earlier, rest, rfl, _⟩ := exists_split_of_mem_located member
    simpa using silent entry.1 (by simp)
  rw [bindingsOf_append_of_origin _ _ some_origin, none_before, List.nil_append, bindingsOf,
    located_cons_of_origin set plain, List.filter_cons_of_neg (by simpa using undefined),
    bindingsOf, List.filter_map, List.map_map, List.map_map]
  congr 1
  funext entry
  simp only [Function.comp_apply, Prod.map, id, Int.natCast_add, Int.add_comm]

theorem startOf_of_base (before : List SourceLine) (set : first.origin? = some start)
    (plain : ∀ line ∈ after, line.origin? = none) :
    startOf (before ++ first :: after) = some start := by
  have later : startOf after = none := by
    rw [startOf, List.filterMap_eq_nil_iff.mpr plain]
    rfl
  have here : startOf [first] = some start := by simp [startOf, set]
  rw [startOf_append, ← List.singleton_append, startOf_append, later, Option.none_or, here]
  rfl

theorem nameOf_of_base (before : List SourceLine) (set : first.origin? = some start)
    (plain : ∀ line ∈ after, line.origin? = none) :
    nameOf (before ++ first :: after) = first.label := by
  have dropped : after.filter (fun line => line.origin?.isSome) = [] := by
    rw [List.filter_eq_nil_iff]
    intro line member
    rw [plain line member]
    exact Bool.false_ne_true
  rw [nameOf, List.filter_append, List.filter_cons_of_pos (by rw [set]; rfl), dropped,
    List.getLast?_concat]
  rfl

/-! ### Warnings -/

/-- What a diagnostic is about and where, its wording apart. -/
def Diagnostic.outline (diagnostic : Diagnostic) : DiagnosticKind × Option Location :=
  (diagnostic.kind, diagnostic.location)

theorem SourceLine.outline_labelWarnings {previous previous' : Option Int}
    (same : previous.isSome = previous'.isSome) (address address' : Int) :
    (line.labelWarnings previous address).map Diagnostic.outline =
      (line.labelWarnings previous' address').map Diagnostic.outline := by
  unfold labelWarnings
  split_ifs
  · rfl
  · cases previous <;> cases previous' <;> first | rfl | cases same
  · rfl

theorem isSome_addressOf?_exchange (label : String) (undefined : ¬first.Defines)
    (undefined' : ¬other.Defines) :
    (addressOf? table (before ++ first :: after) label).isSome =
      (addressOf? table (before ++ other :: after) label).isSome := by
  have labels : labelsOf table (before ++ first :: after) =
      labelsOf table (before ++ other :: after) := by
    rw [labelsOf, labelsOf, keys_ofList_bindingsOf, keys_ofList_bindingsOf, List.filter_append,
      List.filter_append, List.filter_cons_of_neg (by simpa using undefined),
      List.filter_cons_of_neg (by simpa using undefined')]
  rw [Bool.eq_iff_iff, ← mem_labelsOf_iff, ← mem_labelsOf_iff, labels]

/-- Another base is seen in the wording of the diagnostics alone. -/
theorem outline_diagnosticsOf_exchange (set : first.origin?.isSome = true)
    (set' : other.origin?.isSome = true) (before after : List SourceLine) :
    (diagnosticsOf table (before ++ other :: after)).map Diagnostic.outline =
      (diagnosticsOf table (before ++ first :: after)).map Diagnostic.outline := by
  induction after using List.reverseRecOn with
  | nil =>
    rw [diagnosticsOf_concat, diagnosticsOf_concat, SourceLine.warnings_of_origin set,
      SourceLine.warnings_of_origin set']
  | append_singleton after line ih =>
    -- The counter and the former address differ, but both are seen in the wording only.
    have known : ((addressOf? table (before ++ other :: after) line.label).map Int.ofNat).isSome =
        ((addressOf? table (before ++ first :: after) line.label).map Int.ofNat).isSome := by
      rw [Option.isSome_map, Option.isSome_map]
      exact isSome_addressOf?_exchange line.label
        (fun defines => defines.1 (SourceLine.mnemonic_of_origin set'))
        (fun defines => defines.1 (SourceLine.mnemonic_of_origin set))
    rw [← List.cons_append, ← List.cons_append, ← List.append_assoc, ← List.append_assoc,
      diagnosticsOf_concat, diagnosticsOf_concat, List.map_append, List.map_append, ih,
      SourceLine.warnings, SourceLine.warnings, List.map_append, List.map_append]
    congr 2
    exact SourceLine.outline_labelWarnings known _ _

/-! ### Entries -/

section Entries

variable {symbols symbols' : SymbolTable} {d : Int}

/-- An entry of a record and what it becomes at a distance: the same, unless its operand is a label
that has an address, which is moved. -/
def Relocates (table : OpcodeTable) (symbols : SymbolTable) (d : Int) (record : Record)
    (entry moved : String) : Prop :=
  match symbols.get? record.operand with
  | some address => ∃ code, table.get? record.mnemonic = some code ∧
    entry = code ++ addressText address ∧ moved = code ++ addressText (address + d)
  | none => moved = entry

/-- A record gives an entry at both places, or the same result without one. -/
theorem Record.entry?_of_shifted
    (bound : ∀ label, symbols'.get? label = (symbols.get? label).map (· + d)) (record : Record) :
    (∃ entry moved, record.entry? table symbols = .ok (some entry) ∧
      Record.entry? table symbols' (record.shifted d) = .ok (some moved) ∧
      Relocates table symbols d record entry moved) ∨
    ¬record.Encoded table symbols ∧
      Record.entry? table symbols' (record.shifted d) = record.entry? table symbols := by
  have same : (record.shifted d).code? table = record.code? table := rfl
  have operand : (record.shifted d).operand = record.operand := rfl
  unfold Encoded
  rw [entry?_eq, entry?_eq, same, operand]
  cases coded : record.code? table with
  | none => exact .inr ⟨by simp, rfl⟩
  | some code =>
    have found : table.get? record.mnemonic = some code := by
      unfold code? at coded
      split_ifs at coded
      exact coded
    unfold resolve Relocates
    rw [bound]
    cases symbols.get? record.operand with
    | some address => exact .inl ⟨_, _, rfl, rfl, code, found, rfl, rfl⟩
    | none =>
      rw [Option.map_none]
      cases Text.readDecimal record.operand with
      | notDecimal => exact .inl ⟨_, _, rfl, rfl, rfl⟩
      | value n => exact .inl ⟨_, _, rfl, rfl, rfl⟩
      | tooLong digits =>
        refine .inr ⟨?_, rfl⟩
        rintro ⟨_, given⟩
        cases given

theorem Record.encoded_shifted_iff
    (bound : ∀ label, symbols'.get? label = (symbols.get? label).map (· + d)) (record : Record) :
    (record.shifted d).Encoded table symbols' ↔ record.Encoded table symbols := by
  rcases entry?_of_shifted bound record with ⟨entry, moved, given, again, _⟩ | ⟨_, same⟩
  · exact iff_of_true ⟨moved, again⟩ ⟨entry, given⟩
  · rw [Encoded, same, Encoded]

theorem Record.isOk_entry?_shifted
    (bound : ∀ label, symbols'.get? label = (symbols.get? label).map (· + d)) (record : Record) :
    (Record.entry? table symbols' (record.shifted d)).isOk = (record.entry? table symbols).isOk := by
  rcases entry?_of_shifted bound record with ⟨entry, moved, given, again, _⟩ | ⟨_, same⟩
  · rw [given, again]
    rfl
  · rw [same]

end Entries

theorem forall₂_zip {α β γ : Type} {R : α → β → Prop} {S : α → γ → Prop} {T : α → β × γ → Prop}
    (both : ∀ a b c, R a b → S a c → T a (b, c)) {xs : List α} {ys : List β} {zs : List γ}
    (first : List.Forall₂ R xs ys) (second : List.Forall₂ S xs zs) :
    List.Forall₂ T xs (ys.zip zs) := by
  induction first generalizing zs with
  | nil => exact .nil
  | cons head _ ih =>
    cases second with
    | cons head' rest' => exact .cons (both _ _ _ head head') (ih rest')

/-! ### Layouts at a distance -/

namespace Layout

variable {layout moved : Layout} {program image : ObjectProgram} {d : Int}

/-- A layout and the same layout at a distance: all addresses are moved, and the names, the lengths,
the fields of the records, the order of the labels and what is warned about where stay. -/
structure Shifted (d : Int) (layout moved : Layout) : Prop where
  records : moved.records = layout.records.map (Record.shifted d)
  symbols : moved.symbols.entries = layout.symbols.entries.map (Prod.map id (· + d))
  counter : moved.counter = layout.counter + d
  start : moved.start = layout.start.map (· + d)
  name : moved.name = layout.name
  length : moved.length = layout.length
  diagnostics : moved.diagnostics.map Diagnostic.outline = layout.diagnostics.map Diagnostic.outline

theorem Shifted.get?_symbols (shifted : layout.Shifted d moved) (label : String) :
    moved.symbols.get? label = (layout.symbols.get? label).map (· + d) :=
  OrderedMap.get?_of_entries_map Function.injective_id _ shifted.symbols label

theorem Shifted.isOk_object (shifted : layout.Shifted d moved) (table : OpcodeTable) :
    (moved.object table).isOk = (layout.object table).isOk := by
  unfold object ObjectProgram.build
  rw [shifted.start, shifted.records]
  cases layout.start with
  | none => rfl
  | some start =>
    rw [Option.map_some]
    simp only [isOk_bind_pure]
    rw [Bool.eq_iff_iff, isOk_mapM_iff, isOk_mapM_iff, List.forall_mem_map]
    simp only [Record.isOk_entry?_shifted shifted.get?_symbols]

theorem Shifted.encoded (shifted : layout.Shifted d moved) (table : OpcodeTable) :
    moved.encoded table = (layout.encoded table).map (Record.shifted d) := by
  rw [Layout.encoded, shifted.records, List.filter_map, Layout.encoded]
  simp only [Function.comp_def, Record.encoded_shifted_iff shifted.get?_symbols]

/-- The entries of an object program are those of the records that give one. -/
theorem forall₂_entries (built : layout.object table = .ok program) :
    List.Forall₂ (fun record entry => record.entry? table layout.symbols = .ok (some entry))
      (layout.encoded table) program.entries := by
  obtain ⟨_, results, _, mapped, rfl⟩ := ObjectProgram.build_ok built
  apply forall₂_filterMap_of_mapM _ mapped
  intro record _ result given
  rw [Record.Encoded, given, Option.isSome_iff_exists]
  simp

theorem Shifted.relocates (shifted : layout.Shifted d moved)
    (built : layout.object table = .ok program) (again : moved.object table = .ok image) :
    image.entries.length = program.entries.length ∧
      List.Forall₂ (fun record pair => Relocates table layout.symbols d record pair.1 pair.2)
        (layout.encoded table) (program.entries.zip image.entries) := by
  have given := forall₂_entries built
  have moved_given := forall₂_entries again
  rw [shifted.encoded, List.forall₂_map_left_iff] at moved_given
  refine ⟨moved_given.length_eq.symm.trans given.length_eq, ?_⟩
  refine forall₂_zip (fun record entry other here there => ?_) given moved_given
  rcases Record.entry?_of_shifted shifted.get?_symbols record with
    ⟨_, _, here', there', relocates⟩ | ⟨absent, _⟩
  · obtain rfl := Option.some.inj (Except.ok.inj (here.symm.trans here'))
    obtain rfl := Option.some.inj (Except.ok.inj (there.symm.trans there'))
    exact relocates
  · exact (absent ⟨entry, here⟩).elim

theorem shifted_of_base {before after : List SourceLine} {first other : SourceLine}
    (reflects : layout.Reflects table (before ++ first :: after))
    (moved_reflects : moved.Reflects table (before ++ other :: after))
    (noted : layout.diagnostics = diagnosticsOf table (before ++ first :: after))
    (moved_noted : moved.diagnostics = diagnosticsOf table (before ++ other :: after))
    (set : first.origin? = some start) (moved_set : other.origin? = some address)
    (label : other.label = first.label) (plain : ∀ line ∈ after, line.origin? = none)
    (early : ∀ line ∈ before, ¬line.Defines ∧ ¬line.Occupies table) :
    layout.Shifted (address - start) moved := by
  have silent : ∀ line ∈ before, ¬line.Defines := fun line member => (early line member).1
  have empty : ∀ line ∈ before, ¬line.Occupies table := fun line member => (early line member).2
  have counter : layout.counter = start + counterAfter table after := by
    rw [reflects.counter, counterAfter_append_of_origin _ (by rw [set]; rfl),
      counterAfter_cons_of_origin set plain, Int.natCast_add]
  have moved_counter : moved.counter = address + counterAfter table after := by
    rw [moved_reflects.counter, counterAfter_append_of_origin _ (by rw [moved_set]; rfl),
      counterAfter_cons_of_origin moved_set plain, Int.natCast_add]
  have total : moved.counter = layout.counter + (address - start) := by omega
  have begins : layout.start = some (start : Int) := by
    rw [reflects.start, startOf_of_base before set plain]
    rfl
  have moved_begins : moved.start = some (address : Int) := by
    rw [moved_reflects.start, startOf_of_base before moved_set plain]
    rfl
  constructor
  · -- Either list is that of the lines alone, moved from zero to its own base.
    have further : Record.shifted (address - start) ∘ Record.shifted start =
        Record.shifted address := by
      funext record
      rw [Function.comp_apply, Record.shifted_shifted]
      congr 1
      omega
    have finish : Record.finish moved.counter =
        (Record.finish layout.counter).shifted (address - start) := by
      rw [total]
      rfl
    rw [moved_reflects.records, reflects.records, ← moved_reflects.counter, ← reflects.counter,
      recordsOf_of_base set plain empty, recordsOf_of_base moved_set plain empty, List.map_append,
      List.map_map, further, List.map_singleton, finish]
  · rw [moved_reflects.symbols, reflects.symbols, bindingsOf_of_base set plain silent,
      bindingsOf_of_base moved_set plain silent,
      OrderedMap.entries_ofList_map Function.injective_id,
      OrderedMap.entries_ofList_map Function.injective_id, List.map_map]
    congr 1
    funext entry
    simp only [Function.comp_apply, Prod.map, id]
    congr 1
    omega
  · exact total
  · rw [begins, moved_begins, Option.map_some]
    congr 1
    omega
  · rw [moved_reflects.name, reflects.name, nameOf_of_base before set plain,
      nameOf_of_base before moved_set plain, label]
  · rw [Layout.length, Layout.length, begins, moved_begins, Option.getD_some, Option.getD_some]
    omega
  · rw [noted, moved_noted]
    exact outline_diagnosticsOf_exchange (by rw [set]; rfl) (by rw [moved_set]; rfl) before after

end Layout

/-! ### Another operand -/

section Operand

variable {file operand text : String} {source : Source} {before after : List LineInput}

theorem SourceLine.read_eq_moved (file : String) (number : Int) (text : String) :
    read file number text = (read file 1 text).moved (number - 1) := by
  simp only [read, moved, mk.injEq, and_true]
  omega

theorem SourceLine.read_putOperand (set : (read file 1 text).origin? = some start)
    (numeral : Text.hexValue? operand = some address) (number : Int) :
    (read file number (putOperand operand text)).origin? = some address ∧
      (read file number (putOperand operand text)).label = (read file number text).label ∧
      (read file number (putOperand operand text)).mnemonic = "START" := by
  obtain ⟨unbroken, present⟩ := unbroken_of_hexValue? numeral
  have start_mnemonic := SourceLine.mnemonic_of_origin (by rw [set]; rfl)
  rw [origin?, if_pos start_mnemonic] at set
  have has := (unbroken_of_hexValue? set).2
  rw [(read_fields file 1 text).2.2] at has
  rw [(read_fields file 1 text).2.1] at start_mnemonic
  obtain ⟨label, mnemonic, replaced⟩ := nthField_putOperand unbroken present has
  obtain ⟨label', mnemonic', operand'⟩ := read_fields file number (putOperand operand text)
  have here : (read file number (putOperand operand text)).mnemonic = "START" := by
    rw [mnemonic', mnemonic, start_mnemonic]
  refine ⟨?_, ?_, here⟩
  · rw [origin?, if_pos here, operand', replaced, numeral]
  · rw [label', label, (read_fields file number text).1]

theorem isOk_ofSource_putOperand (split : source.inputs = before ++ .text text :: after)
    (set : (SourceLine.read file 1 text).origin? = some start)
    (numeral : Text.hexValue? operand = some address) (table : OpcodeTable) :
    (Layout.ofSource table file (source.putOperand operand before.length)).isOk =
      (Layout.ofSource table file source).isOk := by
  have own : (LineInput.text text).Acceptable :=
    (LineInput.acceptable_text_iff file 1 text).mpr
      (SourceLine.acceptable_of_start (SourceLine.mnemonic_of_origin (by rw [set]; rfl)))
  have other : (LineInput.text (putOperand operand text)).Acceptable :=
    (LineInput.acceptable_text_iff file 1 _).mpr
      (SourceLine.acceptable_of_start (SourceLine.read_putOperand set numeral 1).2.2)
  have single : '\n' ∉ operand.toList := (unbroken_of_hexValue? numeral).1.not_mem rfl
  rw [Bool.eq_iff_iff, Layout.isOk_ofSource_iff, Layout.isOk_ofSource_iff,
    Source.inputs_putOperand single split, split]
  simp only [List.forall_mem_append, List.forall_mem_cons, own, other]

section Law

variable (split : source.inputs = before ++ .text text :: after)
  (set : (SourceLine.read file 1 text).origin? = some start)
  (only : ∀ other, .text other ∈ before ++ after → (SourceLine.read file 1 other).origin? = none)
  (early : ∀ other, .text other ∈ before →
    ¬(SourceLine.read file 1 other).Defines ∧ ¬(SourceLine.read file 1 other).Occupies table)
  (numeral : Text.hexValue? operand = some address)

include split set only early numeral

theorem shifted_putOperand {layout moved : Layout}
    (laid : Layout.ofSource table file source = .ok layout)
    (again : Layout.ofSource table file (source.putOperand operand before.length) = .ok moved) :
    layout.Shifted (address - start) moved := by
  obtain ⟨lines, read, reflects⟩ := Layout.reflects_of_ofSource laid
  obtain ⟨moved_lines, moved_read, moved_reflects⟩ := Layout.reflects_of_ofSource again
  have noted := Layout.diagnostics_eq laid read
  have moved_noted := Layout.diagnostics_eq again moved_read
  have single : '\n' ∉ operand.toList := (unbroken_of_hexValue? numeral).1.not_mem rfl
  obtain ⟨earlier, later, number, rfl, front, back, exchange⟩ :=
    Source.exists_split_of_read split read
  have reread := exchange _ _ (Source.inputs_putOperand single split)
  obtain rfl := Except.ok.inj (reread.symm.trans moved_read)
  obtain ⟨moved_set, label, _⟩ := SourceLine.read_putOperand set numeral number
  -- The number of a line does not decide what it sets, defines or occupies.
  have renumbered := fun n => keepsFields_moved (n - 1)
  refine Layout.shifted_of_base reflects moved_reflects noted moved_noted ?_ moved_set label ?_ ?_
  · rw [SourceLine.read_eq_moved, (renumbered _).origin?, set]
  · intro line member
    obtain ⟨other, n, present, rfl⟩ := back line member
    rw [SourceLine.read_eq_moved, (renumbered _).origin?]
    exact only other (List.mem_append_right _ present)
  · intro line member
    obtain ⟨other, n, present, rfl⟩ := front line member
    rw [SourceLine.read_eq_moved, (renumbered _).defines_iff, (renumbered _).occupies_iff]
    exact early other present

theorem isOk_assemble_putOperand :
    (assemble table file (source.putOperand operand before.length)).isOk =
      (assemble table file source).isOk := by
  have accepted := isOk_ofSource_putOperand split set numeral table
  cases laid : Layout.ofSource table file source with
  | error failure =>
    rw [laid] at accepted
    cases again : Layout.ofSource table file (source.putOperand operand before.length) with
    | error other =>
      rw [assemble, assemble, laid, again]
      rfl
    | ok moved =>
      rw [again] at accepted
      cases accepted
  | ok layout =>
    rw [laid] at accepted
    obtain ⟨moved, again⟩ := exists_ok accepted
    obtain ⟨_, _, reflects⟩ := Layout.reflects_of_ofSource laid
    obtain ⟨_, _, moved_reflects⟩ := Layout.reflects_of_ofSource again
    have shifted := shifted_putOperand split set only early numeral laid again
    rw [assemble, assemble, laid, again]
    change (moved.object moved.table).isOk = (layout.object layout.table).isOk
    rw [reflects.kept, moved_reflects.kept, shifted.isOk_object table]

end Law

/-- A program with one base and neither a label nor a record before it, at another base. It is
assembled at both or at neither. All addresses move by the difference of the bases and nothing else
of the layout does. The object program starts there and has as many entries; an entry is the same,
unless its operand is a label, whose address moves. -/
theorem relocates_program (split : source.inputs = before ++ .text text :: after)
    (set : (SourceLine.read file 1 text).origin? = some start)
    (only : ∀ other, .text other ∈ before ++ after → (SourceLine.read file 1 other).origin? = none)
    (early : ∀ other, .text other ∈ before →
      ¬(SourceLine.read file 1 other).Defines ∧ ¬(SourceLine.read file 1 other).Occupies table)
    (numeral : Text.hexValue? operand = some address) :
    (Layout.ofSource table file (source.putOperand operand before.length)).isOk =
        (Layout.ofSource table file source).isOk ∧
      (assemble table file (source.putOperand operand before.length)).isOk =
        (assemble table file source).isOk ∧
      ∀ layout moved, Layout.ofSource table file source = .ok layout →
        Layout.ofSource table file (source.putOperand operand before.length) = .ok moved →
        layout.Shifted (address - start) moved ∧
        ∀ program image, assemble table file source = .ok program →
          assemble table file (source.putOperand operand before.length) = .ok image →
          image.name = program.name ∧ image.start = program.start + (address - start) ∧
          image.entries.length = program.entries.length ∧
          List.Forall₂ (fun record entry => record.entry? table layout.symbols = .ok (some entry))
            (layout.encoded table) program.entries ∧
          List.Forall₂ (fun record pair =>
              Relocates table layout.symbols (address - start) record pair.1 pair.2)
            (layout.encoded table) (program.entries.zip image.entries) := by
  refine ⟨isOk_ofSource_putOperand split set numeral table,
    isOk_assemble_putOperand split set only early numeral, ?_⟩
  intro layout moved laid again
  have shifted := shifted_putOperand split set only early numeral laid again
  refine ⟨shifted, ?_⟩
  intro program image assembled reassembled
  obtain ⟨_, _, laid', _, _, built⟩ := assemble_ok assembled
  obtain ⟨_, _, again', _, _, rebuilt⟩ := assemble_ok reassembled
  obtain rfl := Except.ok.inj (laid.symm.trans laid')
  obtain rfl := Except.ok.inj (again.symm.trans again')
  obtain ⟨count, relocated⟩ := shifted.relocates built rebuilt
  have given := Layout.forall₂_entries built
  obtain ⟨base, _, begins, _, rfl⟩ := ObjectProgram.build_ok built
  obtain ⟨base', _, begins', _, rfl⟩ := ObjectProgram.build_ok rebuilt
  have moved_base := shifted.start
  rw [begins, begins', Option.map_some] at moved_base
  exact ⟨shifted.name, Option.some.inj moved_base, count, given, relocated⟩

end Operand

/-- A program that refers forward, backward and to a number, with a comment before its base. -/
def movableProgram : Source :=
  .text "* MOVABLE\nP START 10 H\nA ADD B\n ADD 16\nB WORD\n ADD A"

theorem relocates_program_of_movableProgram :
    ∃ program image, assemble Layout.oneInstruction unnamedSource movableProgram = .ok program ∧
      assemble Layout.oneInstruction unnamedSource (movableProgram.putOperand "00fFf" 1) =
        .ok image ∧
      program.start = 0x10 ∧ program.entries = ["180016", "180010", "180010"] ∧
      image.start = 0xFFF ∧ image.entries.length = 3 := by
  have split : movableProgram.inputs = [.text "* MOVABLE"] ++ .text "P START 10 H" ::
      [.text "A ADD B", .text " ADD 16", .text "B WORD", .text " ADD A"] := by decide +kernel
  have set : (SourceLine.read unnamedSource 1 "P START 10 H").origin? = some 0x10 := by
    decide +kernel
  have only : ∀ other, LineInput.text other ∈ [.text "* MOVABLE"] ++
      [.text "A ADD B", .text " ADD 16", .text "B WORD", .text " ADD A"] →
      (SourceLine.read unnamedSource 1 other).origin? = none := by
    intro other member
    simp only [List.cons_append, List.nil_append, List.mem_cons, LineInput.text.injEq,
      List.not_mem_nil, or_false] at member
    rcases member with rfl | rfl | rfl | rfl | rfl <;> decide +kernel
  have early : ∀ other, LineInput.text other ∈ [.text "* MOVABLE"] →
      ¬(SourceLine.read unnamedSource 1 other).Defines ∧
        ¬(SourceLine.read unnamedSource 1 other).Occupies Layout.oneInstruction := by
    intro other member
    obtain rfl := LineInput.text.inj (List.mem_singleton.mp member)
    decide +kernel
  obtain ⟨_, accepted, law⟩ := relocates_program split set only early
    (show Text.hexValue? "00fFf" = some 0xFFF by decide +kernel)
  obtain ⟨program, assembled⟩ := exists_ok
    (x := assemble Layout.oneInstruction unnamedSource movableProgram) (by decide +kernel)
  obtain ⟨image, reassembled⟩ := exists_ok (accepted.trans (by rw [assembled]; rfl))
  obtain ⟨layout, _, laid, _⟩ := assemble_ok assembled
  obtain ⟨moved, _, again, _⟩ := assemble_ok reassembled
  obtain ⟨_, objects⟩ := law layout moved laid again
  obtain ⟨_, start, count, _⟩ := objects program image assembled reassembled
  have entries : program.entries = ["180016", "180010", "180010"] :=
    value_of_ok assembled ObjectProgram.entries (by decide +kernel)
  have base : program.start = 0x10 := value_of_ok assembled ObjectProgram.start (by decide +kernel)
  refine ⟨program, image, assembled, reassembled, base, entries, ?_, ?_⟩
  · rw [start, base]
    rfl
  · rw [count, entries]
    rfl

end SicAssembler
