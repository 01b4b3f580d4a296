import SicAssembler.Proofs.FirstPass

/-!
The symbol table of a program. A label stands where a line first defined it and has the address
before the last line that defines it, whether or not that line has a place in memory; a `START`
line defines nothing. The address of a label is a fact about all lines at once (`addressOf?`), so
a line may use it before the label is defined.
-/

namespace SicAssembler

/-- The address before the last line that defines a label. -/
def addressOf? (table : OpcodeTable) (lines : List SourceLine) (label : String) : Option Nat :=
  ((located table lines).filter fun entry =>
    entry.1.Defines ∧ entry.1.label = label).getLast?.map Prod.snd

variable {table : OpcodeTable} {lines : List SourceLine} {label : String}

theorem addressOf?_concat (lines : List SourceLine) (line : SourceLine) (label : String) :
    addressOf? table (lines ++ [line]) label =
      if line.Defines ∧ line.label = label then some (counterAfter table lines)
      else addressOf? table lines label := by
  rw [addressOf?, located_concat, List.filter_append, addressOf?]
  split_ifs with defines <;> simp [defines]

/-- A label has the address before its last definition, and no other. -/
theorem addressOf?_eq_some_iff {address : Nat} :
    addressOf? table lines label = some address ↔
      ∃ before line after, lines = before ++ line :: after ∧ line.Defines ∧ line.label = label ∧
        (∀ later ∈ after, later.Defines → later.label ≠ label) ∧
        address = counterAfter table before := by
  constructor
  · intro found
    induction lines using List.reverseRecOn with
    | nil => cases found
    | append_singleton lines line ih =>
      rw [addressOf?_concat] at found
      split_ifs at found with defines
      · exact ⟨lines, line, [], rfl, defines.1, defines.2, by simp, (Option.some.inj found).symm⟩
      · obtain ⟨before, earlier, after, rfl, bound, same, fresh, place⟩ := ih found
        have still : ∀ later ∈ after ++ [line], later.Defines → later.label ≠ label :=
          List.forall_mem_append.mpr
            ⟨fresh, List.forall_mem_singleton.mpr fun defined named => defines ⟨defined, named⟩⟩
        exact ⟨before, earlier, after ++ [line], by simp, bound, same, still, place⟩
  · rintro ⟨before, line, after, rfl, defines, rfl, fresh, rfl⟩
    -- The lines after the definition are taken off one by one: none of them defines the label.
    induction after using List.reverseRecOn with
    | nil => rw [addressOf?_concat, if_pos ⟨defines, rfl⟩]
    | append_singleton after later ih =>
      have apart : ¬(later.Defines ∧ later.label = line.label) :=
        fun both => fresh later (by simp) both.1 both.2
      rw [← List.cons_append, ← List.append_assoc, addressOf?_concat, if_neg apart]
      exact ih fun other member => fresh other (List.mem_append_left _ member)

theorem get?_ofList_bindingsOf (lines : List SourceLine) (label : String) :
    (OrderedMap.ofList (bindingsOf table lines)).get? label =
      (addressOf? table lines label).map Nat.cast := by
  rw [OrderedMap.get?_ofList, bindingsOf, List.filter_map, List.filter_filter, List.getLast?_map,
    addressOf?, Option.map_map, Option.map_map]
  simp only [Function.comp_def, Bool.decide_and, Bool.and_comm]

theorem keys_ofList_bindingsOf (lines : List SourceLine) :
    (OrderedMap.ofList (bindingsOf table lines)).keys =
      ((lines.filter fun line => line.Defines).map SourceLine.label).eraseDups := by
  have labels : (bindingsOf table lines).map Prod.fst =
      (((located table lines).map Prod.fst).filter fun line => line.Defines).map
        SourceLine.label := by
    rw [bindingsOf, List.map_map, List.filter_map, List.map_map]
    rfl
  rw [OrderedMap.keys_ofList, labels, map_fst_located]

theorem exists_split_of_mem_recordsOf {record : Record} (member : record ∈ recordsOf table lines) :
    ∃ before line after, lines = before ++ line :: after ∧ line.Occupies table ∧
      record = line.recordAt (counterAfter table before) := by
  obtain ⟨entry, present, rfl⟩ := List.mem_map.mp member
  obtain ⟨present, occupies⟩ := List.mem_filter.mp present
  obtain ⟨before, after, rfl, same⟩ := exists_split_of_mem_located present
  exact ⟨before, entry.1, after, rfl, of_decide_eq_true occupies, by rw [same]⟩

theorem recordsOf_eq_nil (empty : ∀ line ∈ lines, ¬line.Occupies table) :
    recordsOf table lines = [] := by
  apply List.eq_nil_iff_forall_not_mem.mpr
  intro record member
  obtain ⟨before, line, after, rfl, occupies, _⟩ := exists_split_of_mem_recordsOf member
  exact empty line (by simp) occupies

theorem map_recordsOf {β : Type} {shown : Record → β} {value : SourceLine → β}
    (same : ∀ line ∈ lines, line.Occupies table → ∀ address,
      shown (line.recordAt address) = value line) :
    (recordsOf table lines).map shown =
      (lines.filter (SourceLine.Occupies table)).map value := by
  induction lines using List.reverseRecOn with
  | nil => rfl
  | append_singleton lines line ih =>
    have rest := ih fun line member => same line (List.mem_append_left _ member)
    rw [recordsOf_concat, List.map_append, rest, List.filter_append, List.map_append]
    split_ifs with occupies
    · simp [occupies, same line (by simp) occupies]
    · simp [occupies]

namespace Layout

variable {file : String} {source : Source} {layout : Layout}

theorem Reflects.record_cases (reflects : layout.Reflects table lines) {record : Record}
    (member : record ∈ layout.records) :
    (∃ before line after, lines = before ++ line :: after ∧ line.Occupies table ∧
      record = line.recordAt (counterAfter table before)) ∨
    record = Record.finish (counterAfter table lines) := by
  rw [reflects.records] at member
  rcases List.mem_append.mp member with inner | last
  · exact .inl (exists_split_of_mem_recordsOf inner)
  · exact .inr (List.mem_singleton.mp last)

theorem Reflects.get?_symbols (reflects : layout.Reflects table lines) (label : String) :
    layout.symbols.get? label = (addressOf? table lines label).map Nat.cast := by
  rw [reflects.symbols, get?_ofList_bindingsOf]

theorem mem_keys_iff (reflects : layout.Reflects table lines) (label : String) :
    label ∈ layout.symbols.keys ↔ ∃ line ∈ lines, line.Defines ∧ line.label = label := by
  rw [reflects.symbols, keys_ofList_bindingsOf, List.mem_eraseDups]
  simp [and_assoc]

theorem get?_symbols_iff (reflects : layout.Reflects table lines) (label : String) (address : Int) :
    layout.symbols.get? label = some address ↔
      ∃ before line after, lines = before ++ line :: after ∧ line.Defines ∧ line.label = label ∧
        (∀ later ∈ after, later.Defines → later.label ≠ label) ∧
        address = counterAfter table before := by
  rw [reflects.get?_symbols, Option.map_eq_some_iff]
  constructor
  · rintro ⟨bound, found, rfl⟩
    obtain ⟨before, line, after, split, defines, same, fresh, rfl⟩ := addressOf?_eq_some_iff.mp found
    exact ⟨before, line, after, split, defines, same, fresh, rfl⟩
  · rintro ⟨before, line, after, split, defines, same, fresh, rfl⟩
    exact ⟨_, addressOf?_eq_some_iff.mpr ⟨before, line, after, split, defines, same, fresh, rfl⟩, rfl⟩

theorem get?_symbols_of_record (reflects : layout.Reflects table lines)
    (ordered : lines.Pairwise fun earlier later => earlier.number < later.number) {record : Record}
    (member : record ∈ layout.records) (valid : isLabel record.label = true)
    (fresh : ∀ line ∈ lines, record.line < line.number → line.mnemonic ≠ "START" →
      line.label ≠ record.label) :
    layout.symbols.get? record.label = some record.address := by
  rcases reflects.record_cases member with ⟨before, line, after, rfl, occupies, rfl⟩ | rfl
  · have later_number := (List.pairwise_cons.mp (List.pairwise_append.mp ordered).2.1).1
    refine (get?_symbols_iff reflects _ _).mpr
      ⟨before, line, after, rfl, ⟨occupies.mnemonic_ne_start, valid⟩, rfl, ?_, rfl⟩
    intro later member defines
    exact fresh later (by simp [member]) (later_number later member) defines.1
  · cases valid

/-- The symbol table of a program: its labels in the order of their first definition, each with the
address before its last one. A `START` line defines none. -/
theorem binds_labels (laid : ofSource table file source = .ok layout) :
    ∃ lines, source.read file = .ok lines ∧
      layout.symbols.keys =
        ((lines.filter fun line => line.Defines).map SourceLine.label).eraseDups ∧
      (∀ label address, layout.symbols.get? label = some address ↔
        ∃ before line after, lines = before ++ line :: after ∧ line.Defines ∧ line.label = label ∧
          (∀ later ∈ after, later.Defines → later.label ≠ label) ∧
          address = counterAfter table before) ∧
      (∀ record ∈ layout.records, isLabel record.label = true →
        (∀ line ∈ lines, record.line < line.number → line.mnemonic ≠ "START" →
          line.label ≠ record.label) →
        layout.symbols.get? record.label = some record.address) ∧
      (∀ label, (∀ line ∈ lines, line.label = label → line.mnemonic = "START") →
        layout.symbols.get? label = none) := by
  obtain ⟨lines, read, reflects⟩ := reflects_of_ofSource laid
  refine ⟨lines, read, ?_, get?_symbols_iff reflects, ?_, ?_⟩
  · rw [reflects.symbols, keys_ofList_bindingsOf]
  · intro record member valid fresh
    exact get?_symbols_of_record reflects (Source.pairwise_number read) member valid fresh
  · intro label onlyStart
    by_contra bound
    obtain ⟨line, member, defines, same⟩ := (mem_keys_iff reflects label).mp
      ((layout.symbols.get?_isSome_iff label).mp (Option.isSome_iff_ne_none.mpr bound))
    exact defines.1 (onlyStart line member same)

theorem binds_labels_defined_twice :
    ∃ layout, ofSource oneInstruction unnamedSource
        (.lines [.text "P START 10", .text "B ADD A", .text "A WORD", .text "B NOP"]) =
          .ok layout ∧
      layout.symbols.keys = ["B", "A"] ∧ layout.symbols.get? "B" = some 0x16 ∧
      layout.symbols.get? "P" = none := by
  refine (exists_ok (by decide +kernel)).imp fun layout laid => ⟨laid, ?_⟩
  obtain ⟨lines, read, keys, bound, _, unbound⟩ := binds_labels laid
  obtain rfl := Except.ok.inj (read.symm.trans rfl)
  refine ⟨keys.trans (by decide +kernel), (bound "B" 0x16).mpr ?_, unbound "P" (by decide +kernel)⟩
  exact ⟨[_, _, _], _, [], rfl, by decide +kernel, by decide +kernel, by simp, by decide +kernel⟩

end Layout

end SicAssembler
