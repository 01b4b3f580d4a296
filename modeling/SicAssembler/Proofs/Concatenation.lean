import SicAssembler.Proofs.Positions

/-!
Programs put after one another. A `START` that counts makes what follows it independent of the
counter before it, so two lists of lines of which the second begins with one are laid out like the
two apart: the records stand side by side under new numbers. Only the labels reach across: a label
of the first list that the second defines again is warned about once more, at its first definition
there (`Redefines`).
-/

namespace SicAssembler

variable {table : OpcodeTable} {lines rest : List SourceLine} {first line : SourceLine}

/-! ### Lines after a base -/

/-- A line that sets the counter is warned about nothing. -/
theorem SourceLine.warnings_of_origin (set : first.origin?.isSome = true)
    (lines : List SourceLine) : first.warnings table lines = [] := by
  have start := mnemonic_of_origin set
  simp [warnings, labelWarnings, fieldWarnings, start, set]

/-- Past the line that sets the counter, the addresses are those of the second list alone. -/
theorem located_append_of_origin (table : OpcodeTable) (lines rest : List SourceLine)
    (set : first.origin?.isSome = true) :
    ∃ later, located table (first :: rest) = (first, 0) :: later ∧
      located table (lines ++ first :: rest) =
        located table lines ++ (first, counterAfter table lines) :: later := by
  induction rest using List.reverseRecOn with
  | nil => exact ⟨[], located_concat [] first, located_concat lines first⟩
  | append_singleton rest line ih =>
    obtain ⟨later, alone, joined⟩ := ih
    refine ⟨later ++ [(line, counterAfter table (first :: rest))], ?_, ?_⟩
    · rw [← List.cons_append, located_concat, alone, List.cons_append]
    · rw [← List.cons_append, ← List.append_assoc, located_concat, joined,
        counterAfter_append_of_origin rest set, List.append_assoc, List.cons_append]

theorem recordsOf_append_of_origin (lines rest : List SourceLine)
    (set : first.origin?.isSome = true) :
    recordsOf table (lines ++ first :: rest) =
      recordsOf table lines ++ recordsOf table (first :: rest) := by
  obtain ⟨later, alone, joined⟩ := located_append_of_origin table lines rest set
  have absent : ¬first.Occupies table :=
    fun occupies => occupies.mnemonic_ne_start (SourceLine.mnemonic_of_origin set)
  rw [recordsOf, joined, recordsOf, recordsOf, alone]
  simp [absent]

theorem bindingsOf_append_of_origin (lines rest : List SourceLine)
    (set : first.origin?.isSome = true) :
    bindingsOf table (lines ++ first :: rest) =
      bindingsOf table lines ++ bindingsOf table (first :: rest) := by
  obtain ⟨later, alone, joined⟩ := located_append_of_origin table lines rest set
  have silent : ¬first.Defines := fun defines => defines.1 (SourceLine.mnemonic_of_origin set)
  rw [bindingsOf, joined, bindingsOf, bindingsOf, alone]
  simp [silent]

theorem addressOf?_append_of_origin (lines rest : List SourceLine)
    (set : first.origin?.isSome = true) (label : String) :
    addressOf? table (lines ++ first :: rest) label =
      (addressOf? table (first :: rest) label).or (addressOf? table lines label) := by
  obtain ⟨later, alone, joined⟩ := located_append_of_origin table lines rest set
  have silent : ¬first.Defines := fun defines => defines.1 (SourceLine.mnemonic_of_origin set)
  rw [addressOf?, joined, addressOf?, addressOf?, alone]
  simp [silent, List.getLast?_append, Option.map_or]

theorem startOf_append_of_origin (lines rest : List SourceLine)
    (set : first.origin?.isSome = true) : startOf (lines ++ first :: rest) = startOf (first :: rest) := by
  obtain ⟨address, origin⟩ := Option.isSome_iff_exists.mp set
  have some_start : (startOf (first :: rest)).isSome = true := by
    simp [startOf, origin, List.getLast?_isSome]
  rw [startOf_append, Option.or_of_isSome some_start]

theorem nameOf_append_of_origin (lines rest : List SourceLine)
    (set : first.origin?.isSome = true) : nameOf (lines ++ first :: rest) = nameOf (first :: rest) := by
  have kept : (first :: rest).filter (fun line => line.origin?.isSome) ≠ [] := by simp [set]
  rw [nameOf, List.filter_append, List.getLast?_append_of_ne_nil _ kept, nameOf]

/-! ### Diagnostics in the order of lines -/

/-- Two pairs of lists are merged one after the other if no element of the later pair comes before
one of the earlier pair. -/
theorem merge_append_append {α : Type} {le : α → α → Bool} {a b c d : List α}
    (front : ∀ x ∈ a, ∀ y ∈ d, le x y = true) (back : ∀ x ∈ c, ∀ y ∈ b, le x y = false) :
    (a ++ c).merge (b ++ d) le = a.merge b le ++ c.merge d le := by
  induction a generalizing b with
  | nil =>
    rw [List.nil_append, List.nil_merge]
    induction b with
    | nil => rfl
    | cons y b ih =>
      have rest := ih fun x member z later => back x member z (List.mem_cons_of_mem _ later)
      cases c with
      | nil => simp
      | cons x c =>
        rw [List.cons_append, List.cons_merge_cons, back x List.mem_cons_self y List.mem_cons_self,
          if_neg Bool.false_ne_true, rest, List.cons_append]
  | cons x a outer =>
    have tail : ∀ z ∈ a, ∀ y ∈ d, le z y = true :=
      fun z member => front z (List.mem_cons_of_mem _ member)
    induction b with
    | nil =>
      have rest : (a ++ c).merge d le = a ++ c.merge d le := by simpa using outer tail back
      cases d with
      | nil => simp
      | cons y d =>
        rw [List.nil_append, List.merge_right, List.cons_append, List.cons_merge_cons,
          front x List.mem_cons_self y List.mem_cons_self, if_pos rfl, rest, List.cons_append]
    | cons y b ih =>
      have rest := ih fun x member z later => back x member z (List.mem_cons_of_mem _ later)
      rw [List.cons_append, List.cons_append, List.cons_merge_cons, List.cons_merge_cons]
      split_ifs
      · rw [← List.cons_append, outer tail back, List.cons_append]
      · rw [← List.cons_append, rest, List.cons_append]

theorem merge_eq_append {α : Type} {le : α → α → Bool} {a b : List α}
    (sorted : ∀ x ∈ a, ∀ y ∈ b, le x y = true) : a.merge b le = a ++ b := by
  simpa using merge_append_append (b := []) (c := []) sorted (by simp)

def Diagnostic.number (diagnostic : Diagnostic) : Int :=
  (diagnostic.location.map Location.line).getD 0

theorem SourceLine.number_of_mem_warnings {diagnostic : Diagnostic}
    (member : diagnostic ∈ line.warnings table lines) : diagnostic.number = line.number := by
  have label_location : ∀ previous address, ∀ diagnostic ∈ line.labelWarnings previous address,
      diagnostic.location = some line.location := by
    intro previous address
    unfold labelWarnings
    split_ifs <;> simp [redefinition, warning]
  have field_location : ∀ diagnostic ∈ line.fieldWarnings table,
      diagnostic.location = some line.location := by
    unfold fieldWarnings
    split_ifs <;> simp [warning]
  have location : diagnostic.location = some line.location := by
    rcases List.mem_append.mp member with label | field
    · exact label_location _ _ _ label
    · exact field_location _ field
  rw [Diagnostic.number, location]
  rfl

theorem exists_line_of_mem_diagnosticsOf {diagnostic : Diagnostic}
    (member : diagnostic ∈ diagnosticsOf table lines) :
    ∃ line ∈ lines, diagnostic.number = line.number := by
  induction lines using List.reverseRecOn with
  | nil => cases member
  | append_singleton lines line ih =>
    rw [diagnosticsOf_concat] at member
    rcases List.mem_append.mp member with earlier | last
    · obtain ⟨found, present, number⟩ := ih earlier
      exact ⟨found, List.mem_append_left _ present, number⟩
    · exact ⟨line, by simp, SourceLine.number_of_mem_warnings last⟩

/-! ### Labels defined again -/

/-- A warning that a label of a symbol table is defined again by some lines, at the first of them
that does. -/
def Redefines (table : OpcodeTable) (symbols : SymbolTable) (lines : List SourceLine)
    (label : String) (diagnostic : Diagnostic) : Prop :=
  ∃ before line after previous, lines = before ++ line :: after ∧ line.Defines ∧
    line.label = label ∧ (∀ earlier ∈ before, earlier.Defines → earlier.label ≠ label) ∧
    symbols.get? label = some previous ∧
    diagnostic = line.redefinition previous (counterAfter table before)

theorem Redefines.append {symbols : SymbolTable} {label : String} {diagnostic : Diagnostic}
    (redefines : Redefines table symbols lines label diagnostic) (more : List SourceLine) :
    Redefines table symbols (lines ++ more) label diagnostic := by
  obtain ⟨before, line, after, previous, rfl, rest⟩ := redefines
  exact ⟨before, line, after ++ more, previous, by simp, rest⟩

theorem Redefines.exists_line {symbols : SymbolTable} {label : String} {diagnostic : Diagnostic}
    (redefines : Redefines table symbols lines label diagnostic) :
    ∃ line ∈ lines, diagnostic.number = line.number := by
  obtain ⟨before, line, after, previous, rfl, _, _, _, _, rfl⟩ := redefines
  exact ⟨line, by simp, rfl⟩

/-- The one warning more that a line gets for the lines before a base: its label is known from
those, and new in the lines since. -/
def SourceLine.reminder (table : OpcodeTable) (lines since : List SourceLine) (line : SourceLine) :
    List Diagnostic :=
  if line.Defines ∧ addressOf? table since line.label = none then
    (addressOf? table lines line.label).toList.map fun previous =>
      line.redefinition previous (counterAfter table since)
  else []

theorem SourceLine.number_of_mem_reminder {since : List SourceLine} {diagnostic : Diagnostic}
    (member : diagnostic ∈ line.reminder table lines since) : diagnostic.number = line.number := by
  unfold reminder at member
  split_ifs at member
  · obtain ⟨_, _, rfl⟩ := List.mem_map.mp member
    rfl
  · cases member

theorem SourceLine.warnings_append_of_origin (table : OpcodeTable) (lines rest : List SourceLine)
    (line : SourceLine) (set : first.origin?.isSome = true) :
    line.warnings table (lines ++ first :: rest) =
      line.reminder table lines (first :: rest) ++ line.warnings table (first :: rest) := by
  rw [warnings, warnings, ← List.append_assoc, counterAfter_append_of_origin rest set,
    addressOf?_append_of_origin lines rest set]
  congr 1
  unfold labelWarnings reminder Defines
  by_cases start : line.mnemonic = "START"
  · simp [start]
  · by_cases valid : isLabel line.label = true
    · have named : line.label ≠ "" := by
        intro empty
        rw [empty, not_isLabel_empty] at valid
        cases valid
      cases addressOf? table (first :: rest) line.label with
      | none => cases addressOf? table lines line.label <;> simp [start, valid, named]
      | some address => simp [start, valid, named]
    · simp [start, valid]

def labelsOf (table : OpcodeTable) (lines : List SourceLine) : List String :=
  (OrderedMap.ofList (bindingsOf table lines)).keys

theorem mem_labelsOf_iff {label : String} :
    label ∈ labelsOf table lines ↔ (addressOf? table lines label).isSome = true := by
  rw [labelsOf, ← OrderedMap.get?_isSome_iff, get?_ofList_bindingsOf, Option.isSome_map]

theorem labelsOf_concat (lines : List SourceLine) (line : SourceLine) :
    labelsOf table (lines ++ [line]) = labelsOf table lines ++
      if line.Defines ∧ addressOf? table lines line.label = none then [line.label] else [] := by
  rw [labelsOf, bindingsOf_concat]
  by_cases defines : line.Defines
  · rw [if_pos defines, OrderedMap.ofList_concat, OrderedMap.keys_insert, ← labelsOf]
    by_cases known : line.label ∈ labelsOf table lines
    · have bound := Option.isSome_iff_ne_none.mp (mem_labelsOf_iff.mp known)
      rw [if_pos known, if_neg fun both => bound both.2, List.append_nil]
    · have unbound := Option.not_isSome_iff_eq_none.mp fun bound => known (mem_labelsOf_iff.mpr bound)
      rw [if_neg known, if_pos ⟨defines, unbound⟩]
  · rw [if_neg defines, if_neg fun both => defines both.1, List.append_nil, List.append_nil, labelsOf]

theorem redefines_reminder (table : OpcodeTable) (lines since : List SourceLine)
    (line : SourceLine) :
    List.Forall₂ (Redefines table (.ofList (bindingsOf table lines)) (since ++ [line]))
      ((if line.Defines ∧ addressOf? table since line.label = none then [line.label] else []).filter
        (· ∈ labelsOf table lines))
      (line.reminder table lines since) := by
  unfold SourceLine.reminder
  split_ifs with fresh
  · obtain ⟨defines, unbound⟩ := fresh
    cases bound : addressOf? table lines line.label with
    | none =>
      have unknown : line.label ∉ labelsOf table lines := by simp [mem_labelsOf_iff, bound]
      simp [unknown]
    | some previous =>
      have known : line.label ∈ labelsOf table lines := by simp [mem_labelsOf_iff, bound]
      have first_here : ∀ earlier ∈ since, earlier.Defines → earlier.label ≠ line.label := by
        intro earlier member defined same
        have present : line.label ∈ labelsOf table since := by
          rw [labelsOf, keys_ofList_bindingsOf, List.mem_eraseDups]
          exact List.mem_map.mpr ⟨earlier, List.mem_filter.mpr ⟨member, decide_eq_true defined⟩, same⟩
        simp [mem_labelsOf_iff, unbound] at present
      rw [List.filter_cons_of_pos (by simpa using known)]
      refine .cons ⟨since, line, [], previous, rfl, defines, rfl, first_here, ?_, rfl⟩ .nil
      rw [get?_ofList_bindingsOf, bound]
      rfl
  · exact .nil

theorem exists_redefinitions (table : OpcodeTable) (lines rest : List SourceLine)
    (set : first.origin?.isSome = true)
    (ordered : (first :: rest).Pairwise fun earlier later => earlier.number < later.number) :
    ∃ added, List.Forall₂ (Redefines table (.ofList (bindingsOf table lines)) (first :: rest))
        ((labelsOf table (first :: rest)).filter (· ∈ labelsOf table lines)) added ∧
      diagnosticsOf table (lines ++ first :: rest) = diagnosticsOf table lines ++
        added.merge (diagnosticsOf table (first :: rest)) fun a b => a.number ≤ b.number := by
  induction rest using List.reverseRecOn with
  | nil =>
    have undefined : ¬first.Defines := fun defines => defines.1 (SourceLine.mnemonic_of_origin set)
    have unlabelled : labelsOf table [first] = [] := by
      rw [← List.nil_append [first], labelsOf_concat, if_neg fun both => undefined both.1]
      rfl
    have unwarned : diagnosticsOf table [first] = [] := by
      rw [← List.nil_append [first], diagnosticsOf_concat, SourceLine.warnings_of_origin set]
      rfl
    refine ⟨[], by rw [unlabelled]; exact .nil, ?_⟩
    rw [diagnosticsOf_concat, SourceLine.warnings_of_origin set, unwarned, List.merge_right]
  | append_singleton rest line ih =>
    rw [← List.cons_append] at ordered
    obtain ⟨ordered_rest, _, last⟩ := List.pairwise_append.mp ordered
    obtain ⟨added, redefined, merged⟩ := ih ordered_rest
    have before_line : ∀ earlier ∈ first :: rest, earlier.number < line.number :=
      fun earlier member => last earlier member line (by simp)
    have added_before : ∀ diagnostic ∈ added, diagnostic.number < line.number := by
      intro diagnostic member
      obtain ⟨i, bound, rfl⟩ := List.getElem_of_mem member
      have redefines := redefined.get (redefined.length_eq ▸ bound) bound
      obtain ⟨earlier, present, number⟩ := redefines.exists_line
      exact number ▸ before_line earlier present
    have noted_before : ∀ diagnostic ∈ diagnosticsOf table (first :: rest),
        diagnostic.number < line.number := by
      intro diagnostic member
      obtain ⟨earlier, present, number⟩ := exists_line_of_mem_diagnosticsOf member
      exact number ▸ before_line earlier present
    refine ⟨added ++ line.reminder table lines (first :: rest), ?_, ?_⟩
    · rw [← List.cons_append, labelsOf_concat, List.filter_append]
      have kept := redefined.imp fun label diagnostic redefines => redefines.append [line]
      exact List.rel_append kept (redefines_reminder table lines (first :: rest) line)
    · rw [← List.cons_append, ← List.append_assoc, diagnosticsOf_concat, merged,
        SourceLine.warnings_append_of_origin table lines rest line set, diagnosticsOf_concat,
        List.append_assoc, merge_append_append, merge_eq_append _ (b := line.warnings _ _)]
      · intro reminder member warning warned
        have same := SourceLine.number_of_mem_reminder member
        have other := SourceLine.number_of_mem_warnings warned
        exact decide_eq_true (by omega)
      · intro diagnostic member warning warned
        have earlier := added_before diagnostic member
        have number := SourceLine.number_of_mem_warnings warned
        exact decide_eq_true (by omega)
      · intro reminder member diagnostic noted
        have earlier := noted_before diagnostic noted
        have number := SourceLine.number_of_mem_reminder member
        exact decide_eq_false (by omega)

/-! ### The law -/

theorem LineInput.read_add {input : LineInput} {file : String} {number : Nat} (n : Nat)
    {line : SourceLine} (taken : input.read file number = .ok line) :
    input.read file (number + n : Nat) = .ok (line.moved n) := by
  cases input with
  | text text =>
    obtain rfl := Except.ok.inj taken
    simp only [LineInput.read, SourceLine.read, SourceLine.moved, Int.natCast_add]
  | value typeName => cases taken

theorem Source.read_append {file : String} {xs ys : List LineInput} {lines more : List SourceLine}
    (first : (Source.lines xs).read file = .ok lines)
    (second : (Source.lines ys).read file = .ok more) :
    (Source.lines (xs ++ ys)).read file = .ok (lines ++ more.map (SourceLine.moved xs.length)) := by
  apply mapM_ok_iff.mpr
  have numbered : (Source.lines (xs ++ ys)).numbered = (Source.lines xs).numbered ++
      (Source.lines ys).numbered.map (Prod.map id (· + xs.length)) := by
    simp only [Source.numbered, Source.inputs]
    rw [List.zipIdx_append, List.map_snd_add_zipIdx_eq_zipIdx, Nat.add_comm]
  rw [numbered]
  apply List.rel_append (mapM_ok_iff.mp first)
  rw [List.forall₂_map_left_iff, List.forall₂_map_right_iff]
  exact (mapM_ok_iff.mp second).imp fun _ _ taken => LineInput.read_add xs.length taken

theorem Source.exists_cons_of_read {file first : String} {rest : List LineInput}
    {lines : List SourceLine} (read : (Source.lines (.text first :: rest)).read file = .ok lines) :
    ∃ others, lines = SourceLine.read file 1 first :: others := by
  have pointwise := mapM_ok_iff.mp read
  rw [Source.numbered, Source.inputs, List.zipIdx_cons] at pointwise
  cases pointwise with
  | cons taken others => exact ⟨_, by rw [← Except.ok.inj taken]; rfl⟩

namespace Layout

variable {file : String} {ys rest : List LineInput} {first : String} {layout : Layout}

theorem isOk_ofSource_append_iff (table : OpcodeTable) (file : String) (xs ys : List LineInput) :
    (ofSource table file (.lines (xs ++ ys))).isOk = true ↔
      (ofSource table file (.lines xs)).isOk = true ∧
        (ofSource table file (.lines ys)).isOk = true := by
  simp only [isOk_ofSource_iff, Source.inputs]
  exact List.forall_mem_append

theorem filter_records (reflects : layout.Reflects table lines) :
    (layout.records.filter fun record => !record.isEnd) = recordsOf table lines := by
  have inner : ∀ record ∈ recordsOf table lines, (!record.isEnd) = true := by
    intro record member
    obtain ⟨_, line, _, _, _, rfl⟩ := exists_split_of_mem_recordsOf member
    rfl
  rw [reflects.records, List.filter_append, List.filter_eq_self.mpr inner]
  simp [Record.finish]

/-- Two programs put after one another, the second of which begins by setting the counter. They are
laid out together if and only if both are laid out alone. The second gives the start address, the
name, the counter and the length; its records follow those of the first under new numbers; its
labels count before those of the first, which keep their places; and its diagnostics follow,
with one more for each label that both define, at its first definition in the second. -/
theorem lays_out_concatenation (table : OpcodeTable) (xs : List LineInput)
    (begins : ys = .text first :: rest)
    (set : (SourceLine.read file 1 first).origin?.isSome = true) :
    ((ofSource table file (.lines (xs ++ ys))).isOk = true ↔
        (ofSource table file (.lines xs)).isOk = true ∧
          (ofSource table file (.lines ys)).isOk = true) ∧
      ∀ x y z, ofSource table file (.lines xs) = .ok x → ofSource table file (.lines ys) = .ok y →
        ofSource table file (.lines (xs ++ ys)) = .ok z →
        z.start = y.start ∧ z.name = y.name ∧ z.counter = y.counter ∧ z.length = y.length ∧
        z.records =
          (x.records.filter fun record => !record.isEnd) ++ y.records.map (Record.moved xs.length) ∧
        z.symbols.keys = x.symbols.keys ++ y.symbols.keys.filter (· ∉ x.symbols.keys) ∧
        (∀ label, z.symbols.get? label = (y.symbols.get? label).or (x.symbols.get? label)) ∧
        ∃ lines added, (Source.lines ys).read file = .ok lines ∧
          List.Forall₂ (Redefines table x.symbols (lines.map (SourceLine.moved xs.length)))
            (y.symbols.keys.filter (· ∈ x.symbols.keys)) added ∧
          z.diagnostics = x.diagnostics ++
            added.merge (y.diagnostics.map (Diagnostic.moved xs.length)) fun a b =>
              a.number ≤ b.number := by
  refine ⟨isOk_ofSource_append_iff table file xs ys, fun x y z first_laid second_laid laid => ?_⟩
  obtain ⟨earlier, first_read, first_reflects⟩ := reflects_of_ofSource first_laid
  obtain ⟨own, second_read, second_reflects⟩ := reflects_of_ofSource second_laid
  obtain ⟨lines, read, reflects⟩ := reflects_of_ofSource laid
  obtain rfl := Except.ok.inj ((Source.read_append first_read second_read).symm.trans read)
  have keeps := keepsFields_moved xs.length
  have moved_ordered : (own.map (SourceLine.moved xs.length)).Pairwise fun before after =>
      before.number < after.number := (List.pairwise_append.mp (Source.pairwise_number read)).2.1
  -- The second program begins by setting the counter under its new number, too.
  have split : ∃ head others, own.map (SourceLine.moved xs.length) = head :: others ∧
      head.origin?.isSome = true := by
    rw [begins] at second_read
    obtain ⟨others, rfl⟩ := Source.exists_cons_of_read second_read
    refine ⟨_, _, List.map_cons, ?_⟩
    rw [keeps.origin?]
    exact set
  obtain ⟨head, others, joined, head_set⟩ := split
  have start : z.start = y.start := by
    rw [reflects.start, second_reflects.start, joined, startOf_append_of_origin _ _ head_set,
      ← joined, keeps.startOf_map]
  have counter : z.counter = y.counter := by
    rw [reflects.counter, second_reflects.counter, joined,
      counterAfter_append_of_origin _ head_set, ← joined, keeps.counterAfter_map]
  have bindings : bindingsOf table (earlier ++ own.map (SourceLine.moved xs.length)) =
      bindingsOf table earlier ++ bindingsOf table own := by
    rw [joined, bindingsOf_append_of_origin _ _ head_set, ← joined, keeps.bindingsOf_map]
  have symbols : z.symbols = x.symbols.insertAll (bindingsOf table own) := by
    rw [reflects.symbols, bindings, first_reflects.symbols, OrderedMap.ofList,
      OrderedMap.insertAll_append, ← OrderedMap.ofList]
  refine ⟨start, ?_, counter, ?_, ?_, ?_, ?_, own, ?_⟩
  · rw [reflects.name, second_reflects.name, joined, nameOf_append_of_origin _ _ head_set,
      ← joined, keeps.nameOf_map]
  · rw [length, length, start, counter]
  · rw [reflects.records, ← reflects.counter, counter, filter_records first_reflects, joined,
      recordsOf_append_of_origin _ _ head_set, ← joined, recordsOf_map_moved,
      second_reflects.records, ← second_reflects.counter, List.map_append, List.append_assoc]
    rfl
  · rw [symbols, OrderedMap.keys_insertAll, second_reflects.symbols]
  · intro label
    rw [symbols, OrderedMap.get?_insertAll, second_reflects.symbols]
  · obtain ⟨added, redefined, merged⟩ :=
      exists_redefinitions table earlier others head_set (joined ▸ moved_ordered)
    rw [← joined] at redefined merged
    rw [labelsOf, labelsOf, keeps.bindingsOf_map, ← first_reflects.symbols,
      ← second_reflects.symbols] at redefined
    refine ⟨added, second_read, redefined, ?_⟩
    rw [diagnostics_eq laid read, merged, diagnostics_eq first_laid first_read,
      diagnostics_eq second_laid second_read, diagnosticsOf_map_moved]

def earlyPart : List LineInput := [.text "A WORD", .text "B ADD A"]

def latePart : List LineInput := [.text "P START 10", .text "A BYTE 5", .text "C ADD A"]

theorem lays_out_concatenation_of_shared_label :
    ∃ z, ofSource oneInstruction unnamedSource (.lines (earlyPart ++ latePart)) = .ok z ∧
      z.start = some 0x10 ∧ z.symbols.keys = ["A", "B", "C"] ∧
      z.symbols.get? "A" = some 0x10 ∧ z.diagnostics.length = 2 := by
  obtain ⟨joined, law⟩ := lays_out_concatenation oneInstruction earlyPart
    (show latePart = .text "P START 10" :: _ from rfl)
    (show (SourceLine.read unnamedSource 1 "P START 10").origin?.isSome = true by decide +kernel)
  obtain ⟨x, early⟩ := exists_ok
    (x := ofSource oneInstruction unnamedSource (.lines earlyPart)) (by decide +kernel)
  obtain ⟨y, late⟩ := exists_ok
    (x := ofSource oneInstruction unnamedSource (.lines latePart)) (by decide +kernel)
  obtain ⟨z, laid⟩ := exists_ok (joined.mpr ⟨by rw [early]; rfl, by rw [late]; rfl⟩)
  obtain ⟨start, _, _, _, _, keys, values, _, added, _, redefined, diagnostics⟩ :=
    law x y z early late laid
  have early_keys : x.symbols.keys = ["A", "B"] :=
    value_of_ok early (fun layout => layout.symbols.keys) (by decide +kernel)
  have late_keys : y.symbols.keys = ["A", "C"] :=
    value_of_ok late (fun layout => layout.symbols.keys) (by decide +kernel)
  have late_value : y.symbols.get? "A" = some 0x10 :=
    value_of_ok late (fun layout => layout.symbols.get? "A") (by decide +kernel)
  have early_silent : x.diagnostics.length = 0 :=
    value_of_ok early (fun layout => layout.diagnostics.length) (by decide +kernel)
  have late_warned : y.diagnostics.length = 1 :=
    value_of_ok late (fun layout => layout.diagnostics.length) (by decide +kernel)
  have one_more := redefined.length_eq
  rw [early_keys, late_keys] at keys one_more
  refine ⟨z, laid, start.trans (value_of_ok late Layout.start (by decide +kernel)),
    keys.trans (by decide), by rw [values, late_value]; rfl, ?_⟩
  rw [diagnostics, List.length_append, List.length_merge, List.length_map, early_silent,
    late_warned, ← one_more]
  rfl

end Layout

end SicAssembler
