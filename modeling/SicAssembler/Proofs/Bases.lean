import SicAssembler.Proofs.Symbols

/-!
Addresses and the base they count from. A `START` that counts sets a base wherever it stands, so
the addresses of a program fall into stretches: those of the lines from one such `START` to the
next lie between the address that the first one sets and the counter before the second
(`InStretch`). Only the last stretch is bounded by the start address and the end of the program;
what stands before the last base was counted from an earlier one, or from zero.
-/

namespace SicAssembler

variable {table : OpcodeTable} {lines before between after : List SourceLine}
  {line first : SourceLine}

/-! ### Stretches -/

def untilBase (lines : List SourceLine) : List SourceLine :=
  lines.takeWhile fun line => line.origin?.isNone

/-- An address that counts from the base in force after `before`, and is not past the counter where
the next base is set among the lines that follow. -/
def InStretch (table : OpcodeTable) (before after : List SourceLine) (address : Int) : Prop :=
  baseAfter before ≤ address ∧ address ≤ counterAfter table (before ++ untilBase after)

theorem origin?_of_mem_untilBase (member : line ∈ untilBase lines) : line.origin? = none := by
  have plain : line.origin?.isNone = true :=
    List.mem_takeWhile_imp (p := fun line : SourceLine => line.origin?.isNone) member
  exact Option.isNone_iff_eq_none.mp plain

/-- The address of a line lies in the stretch of that line. -/
theorem inStretch_counterAfter (table : OpcodeTable) (before after : List SourceLine) :
    InStretch table before after (counterAfter table before) := by
  have plain : ∀ line ∈ untilBase after, line.origin? = none :=
    fun _ member => origin?_of_mem_untilBase member
  have further := counterAfter_append_of_plain table before plain
  constructor
  · exact Int.ofNat_le.mpr (Nat.le_add_right _ _)
  · exact Int.ofNat_le.mpr (further ▸ Nat.le_add_right _ _)

/-- The stretch after the last base goes on to the end. -/
theorem InStretch.bounds {address : Int} {start : Nat} (set : first.origin? = some start)
    (between_plain : ∀ line ∈ between, line.origin? = none)
    (after_plain : ∀ line ∈ after, line.origin? = none)
    (inside : InStretch table (before ++ first :: between) after address) :
    start ≤ address ∧ address ≤ counterAfter table (before ++ first :: between ++ after) := by
  obtain ⟨low, high⟩ := inside
  have base : baseAfter (before ++ first :: between) = start := by
    rw [List.append_cons, baseAfter_append_of_plain _ between_plain, baseAfter, startOf_concat, set]
    rfl
  have whole : untilBase after = after := by
    apply List.takeWhile_eq_self_iff.mpr
    intro line member
    exact Option.isNone_iff_eq_none.mpr (after_plain line member)
  exact ⟨base ▸ low, whole ▸ high⟩

/-! ### Lines by their numbers -/

/-- A line with a greater number than `first` stands after it. -/
theorem exists_between_of_number_lt {rest : List SourceLine}
    (ordered : (before ++ first :: after).Pairwise fun earlier later => earlier.number < later.number)
    (same : before ++ first :: after = lines ++ line :: rest) (later : first.number < line.number) :
    ∃ between, lines = before ++ first :: between ∧ after = between ++ line :: rest := by
  rcases List.append_eq_append_iff.mp same with ⟨middle, split, tail⟩ | ⟨middle, split, tail⟩
  · cases middle with
    | nil =>
      obtain ⟨rfl, _⟩ := List.cons.inj tail
      omega
    | cons head between =>
      obtain ⟨rfl, rest⟩ := List.cons.inj tail
      exact ⟨between, split, rest⟩
  · cases middle with
    | nil =>
      obtain ⟨rfl, _⟩ := List.cons.inj tail
      omega
    | cons head between =>
      obtain ⟨rfl, _⟩ := List.cons.inj tail
      -- The line would stand before `first`, and have a smaller number.
      have earlier := (List.pairwise_append.mp ordered).2.2 line (by simp [split]) first (by simp)
      omega

/-- The address of a line after the last base lies between that base and the end. -/
theorem bounds_of_number_lt (table : OpcodeTable) {rest : List SourceLine} {start : Nat}
    (set : first.origin? = some start) (plain : ∀ later ∈ after, later.origin? = none)
    (ordered : (before ++ first :: after).Pairwise fun earlier later => earlier.number < later.number)
    (same : before ++ first :: after = lines ++ line :: rest) (later : first.number < line.number) :
    (start : Int) ≤ counterAfter table lines ∧
      (counterAfter table lines : Int) ≤ counterAfter table (before ++ first :: after) := by
  obtain ⟨between, rfl, rfl⟩ := exists_between_of_number_lt ordered same later
  obtain ⟨between_plain, rest_plain⟩ := List.forall_mem_append.mp plain
  rw [same]
  exact (inStretch_counterAfter table _ _).bounds set between_plain rest_plain

/-- No definition of a label has a greater number than the last one. -/
theorem number_le_of_last_definition {label : String} {other : SourceLine}
    (ordered : (before ++ line :: after).Pairwise fun earlier later => earlier.number < later.number)
    (fresh : ∀ later ∈ after, later.Defines → later.label ≠ label)
    (member : other ∈ before ++ line :: after) (defines : other.Defines)
    (named : other.label = label) : other.number ≤ line.number := by
  rcases List.mem_append.mp member with earlier | here
  · have smaller := (List.pairwise_append.mp ordered).2.2 other earlier line (by simp)
    exact Int.le_of_lt smaller
  · rcases List.mem_cons.mp here with rfl | later
    · exact Int.le_refl _
    · exact (fresh other later defines named).elim

namespace Layout

variable {file : String} {source : Source} {layout : Layout} {start : Int}

/-- Every address of a layout counts from the base in force at its line. Those of lines after the
last base, and the address of the end, lie between the start address and the counter. -/
theorem addresses_count_from_bases (laid : ofSource table file source = .ok layout)
    (started : layout.start = some start) :
    ∃ lines first, source.read file = .ok lines ∧
      (∃ before after, lines = before ++ first :: after ∧ first.origin?.map Nat.cast = some start ∧
        ∀ later ∈ after, later.origin? = none) ∧
      (∀ record ∈ layout.records, record.isEnd = true ∨ first.number < record.line →
        start ≤ record.address ∧ record.address ≤ layout.counter) ∧
      (∀ label address, layout.symbols.get? label = some address →
        (∃ line ∈ lines, line.Defines ∧ line.label = label ∧ first.number < line.number) →
        start ≤ address ∧ address ≤ layout.counter) ∧
      (∀ record ∈ layout.records, record.isEnd = false →
        ∃ before line after, lines = before ++ line :: after ∧ line.number = record.line ∧
          InStretch table before (line :: after) record.address) ∧
      (∀ label address, layout.symbols.get? label = some address →
        ∃ before line after, lines = before ++ line :: after ∧ line.Defines ∧ line.label = label ∧
          (∀ later ∈ after, later.Defines → later.label ≠ label) ∧
          InStretch table before (line :: after) address) := by
  obtain ⟨lines, read, reflects⟩ := reflects_of_ofSource laid
  have ordered := Source.pairwise_number read
  rw [reflects.start, Option.map_eq_some_iff] at started
  obtain ⟨base, found, rfl⟩ := started
  obtain ⟨before, first, after, rfl, origin, plain, _⟩ := exists_split_of_startOf found
  rw [reflects.counter]
  refine ⟨_, first, read, ⟨before, after, rfl, by rw [origin]; rfl, plain⟩, ?_, ?_, ?_, ?_⟩
  · intro record member late
    rcases reflects.record_cases member with ⟨earlier, line, rest, same, _, rfl⟩ | rfl
    · rcases late with isEnd | later
      · cases isEnd
      · exact bounds_of_number_lt table origin plain ordered same later
    · have reached := (inStretch_counterAfter table (before ++ first :: after) []).bounds
        origin plain (by simp)
      exact ⟨reached.1, Int.le_refl _⟩
  · rintro label address bound ⟨definition, member, defines, named, later⟩
    obtain ⟨earlier, line, rest, same, _, _, fresh, rfl⟩ :=
      (get?_symbols_iff reflects label address).mp bound
    -- The label may be defined more than once; it is bound where it is defined last.
    have last : definition.number ≤ line.number :=
      number_le_of_last_definition (same ▸ ordered) fresh (same ▸ member) defines named
    exact bounds_of_number_lt table origin plain ordered same (by omega)
  · intro record member inner
    rcases reflects.record_cases member with ⟨earlier, line, rest, same, _, rfl⟩ | rfl
    · exact ⟨earlier, line, rest, same, rfl, inStretch_counterAfter table _ _⟩
    · cases inner
  · intro label address bound
    obtain ⟨earlier, line, rest, same, defines, named, fresh, rfl⟩ :=
      (get?_symbols_iff reflects label address).mp bound
    exact ⟨earlier, line, rest, same, defines, named, fresh, inStretch_counterAfter table _ _⟩

theorem addresses_count_from_bases_of_lateStart :
    ∃ layout, ofSource oneInstruction unnamedSource lateStart = .ok layout ∧
      layout.start = some 0x1000 ∧ layout.symbols.get? "C" = some 0x1003 ∧
      (0x1000 : Int) ≤ 0x1003 ∧ 0x1003 ≤ layout.counter := by
  obtain ⟨layout, laid⟩ := exists_ok (x := ofSource oneInstruction unnamedSource lateStart)
    (by decide +kernel)
  have values : (layout.start, layout.symbols.get? "C") = (some 0x1000, some 0x1003) :=
    value_of_ok laid (fun layout => (layout.start, layout.symbols.get? "C")) (by decide +kernel)
  obtain ⟨started, bound⟩ := Prod.mk.inj values
  obtain ⟨lines, first, read, ⟨before, after, split, set, _⟩, _, symbols, _⟩ :=
    addresses_count_from_bases laid started
  refine ⟨layout, laid, started, bound, symbols "C" _ bound ?_⟩
  have after_bases := of_decide_eq_true (value_of_ok read (fun lines => decide
    (∀ first ∈ lines, first.origin?.isSome → ∃ line ∈ lines,
      line.Defines ∧ line.label = "C" ∧ first.number < line.number)) (by decide +kernel))
  have some_origin : first.origin?.isSome = true := by
    obtain ⟨address, origin, _⟩ := Option.map_eq_some_iff.mp set
    rw [origin]
    rfl
  exact after_bases first (by simp [split]) some_origin

/-- A base set late leaves what stands before it where it was: here a record and a label lie below
the start address. -/
theorem early_addresses_lie_below_start :
    ∃ layout, ofSource .empty unnamedSource (.text "A WORD\nP START 10") = .ok layout ∧
      layout.start = some 0x10 ∧ layout.counter = 0x10 ∧
      (∃ record ∈ layout.records, record.address < 0x10) ∧
      layout.symbols.get? "A" = some 0 := by
  refine (exists_ok (by decide +kernel)).imp fun layout laid => ⟨laid, ?_, ?_, ?_, ?_⟩
  · exact value_of_ok laid Layout.start (by decide +kernel)
  · exact value_of_ok laid Layout.counter (by decide +kernel)
  · exact of_decide_eq_true (value_of_ok laid
      (fun layout => decide (∃ record ∈ layout.records, record.address < 0x10)) (by decide +kernel))
  · exact value_of_ok laid (fun layout => layout.symbols.get? "A") (by decide +kernel)

end Layout

end SicAssembler
