import SicAssembler.Proofs.Addresses

/-!
The first pass, line by line. `Progress.step_eq` says all that one line changes, the diagnostics
apart, and `progressAfter_eq` what a whole run of lines comes to: the address after them, the
records of those that have a place in memory, and the labels of those that define one.
-/

namespace SicAssembler

/-! ### What a line leaves behind -/

namespace SourceLine

/-- Whether a line enters its label in the symbol table. -/
def Defines (line : SourceLine) : Prop :=
  line.mnemonic ≠ "START" ∧ isLabel line.label = true

instance : DecidablePred Defines := fun _ => inferInstanceAs (Decidable (_ ∧ _))

def recordAt (line : SourceLine) (address : Int) : Record :=
  { address
    label := line.label
    mnemonic := line.mnemonic
    operand := line.operand
    line := line.number }

theorem origin?_of_not_start {line : SourceLine} (other : line.mnemonic ≠ "START") :
    line.origin? = none :=
  if_neg other

theorem mnemonic_of_origin {line : SourceLine} (set : line.origin?.isSome = true) :
    line.mnemonic = "START" := by
  by_contra other
  rw [origin?_of_not_start other] at set
  cases set

end SourceLine

/-- The records of the lines that have a place in memory, in order. -/
def recordsOf (table : OpcodeTable) (lines : List SourceLine) : List Record :=
  ((located table lines).filter fun entry => entry.1.Occupies table).map fun entry =>
    entry.1.recordAt entry.2

def bindingsOf (table : OpcodeTable) (lines : List SourceLine) : List (String × Int) :=
  ((located table lines).filter fun entry => entry.1.Defines).map fun entry =>
    (entry.1.label, (entry.2 : Int))

theorem recordsOf_concat {table : OpcodeTable} (lines : List SourceLine) (line : SourceLine) :
    recordsOf table (lines ++ [line]) = recordsOf table lines ++
      if line.Occupies table then [line.recordAt (counterAfter table lines)] else [] := by
  rw [recordsOf, located_concat, List.filter_append, List.map_append, ← recordsOf]
  split_ifs with occupies <;> simp [occupies]

theorem bindingsOf_concat {table : OpcodeTable} (lines : List SourceLine) (line : SourceLine) :
    bindingsOf table (lines ++ [line]) = bindingsOf table lines ++
      if line.Defines then [(line.label, (counterAfter table lines : Int))] else [] := by
  rw [bindingsOf, located_concat, List.filter_append, List.map_append, ← bindingsOf]
  split_ifs with defines <;> simp [defines]

/-! ### One line -/

theorem not_isLabel_empty : isLabel "" = false := rfl

namespace Progress

theorem define_eq (progress : Progress) (line : SourceLine) :
    progress.define line =
      { progress with
        symbols :=
          if isLabel line.label then progress.symbols.insert line.label progress.counter
          else progress.symbols
        diagnostics := (progress.define line).diagnostics } := by
  unfold define
  by_cases empty : line.label = ""
  · simp [empty, not_isLabel_empty]
  · by_cases valid : isLabel line.label = true
    · simp only [valid, String.isEmpty_iff, empty]
      cases progress.symbols.get? line.label <;> rfl
    · simp [empty, valid, warn]

theorem inspect_eq (progress : Progress) (statement : Statement) :
    progress.inspect statement =
      { progress with diagnostics := (progress.inspect statement).diagnostics } := by
  unfold inspect warn
  cases statement.operation <;> dsimp only <;> split_ifs <;> rfl

/-- All that a line changes, the diagnostics apart. -/
theorem step_eq {table : OpcodeTable} {statement : Statement}
    (read : Statement.ofLine table statement.line = .ok statement) (progress : Progress) :
    progress.step statement =
      { counter := match statement.line.origin? with
          | some address => address
          | none =>
            progress.counter + if statement.line.Occupies table then statement.line.bytes else 0
        start := (statement.line.origin?.map Nat.cast).or progress.start
        name := if statement.line.origin?.isSome then statement.line.label else progress.name
        symbols :=
          if statement.line.Defines then
            progress.symbols.insert statement.line.label progress.counter
          else progress.symbols
        records :=
          if statement.line.Occupies table then
            progress.records.push (statement.line.recordAt progress.counter)
          else progress.records
        diagnostics := (progress.step statement).diagnostics } := by
  -- A `START` may set counter, start and name; it never reaches the labels and records.
  by_cases start : statement.line.mnemonic = "START"
  · have absent : ¬statement.line.Occupies table :=
      fun occupies => occupies.mnemonic_ne_start start
    have operation := (Statement.operation_eq_start_iff read).mpr start
    have defines : ¬statement.line.Defines := fun defines => defines.1 start
    simp only [step, operation, begin, SourceLine.origin?, start, if_true, absent, if_false, defines]
    cases Text.hexValue? statement.line.operand with
    | none => simp [warn]
    | some address => simp
  · have operation : statement.operation ≠ .start :=
      fun same => start ((Statement.operation_eq_start_iff read).mp same)
    -- Any other line takes the same three steps: its label, its warnings, its place.
    have stepped : progress.step statement =
        ((progress.define statement.line).inspect statement).place statement := by
      unfold step
      split
      · rename_i same
        exact (operation same).elim
      · rfl
    have defines : statement.line.Defines ↔ isLabel statement.line.label = true := by
      simp [SourceLine.Defines, start]
    rw [stepped, SourceLine.origin?_of_not_start start, place, Statement.size_eq read, inspect_eq,
      define_eq]
    simp only [defines]
    by_cases occupies : statement.line.Occupies table
    · simp only [occupies, if_true]
      rfl
    · simp [occupies]

end Progress

/-! ### A run of lines -/

def progressAfter (statements : List Statement) : Progress :=
  statements.foldl Progress.step {}

theorem progressAfter_concat (statements : List Statement) (statement : Statement) :
    progressAfter (statements ++ [statement]) = (progressAfter statements).step statement :=
  List.foldl_concat ..

theorem progressAfter_eq {table : OpcodeTable} {statements : List Statement}
    (read : ∀ statement ∈ statements, Statement.ofLine table statement.line = .ok statement) :
    progressAfter statements =
      { counter := counterAfter table (statements.map Statement.line)
        start := (startOf (statements.map Statement.line)).map Nat.cast
        name := nameOf (statements.map Statement.line)
        symbols := .ofList (bindingsOf table (statements.map Statement.line))
        records := (recordsOf table (statements.map Statement.line)).toArray
        diagnostics := (progressAfter statements).diagnostics } := by
  -- From the last statement back, for that is the one the fold adds to what was before it.
  induction statements using List.reverseRecOn with
  | nil => rfl
  | append_singleton statements statement ih =>
    have earlier := ih fun statement member => read statement (List.mem_append_left _ member)
    have last := read statement (by simp)
    rw [progressAfter_concat, Progress.step_eq last, earlier, List.map_append, List.map_singleton,
      bindingsOf_concat, recordsOf_concat]
    generalize statements.map Statement.line = lines
    generalize statement.line = line
    simp only [Progress.mk.injEq]
    refine ⟨?_, ?_, (nameOf_concat lines line).symm, ?_, ?_, trivial⟩
    · cases origin : line.origin? with
      | some address => rw [counterAfter_concat_of_origin origin]
      | none => simp [counterAfter_concat origin]
    · rw [startOf_concat]
      cases line.origin? <;> rfl
    · split_ifs
      · rw [OrderedMap.ofList_concat]
      · rw [List.append_nil]
    · split_ifs <;> simp

/-! ### Layouts -/

namespace Layout

variable {table : OpcodeTable} {file : String} {source : Source} {layout : Layout}

/-- A layout that holds what its lines come to. -/
structure Reflects (layout : Layout) (table : OpcodeTable) (lines : List SourceLine) : Prop where
  symbols : layout.symbols = .ofList (bindingsOf table lines)
  records : layout.records = recordsOf table lines ++ [Record.finish (counterAfter table lines)]
  start : layout.start = (startOf lines).map Nat.cast
  name : layout.name = nameOf lines
  counter : layout.counter = counterAfter table lines
  kept : layout.table = table

theorem ofStatements_reflects {statements : List Statement}
    (read : ∀ statement ∈ statements, Statement.ofLine table statement.line = .ok statement) :
    (ofStatements table statements).Reflects table (statements.map Statement.line) := by
  change (ofProgress table (progressAfter statements)).Reflects table _
  rw [progressAfter_eq read]
  constructor <;> rfl

theorem reflects_of_ofSource (laid : ofSource table file source = .ok layout) :
    ∃ lines, source.read file = .ok lines ∧ layout.Reflects table lines := by
  obtain ⟨statements, read, rfl⟩ := ofSource_ok laid
  obtain ⟨lines, interpreted⟩ := Statement.readAll_ok read
  exact ⟨_, lines, ofStatements_reflects interpreted⟩

theorem isDecimal_of_ofSource (laid : ofSource table file source = .ok layout)
    {lines : List SourceLine} (read : source.read file = .ok lines) {line : SourceLine}
    (member : line ∈ lines) (reservation : line.mnemonic = "RESW" ∨ line.mnemonic = "RESB") :
    Text.isDecimal line.operand = true := by
  obtain ⟨statements, interpreted, rfl⟩ := ofSource_ok laid
  obtain ⟨same, interpreted⟩ := Statement.readAll_ok interpreted
  rw [Except.ok.inj (read.symm.trans same)] at member
  obtain ⟨statement, present, rfl⟩ := List.mem_map.mp member
  exact Statement.isDecimal_of_reservation (interpreted statement present) reservation

/-- The records of a layout are those of the lines that have a place in memory, each at the address
that follows the lines before it, and one record more at the end. -/
theorem places_lines (laid : ofSource table file source = .ok layout) :
    ∃ lines, source.read file = .ok lines ∧
      (∀ (i : Nat) (bound : i < lines.length), lines[i].number = i + 1) ∧
      (∀ line ∈ lines, line.mnemonic = "RESW" ∨ line.mnemonic = "RESB" →
        Text.isDecimal line.operand = true) ∧
      layout.records =
        recordsOf table lines ++ [Record.finish (counterAfter table lines)] ∧
      layout.counter = counterAfter table lines ∧
      layout.start = (startOf lines).map Nat.cast ∧
      layout.length = layout.counter - layout.start.getD 0 := by
  obtain ⟨lines, read, reflects⟩ := reflects_of_ofSource laid
  exact ⟨lines, read, Source.number_of_read read, fun _ => isDecimal_of_ofSource laid read,
    reflects.records, reflects.counter, reflects.start, rfl⟩

def oneInstruction : OpcodeTable := .ofList [("ADD", "18")]

/-- A program that sets the counter late, and in vain once more. -/
def lateStart : Source :=
  .text "A RESW 2\nP START 1000\nB ADD C\n* NOP\nC BYTE X'F1F'\nQ START Z\n END"

theorem places_lines_of_lateStart :
    ∃ layout, ofSource oneInstruction unnamedSource lateStart = .ok layout ∧
      layout.records =
        [{ address := 0, label := "A", mnemonic := "RESW", operand := "2", line := 1 },
          { address := 0x1000, label := "B", mnemonic := "ADD", operand := "C", line := 3 },
          { address := 0x1003, label := "C", mnemonic := "BYTE", operand := "X'F1F'", line := 5 },
          Record.finish 0x1005] := by
  refine (exists_ok (by decide +kernel)).imp fun layout laid => ⟨laid, ?_⟩
  obtain ⟨lines, read, _, _, records, _⟩ := places_lines laid
  exact records.trans (value_of_ok read
    (fun lines => recordsOf oneInstruction lines ++ [.finish (counterAfter oneInstruction lines)])
    (by decide +kernel))

end Layout

end SicAssembler
