import SicAssembler.Proofs.Symbols

/-!
The diagnostics of a program, line by line. What a line is warned about is a fact about the line,
the opcode table and the lines before it, of which only the counter and the last address of its own
label matter (`SourceLine.warnings`). The first pass notes the warnings of each line after those of
the lines before it (`Layout.diagnostics_eq`).
-/

namespace SicAssembler

/-! ### The warnings of a line -/

namespace SourceLine

def warning (line : SourceLine) (kind : DiagnosticKind) (message : String) : Diagnostic :=
  { kind, message, location := some line.location }

/-- The warning that the label of a line had another address before. -/
def redefinition (line : SourceLine) (previous address : Int) : Diagnostic :=
  line.warning .redefinedLabel
    ("label '" ++ line.label ++ "' redefined: " ++ addressText previous ++ " -> "
      ++ addressText address)

def labelWarnings (line : SourceLine) (previous : Option Int) (address : Int) : List Diagnostic :=
  if line.mnemonic = "START" ∨ line.label = "" then []
  else if isLabel line.label then
    previous.toList.map fun previous => line.redefinition previous address
  else
    [line.warning .invalidLabel ("invalid label '" ++ line.label ++ "' not entered in symbol table")]

def fieldWarnings (table : OpcodeTable) (line : SourceLine) : List Diagnostic :=
  if line.mnemonic = "START" then
    if line.origin?.isSome then []
    else [line.warning .malformedStart
      ("START operand '" ++ line.operand ++ "' is not a hexadecimal address, directive ignored")]
  else if line.mnemonic = "BYTE" then
    if (literalBytes? line.operand).isSome then []
    else [line.warning .malformedByte
      ("BYTE operand '" ++ line.operand ++ "' is neither C'...' nor X'...', no bytes reserved")]
  else if line.mnemonic = "" ∨ line.mnemonic = "END" ∨ line.Occupies table then []
  else [line.warning .unknownMnemonic ("unknown opcode '" ++ line.mnemonic ++ "', line ignored")]

def warnings (table : OpcodeTable) (before : List SourceLine) (line : SourceLine) :
    List Diagnostic :=
  line.labelWarnings ((addressOf? table before line.label).map Nat.cast) (counterAfter table before)
    ++ line.fieldWarnings table

end SourceLine

def diagnosticsOf (table : OpcodeTable) (lines : List SourceLine) : List Diagnostic :=
  (lines.mapIdx fun i line => line.warnings table (lines.take i)).flatten

theorem diagnosticsOf_concat {table : OpcodeTable} (lines : List SourceLine) (line : SourceLine) :
    diagnosticsOf table (lines ++ [line]) =
      diagnosticsOf table lines ++ line.warnings table lines := by
  have earlier : lines.mapIdx (fun i line' => line'.warnings table ((lines ++ [line]).take i)) =
      lines.mapIdx fun i line' => line'.warnings table (lines.take i) := by
    rw [List.mapIdx_eq_mapIdx_iff]
    intro i bound
    rw [List.take_append_of_le_length bound.le]
  rw [diagnosticsOf, List.mapIdx_concat, earlier, List.take_left, List.flatten_concat, ← diagnosticsOf]

/-! ### The first pass -/

namespace Progress

variable {table : OpcodeTable} {statement : Statement}

theorem diagnostics_define (progress : Progress) {line : SourceLine}
    (other : line.mnemonic ≠ "START") :
    (progress.define line).diagnostics.toList = progress.diagnostics.toList ++
      line.labelWarnings (progress.symbols.get? line.label) progress.counter := by
  unfold define SourceLine.labelWarnings
  by_cases empty : line.label = ""
  · simp [empty]
  · simp only [empty, other, String.isEmpty_iff, or_self, if_false]
    by_cases valid : isLabel line.label = true
    · cases progress.symbols.get? line.label with
      | none => simp [valid, bind]
      | some previous => simp [valid, bind, warn, SourceLine.redefinition, SourceLine.warning]
    · simp [valid, warn, SourceLine.warning]

theorem diagnostics_inspect (progress : Progress)
    (read : Statement.ofLine table statement.line = .ok statement)
    (other : statement.line.mnemonic ≠ "START") :
    (progress.inspect statement).diagnostics.toList = progress.diagnostics.toList ++
      statement.line.fieldWarnings table := by
  have operation := (Statement.ofLine_ok read).2.1
  rw [Operation.classify_eq, if_neg other] at operation
  unfold inspect SourceLine.fieldWarnings SourceLine.Occupies
  rw [if_neg other]
  split_ifs at operation with words reserved filled word known
  · simp [operation, words]
  · simp [operation, reserved]
  · by_cases literal : (literalBytes? statement.line.operand).isSome = true
    · simp [operation, filled, literalSize?_eq, literal]
    · simp [operation, filled, literalSize?_eq, literal, warn, SourceLine.warning]
  · simp [operation, word]
  · simp [operation, filled, known, other]
  · by_cases silent : statement.line.mnemonic = "" ∨ statement.line.mnemonic = "END"
    · rcases silent with same | same
      · simp [operation, same]
      · simp [operation, same, endMnemonic]
    · obtain ⟨named, notEnd⟩ := not_or.mp silent
      have absent : statement.line.mnemonic ∉ table.keys := fun present => known ⟨named, present⟩
      simp [operation, words, reserved, filled, word, named, notEnd, absent, endMnemonic, warn,
        SourceLine.warning]

theorem diagnostics_begin (progress : Progress) {line : SourceLine}
    (start : line.mnemonic = "START") :
    (progress.begin line).diagnostics.toList =
      progress.diagnostics.toList ++ line.fieldWarnings table := by
  unfold begin SourceLine.fieldWarnings SourceLine.origin?
  cases Text.hexValue? line.operand with
  | none => simp [start, warn, SourceLine.warning]
  | some address => simp [start]

theorem diagnostics_place (progress : Progress) (statement : Statement) :
    (progress.place statement).diagnostics = progress.diagnostics := by
  unfold place
  cases statement.size <;> rfl

/-- A line adds its own warnings after all others. -/
theorem diagnostics_step (progress : Progress)
    (read : Statement.ofLine table statement.line = .ok statement) :
    (progress.step statement).diagnostics.toList = progress.diagnostics.toList ++
      (statement.line.labelWarnings (progress.symbols.get? statement.line.label) progress.counter
        ++ statement.line.fieldWarnings table) := by
  have operation := Statement.operation_eq_start_iff read
  unfold step
  by_cases start : statement.line.mnemonic = "START"
  · have unlabelled : ∀ previous address, statement.line.labelWarnings previous address = [] :=
      fun _ _ => if_pos (.inl start)
    rw [operation.mpr start, unlabelled, List.nil_append]
    exact diagnostics_begin progress start
  · have other : statement.operation ≠ .start := fun same => start (operation.mp same)
    split
    · rename_i same
      exact (other same).elim
    · rw [diagnostics_place, diagnostics_inspect _ read start, diagnostics_define _ start,
        List.append_assoc]

end Progress

theorem diagnostics_progressAfter {table : OpcodeTable} {statements : List Statement}
    (read : ∀ statement ∈ statements, Statement.ofLine table statement.line = .ok statement) :
    (progressAfter statements).diagnostics.toList =
      diagnosticsOf table (statements.map Statement.line) := by
  induction statements using List.reverseRecOn with
  | nil => rfl
  | append_singleton statements statement ih =>
    have earlier : ∀ statement ∈ statements, Statement.ofLine table statement.line = .ok statement :=
      fun statement member => read statement (List.mem_append_left _ member)
    have last := read statement (by simp)
    have counter := congrArg Progress.counter (progressAfter_eq earlier)
    have symbols := congrArg Progress.symbols (progressAfter_eq earlier)
    rw [progressAfter_concat, Progress.diagnostics_step _ last, ih earlier, counter, symbols,
      get?_ofList_bindingsOf, List.map_append, List.map_singleton, diagnosticsOf_concat,
      SourceLine.warnings]

namespace Layout

variable {table : OpcodeTable} {file : String} {source : Source} {layout : Layout}

theorem diagnostics_eq (laid : ofSource table file source = .ok layout) {lines : List SourceLine}
    (read : source.read file = .ok lines) : layout.diagnostics = diagnosticsOf table lines := by
  obtain ⟨statements, interpreted, rfl⟩ := ofSource_ok laid
  obtain ⟨same, interpreted⟩ := Statement.readAll_ok interpreted
  obtain rfl := Except.ok.inj (same.symm.trans read)
  exact diagnostics_progressAfter interpreted

end Layout

end SicAssembler
