import SicAssembler.Proofs.Acceptance
import SicAssembler.Proofs.Entries

/-!
Why an assembly fails. The first pass fails at the first reservation whose count cannot be read, the
second if there is no start address or an operand is a numeral that cannot be read; nothing else
stops the assembly of a text. Each is told apart here from the others by the failure it ends with
(`Layout.ofSource_error_iff`, `Layout.object_error_iff`).
-/

namespace SicAssembler

variable {table : OpcodeTable} {file : String} {source : Source}

theorem exists_of_mapM_error {ε α β : Type} {f : α → Except ε β} {xs : List α} {failure : ε}
    (failed : xs.mapM f = .error failure) :
    ∃ before x after, xs = before ++ x :: after ∧ (∀ y ∈ before, (f y).isOk = true) ∧
      f x = .error failure := by
  induction xs with
  | nil => cases failed
  | cons x rest ih =>
    rw [List.mapM_cons] at failed
    cases first : f x with
    | error reason =>
      rw [first] at failed
      cases failed
      exact ⟨[], x, rest, rfl, by simp, first⟩
    | ok value =>
      rw [first] at failed
      cases others : rest.mapM f with
      | ok values =>
        rw [others] at failed
        cases failed
      | error reason =>
        rw [others] at failed
        cases failed
        obtain ⟨before, y, after, rfl, passed, stopped⟩ := ih others
        refine ⟨x :: before, y, after, rfl, ?_, stopped⟩
        rw [List.forall_mem_cons, first]
        exact ⟨rfl, passed⟩

/-- A traversal fails as the first element does that fails. -/
theorem mapM_error_iff {ε α β : Type} {f : α → Except ε β} {xs : List α} {failure : ε} :
    xs.mapM f = .error failure ↔
      ∃ before x after, xs = before ++ x :: after ∧ (∀ y ∈ before, (f y).isOk = true) ∧
        f x = .error failure := by
  constructor
  · exact exists_of_mapM_error
  · rintro ⟨before, x, after, rfl, passed, stopped⟩
    obtain ⟨values, mapped⟩ := exists_ok (isOk_mapM_iff.mpr passed)
    rw [List.mapM_append, mapped, List.mapM_cons, stopped]
    rfl

theorem bind_pure_error_iff {ε α β : Type} {x : Except ε α} {f : α → β} {failure : ε} :
    (do let a ← x; return f a : Except ε β) = .error failure ↔ x = .error failure := by
  cases x <;> simp [bind, Except.bind, pure, Except.pure]

theorem mapM_bind_of_ok {ε α β γ : Type} {f : α → Except ε β} {xs : List α} {ys : List β}
    (mapped : xs.mapM f = .ok ys) (g : β → Except ε γ) :
    xs.mapM (fun x => f x >>= g) = ys.mapM g := by
  induction mapM_ok_iff.mp mapped with
  | nil => rfl
  | cons first rest ih =>
    rw [List.mapM_cons, List.mapM_cons, first, ih (mapM_ok_iff.mpr rest)]
    rfl

/-! ### The first pass -/

def SourceLine.Reserves (line : SourceLine) : Prop :=
  line.mnemonic = "RESW" ∨ line.mnemonic = "RESB"

theorem SourceLine.count_error_iff {line : SourceLine} {failure : Failure} :
    line.count = .error failure ↔
      (Text.isDecimal line.operand = true ∧ Text.maxDigits < line.operand.length ∧
        failure = .numeral (.tooLong line.operand.length)) ∨
      (Text.isDecimal line.operand = false ∧
        failure = .assembly (.malformedCount line.mnemonic line.operand (some line.location)
          (some line.text))) := by
  rw [count, readDecimal_eq]
  by_cases decimal : Text.isDecimal line.operand = true
  · by_cases long : Text.maxDigits < line.operand.length
    · simp [decimal, long, eq_comm]
    · simp [decimal, long]
  · simp [decimal, eq_comm]

theorem Statement.ofLine_error_iff {line : SourceLine} {failure : Failure} :
    ofLine table line = .error failure ↔ line.Reserves ∧ line.count = .error failure := by
  rw [ofLine, bind_pure_error_iff, Operation.classify_eq, SourceLine.Reserves]
  split_ifs with start words reserved filled word known
  · simp [start, Operation.size?]
  · rw [Operation.size?, bind_pure_error_iff]
    simp [words]
  · rw [Operation.size?, bind_pure_error_iff]
    simp [reserved]
  all_goals simp [words, reserved, Operation.size?]

theorem Layout.ofSource_error_iff {lines : List SourceLine} (read : source.read file = .ok lines)
    {failure : Failure} :
    ofSource table file source = .error failure ↔
      ∃ before line after, lines = before ++ line :: after ∧
        (∀ earlier ∈ before, earlier.Acceptable) ∧ line.Reserves ∧ line.count = .error failure := by
  have statements : Statement.readAll table file source = lines.mapM (Statement.ofLine table) :=
    mapM_bind_of_ok read _
  rw [ofSource, bind_pure_error_iff, statements, mapM_error_iff]
  simp only [Statement.isOk_ofLine_iff, Statement.ofLine_error_iff]

inductive Failure.OfText : Failure → Prop where
  | malformedCount (name operand : String) (location : Option Location) (line : Option String) :
    OfText (.assembly (.malformedCount name operand location line))
  | undefinedStart : OfText (.assembly .undefinedStart)
  | tooLong (digits : Nat) : OfText (.numeral (.tooLong digits))

theorem Failure.OfText.cases_assembly {error : AssemblyError} (cause : OfText (.assembly error)) :
    (∃ name operand location line, error = .malformedCount name operand location line) ∨
      error = .undefinedStart := by
  cases cause with
  | malformedCount name operand location line => exact .inl ⟨name, operand, location, line, rfl⟩
  | undefinedStart => exact .inr rfl

theorem Layout.ofSource_text_error {program : String} {failure : Failure}
    (failed : ofSource table file (.text program) = .error failure) : failure.OfText := by
  have read := Source.read_texts (show (Source.text program).inputs = _ from rfl) file
  obtain ⟨_, line, _, _, _, _, failed⟩ := (ofSource_error_iff read).mp failed
  rcases SourceLine.count_error_iff.mp failed with ⟨_, _, rfl⟩ | ⟨_, rfl⟩
  · exact .tooLong _
  · exact .malformedCount ..

/-! ### The second pass -/

theorem resolve_error_iff {symbols : SymbolTable} {operand : String} {failure : Failure} :
    resolve symbols operand = .error failure ↔
      operand ∉ symbols.keys ∧ Text.isDecimal operand = true ∧ Text.maxDigits < operand.length ∧
        failure = .numeral (.tooLong operand.length) := by
  rw [← symbols.get?_eq_none_iff, resolve]
  cases symbols.get? operand with
  | some address => simp
  | none =>
    rw [readDecimal_eq]
    by_cases decimal : Text.isDecimal operand = true
    · by_cases long : Text.maxDigits < operand.length
      · simp [decimal, long, eq_comm]
      · simp [decimal, long]
    · simp [decimal]

/-- A record that no entry can be made for: it has a code, and its operand is a numeral with too
many digits that is no label. -/
def Record.Overlong (table : OpcodeTable) (symbols : SymbolTable) (record : Record) : Prop :=
  record.hasOperand = true ∧ record.mnemonic ∈ table.keys ∧ record.operand ∉ symbols.keys ∧
    Text.isDecimal record.operand = true ∧ Text.maxDigits < record.operand.length

theorem Record.entry?_error_iff {symbols : SymbolTable} {record : Record} {failure : Failure} :
    record.entry? table symbols = .error failure ↔
      record.Overlong table symbols ∧ failure = .numeral (.tooLong record.operand.length) := by
  rw [Overlong, entry?]
  split_ifs with operand
  · cases coded : table.get? record.mnemonic with
    | none =>
      have unknown := table.get?_eq_none_iff.mp coded
      simp [unknown]
    | some code =>
      have known : record.mnemonic ∈ table.keys :=
        (table.get?_isSome_iff _).mp (Option.isSome_iff_exists.mpr ⟨code, coded⟩)
      rw [bind_pure_error_iff, resolve_error_iff]
      simp [operand, known, and_assoc]
  · simp [operand]

namespace Layout

theorem object_cases (layout : Layout) (codes : OpcodeTable) :
    (layout.start = none ∧ layout.object codes = .error (.assembly .undefinedStart)) ∨
    (layout.start ≠ none ∧ (∃ record ∈ layout.records, record.Overlong codes layout.symbols) ∧
      ∃ digits, layout.object codes = .error (.numeral (.tooLong digits))) ∨
    (layout.start ≠ none ∧ (∀ record ∈ layout.records, ¬record.Overlong codes layout.symbols) ∧
      ∃ program, layout.object codes = .ok program) := by
  unfold object ObjectProgram.build
  cases layout.start with
  | none => exact .inl ⟨rfl, rfl⟩
  | some address =>
    refine .inr ?_
    cases entries : layout.records.mapM (Record.entry? codes layout.symbols) with
    | error failure =>
      obtain ⟨before, record, after, split, _, stopped⟩ := exists_of_mapM_error entries
      obtain ⟨overlong, rfl⟩ := Record.entry?_error_iff.mp stopped
      have member : record ∈ layout.records := by simp [split]
      exact .inl ⟨by simp, ⟨record, member, overlong⟩, _, rfl⟩
    | ok values =>
      refine .inr ⟨by simp, ?_, _, rfl⟩
      intro record member overlong
      obtain ⟨value, made⟩ := mapM_ok_mem_left entries member
      cases made.symm.trans (Record.entry?_error_iff.mpr ⟨overlong, rfl⟩)

theorem object_error {layout : Layout} {codes : OpcodeTable} {failure : Failure}
    (failed : layout.object codes = .error failure) : failure.OfText := by
  rcases layout.object_cases codes with
    ⟨_, refused⟩ | ⟨_, _, digits, refused⟩ | ⟨_, _, program, built⟩
  · cases refused.symm.trans failed
    exact .undefinedStart
  · cases refused.symm.trans failed
    exact .tooLong digits
  · cases built.symm.trans failed

end Layout

end SicAssembler
