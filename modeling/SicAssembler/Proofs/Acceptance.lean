import SicAssembler.Proofs.LineSize

/-!
Which programs are laid out at all. A line stops the first pass only if it is no text or reserves
memory without a count (`LineInput.Acceptable`), whatever its number, the opcode table and the
other lines, so a program is laid out if and only if each of its lines is acceptable.
-/

namespace SicAssembler

theorem isOk_mapM_iff {ε α β : Type} {f : α → Except ε β} {xs : List α} :
    (xs.mapM f).isOk = true ↔ ∀ x ∈ xs, (f x).isOk = true := by
  induction xs with
  | nil => simp [pure, Except.pure, Except.isOk, Except.toBool]
  | cons x rest ih =>
    rw [List.mapM_cons, List.forall_mem_cons, ← ih]
    cases f x with
    | error failure => simp [bind, Except.bind, Except.isOk, Except.toBool]
    | ok y =>
      cases rest.mapM f with
      | error failure => simp [bind, Except.bind, Except.isOk, Except.toBool]
      | ok ys => simp [bind, Except.bind, pure, Except.pure, Except.isOk, Except.toBool]

/-- Whether the first pass goes past a line: a reservation has a count that is not too long. -/
def SourceLine.Acceptable (line : SourceLine) : Prop :=
  line.mnemonic = "RESW" ∨ line.mnemonic = "RESB" →
    Text.isDecimal line.operand = true ∧ line.operand.length ≤ Text.maxDigits

def LineInput.Acceptable (input : LineInput) : Prop :=
  ∃ text, input = .text text ∧ ∀ file number, (SourceLine.read file number text).Acceptable

theorem SourceLine.acceptable_of_start {line : SourceLine} (start : line.mnemonic = "START") :
    line.Acceptable := by
  intro reservation
  simp [start] at reservation

theorem SourceLine.isOk_count_iff (line : SourceLine) :
    line.count.isOk = true ↔
      Text.isDecimal line.operand = true ∧ line.operand.length ≤ Text.maxDigits := by
  rw [count, readDecimal_eq]
  by_cases decimal : Text.isDecimal line.operand = true
  · by_cases long : Text.maxDigits < line.operand.length
    · simp [decimal, long, Except.isOk, Except.toBool]
    · simp [decimal, long, Except.isOk, Except.toBool]
      omega
  · simp [decimal, Except.isOk, Except.toBool]

theorem isOk_bind_pure {ε α β : Type} (x : Except ε α) (f : α → β) :
    (do let a ← x; return f a : Except ε β).isOk = x.isOk := by
  cases x <;> rfl

theorem Statement.isOk_ofLine_iff (table : OpcodeTable) (line : SourceLine) :
    (ofLine table line).isOk = true ↔ line.Acceptable := by
  rw [ofLine, isOk_bind_pure, Operation.classify_eq, SourceLine.Acceptable]
  split_ifs with start words reserved filled word known
  · simp [start, Operation.size?, Except.isOk, Except.toBool]
  · rw [Operation.size?, isOk_bind_pure, SourceLine.isOk_count_iff]
    simp [words]
  · rw [Operation.size?, isOk_bind_pure, SourceLine.isOk_count_iff]
    simp [reserved]
  all_goals simp [words, reserved, Operation.size?, Except.isOk, Except.toBool]

theorem LineInput.acceptable_text_iff (file : String) (number : Int) (text : String) :
    (LineInput.text text).Acceptable ↔ (SourceLine.read file number text).Acceptable := by
  constructor
  · rintro ⟨_, same, acceptable⟩
    rw [LineInput.text.inj same]
    exact acceptable file number
  · -- The mnemonic and the operand are the same under every number and file name.
    intro acceptable
    exact ⟨text, rfl, fun _ _ => acceptable⟩

theorem Statement.isOk_read_iff (table : OpcodeTable) (file : String) (input : LineInput × Nat) :
    (Statement.read table file input).isOk = true ↔ input.1.Acceptable := by
  obtain ⟨input, number⟩ := input
  rw [Statement.read]
  cases input with
  | text text =>
    rw [LineInput.acceptable_text_iff file number, ← isOk_ofLine_iff table,
      LineInput.read]
    simp only [bind, Except.bind]
  | value typeName =>
    simp [LineInput.read, LineInput.Acceptable, bind, Except.bind, Except.isOk, Except.toBool]

namespace Layout

/-- A program is laid out if and only if all its lines are acceptable, one by one. -/
theorem isOk_ofSource_iff (table : OpcodeTable) (file : String) (source : Source) :
    (ofSource table file source).isOk = true ↔ ∀ input ∈ source.inputs, input.Acceptable := by
  rw [ofSource, isOk_bind_pure, Statement.readAll, isOk_mapM_iff]
  simp only [Statement.isOk_read_iff]
  rw [← List.forall_mem_map (P := LineInput.Acceptable), Source.numbered, List.zipIdx_map_fst]

end Layout

end SicAssembler
