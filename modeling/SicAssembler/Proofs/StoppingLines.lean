import SicAssembler.Proofs.Failures
import SicAssembler.Proofs.Fields

/-!
Where the first pass stops. A line is bad by itself: it is no text, or it reserves memory without a
count that can be read (`LineInput.Bad`). The first bad line of a source ends the pass, with a failure
that only the line, its number and the name of the source decide (`LineInput.Stops`); a source without
a bad line is laid out (`Layout.stops_at_first_bad_line`).
-/

namespace SicAssembler

variable {table : OpcodeTable} {file : String} {source : Source} {number : Nat} {failure : Failure}

namespace LineInput

def Bad : LineInput → Prop
  | value _ => True
  | text line =>
    (nthField line 1 = "RESW" ∨ nthField line 1 = "RESB") ∧
      (Text.isDecimal (nthField line 2) = false ∨ Text.maxDigits < (nthField line 2).length)

instance : DecidablePred Bad
  | value _ => isTrue trivial
  | text _ => inferInstanceAs (Decidable (_ ∧ _))

inductive Stops (file : String) (number : Nat) : LineInput → Failure → Prop where
  | notText (typeName : String) :
    Stops file number (.value typeName) (.assembly (.source
      { message := "source line must be text, got " ++ typeName
        location := some { file, line := number, column := 0 } }))
  | malformed {text : String} {line : SourceLine} (taken : line = SourceLine.read file number text)
      (reserves : line.Reserves) (unreadable : Text.isDecimal line.operand = false) :
    Stops file number (.text text) (.assembly (.malformedCount line.mnemonic line.operand
      (some { file, line := number, column := line.operandColumn }) (some (Text.trimLineEnd text))))
  | tooLong {text : String} {line : SourceLine} (taken : line = SourceLine.read file number text)
      (reserves : line.Reserves) (decimal : Text.isDecimal line.operand = true)
      (long : Text.maxDigits < line.operand.length) :
    Stops file number (.text text) (.numeral (.tooLong line.operand.length))

theorem bad_iff_not_acceptable {input : LineInput} : input.Bad ↔ ¬input.Acceptable := by
  cases input with
  | value typeName => simp [Bad, Acceptable]
  | text text =>
    obtain ⟨_, mnemonic, operand⟩ := SourceLine.read_fields unnamedSource 1 text
    rw [acceptable_text_iff unnamedSource 1, SourceLine.Acceptable, mnemonic, operand, Bad]
    simp only [Classical.not_imp, Classical.not_and_iff_not_or_not, Bool.not_eq_true, Nat.not_le]

end LineInput

theorem Statement.isOk_read_iff_not_bad (entry : LineInput × Nat) :
    (Statement.read table file entry).isOk = true ↔ ¬entry.1.Bad := by
  rw [isOk_read_iff, LineInput.bad_iff_not_acceptable, not_not]

theorem Statement.read_error_iff {input : LineInput} :
    Statement.read table file (input, number) = .error failure ↔
      input.Stops file number failure := by
  cases input with
  | value typeName =>
    have refused : Statement.read table file (.value typeName, number) =
        .error (.assembly (.notText typeName file number)) := rfl
    rw [refused]
    constructor
    · intro failed
      rw [← Except.error.inj failed]
      exact .notText typeName
    · intro stops
      cases stops
      rfl
  | text text =>
    have taken : Statement.read table file (.text text, number) =
        Statement.ofLine table (SourceLine.read file number text) := by
      simp only [Statement.read, LineInput.read, bind, Except.bind]
    rw [taken, Statement.ofLine_error_iff, SourceLine.count_error_iff]
    constructor
    · rintro ⟨reserves, ⟨decimal, long, rfl⟩ | ⟨unreadable, rfl⟩⟩
      · exact .tooLong rfl reserves decimal long
      · exact .malformed rfl reserves unreadable
    · intro stops
      cases stops with
      | malformed taken reserves unreadable =>
        subst taken
        exact ⟨reserves, .inr ⟨unreadable, rfl⟩⟩
      | tooLong taken reserves decimal long =>
        subst taken
        exact ⟨reserves, .inl ⟨decimal, long, rfl⟩⟩

namespace LineInput

theorem exists_stops_of_bad {input : LineInput} (bad : input.Bad) (file : String) (number : Nat) :
    ∃ failure, input.Stops file number failure := by
  -- Any table will do to see the failure, for reading a line fails with the same under all.
  cases taken : Statement.read .empty file (input, number) with
  | error failure => exact ⟨failure, Statement.read_error_iff.mp taken⟩
  | ok statement =>
    have acceptable := (Statement.isOk_read_iff .empty file (input, number)).mp (by rw [taken]; rfl)
    exact (bad_iff_not_acceptable.mp bad acceptable).elim

end LineInput

namespace Layout

theorem ofSource_error_of_split {before after : List LineInput} {input : LineInput}
    (split : source.inputs = before ++ input :: after) (good : ∀ earlier ∈ before, ¬earlier.Bad)
    (stops : input.Stops file (before.length + 1) failure) :
    ofSource table file source = .error failure := by
  have numbered : source.numbered = before.zipIdx 1 ++
      (input, before.length + 1) :: after.zipIdx (before.length + 1 + 1) := by
    rw [Source.numbered, split, List.zipIdx_append, List.zipIdx_cons, Nat.add_comm 1]
  have passed : ∀ entry ∈ before.zipIdx 1, (Statement.read table file entry).isOk = true := by
    intro entry member
    have sound := good entry.1 (List.fst_mem_of_mem_zipIdx member)
    exact (Statement.isOk_read_iff_not_bad entry).mpr sound
  rw [ofSource, bind_pure_error_iff, Statement.readAll, mapM_error_iff]
  exact ⟨_, _, _, numbered, passed, Statement.read_error_iff.mpr stops⟩

theorem exists_stops_of_error (failed : ofSource table file source = .error failure) :
    ∃ before input after, source.inputs = before ++ input :: after ∧
      (∀ earlier ∈ before, ¬earlier.Bad) ∧ input.Stops file (before.length + 1) failure := by
  rw [ofSource, bind_pure_error_iff, Statement.readAll, mapM_error_iff] at failed
  obtain ⟨front, ⟨input, number⟩, behind, numbered, passed, stopped⟩ := failed
  rw [Source.numbered, List.zipIdx_eq_append_iff] at numbered
  obtain ⟨before, rest, split, rfl, here⟩ := numbered
  obtain ⟨first, after, rfl, entry, -⟩ := List.zipIdx_eq_cons_iff.mp here.symm
  obtain ⟨rfl, rfl⟩ := Prod.mk.inj entry
  refine ⟨before, input, after, split, ?_, ?_⟩
  · intro earlier member
    rw [← List.zipIdx_map_fst 1 before] at member
    obtain ⟨entry, inside, rfl⟩ := List.mem_map.mp member
    exact (Statement.isOk_read_iff_not_bad entry).mp (passed entry inside)
  · rw [Nat.add_comm]
    exact Statement.read_error_iff.mp stopped

/-- The first pass fails if and only if a line is bad, and the first such line alone decides how: the
table, the lines before it and the lines after it may be any others. -/
theorem stops_at_first_bad_line (table : OpcodeTable) (file : String) (source : Source) :
    ((∃ failure, ofSource table file source = .error failure) ↔
      ∃ input ∈ source.inputs, input.Bad) ∧
    ∀ before input after, source.inputs = before ++ input :: after →
      (∀ earlier ∈ before, ¬earlier.Bad) → input.Bad →
      ∃ failure, input.Stops file (before.length + 1) failure ∧
        ofSource table file source = .error failure ∧
        ∀ (otherTable : OpcodeTable) (other : Source) (otherBefore otherAfter : List LineInput),
          other.inputs = otherBefore ++ input :: otherAfter →
          otherBefore.length = before.length → (∀ earlier ∈ otherBefore, ¬earlier.Bad) →
          ofSource otherTable file other = .error failure := by
  refine ⟨?_, fun before input after split good bad => ?_⟩
  · have laid := isOk_ofSource_iff table file source
    have fails : (∃ failure, ofSource table file source = .error failure) ↔
        ¬(ofSource table file source).isOk = true := by
      cases ofSource table file source <;> simp [Except.isOk, Except.toBool]
    rw [fails, laid]
    simp only [LineInput.bad_iff_not_acceptable, not_forall, exists_prop]
  · obtain ⟨failure, stops⟩ := input.exists_stops_of_bad bad file (before.length + 1)
    refine ⟨failure, stops, ofSource_error_of_split split good stops, ?_⟩
    intro otherTable other otherBefore otherAfter otherSplit same otherGood
    rw [← same] at stops
    exact ofSource_error_of_split otherSplit otherGood stops

def miscounted : Source :=
  .lines [.text "A RESW 2", .text " RESB ten\r\n", .value "int"]

theorem stops_at_first_bad_line_of_miscounted :
    (∃ failure, ofSource (.ofList [("RESB", "18")]) unnamedSource miscounted = .error failure) ∧
      ofSource .standard unnamedSource (.lines [.text "P START X", .text " RESB ten\r\n"]) =
        .error (.assembly (.malformedCount "RESB" "ten" (some ⟨unnamedSource, 2, 7⟩)
          (some " RESB ten"))) := by
  obtain ⟨fails, first⟩ := stops_at_first_bad_line (.ofList [("RESB", "18")]) unnamedSource miscounted
  refine ⟨fails.mpr ⟨.value "int", by decide, trivial⟩, ?_⟩
  obtain ⟨failure, stops, _, others⟩ := first [.text "A RESW 2"] (.text " RESB ten\r\n")
    [.value "int"] rfl (by decide +kernel) (by decide +kernel)
  have failed := others .standard (.lines [.text "P START X", .text " RESB ten\r\n"])
    [.text "P START X"] [] rfl rfl (by decide +kernel)
  cases stops with
  | malformed taken _ _ =>
    subst taken
    rw [failed]
    exact congrArg Except.error (by decide +kernel)
  | tooLong taken _ decimal _ =>
    subst taken
    exact absurd decimal (by decide +kernel)

end Layout

end SicAssembler
