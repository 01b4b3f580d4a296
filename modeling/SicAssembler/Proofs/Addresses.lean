import Mathlib.Algebra.GroupWithZero.Nat
import Mathlib.Data.List.DropRight
import SicAssembler.Proofs.LineSize

/-!
Where lines stand in memory. The address that follows some lines is the last one that a `START`
among them set, or zero, and the bytes of the lines after that `START` (`counterAfter`). `located`
gives every line of a program with the address before it.
-/

namespace SicAssembler

/-- The last address that lines set the counter to. -/
def startOf (lines : List SourceLine) : Option Nat :=
  (lines.filterMap SourceLine.origin?).getLast?

def nameOf (lines : List SourceLine) : String :=
  ((lines.filter fun line => line.origin?.isSome).getLast?.map SourceLine.label).getD ""

/-- The address that the counter was last set to, zero before that. -/
def baseAfter (lines : List SourceLine) : Nat :=
  (startOf lines).getD 0

def sinceBase (lines : List SourceLine) : List SourceLine :=
  lines.rtakeWhile fun line => line.origin?.isNone

def counterAfter (table : OpcodeTable) (lines : List SourceLine) : Nat :=
  baseAfter lines
    + (((sinceBase lines).filter (SourceLine.Occupies table)).map SourceLine.bytes).sum

def located (table : OpcodeTable) (lines : List SourceLine) : List (SourceLine × Nat) :=
  lines.mapIdx fun i line => (line, counterAfter table (lines.take i))

variable {table : OpcodeTable} {lines : List SourceLine} {line : SourceLine}

theorem startOf_concat (lines : List SourceLine) (line : SourceLine) :
    startOf (lines ++ [line]) = line.origin?.or (startOf lines) := by
  cases origin : line.origin? <;> simp [startOf, origin]

theorem nameOf_concat (lines : List SourceLine) (line : SourceLine) :
    nameOf (lines ++ [line]) = if line.origin?.isSome then line.label else nameOf lines := by
  split_ifs with origin <;> simp [nameOf, origin]

/-- The start address and the name come from the same line. -/
theorem exists_split_of_startOf {address : Nat} (found : startOf lines = some address) :
    ∃ before line after, lines = before ++ line :: after ∧ line.origin? = some address ∧
      (∀ later ∈ after, later.origin? = none) ∧ nameOf lines = line.label := by
  induction lines using List.reverseRecOn with
  | nil => cases found
  | append_singleton lines line ih =>
    rw [startOf_concat] at found
    rw [nameOf_concat]
    cases origin : line.origin? with
    | some own =>
      rw [origin] at found
      exact ⟨lines, line, [], rfl, origin.trans found, by simp, by simp⟩
    | none =>
      rw [origin] at found
      obtain ⟨before, earlier, after, rfl, set, fresh, name⟩ := ih found
      have still : ∀ later ∈ after ++ [line], later.origin? = none :=
        List.forall_mem_append.mpr ⟨fresh, List.forall_mem_singleton.mpr origin⟩
      exact ⟨before, earlier, after ++ [line], by simp, set, still, by simpa using name⟩

theorem counterAfter_concat_of_origin {address : Nat} (origin : line.origin? = some address) :
    counterAfter table (lines ++ [line]) = address := by
  have since : sinceBase (lines ++ [line]) = [] :=
    List.rtakeWhile_concat_neg _ _ _ (by simp [origin])
  have base : baseAfter (lines ++ [line]) = address := by simp [baseAfter, startOf_concat, origin]
  simp [counterAfter, since, base]

theorem counterAfter_concat (plain : line.origin? = none) :
    counterAfter table (lines ++ [line]) =
      counterAfter table lines + if line.Occupies table then line.bytes else 0 := by
  have base : baseAfter (lines ++ [line]) = baseAfter lines := by
    simp [baseAfter, startOf_concat, plain]
  have since : sinceBase (lines ++ [line]) = sinceBase lines ++ [line] :=
    List.rtakeWhile_concat_pos _ _ _ (by simp [plain])
  rw [counterAfter, base, since, List.filter_append, counterAfter]
  split_ifs with occupies
  · simp [occupies, Nat.add_assoc]
  · simp [occupies]

/-! ### Lines that follow others -/

theorem startOf_append (lines more : List SourceLine) :
    startOf (lines ++ more) = (startOf more).or (startOf lines) := by
  simp [startOf, List.getLast?_append]

theorem baseAfter_append_of_plain (lines : List SourceLine) {more : List SourceLine}
    (plain : ∀ line ∈ more, line.origin? = none) : baseAfter (lines ++ more) = baseAfter lines := by
  have none : startOf more = none := by
    rw [startOf, List.filterMap_eq_nil_iff.mpr plain]
    rfl
  rw [baseAfter, startOf_append, none, Option.none_or, ← baseAfter]

theorem counterAfter_append_of_plain (table : OpcodeTable) (lines : List SourceLine)
    {more : List SourceLine} (plain : ∀ line ∈ more, line.origin? = none) :
    counterAfter table (lines ++ more) = counterAfter table lines
      + ((more.filter (SourceLine.Occupies table)).map SourceLine.bytes).sum := by
  induction more using List.reverseRecOn with
  | nil => simp
  | append_singleton more line ih =>
    have earlier := ih fun line member => plain line (List.mem_append_left _ member)
    rw [← List.append_assoc, counterAfter_concat (plain line (by simp)), earlier,
      List.filter_append, List.map_append, List.sum_append, Nat.add_assoc]
    split_ifs with occupies <;> simp [occupies]

/-- What stands before a line that sets the counter does not move what follows it. -/
theorem counterAfter_append_of_origin {first : SourceLine} (rest : List SourceLine)
    (set : first.origin?.isSome = true) :
    counterAfter table (lines ++ first :: rest) = counterAfter table (first :: rest) := by
  obtain ⟨address, origin⟩ := Option.isSome_iff_exists.mp set
  induction rest using List.reverseRecOn with
  | nil => rw [counterAfter_concat_of_origin origin, ← List.nil_append [first],
      counterAfter_concat_of_origin origin]
  | append_singleton rest line ih =>
    rw [← List.cons_append, ← List.append_assoc]
    cases own : line.origin? with
    | some address => rw [counterAfter_concat_of_origin own, counterAfter_concat_of_origin own]
    | none => rw [counterAfter_concat own, counterAfter_concat own, ih]

/-! ### Every line with its address -/

theorem located_concat (lines : List SourceLine) (line : SourceLine) :
    located table (lines ++ [line]) =
      located table lines ++ [(line, counterAfter table lines)] := by
  have earlier : lines.mapIdx (fun i line' => (line', counterAfter table ((lines ++ [line]).take i)))
      = located table lines := by
    rw [located, List.mapIdx_eq_mapIdx_iff]
    intro i bound
    rw [List.take_append_of_le_length bound.le]
  rw [located, List.mapIdx_concat, earlier, List.take_left]

theorem map_fst_located (table : OpcodeTable) (lines : List SourceLine) :
    (located table lines).map Prod.fst = lines := by
  induction lines using List.reverseRecOn with
  | nil => rfl
  | append_singleton lines line ih => simp [located_concat, ih]

theorem exists_split_of_mem_located {entry : SourceLine × Nat}
    (member : entry ∈ located table lines) :
    ∃ before after, lines = before ++ entry.1 :: after ∧
      entry.2 = counterAfter table before := by
  induction lines using List.reverseRecOn with
  | nil => cases member
  | append_singleton lines line ih =>
    rw [located_concat] at member
    rcases List.mem_append.mp member with earlier | last
    · obtain ⟨before, after, rfl, same⟩ := ih earlier
      exact ⟨before, after ++ [line], by simp, same⟩
    · obtain rfl := List.mem_singleton.mp last
      exact ⟨lines, [], rfl, rfl⟩

end SicAssembler
