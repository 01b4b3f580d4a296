import SicAssembler.Proofs.Fields

/-!
Fields as runs. The fields of a text are its longest runs of characters other than the six
separators, each with the column where it stands (`mem_fieldsFrom_iff`), from left to right
(`pairwise_column_fieldsFrom`), and nothing but separators stands outside of them
(`exists_mem_fieldsFrom_of_solid`). Only the empty label of an indented text is no run. So the
three fields of a line hold no separator and are read again from a line written with them
(`fields_are_runs`).
-/

namespace SicAssembler

variable {text : String} {chars : List Char} {column i : Nat} {field : Field}

def separators : List Char := [' ', '\t', '\n', '\r', '\x0c', '\x0b']

theorem isBlank_iff_mem_separators {c : Char} : Text.isBlank c = true ↔ c ∈ separators := by
  constructor
  · intro blank
    simp only [Text.isBlank, Bool.or_eq_true, beq_iff_eq, Bool.and_eq_true, decide_eq_true_eq]
      at blank
    rcases blank with rfl | ⟨low, high⟩
    · decide
    · obtain point | point | point | point | point : c.toNat = 9 ∨ c.toNat = 10 ∨ c.toNat = 11 ∨
          c.toNat = 12 ∨ c.toNat = 13 := by omega
      all_goals
        rw [← Char.ofNat_toNat c, point]
        decide
  · intro member
    have all : separators.all Text.isBlank = true := by decide
    exact List.all_eq_true.mp all c member

theorem isBlank_eq_false_iff {c : Char} : Text.isBlank c = false ↔ c ∉ separators := by
  rw [← isBlank_iff_mem_separators, Bool.not_eq_true]

namespace Field

/-- A run of characters other than separators, as long as can be, at its place in a text. -/
def IsRun (text : String) (field : Field) : Prop :=
  field.text ≠ "" ∧ (∀ c ∈ field.text.toList, c ∉ separators) ∧
    ∃ left right, text.toList = left ++ field.text.toList ++ right ∧
      field.column = 1 + left.length ∧ (∀ c ∈ left.getLast?, c ∈ separators) ∧
      ∀ c ∈ right.head?, c ∈ separators

/-- Whether a field stands at a position, the positions counted from zero. -/
def Covers (field : Field) (i : Nat) : Prop :=
  field.column ≤ 1 + i ∧ 1 + i < field.column + field.text.length

theorem IsRun.take_drop (run : field.IsRun text) :
    (text.toList.drop (field.column - 1)).take field.text.length = field.text.toList := by
  obtain ⟨_, _, left, right, split, place, _⟩ := run
  rw [split, place, Nat.add_sub_cancel_left, List.append_assoc, List.drop_left,
    ← String.length_toList, List.take_left]

end Field

/-! ### The runs of a text -/

theorem mem_fieldsFrom_iff : field ∈ fieldsFrom 1 text.toList ↔ field.IsRun text := by
  constructor
  · intro member
    obtain ⟨unbroken, present⟩ := of_mem_fieldsFrom member
    obtain ⟨i, found⟩ := List.mem_iff_getElem?.mp member
    obtain ⟨left, right, split, place, _, ends, begins⟩ := exists_parts_of_fieldsFrom found
    exact ⟨present, fun c inside => isBlank_eq_false_iff.mp (unbroken c inside), left, right, split,
      place, fun c last => isBlank_iff_mem_separators.mp (ends c last),
      fun c first => isBlank_iff_mem_separators.mp (begins c first)⟩
  · rintro ⟨present, solid, left, right, split, place, ends, begins⟩
    have unbroken : Unbroken field.text := fun c inside => isBlank_eq_false_iff.mpr (solid c inside)
    have parted : Parted (left ++ field.text.toList) right :=
      .inr fun c first => isBlank_iff_mem_separators.mpr (begins c first)
    have parted_left : Parted left field.text.toList :=
      .inl fun c last => isBlank_iff_mem_separators.mpr (ends c last)
    rw [split, fieldsFrom_append parted, fieldsFrom_append parted_left,
      fieldsFrom_unbroken unbroken, if_neg present, ← place]
    simp

theorem le_column_of_mem_fieldsFrom (member : field ∈ fieldsFrom column chars) :
    column ≤ field.column := by
  obtain ⟨i, found⟩ := List.mem_iff_getElem?.mp member
  obtain ⟨left, _, _, place, _⟩ := exists_parts_of_fieldsFrom found
  omega

theorem pairwise_column_fieldsFrom (column : Nat) (chars : List Char) :
    (fieldsFrom column chars).Pairwise fun earlier later => earlier.column < later.column := by
  fun_induction fieldsFrom column chars with
  | case1 => exact .nil
  | case2 column c rest blank ih => exact ih
  | case3 column c rest solid word ih =>
    refine List.pairwise_cons.mpr ⟨fun later member => ?_, ih⟩
    have behind := le_column_of_mem_fieldsFrom member
    have long : 0 < word.length := Nat.succ_pos _
    change column < later.column
    omega

/-- A character that is no separator stands in a field. -/
theorem exists_mem_fieldsFrom_of_solid {c : Char} (here : chars[i]? = some c)
    (solid : Text.isBlank c = false) (column : Nat) :
    ∃ field ∈ fieldsFrom column chars, field.column ≤ column + i ∧
      column + i < field.column + field.text.length := by
  induction column, chars using fieldsFrom.induct generalizing i with
  | case1 => cases here
  | case2 column first rest blank ih =>
    rw [fieldsFrom_blank_cons blank]
    cases i with
    | zero =>
      rw [Option.some.inj here, solid] at blank
      cases blank
    | succ i =>
      obtain ⟨field, member, before, within⟩ := ih here
      exact ⟨field, member, by omega, by omega⟩
  | case3 column first rest nonblank word =>
    rename_i ih
    rw [fieldsFrom_solid_cons (Bool.eq_false_iff.mpr nonblank)]
    have whole : first :: rest = word ++ rest.dropWhile (!Text.isBlank ·) :=
      congrArg (first :: ·) List.takeWhile_append_dropWhile.symm
    by_cases inside : i < word.length
    · refine ⟨_, List.mem_cons_self, Nat.le_add_right _ _, ?_⟩
      rw [String.length_ofList]
      exact Nat.add_lt_add_left inside column
    · -- The character stands behind the first field, where the rest of the text is searched.
      rw [whole, List.getElem?_append_right (by omega)] at here
      obtain ⟨field, member, before, within⟩ := ih here
      exact ⟨field, List.mem_cons_of_mem _ member, by omega, by omega⟩

/-! ### Fields after the first -/

theorem omittedLabel_eq (chars : List Char) :
    omittedLabel chars = if chars.head?.any separators.contains then [⟨"", 0⟩] else [] := by
  cases chars with
  | nil => simp [omittedLabel]
  | cons c rest => simp [omittedLabel, isBlank_iff_mem_separators]

theorem mem_fieldsFrom_of_succ (found : (fields text)[i + 1]? = some field) :
    field ∈ fieldsFrom 1 text.toList := by
  have single : (omittedLabel text.toList).length ≤ 1 := by
    rw [omittedLabel_eq]
    split_ifs <;> simp
  rw [fields, List.getElem?_append_right (by omega)] at found
  exact List.mem_of_getElem? found

theorem nthField_succ_eq_empty_iff :
    nthField text (i + 1) = "" ↔ (fields text).length ≤ i + 1 := by
  rw [← List.getElem?_eq_none_iff, nthField]
  cases found : (fields text)[i + 1]? with
  | none => simp
  | some field => simpa using (of_mem_fieldsFrom (mem_fieldsFrom_of_succ found)).2

/-- A line without a mnemonic has no operand. -/
theorem nthField_operand_of_bare (bare : nthField text 1 = "") : nthField text 2 = "" := by
  have short := nthField_succ_eq_empty_iff.mp bare
  exact nthField_succ_eq_empty_iff.mpr (by omega)

namespace SourceLine

variable (file : String) (number : Int) (text : String)

theorem operandColumn_pos_iff :
    0 < (read file number text).operandColumn ↔ (read file number text).operand ≠ "" := by
  simp only [read]
  cases found : (fields (Text.trimLineEnd text))[2]? with
  | none => simp
  | some field =>
    have member := mem_fieldsFrom_of_succ found
    have present := (of_mem_fieldsFrom member).2
    have place := le_column_of_mem_fieldsFrom member
    simp only [Option.map_some, Option.getD_some]
    exact ⟨fun _ => present, fun _ => place⟩

end SourceLine

/-- A text is taken apart into its longest runs of characters other than separators, in order and
each where it stands, with an empty label in front if it begins with a separator. The fields of a
line hold no separator, a line without a mnemonic has no operand, the operand has a column if and
only if it is there, and the fields written in one line are read as the same fields. -/
theorem fields_are_runs (text : String) :
    ((fields text).map Field.text).length = ((fields text).map Field.column).length ∧
    (∃ runs, fields text =
        (if text.toList.head?.any separators.contains then [⟨"", 0⟩] else []) ++ runs ∧
      (∀ field, field ∈ runs ↔ field.IsRun text) ∧
      (∀ field ∈ runs,
        (text.toList.drop (field.column - 1)).take field.text.length = field.text.toList) ∧
      (fields text).Pairwise (fun earlier later => earlier.column < later.column) ∧
      ∀ i c, text.toList[i]? = some c → (∀ field ∈ runs, ¬field.Covers i) → c ∈ separators) ∧
    ∀ file number line, line = SourceLine.read file number text →
      (∀ word ∈ [line.label, line.mnemonic, line.operand], ∀ c ∈ word.toList, c ∉ separators) ∧
      (line.mnemonic = "" → line.operand = "") ∧
      (0 < line.operandColumn ↔ line.operand ≠ "") ∧
      ∀ file' number' again, again = SourceLine.read file' number'
          (line.label ++ " " ++ line.mnemonic ++ " " ++ line.operand) →
        again.label = line.label ∧ again.mnemonic = line.mnemonic ∧
          again.operand = line.operand := by
  refine ⟨by simp, ⟨fieldsFrom 1 text.toList, ?_, fun _ => mem_fieldsFrom_iff, ?_, ?_, ?_⟩, ?_⟩
  · rw [fields, omittedLabel_eq]
  · exact fun field member => (mem_fieldsFrom_iff.mp member).take_drop
  · refine List.pairwise_append.mpr ⟨?_, pairwise_column_fieldsFrom 1 _, ?_⟩
    · rw [omittedLabel_eq]
      split_ifs <;> simp
    · intro omitted first field member
      have place := le_column_of_mem_fieldsFrom member
      rw [eq_of_mem_omittedLabel first]
      exact place
  · intro i c here uncovered
    by_contra solid
    obtain ⟨field, member, covers⟩ :=
      exists_mem_fieldsFrom_of_solid here (isBlank_eq_false_iff.mpr solid) 1
    exact uncovered field member covers
  · rintro file number line rfl
    obtain ⟨label, mnemonic, operand⟩ := SourceLine.read_fields file number text
    obtain ⟨label_unbroken, mnemonic_unbroken, operand_unbroken⟩ :=
      SourceLine.unbroken_of_read file number text
    have bare : (SourceLine.read file number text).mnemonic = "" →
        (SourceLine.read file number text).operand = "" := by
      rw [mnemonic, operand]
      exact nthField_operand_of_bare
    refine ⟨?_, bare, SourceLine.operandColumn_pos_iff file number text, ?_⟩
    · have unbroken : ∀ word, Unbroken word → ∀ c ∈ word.toList, c ∉ separators :=
        fun word solid c inside => isBlank_eq_false_iff.mp (solid c inside)
      simp only [List.forall_mem_cons]
      exact ⟨unbroken _ label_unbroken, unbroken _ mnemonic_unbroken,
        unbroken _ operand_unbroken, by simp⟩
    · rintro file' number' again rfl
      obtain ⟨first, second, third⟩ := SourceLine.read_fields file' number'
        ((SourceLine.read file number text).label ++ " "
          ++ (SourceLine.read file number text).mnemonic ++ " "
          ++ (SourceLine.read file number text).operand)
      rw [first, second, third]
      exact nthField_written label_unbroken mnemonic_unbroken operand_unbroken bare

-- Spaces other than the six are letters of a field.
example : fields "\tA\u0085B\u00a0\x0bC" = [⟨"", 0⟩, ⟨"A\u0085B\u00a0", 2⟩, ⟨"C", 7⟩] := by
  decide +kernel

end SicAssembler
