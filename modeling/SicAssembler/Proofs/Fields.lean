import Mathlib.Data.List.Basic
import Mathlib.Data.List.TakeWhile
import SicAssembler.Proofs.Hexadecimal
import SicAssembler.Proofs.Reading
import SicAssembler.Proofs.Separators

/-!
Lines and their fields. A field is a run of characters without a blank (`Unbroken`), and the fields
of two texts put after one another are those of the two if a blank stands where they meet
(`fieldsFrom_append`). From these come what every line that was read is known to be
(`SourceLine.read_fields`), that a line written from three fields reads back as them
(`nthField_written`), and that one field can be replaced where it stands (`exists_parts_of_field`,
`fields_of_parts`) or taken off the end (`exists_parts_of_concat`). Fields joined by spaces are words
of a text that are found again (`pieces_of_unbroken`).
-/

namespace SicAssembler

def Unbroken (text : String) : Prop :=
  ∀ c ∈ text.toList, Text.isBlank c = false

instance : DecidablePred Unbroken := fun text =>
  List.decidableBAll (fun c => Text.isBlank c = false) text.toList

theorem unbroken_empty : Unbroken "" := by
  intro c member
  cases member

theorem Unbroken.not_mem {text : String} (unbroken : Unbroken text) {c : Char}
    (blank : Text.isBlank c = true) : c ∉ text.toList := by
  intro member
  rw [unbroken c member] at blank
  cases blank

theorem unbroken_of_hexValue? {text : String} {n : Nat} (numeral : Text.hexValue? text = some n) :
    Unbroken text ∧ text ≠ "" := by
  unfold Text.hexValue? at numeral
  split at numeral
  · rename_i hexadecimal
    obtain ⟨present, digits⟩ := (Text.isHex_iff text).mp hexadecimal
    refine ⟨fun c member => Text.isBlank_of_hexDigit? (digits c member), ?_⟩
    rintro rfl
    exact present rfl
  · cases numeral

theorem unbroken_hex (width n : Nat) : Unbroken (Text.hex width n) :=
  (unbroken_of_hexValue? (Text.hexValue?_hex width n)).1

/-- Two texts that no field reaches across: a blank ends the first or begins the second, or one of
them is empty. -/
def Parted (front rest : List Char) : Prop :=
  (∀ c ∈ front.getLast?, Text.isBlank c = true) ∨ ∀ c ∈ rest.head?, Text.isBlank c = true

/-! ### Fields of texts put after one another -/

variable {front rest left right : List Char} {column i : Nat} {field : Field} {text : String}

theorem Parted.tail {c : Char} (parted : Parted (c :: front) rest) : Parted front rest := by
  refine parted.imp_left fun last d member => last d ?_
  rw [List.getLast?_cons, Option.mem_def.mp member]
  rfl

theorem fieldsFrom_blank_cons {c : Char} (blank : Text.isBlank c = true) (column : Nat)
    (rest : List Char) : fieldsFrom column (c :: rest) = fieldsFrom (column + 1) rest := by
  rw [fieldsFrom, if_pos blank]

theorem fieldsFrom_solid_cons {c : Char} (solid : Text.isBlank c = false) (column : Nat)
    (rest : List Char) :
    fieldsFrom column (c :: rest) =
      ⟨String.ofList (c :: rest.takeWhile (!Text.isBlank ·)), column⟩
        :: fieldsFrom (column + (rest.takeWhile (!Text.isBlank ·)).length + 1)
          (rest.dropWhile (!Text.isBlank ·)) := by
  rw [fieldsFrom, if_neg (by simp [solid])]
  rfl

/-- What a field ends with in the first of two parted texts is not moved by the second. -/
theorem Parted.cut {c : Char} (parted : Parted (c :: front) rest) (solid : Text.isBlank c = false) :
    (front ++ rest).takeWhile (!Text.isBlank ·) = front.takeWhile (!Text.isBlank ·) ∧
      (front ++ rest).dropWhile (!Text.isBlank ·) = front.dropWhile (!Text.isBlank ·) ++ rest ∧
      Parted (front.dropWhile (!Text.isBlank ·)) rest := by
  induction front generalizing c with
  | nil =>
    have begins : ∀ d ∈ rest.head?, Text.isBlank d = true := by
      refine parted.resolve_left fun last => ?_
      rw [last c rfl] at solid
      cases solid
    cases rest with
    | nil => exact ⟨rfl, rfl, .inr begins⟩
    | cons d rest =>
      have blank := begins d rfl
      simp [blank, Parted]
  | cons d front ih =>
    by_cases blank : Text.isBlank d = true
    · simp [blank, parted.tail]
    · rw [Bool.not_eq_true] at blank
      simpa [blank] using ih parted.tail blank

theorem fieldsFrom_append (parted : Parted front rest) (column : Nat) :
    fieldsFrom column (front ++ rest) =
      fieldsFrom column front ++ fieldsFrom (column + front.length) rest := by
  fun_induction fieldsFrom column front with
  | case1 column => simp
  | case2 column c front blank ih =>
    rw [List.cons_append, fieldsFrom_blank_cons blank, ih parted.tail, List.length_cons]
    congr 2
    omega
  | case3 column c front solid word ih =>
    rw [Bool.not_eq_true] at solid
    obtain ⟨taken, dropped, parted_rest⟩ := parted.cut solid
    have lengths := congrArg List.length
      (List.takeWhile_append_dropWhile (p := fun c => !Text.isBlank c) (l := front))
    rw [List.cons_append, fieldsFrom_solid_cons solid, taken, dropped]
    change _ :: fieldsFrom (column + word.length) _ = _
    rw [ih parted_rest]
    simp only [List.length_append, List.length_cons, word, List.cons_append] at lengths ⊢
    congr 3
    omega

theorem fieldsFrom_blanks (blanks : ∀ c ∈ rest, Text.isBlank c = true) (column : Nat) :
    fieldsFrom column rest = [] := by
  induction rest generalizing column with
  | nil => rw [fieldsFrom]
  | cons c rest ih =>
    rw [fieldsFrom_blank_cons (blanks c List.mem_cons_self)]
    exact ih (fun d member => blanks d (List.mem_cons_of_mem _ member)) _

theorem fieldsFrom_eq_nil_iff {chars : List Char} :
    fieldsFrom column chars = [] ↔ ∀ c ∈ chars, Text.isBlank c = true := by
  constructor
  · intro none
    fun_induction fieldsFrom column chars with
    | case1 => simp
    | case2 column c rest blank ih => exact List.forall_mem_cons.mpr ⟨blank, ih none⟩
    | case3 => cases none
  · exact fun blanks => fieldsFrom_blanks blanks column

theorem fieldsFrom_unbroken (unbroken : Unbroken text) (column : Nat) :
    fieldsFrom column text.toList = if text = "" then [] else [⟨text, column⟩] := by
  split
  · rename_i empty
    rw [empty, String.toList_empty, fieldsFrom]
  · rename_i present
    cases chars : text.toList with
    | nil => exact (present (String.toList_eq_nil_iff.mp chars)).elim
    | cons c rest =>
      have solid : ∀ d ∈ c :: rest, Text.isBlank d = false := fun d member =>
        unbroken d (chars ▸ member)
      have all : ∀ d ∈ rest, (!Text.isBlank d) = true := by
        intro d member
        rw [solid d (List.mem_cons_of_mem _ member)]
        rfl
      rw [fieldsFrom_solid_cons (solid c List.mem_cons_self),
        List.takeWhile_eq_self_iff.mpr all, List.dropWhile_eq_nil_iff.mpr all, fieldsFrom, ← chars,
        String.ofList_toList]

/-! ### What a field is -/

theorem of_mem_fieldsFrom {chars : List Char} (member : field ∈ fieldsFrom column chars) :
    Unbroken field.text ∧ field.text ≠ "" := by
  fun_induction fieldsFrom column chars with
  | case1 => cases member
  | case2 column c rest blank ih => exact ih member
  | case3 column c rest solid word ih =>
    rcases List.mem_cons.mp member with rfl | later
    · refine ⟨fun d inside => ?_, by simp [word]⟩
      rw [String.toList_ofList] at inside
      rcases List.mem_cons.mp inside with rfl | taken
      · exact Bool.eq_false_iff.mpr solid
      · simpa using List.mem_takeWhile_imp taken
    · exact ih later

theorem eq_of_mem_omittedLabel {chars : List Char} (member : field ∈ omittedLabel chars) :
    field = ⟨"", 0⟩ := by
  unfold omittedLabel at member
  split at member
  · cases member
  · split at member
    · exact List.mem_singleton.mp member
    · cases member

theorem unbroken_of_mem_fields (member : field ∈ fields text) : Unbroken field.text := by
  rcases List.mem_append.mp member with omitted | found
  · rw [eq_of_mem_omittedLabel omitted]
    exact unbroken_empty
  · exact (of_mem_fieldsFrom found).1

/-- The text of a field by its position, empty if the line has too few. -/
def nthField (text : String) (i : Nat) : String :=
  ((fields text)[i]?.map Field.text).getD ""

theorem unbroken_nthField (text : String) (i : Nat) : Unbroken (nthField text i) := by
  unfold nthField
  cases found : (fields text)[i]? with
  | none => exact unbroken_empty
  | some field => exact unbroken_of_mem_fields (List.mem_of_getElem? found)

/-! ### Lines that were read -/

theorem isBlank_of_isLineEnd {c : Char} (ends : Text.isLineEnd c = true) : Text.isBlank c = true := by
  rcases Bool.or_eq_true_iff.mp ends with same | same
  · rw [beq_iff_eq.mp same]
    rfl
  · rw [beq_iff_eq.mp same]
    rfl

/-- The line end of a line is no part of a field. -/
theorem nthField_trimLineEnd (text : String) (i : Nat) :
    nthField (Text.trimLineEnd text) i = nthField text i := by
  obtain ⟨ends, blanks, split⟩ : ∃ ends, (∀ c ∈ ends, Text.isBlank c = true) ∧
      text.toList = (Text.trimLineEnd text).toList ++ ends := by
    refine ⟨(text.toList.reverse.takeWhile Text.isLineEnd).reverse, fun c member => ?_, ?_⟩
    · exact isBlank_of_isLineEnd (List.mem_takeWhile_imp (List.mem_reverse.mp member))
    · rw [Text.trimLineEnd, String.toList_ofList, ← List.reverse_append,
        List.takeWhile_append_dropWhile, List.reverse_reverse]
  have parted : Parted (Text.trimLineEnd text).toList ends :=
    .inr fun c first => blanks c (List.mem_of_mem_head? first)
  unfold nthField fields
  rw [split, fieldsFrom_append parted, fieldsFrom_blanks blanks, List.append_nil]
  cases kept : (Text.trimLineEnd text).toList with
  | cons c rest => rfl
  | nil =>
    -- A line of nothing but its end has no field, or an omitted label: empty fields in either case.
    rw [fieldsFrom, List.nil_append]
    cases ends with
    | nil => rfl
    | cons c rest => cases i <;> simp [omittedLabel, blanks c List.mem_cons_self]

theorem SourceLine.read_fields (file : String) (number : Int) (text : String) :
    (read file number text).label = nthField text 0 ∧
      (read file number text).mnemonic = nthField text 1 ∧
      (read file number text).operand = nthField text 2 := by
  rw [← nthField_trimLineEnd text 0, ← nthField_trimLineEnd text 1, ← nthField_trimLineEnd text 2]
  simp only [read, nthField, and_self]

theorem SourceLine.unbroken_of_read (file : String) (number : Int) (text : String) :
    Unbroken (read file number text).label ∧ Unbroken (read file number text).mnemonic ∧
      Unbroken (read file number text).operand := by
  obtain ⟨label, mnemonic, operand⟩ := read_fields file number text
  rw [label, mnemonic, operand]
  exact ⟨unbroken_nthField text 0, unbroken_nthField text 1, unbroken_nthField text 2⟩

theorem Source.unbroken_of_read {source : Source} {file : String} {lines : List SourceLine}
    (taken : source.read file = .ok lines) {line : SourceLine} (member : line ∈ lines) :
    Unbroken line.label ∧ Unbroken line.mnemonic ∧ Unbroken line.operand := by
  obtain ⟨text, number, _, rfl⟩ := exists_text_of_mapM_read taken member
  exact SourceLine.unbroken_of_read file number text

/-! ### Lines that are written -/

section Words

variable {words : List String}

/-- Words joined by spaces are found again. -/
theorem pieces_of_unbroken (unbroken : ∀ word ∈ words, Unbroken word) (some : words ≠ []) :
    Text.pieces ' ' (" ".intercalate words) = words :=
  Text.pieces_intercalate rfl (fun word member => (unbroken word member).not_mem rfl) some

theorem unbroken_intercalate {mark : String} (mark_unbroken : Unbroken mark)
    (unbroken : ∀ word ∈ words, Unbroken word) : Unbroken (mark.intercalate words) := by
  intro c member
  rcases Text.mem_intercalate member with between | ⟨word, present, inside⟩
  · exact mark_unbroken c between
  · exact unbroken word present c inside

theorem newline_not_mem_of_unbroken (unbroken : ∀ word ∈ words, Unbroken word) :
    '\n' ∉ (" ".intercalate words).toList := by
  intro member
  rcases Text.mem_intercalate member with space | ⟨word, present, inside⟩
  · exact absurd space (by decide)
  · exact (unbroken word present).not_mem rfl inside

end Words

/-- A line written from three fields reads back as them. -/
theorem nthField_written {label mnemonic operand : String} (label_unbroken : Unbroken label)
    (mnemonic_unbroken : Unbroken mnemonic) (operand_unbroken : Unbroken operand)
    (bare : mnemonic = "" → operand = "") :
    nthField (label ++ " " ++ mnemonic ++ " " ++ operand) 0 = label ∧
      nthField (label ++ " " ++ mnemonic ++ " " ++ operand) 1 = mnemonic ∧
      nthField (label ++ " " ++ mnemonic ++ " " ++ operand) 2 = operand := by
  have chars : (label ++ " " ++ mnemonic ++ " " ++ operand).toList =
      label.toList ++ ' ' :: (mnemonic.toList ++ ' ' :: operand.toList) := by simp
  have space : Text.isBlank ' ' = true := rfl
  have parted : ∀ front rest, Parted front (' ' :: rest) := by
    intro front rest
    refine .inr fun c first => ?_
    rw [← Option.some.inj first]
    rfl
  unfold nthField fields
  rw [chars, fieldsFrom_append (parted _ _), fieldsFrom_blank_cons space,
    fieldsFrom_append (parted _ _), fieldsFrom_blank_cons space, fieldsFrom_unbroken label_unbroken,
    fieldsFrom_unbroken mnemonic_unbroken, fieldsFrom_unbroken operand_unbroken]
  have omitted : omittedLabel (label.toList ++ ' ' :: (mnemonic.toList ++ ' ' :: operand.toList)) =
      if label = "" then [⟨"", 0⟩] else [] := by
    split
    · rename_i empty
      rw [empty]
      rfl
    · rename_i present
      cases first : label.toList with
      | nil => exact (present (String.toList_eq_nil_iff.mp first)).elim
      | cons c rest => simp [omittedLabel, label_unbroken c (first ▸ List.mem_cons_self)]
  rw [omitted]
  by_cases unlabelled : label = ""
  · by_cases empty : mnemonic = ""
    · simp [unlabelled, empty, bare empty]
    · by_cases alone : operand = ""
      · simp [unlabelled, empty, alone]
      · simp [unlabelled, empty, alone]
  · by_cases empty : mnemonic = ""
    · simp [unlabelled, empty, bare empty]
    · by_cases alone : operand = ""
      · simp [unlabelled, empty, alone]
      · simp [unlabelled, empty, alone]

/-! ### Fields and what stands around them -/

theorem blank_of_head?_dropWhile {c : Char} (first : c ∈ (rest.dropWhile (!Text.isBlank ·)).head?) :
    Text.isBlank c = true := by
  have stopped := List.head?_dropWhile_not (fun c => !Text.isBlank c) rest
  rw [Option.mem_def.mp first] at stopped
  simpa using stopped

theorem length_fieldsFrom_word {c : Char} (solid : Text.isBlank c = false) (column : Nat)
    (rest : List Char) :
    (fieldsFrom column (c :: rest.takeWhile (!Text.isBlank ·))).length = 1 := by
  have all : ∀ d ∈ rest.takeWhile (!Text.isBlank ·), (!Text.isBlank d) = true :=
    fun d member => List.mem_takeWhile_imp (p := fun d => !Text.isBlank d) member
  rw [fieldsFrom_solid_cons solid, List.dropWhile_eq_nil_iff.mpr all, fieldsFrom]
  rfl

/-- A field stands between texts that no other field reaches out of. -/
theorem exists_parts_of_fieldsFrom {chars : List Char}
    (found : (fieldsFrom column chars)[i]? = some field) :
    ∃ left right, chars = left ++ field.text.toList ++ right ∧
      field.column = column + left.length ∧ (fieldsFrom column left).length = i ∧
      (∀ c ∈ left.getLast?, Text.isBlank c = true) ∧ ∀ c ∈ right.head?, Text.isBlank c = true := by
  obtain ⟨unbroken, present⟩ := of_mem_fieldsFrom (List.mem_of_getElem? found)
  induction column, chars using fieldsFrom.induct generalizing i with
  | case1 =>
    rw [fieldsFrom] at found
    cases found
  | case2 column c rest blank ih =>
    rw [fieldsFrom_blank_cons blank] at found
    obtain ⟨left, right, rfl, place, count, ends, begins⟩ := ih found
    refine ⟨c :: left, right, rfl, by rw [place, List.length_cons]; omega, ?_, ?_, begins⟩
    · rw [fieldsFrom_blank_cons blank, count]
    · intro d last
      rw [List.getLast?_cons] at last
      cases own : left.getLast? with
      | none =>
        rw [own] at last
        rw [← Option.some.inj last]
        exact blank
      | some e =>
        rw [own] at last
        rw [← Option.some.inj last]
        exact ends e own
  | case3 column c rest nonblank word =>
    rename_i ih
    have solid : Text.isBlank c = false := Bool.eq_false_iff.mpr nonblank
    have whole := List.takeWhile_append_dropWhile (p := fun c => !Text.isBlank c) (l := rest)
    rw [fieldsFrom_solid_cons solid] at found
    cases i with
    | zero =>
      obtain rfl := Option.some.inj found
      refine ⟨[], rest.dropWhile (!Text.isBlank ·), ?_, rfl, by simp [fieldsFrom], by simp, ?_⟩
      · rw [List.nil_append, String.toList_ofList, List.cons_append, whole]
      · exact fun d first => blank_of_head?_dropWhile first
    | succ i =>
      obtain ⟨left, right, split, place, count, ends, begins⟩ := ih found
      -- The next field does not begin where this one ends, for a blank stands there.
      have apart : left ≠ [] := by
        rintro rfl
        obtain ⟨first, others, chars⟩ := List.exists_cons_of_ne_nil
          (fun empty => present (String.toList_eq_nil_iff.mp empty))
        have begins : first ∈ (rest.dropWhile (!Text.isBlank ·)).head? := by rw [split, chars]; rfl
        have blank := blank_of_head?_dropWhile begins
        rw [unbroken first (chars ▸ List.mem_cons_self)] at blank
        cases blank
      have parted : Parted word left := by
        refine .inr fun d first => ?_
        apply blank_of_head?_dropWhile
        rw [split, List.append_assoc, List.head?_append, Option.mem_def.mp first]
        rfl
      refine ⟨word ++ left, right, ?_, ?_, ?_, ?_, begins⟩
      · rw [List.append_assoc, List.append_assoc, ← List.append_assoc left, ← split,
          List.cons_append, whole]
      · rw [place, List.length_append]
        omega
      · rw [fieldsFrom_append parted, List.length_append, length_fieldsFrom_word solid, count]
        omega
      · intro d last
        rw [List.getLast?_append_of_ne_nil _ apart] at last
        exact ends d last

theorem omittedLabel_of_parts {word : String} (unbroken : Unbroken word) (present : word ≠ "")
    (left right : List Char) :
    omittedLabel (left ++ word.toList ++ right) = omittedLabel left := by
  cases left with
  | cons c left => rfl
  | nil =>
    obtain ⟨first, others, chars⟩ := List.exists_cons_of_ne_nil
      (fun empty => present (String.toList_eq_nil_iff.mp empty))
    rw [chars]
    exact if_neg (by simp [unbroken first (chars ▸ List.mem_cons_self)])

theorem fields_of_parts {word : String} (unbroken : Unbroken word) (present : word ≠ "")
    (ends : ∀ c ∈ left.getLast?, Text.isBlank c = true)
    (begins : ∀ c ∈ right.head?, Text.isBlank c = true) :
    fields (String.ofList (left ++ word.toList ++ right)) =
      fields (String.ofList left) ++ ⟨word, 1 + left.length⟩
        :: fieldsFrom (1 + (left ++ word.toList).length) right := by
  rw [fields, fields, String.toList_ofList, String.toList_ofList,
    omittedLabel_of_parts unbroken present, fieldsFrom_append (.inr begins),
    fieldsFrom_append (.inl ends), fieldsFrom_unbroken unbroken, if_neg present]
  simp only [List.append_assoc, List.singleton_append]

theorem exists_parts_of_field (found : (fields text)[i]? = some field) (present : field.text ≠ "") :
    ∃ left right, text.toList = left ++ field.text.toList ++ right ∧
      field.column = 1 + left.length ∧ (fields (String.ofList left)).length = i ∧
      (∀ c ∈ left.getLast?, Text.isBlank c = true) ∧ ∀ c ∈ right.head?, Text.isBlank c = true := by
  have later : (omittedLabel text.toList).length ≤ i := by
    by_contra early
    rw [fields, List.getElem?_append_left (by omega)] at found
    rw [eq_of_mem_omittedLabel (List.mem_of_getElem? found)] at present
    exact present rfl
  rw [fields, List.getElem?_append_right later] at found
  have unbroken := (of_mem_fieldsFrom (List.mem_of_getElem? found)).1
  obtain ⟨left, right, split, place, count, ends, begins⟩ := exists_parts_of_fieldsFrom found
  refine ⟨left, right, split, place, ?_, ends, begins⟩
  rw [split, omittedLabel_of_parts unbroken present] at count later
  rw [fields, String.toList_ofList, List.length_append, count]
  omega

/-! ### The last field -/

theorem fields_eq_nil_iff : fields text = [] ↔ text = "" := by
  rw [fields, List.append_eq_nil_iff, fieldsFrom_eq_nil_iff, ← String.toList_eq_nil_iff]
  cases text.toList with
  | nil => simp [omittedLabel]
  | cons c rest => simp +contextual [omittedLabel]

/-- A field that is not the first has a text. -/
theorem text_ne_empty_of_concat {earlier : List Field} (found : fields text = earlier ++ [field])
    (some : earlier ≠ []) : field.text ≠ "" := by
  have single : (omittedLabel text.toList).length ≤ 1 := by
    unfold omittedLabel
    split
    · simp
    · split <;> simp
  have count : 0 < earlier.length := List.length_pos_of_ne_nil some
  have last : (fields text)[earlier.length]? = .some field := by simp [found]
  rw [fields, List.getElem?_append_right (by omega)] at last
  exact (of_mem_fieldsFrom (List.mem_of_getElem? last)).2

/-- The last field of a line stands between the other fields and blanks. -/
theorem exists_parts_of_concat {earlier : List Field} (found : fields text = earlier ++ [field])
    (present : field.text ≠ "") :
    ∃ left right, text.toList = left ++ field.text.toList ++ right ∧
      fields (String.ofList left) = earlier ∧ (∀ c ∈ left.getLast?, Text.isBlank c = true) ∧
      ∀ c ∈ right, Text.isBlank c = true := by
  have last : (fields text)[earlier.length]? = some field := by simp [found]
  have unbroken := unbroken_of_mem_fields (List.mem_of_getElem? last)
  obtain ⟨left, right, split, _, count, ends, begins⟩ := exists_parts_of_field last present
  have whole : text = String.ofList (left ++ field.text.toList ++ right) := by
    rw [← split, String.ofList_toList]
  rw [whole, fields_of_parts unbroken present ends begins] at found
  obtain ⟨same, others⟩ := List.append_inj found count
  exact ⟨left, right, split, same, ends, fieldsFrom_eq_nil_iff.mp (List.cons.inj others).2⟩

end SicAssembler
