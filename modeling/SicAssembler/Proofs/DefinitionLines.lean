import SicAssembler.OpcodeTable
import SicAssembler.Proofs.Fields
import SicAssembler.Proofs.Insertion

/-!
The lines of an opcode table. A line counts if it is a mnemonic, blanks, a code and perhaps blanks
after it, and it then gives this mnemonic and this code (`definition?_eq_some_iff`); all other lines
are passed over, so the table holds what the lines that count say and nothing else
(`tabulates_parse`). The mnemonic may be missing: an indented word is the code of the empty mnemonic.
The form that the definitions are documented to have is `Documented`, with a mnemonic.
-/

namespace SicAssembler

def AllBlank (text : String) : Prop :=
  ∀ c ∈ text.toList, Text.isBlank c = true

namespace OpcodeTable

variable {line mnemonic code : String} {reads : String → String → String → Prop}

/-- A line that is a mnemonic, blanks, a code and perhaps blanks. If the line begins with a blank,
the mnemonic is empty. -/
def Reads (line mnemonic code : String) : Prop :=
  ∃ gap tail, line = mnemonic ++ gap ++ code ++ tail ∧ Unbroken mnemonic ∧
    (AllBlank gap ∧ gap ≠ "") ∧ (Unbroken code ∧ code ≠ "") ∧ AllBlank tail

/-- The documented form of a definition: a line that reads as a code and a mnemonic that is there. -/
def Documented (line mnemonic code : String) : Prop :=
  Reads line mnemonic code ∧ mnemonic ≠ ""

/-- What lines define, in order, for a form of definitions: a line of the form gives its mnemonic
and its code, any other nothing. -/
inductive Collects (reads : String → String → String → Prop) :
    List String → List (String × String) → Prop
  | nil : Collects reads [] []
  | read {line mnemonic code : String} {rest : List String} {found : List (String × String)} :
      reads line mnemonic code → Collects reads rest found →
      Collects reads (line :: rest) ((mnemonic, code) :: found)
  | passed {line : String} {rest : List String} {found : List (String × String)} :
      (∀ mnemonic code, ¬reads line mnemonic code) → Collects reads rest found →
      Collects reads (line :: rest) found

/-- The table of some definitions: the mnemonics in the order of their first definitions, each with
the code of its last one. -/
def Tabulates (found : List (String × String)) (table : OpcodeTable) : Prop :=
  table.keys = (found.map Prod.fst).eraseDups ∧
    ∀ mnemonic, table.get? mnemonic =
      (found.filter fun entry => entry.1 = mnemonic).getLast?.map Prod.snd

/-! ### One line -/

/-- A word with blanks after it is one field, and so are blanks alone: the field is then empty. -/
theorem fields_of_word {gap : List Char} (unbroken : Unbroken mnemonic)
    (blanks : ∀ c ∈ gap, Text.isBlank c = true) (some : gap ≠ []) :
    (fields (String.ofList (mnemonic.toList ++ gap))).map Field.text = [mnemonic] := by
  by_cases empty : mnemonic = ""
  · obtain ⟨c, rest, rfl⟩ := List.exists_cons_of_ne_nil some
    rw [empty, fields, String.toList_ofList, String.toList_empty, List.nil_append,
      fieldsFrom_blanks blanks, omittedLabel, if_pos (blanks c List.mem_cons_self)]
    rfl
  · have begins : ∀ c ∈ gap.head?, Text.isBlank c = true :=
      fun c first => blanks c (List.mem_of_mem_head? first)
    have ends : ∀ c ∈ ([] : List Char).getLast?, Text.isBlank c = true := by simp
    have parts := fields_of_parts unbroken empty ends begins
    rw [List.nil_append, fieldsFrom_blanks blanks, fields_eq_nil_iff.mpr String.ofList_nil] at parts
    rw [parts]
    rfl

theorem map_text_fields_of_reads (reads : Reads line mnemonic code) :
    (fields line).map Field.text = [mnemonic, code] := by
  obtain ⟨gap, tail, rfl, unbroken, ⟨blanks, some⟩, ⟨code_unbroken, present⟩, trailing⟩ := reads
  have chars : mnemonic ++ gap ++ code ++ tail =
      String.ofList ((mnemonic.toList ++ gap.toList) ++ code.toList ++ tail.toList) := by
    rw [← String.toList_inj]
    simp
  have nonempty : gap.toList ≠ [] := fun none => some (String.toList_eq_nil_iff.mp none)
  have ends : ∀ c ∈ (mnemonic.toList ++ gap.toList).getLast?, Text.isBlank c = true := by
    intro c last
    rw [List.getLast?_append_of_ne_nil _ nonempty] at last
    exact blanks c (List.mem_of_getLast? last)
  have begins : ∀ c ∈ tail.toList.head?, Text.isBlank c = true :=
    fun c first => trailing c (List.mem_of_mem_head? first)
  rw [chars, fields_of_parts code_unbroken present ends begins, List.map_append,
    fields_of_word unbroken blanks nonempty, fieldsFrom_blanks trailing]
  rfl

theorem exists_gap_of_fields {left : List Char} {first : Field}
    (found : fields (String.ofList left) = [first])
    (ends : ∀ c ∈ left.getLast?, Text.isBlank c = true) :
    ∃ gap, left = first.text.toList ++ gap ∧ gap ≠ [] ∧ ∀ c ∈ gap, Text.isBlank c = true := by
  have some : left ≠ [] := by
    rintro rfl
    rw [fields_eq_nil_iff.mpr String.ofList_nil] at found
    cases found
  by_cases empty : first.text = ""
  · -- The field is an omitted label, so no other field is there.
    refine ⟨left, by rw [empty]; rfl, some, ?_⟩
    rw [fields, String.toList_ofList] at found
    rcases List.append_eq_singleton_iff.mp found with ⟨_, word⟩ | ⟨_, none⟩
    · have member : first ∈ fieldsFrom 1 left := word ▸ List.mem_cons_self
      exact ((of_mem_fieldsFrom member).2 empty).elim
    · exact fieldsFrom_eq_nil_iff.mp none
  · have alone : fields (String.ofList left) = [] ++ [first] := found
    obtain ⟨before, gap, split, none, _, blanks⟩ := exists_parts_of_concat alone empty
    rw [fields_eq_nil_iff, String.ofList_eq_empty_iff] at none
    rw [String.toList_ofList, none, List.nil_append] at split
    refine ⟨gap, split, ?_, blanks⟩
    rintro rfl
    -- Without a gap the line would end with the mnemonic, which holds no blank.
    rw [List.append_nil] at split
    obtain ⟨last, found_last⟩ := Option.ne_none_iff_exists'.mp (mt List.getLast?_eq_none_iff.mp some)
    have blank := ends last found_last
    have member : first ∈ fields (String.ofList left) := found ▸ List.mem_cons_self
    have unbroken := unbroken_of_mem_fields member
    rw [unbroken last (split ▸ List.mem_of_getLast? found_last)] at blank
    cases blank

theorem reads_of_fields {first second : Field} (found : fields line = [first, second]) :
    Reads line first.text second.text := by
  have both : fields line = [first] ++ [second] := found
  have present := text_ne_empty_of_concat both (by simp)
  obtain ⟨left, tail, split, before, ends, trailing⟩ := exists_parts_of_concat both present
  obtain ⟨gap, rfl, some, blanks⟩ := exists_gap_of_fields before ends
  have unbroken : ∀ field ∈ [first, second], Unbroken field.text :=
    fun field member => unbroken_of_mem_fields (found ▸ member)
  refine ⟨String.ofList gap, String.ofList tail, ?_, unbroken first (by simp), ⟨?_, ?_⟩,
    ⟨unbroken second (by simp), present⟩, ?_⟩
  · rw [← String.toList_inj, split]
    simp
  · rwa [AllBlank, String.toList_ofList]
  · exact fun none => some (String.ofList_eq_empty_iff.mp none)
  · rwa [AllBlank, String.toList_ofList]

theorem definition?_eq_some_iff :
    definition? line = some (mnemonic, code) ↔ Reads line mnemonic code := by
  constructor
  · intro defined
    unfold definition? at defined
    split at defined
    · rename_i first second found
      obtain ⟨rfl, rfl⟩ := Prod.mk.inj (Option.some.inj defined)
      exact reads_of_fields found
    · cases defined
  · intro reads
    obtain ⟨first, others, found, rfl, rest⟩ :=
      List.map_eq_cons_iff.mp (map_text_fields_of_reads reads)
    obtain ⟨second, none, rfl, rfl, last⟩ := List.map_eq_cons_iff.mp rest
    obtain rfl := List.map_eq_nil_iff.mp last
    rw [definition?, found]

/-! ### All lines -/

theorem collects_iff {define : String → Option (String × String)}
    (defines : ∀ line mnemonic code, define line = some (mnemonic, code) ↔ reads line mnemonic code)
    {lines : List String} {found : List (String × String)} :
    Collects reads lines found ↔ found = lines.filterMap define := by
  constructor
  · intro collected
    induction collected with
    | nil => rfl
    | read here _ ih => rw [List.filterMap_cons_some ((defines _ _ _).mpr here), ih]
    | @passed line _ _ none _ ih =>
      have nothing : define line = .none := by
        apply Option.eq_none_iff_forall_ne_some.mpr
        exact fun entry given => none entry.1 entry.2 ((defines _ _ _).mp given)
      rw [List.filterMap_cons_none nothing, ih]
  · rintro rfl
    induction lines with
    | nil => exact .nil
    | cons line rest ih =>
      cases given : define line with
      | none =>
        rw [List.filterMap_cons_none given]
        refine .passed (fun mnemonic code here => ?_) ih
        rw [(defines _ _ _).mpr here] at given
        cases given
      | some entry =>
        rw [List.filterMap_cons_some given]
        exact .read ((defines _ _ _).mp given) ih

theorem collects_definitions (text : String) :
    Collects Reads (Text.lines text) (definitions text) :=
  (collects_iff fun _ _ _ => definition?_eq_some_iff).mpr rfl

theorem collects_documented_iff {text : String} {found : List (String × String)} :
    Collects Documented (Text.lines text) found ↔
      found = (definitions text).filter fun entry => entry.1 ≠ "" := by
  have documented : ∀ line mnemonic code,
      (definition? line).filter (fun entry => entry.1 ≠ "") = some (mnemonic, code) ↔
        Documented line mnemonic code := by
    intro line mnemonic code
    rw [Option.filter_eq_some_iff, definition?_eq_some_iff, decide_eq_true_eq, Documented]
  rw [collects_iff documented, definitions, List.filter_filterMap]

theorem empty_not_mem_of_documented {text : String} {found : List (String × String)}
    {table : OpcodeTable} (collected : Collects Documented (Text.lines text) found)
    (tabulated : Tabulates found table) : "" ∉ table.keys := by
  rw [tabulated.1, List.mem_eraseDups, collects_documented_iff.mp collected, List.mem_map]
  rintro ⟨entry, member, empty⟩
  exact of_decide_eq_true (List.mem_filter.mp member).2 empty

theorem tabulates_parse (text : String) : Tabulates (definitions text) (parse text) :=
  ⟨OrderedMap.keys_ofList _, OrderedMap.get?_ofList _⟩

theorem mem_definitions_iff {text : String} {entry : String × String} :
    entry ∈ definitions text ↔ ∃ line ∈ Text.lines text, Reads line entry.1 entry.2 := by
  simp only [definitions, List.mem_filterMap, ← definition?_eq_some_iff]

theorem mem_keys_parse_iff {text : String} :
    mnemonic ∈ (parse text).keys ↔ ∃ line ∈ Text.lines text, ∃ code, Reads line mnemonic code := by
  rw [(tabulates_parse text).1, List.mem_eraseDups, List.mem_map]
  constructor
  · rintro ⟨⟨_, code⟩, defined, rfl⟩
    obtain ⟨line, member, reads⟩ := mem_definitions_iff.mp defined
    exact ⟨line, member, code, reads⟩
  · rintro ⟨line, member, code, reads⟩
    exact ⟨(mnemonic, code), mem_definitions_iff.mpr ⟨line, member, reads⟩, rfl⟩

/-- A table is read from the lines that are a mnemonic, blanks and a code, and from indented words,
which define the empty mnemonic. So it is the table of the documented definitions, and all its
mnemonics are there, if and only if no line is an indented word. -/
theorem parse_tabulates_lines (text : String) :
    (∃ found, Collects Reads (Text.lines text) found ∧ Tabulates found (parse text)) ∧
    ((∃ found, Collects Documented (Text.lines text) found ∧ Tabulates found (parse text)) ↔
      ∀ line ∈ Text.lines text, ∀ code, ¬Reads line "" code) ∧
    ((∀ mnemonic ∈ (parse text).keys, mnemonic ≠ "") ↔
      ∀ line ∈ Text.lines text, ∀ code, ¬Reads line "" code) := by
  have absent : (∀ mnemonic ∈ (parse text).keys, mnemonic ≠ "") ↔
      ∀ line ∈ Text.lines text, ∀ code, ¬Reads line "" code := by
    constructor
    · intro named line member code reads
      exact named "" (mem_keys_parse_iff.mpr ⟨line, member, code, reads⟩) rfl
    · rintro bare mnemonic known rfl
      obtain ⟨line, member, code, reads⟩ := mem_keys_parse_iff.mp known
      exact bare line member code reads
  refine ⟨⟨_, collects_definitions text, tabulates_parse text⟩, ?_, absent⟩
  rw [← absent]
  constructor
  · rintro ⟨found, collected, tabulated⟩ mnemonic known rfl
    exact empty_not_mem_of_documented collected tabulated known
  · intro named
    refine ⟨definitions text, collects_documented_iff.mpr ?_, tabulates_parse text⟩
    rw [eq_comm, List.filter_eq_self]
    intro entry member
    have known := mem_keys_parse_iff.mpr
      ((mem_definitions_iff.mp member).imp fun line found => ⟨found.1, entry.2, found.2⟩)
    exact decide_eq_true (named entry.1 known)

/-- An indented word defines the empty mnemonic, which is no documented definition. -/
theorem indented_word_defines_empty_mnemonic :
    (parse "ADD 18\n 1C").entries = [("ADD", "18"), ("", "1C")] ∧
      ¬∃ found, Collects Documented (Text.lines "ADD 18\n 1C") found ∧
        Tabulates found (parse "ADD 18\n 1C") := by
  have read : (parse "ADD 18\n 1C").entries = [("ADD", "18"), ("", "1C")] := by decide +kernel
  have known : "" ∈ (parse "ADD 18\n 1C").keys := by
    rw [OrderedMap.keys, read]
    decide
  refine ⟨read, ?_⟩
  rintro ⟨found, collected, tabulated⟩
  exact empty_not_mem_of_documented collected tabulated known

end OpcodeTable

end SicAssembler
