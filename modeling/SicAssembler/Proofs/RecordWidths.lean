import SicAssembler.Proofs.LoadAddresses
import SicAssembler.Proofs.ObjectText

/-!
Records of the documented widths. An address has six digits in a record, the length of the text two
and an entry six (`Conforms`), but numbers are only padded to these widths and never cut. The text of
a program conforms exactly if its numerals keep to their widths (`Legible.conforms_iff`), that is as
long as the start address has six digits, the entries make up less than 256 bytes and every operand
is a number of four digits.
-/

namespace SicAssembler

variable {table : OpcodeTable} {lines : List SourceLine} {symbols : SymbolTable}

/-! ### The documented form -/

namespace ObjectProgram

variable {program : ObjectProgram}

def IsHeader (name record : String) : Prop :=
  ∃ start, Text.FixedHex 6 start ∧ record = "H ^ " ++ name ++ " ^ " ++ start

def textLine (start length : String) (entries : List String) : String :=
  "T ^ " ++ start ++ " ^ " ++ length ++ " ^ " ++ String.join (entries.map (· ++ "^")) ++ " "

/-- A text record: an address of six digits, a length of two, and one or more entries of six. -/
def IsText (record : String) : Prop :=
  ∃ start length entries, Text.FixedHex 6 start ∧ Text.FixedHex 2 length ∧ entries ≠ [] ∧
    (∀ entry ∈ entries, Text.FixedHex 6 entry) ∧ record = textLine start length entries

def IsEnd (record : String) : Prop :=
  ∃ start, Text.FixedHex 6 start ∧ record = "E ^ " ++ start

/-- A text in the documented form: a header with the name, perhaps a text record, and an end record,
each a line with a line end. -/
def Conforms (name text : String) : Prop :=
  ∃ (header : String) (body : Option String) (last : String), IsHeader name header ∧
    (∀ record ∈ body, IsText record) ∧ IsEnd last ∧
    Text.lines text = header :: body.toList ++ [last, ""]

/-! ### Numerals as words -/

theorem plain_of_fixedHex {width : Nat} {text : String} (fixed : Text.FixedHex width text) :
    Unbroken text ∧ '^' ∉ text.toList := by
  refine ⟨fun c member => ?_, fun member => ?_⟩
  · exact Text.isBlank_of_hexDigit? (Text.hexDigit?_of_isUpperHex (fixed.digits c member))
  · exact absurd (fixed.digits '^' member) (by decide)

theorem textRecord?_eq_textLine (some : program.entries ≠ []) :
    program.textRecord? false =
      .some (textLine program.startText (Text.hex 2 program.textLength) program.entries) := by
  have present : program.entries.isEmpty = false := by simpa using some
  simp only [textRecord?, present, Bool.false_eq_true, if_false, textLine]

section Words

variable {start start' length length' : String} {entries entries' : List String}

theorem pieces_textLine (start_unbroken : Unbroken start) (length_unbroken : Unbroken length)
    (entries_unbroken : ∀ entry ∈ entries, Unbroken entry) :
    Text.pieces ' ' (textLine start length entries) =
      ["T", "^", start, "^", length, "^", "^".intercalate (entries ++ [""]), ""] := by
  have joined : textLine start length entries = " ".intercalate
      ["T", "^", start, "^", length, "^", "^".intercalate (entries ++ [""]), ""] := by
    rw [textLine, Text.join_terminated]
    simp [← String.toList_inj]
  have entry_words : Unbroken ("^".intercalate (entries ++ [""])) := by
    refine unbroken_intercalate (by decide) (List.forall_mem_append.mpr ⟨entries_unbroken, ?_⟩)
    exact List.forall_mem_singleton.mpr unbroken_empty
  rw [joined]
  refine pieces_of_unbroken ?_ (by simp)
  simp only [List.forall_mem_cons]
  exact ⟨by decide, by decide, start_unbroken, by decide, length_unbroken, by decide, entry_words,
    unbroken_empty, by simp⟩

theorem eq_of_joined (plain : ∀ entry ∈ entries, '^' ∉ entry.toList)
    (plain' : ∀ entry ∈ entries', '^' ∉ entry.toList)
    (same : "^".intercalate (entries ++ [""]) = "^".intercalate (entries' ++ [""])) :
    entries = entries' := by
  have pieces : ∀ texts : List String, (∀ text ∈ texts, '^' ∉ text.toList) →
      Text.pieces '^' ("^".intercalate (texts ++ [""])) = texts ++ [""] := by
    intro texts absent
    refine Text.pieces_intercalate rfl (List.forall_mem_append.mpr ⟨absent, ?_⟩) (by simp)
    exact List.forall_mem_singleton.mpr (by decide)
  have both := congrArg (Text.pieces '^') same
  rw [pieces entries plain, pieces entries' plain'] at both
  exact List.append_cancel_right both

theorem textLine_inj
    (words : Unbroken start ∧ Unbroken length ∧
      ∀ entry ∈ entries, Unbroken entry ∧ '^' ∉ entry.toList)
    (words' : Unbroken start' ∧ Unbroken length' ∧
      ∀ entry ∈ entries', Unbroken entry ∧ '^' ∉ entry.toList)
    (same : textLine start length entries = textLine start' length' entries') :
    start = start' ∧ length = length' ∧ entries = entries' := by
  have pieces := congrArg (Text.pieces ' ') same
  rw [pieces_textLine words.1 words.2.1 fun entry member => (words.2.2 entry member).1,
    pieces_textLine words'.1 words'.2.1 fun entry member => (words'.2.2 entry member).1] at pieces
  simp only [List.cons.injEq, true_and, and_true] at pieces
  obtain ⟨start_same, length_same, joined⟩ := pieces
  exact ⟨start_same, length_same, eq_of_joined (fun entry member => (words.2.2 entry member).2)
    (fun entry member => (words'.2.2 entry member).2) joined⟩

end Words

/-! ### Programs whose numerals keep to their widths -/

def KeepsWidths (program : ObjectProgram) : Prop :=
  Text.FixedHex 6 program.startText ∧ Text.FixedHex 2 (Text.hex 2 program.textLength) ∧
    ∀ entry ∈ program.entries, Text.FixedHex 6 entry

theorem conforms_of_keepsWidths (legible : program.Legible) (keeps : program.KeepsWidths) :
    Conforms program.name (program.text false) := by
  obtain ⟨start, length, entries⟩ := keeps
  refine ⟨program.headerRecord, program.textRecord? false, program.endRecord,
    ⟨_, start, rfl⟩, ?_, ⟨_, start, rfl⟩, ?_⟩
  · intro record member
    by_cases empty : program.entries = []
    · simp [textRecord?, empty] at member
    · rw [textRecord?_eq_textLine empty] at member
      exact ⟨_, _, _, start, length, empty, entries, (Option.some.inj member).symm⟩
  · rw [legible.lines_text, records, List.append_assoc]
    rfl

theorem keepsWidths_of_conforms (legible : program.Legible) {name : String}
    (conforms : Conforms name (program.text false)) :
    name = program.name ∧ program.KeepsWidths := by
  obtain ⟨header, body, last, ⟨first, first_fixed, rfl⟩, text, ⟨start, fixed, rfl⟩, found⟩ := conforms
  -- The lines are the records, one by one.
  rw [legible.lines_text, records, List.append_assoc] at found
  obtain ⟨header_same, rest_same⟩ := List.cons.inj found
  obtain ⟨text_same, last_same⟩ := List.append_inj' rest_same rfl
  have start_same : program.startText = start := by
    have chars := congrArg String.toList (List.cons.inj last_same).1
    rw [endRecord, String.toList_append, String.toList_append] at chars
    exact String.toList_inj.mp (List.append_cancel_left chars)
  have name_same : name = program.name := by
    have chars := congrArg String.toList header_same
    have lengths : program.startText.toList.length = first.toList.length := by
      rw [String.length_toList, String.length_toList, start_same, fixed.length, first_fixed.length]
    simp only [headerRecord, String.toList_append] at chars
    have front := List.append_cancel_right (List.append_inj' chars lengths).1
    exact (String.toList_inj.mp (List.append_cancel_left front)).symm
  refine ⟨name_same, start_same ▸ fixed, ?_⟩
  by_cases empty : program.entries = []
  · have short : program.textLength < Nat.pow 16 2 := by simp [textLength, empty]
    exact ⟨(Text.fixedHex_hex_iff (by omega)).mpr short, by simp [empty]⟩
  · rw [textRecord?_eq_textLine empty, Option.toList_some] at text_same
    obtain ⟨_, length, entries, start_fixed, length_fixed, _, entries_fixed, same⟩ :=
      text _ (Option.mem_toList.mp (text_same ▸ List.mem_cons_self))
    obtain ⟨_, rfl, rfl⟩ := textLine_inj
      ⟨legible.unbroken_startText, unbroken_hex 2 _, fun entry member =>
        ⟨(legible.entries entry member).1, (legible.entries entry member).2.2⟩⟩
      ⟨(plain_of_fixedHex start_fixed).1, (plain_of_fixedHex length_fixed).1, fun entry member =>
        plain_of_fixedHex (entries_fixed entry member)⟩ same
    exact ⟨length_fixed, entries_fixed⟩

theorem Legible.conforms_iff (legible : program.Legible) {name : String} :
    Conforms name (program.text false) ↔ name = program.name ∧ program.KeepsWidths := by
  refine ⟨keepsWidths_of_conforms legible, ?_⟩
  rintro ⟨rfl, keeps⟩
  exact conforms_of_keepsWidths legible keeps

theorem sum_length_of_keepsWidths (keeps : program.KeepsWidths) :
    (program.entries.map String.length).sum = 2 * program.textLength := by
  have six : program.entries.map String.length = program.entries.map fun _ => 6 :=
    List.map_congr_left fun entry member => (keeps.2.2 entry member).length
  rw [six, List.map_const', List.sum_replicate_nat, textLength, wordSize]
  omega

theorem fixedHex_startText_iff {n : Nat} (start : program.start = n) :
    Text.FixedHex 6 program.startText ↔ program.start ≤ 0xFFFFFF := by
  have limit : Nat.pow 16 6 = 0xFFFFFF + 1 := rfl
  rw [startText, start, Text.fixedHex_hex_iff (by omega), limit]
  omega

theorem fixedHex_textLength_iff :
    Text.FixedHex 2 (Text.hex 2 program.textLength) ↔ program.entries.length ≤ 85 := by
  have limit : Nat.pow 16 2 = 3 * 85 + 1 := rfl
  rw [Text.fixedHex_hex_iff (by omega), limit, textLength, wordSize]
  omega

end ObjectProgram

/-! ### The limits of the widths -/

/-- The number that an operand stands for: the address of a symbol, the value of a numeral, or
zero. -/
def operandValue (symbols : SymbolTable) (operand : String) : Int :=
  match symbols.get? operand with
  | some address => address
  | none => if Text.isDecimal operand then decimalValue operand else 0

theorem resolve_eq_hex {operand text : String} (resolved : resolve symbols operand = .ok text) :
    text = Text.hex 4 (operandValue symbols operand) := by
  unfold resolve at resolved
  unfold operandValue
  cases found : symbols.get? operand with
  | some address =>
    rw [found] at resolved
    exact (Except.ok.inj resolved).symm
  | none =>
    rw [found, readDecimal_eq] at resolved
    split_ifs at resolved ⊢ with decimal long
    · exact (Except.ok.inj resolved).symm
    · rw [← Except.ok.inj resolved]
      decide +kernel

theorem exists_operandValue_eq {operand : String}
    (bound : symbols.get? operand = (addressOf? table lines operand).map Nat.cast) :
    ∃ n : Nat, operandValue symbols operand = n := by
  unfold operandValue
  rw [bound]
  cases addressOf? table lines operand with
  | some address => exact ⟨address, rfl⟩
  | none =>
    split_ifs
    · exact ⟨decimalValue operand, rfl⟩
    · exact ⟨0, rfl⟩

theorem fixedHex_append_hex_iff {code : String} (coded : Text.FixedHex 2 code) (n : Nat) :
    Text.FixedHex 6 (code ++ Text.hex 4 n) ↔ n ≤ 0xFFFF := by
  have small : Text.FixedHex 4 (Text.hex 4 n) ↔ n < 0xFFFF + 1 := Text.fixedHex_hex_iff (by omega)
  rw [← Nat.lt_succ_iff, ← small]
  constructor
  · intro entry
    have whole := entry.length
    rw [String.length_append, coded.length] at whole
    exact ⟨by omega, fun _ => Text.isUpperHex_of_mem_hex⟩
  · intro operand
    refine ⟨by rw [String.length_append, coded.length, operand.length], fun c member => ?_⟩
    rw [String.toList_append] at member
    rcases List.mem_append.mp member with front | back
    · exact coded.digits c front
    · exact operand.digits c back

theorem Record.fixedHex_entry_iff {record : Record} {entry : String}
    (codes : ∀ entry ∈ table.entries, Text.FixedHex 2 entry.2)
    (bound : ∀ label, symbols.get? label = (addressOf? table lines label).map Nat.cast)
    (given : record.entry? table symbols = .ok (some entry)) :
    Text.FixedHex 6 entry ↔ operandValue symbols record.operand ≤ 0xFFFF := by
  obtain ⟨code, text, found, resolved, rfl⟩ := Record.exists_code_of_entry? given
  have coded := codes (record.mnemonic, code) ((table.get?_eq_some_iff _ _).mp found)
  obtain ⟨n, value⟩ := exists_operandValue_eq (bound record.operand)
  rw [resolve_eq_hex resolved, value, fixedHex_append_hex_iff coded]
  omega

theorem forall_iff_of_forall₂ {α β : Type} {r : α → β → Prop} {p : α → Prop} {q : β → Prop}
    {xs : List α} {ys : List β} (same : ∀ x y, r x y → (p x ↔ q y)) (paired : List.Forall₂ r xs ys) :
    (∀ x ∈ xs, p x) ↔ ∀ y ∈ ys, q y := by
  induction paired with
  | nil => simp
  | cons first _ ih => rw [List.forall_mem_cons, List.forall_mem_cons, same _ _ first, ih]

theorem Layout.forall₂_encoded {layout : Layout} {results : List (Option String)}
    (mapped : layout.records.mapM (Record.entry? table layout.symbols) = .ok results) :
    List.Forall₂ (fun record entry => record.entry? table layout.symbols = .ok (some entry))
      (layout.encoded table) (results.filterMap id) := by
  apply forall₂_filterMap_of_mapM _ mapped
  intro record _ result entry
  rw [Record.Encoded, entry, Option.isSome_iff_exists]
  simp

namespace ObjectProgram

/-- The text of an assembled program is in the documented form, with the program's name and no other,
exactly if the start address, the number of entries and the operands keep to the limits of their
widths; the entries then hold two digits for each byte of the text. -/
theorem conforms_iff_within_limits {file : String} {source : Source} {program : ObjectProgram}
    (codes : ∀ entry ∈ table.entries, Text.FixedHex 2 entry.2)
    (assembled : assemble table file source = .ok program) :
    ∃ layout, Layout.ofSource table file source = .ok layout ∧
      List.Forall₂ (fun record entry => record.entry? table layout.symbols = .ok (some entry))
        (layout.encoded table) program.entries ∧
      (∀ name, Conforms name (program.text false) ↔ name = program.name ∧
        program.start ≤ 0xFFFFFF ∧ program.entries.length ≤ 85 ∧
          ∀ record ∈ layout.encoded table,
            operandValue layout.symbols record.operand ≤ 0xFFFF) ∧
      (Conforms program.name (program.text false) →
        (∀ entry ∈ program.entries, ∀ c ∈ entry.toList, Text.IsUpperHex c) ∧
          (program.entries.map String.length).sum = 2 * program.textLength) := by
  have plain : ∀ mnemonic code, table.get? mnemonic = some code →
      Unbroken code ∧ '^' ∉ code.toList := by
    intro mnemonic code found
    exact plain_of_fixedHex (codes _ ((table.get?_eq_some_iff _ _).mp found))
  have legible := legible_of_codes plain assembled
  obtain ⟨layout, lines, laid, _, reflects, built⟩ := assemble_ok assembled
  obtain ⟨_, results, _, mapped, rfl⟩ := build_ok built
  obtain ⟨n, start⟩ := legible.start
  have given := Layout.forall₂_encoded mapped
  have entries : (∀ record ∈ layout.encoded table,
        operandValue layout.symbols record.operand ≤ 0xFFFF) ↔
      ∀ entry ∈ results.filterMap id, Text.FixedHex 6 entry := by
    refine forall_iff_of_forall₂ (fun record entry given => ?_) given
    exact (Record.fixedHex_entry_iff codes reflects.get?_symbols given).symm
  refine ⟨layout, laid, given, ?_, ?_⟩
  · intro name
    rw [legible.conforms_iff, KeepsWidths, fixedHex_startText_iff start, fixedHex_textLength_iff,
      entries]
  · intro conforms
    have keeps := (legible.conforms_iff.mp conforms).2
    exact ⟨fun entry member => (keeps.2.2 entry member).digits, sum_length_of_keepsWidths keeps⟩

/-- A program of so many entries, with the largest start address and operands that fit. -/
def fullProgram (count : Nat) : Source :=
  .lines (.text "P START FFFFFF" :: List.replicate count (.text " ADD 65535"))

theorem conforms_iff_within_limits_of_fullProgram :
    (∃ program, assemble Layout.oneInstruction unnamedSource (fullProgram 85) = .ok program ∧
      Conforms "P" (program.text false) ∧ (program.entries.map String.length).sum = 510) ∧
    ∃ program, assemble Layout.oneInstruction unnamedSource (fullProgram 86) = .ok program ∧
      ∀ name, ¬Conforms name (program.text false) := by
  have codes : ∀ entry ∈ Layout.oneInstruction.entries, Text.FixedHex 2 entry.2 := by decide +kernel
  constructor
  · obtain ⟨program, assembled, shape⟩ := exists_of_map_ok
      (x := assemble Layout.oneInstruction unnamedSource (fullProgram 85))
      (f := fun program => (program.name, program.start, program.entries.length))
      (b := ("P", 0xFFFFFF, 85)) (by decide +kernel)
    obtain ⟨name, start, size⟩ : program.name = "P" ∧ program.start = 0xFFFFFF ∧
      program.entries.length = 85 := by simpa using shape
    obtain ⟨layout, laid, _, limits, digits⟩ := conforms_iff_within_limits codes assembled
    have operands : ∀ record ∈ layout.encoded Layout.oneInstruction,
        operandValue layout.symbols record.operand ≤ 0xFFFF :=
      of_decide_eq_true (value_of_ok laid (fun layout => decide
        (∀ record ∈ layout.encoded Layout.oneInstruction,
          operandValue layout.symbols record.operand ≤ 0xFFFF)) (by decide +kernel))
    have conforms := (limits program.name).mpr ⟨rfl, by omega, by omega, operands⟩
    refine ⟨program, assembled, name ▸ conforms, (digits conforms).2.trans ?_⟩
    rw [textLength, size, wordSize]
  · obtain ⟨program, assembled, size⟩ := exists_of_map_ok
      (x := assemble Layout.oneInstruction unnamedSource (fullProgram 86))
      (f := fun program => program.entries.length) (b := 86) (by decide +kernel)
    obtain ⟨layout, _, _, limits, _⟩ := conforms_iff_within_limits codes assembled
    refine ⟨program, assembled, fun name conforms => ?_⟩
    have few := ((limits name).mp conforms).2.2.1
    omega

end ObjectProgram

end SicAssembler
