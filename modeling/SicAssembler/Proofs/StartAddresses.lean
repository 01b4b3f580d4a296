import Mathlib.Data.Nat.Digits.Lemmas
import SicAssembler.Proofs.MissingStart

/-!
Addresses as they are written and as a `START` reads them. A numeral in upper case is its value
written to the numeral's own length (`Text.leftpad_hexDigits_hexValue`), so two numerals of one value
differ in case and leading zeros at most, and a value written again is the numeral without either
(`Text.hex_eq_respell`). With `Text.hexValue?_hex` for the other direction, writing an address and
setting it by a `START` line are inverse to each other (`Layout.start_inverts_writing`).
-/

namespace SicAssembler

/-! ### Numerals of one value -/

namespace Text

theorem toUpper_of_hexDigit? {c : Char} {digit : Nat} (read : hexDigit? c = some digit) :
    digit < 16 ∧ c.toUpper = digit.digitChar.toUpper := by
  have all : ∀ point < 103, ∀ digit ∈ hexDigit? (Char.ofNat point),
      digit < 16 ∧ (Char.ofNat point).toUpper = digit.digitChar.toUpper := by decide
  have bound : c.toNat < 103 := by
    have limits : '9'.val.toNat = 57 ∧ 'F'.val.toNat = 70 ∧ 'f'.val.toNat = 102 := by decide
    have hexadecimal := isSome_hexDigit?_iff.mp (Option.isSome_iff_exists.mpr ⟨digit, read⟩)
    simp only [IsHexDigit, Char.le_def, UInt32.le_iff_toNat_le] at hexadecimal
    rw [Char.toNat]
    omega
  rw [← Char.ofNat_toNat c] at read ⊢
  exact all c.toNat bound digit read

theorem hexDigits_zero : hexDigits 0 = ['0'] := by
  rw [hexDigits_eq_if]
  rfl

/-- The last digit of a number stands behind the others, which are padded as they would be alone. -/
theorem leftpad_hexDigits_concat {k digit : Nat} (value : Nat) (positive : 0 < k)
    (small : digit < 16) :
    (hexDigits (16 * value + digit)).leftpad (k + 1) '0' =
      (hexDigits value).leftpad k '0' ++ [digit.digitChar.toUpper] := by
  rw [hexDigits_eq_if (16 * value + digit)]
  by_cases zero : value = 0
  · subst zero
    obtain ⟨k, rfl⟩ := Nat.exists_eq_succ_of_ne_zero positive.ne'
    rw [if_pos (by omega), ← List.nil_append [_], leftpad_concat, hexDigits_zero]
    simp [List.leftpad, List.replicate_succ']
  · rw [if_neg (by omega), leftpad_concat, show (16 * value + digit) / 16 = value by omega,
      show (16 * value + digit) % 16 = digit by omega]

/-- A numeral in upper case is its value, written to the length of the numeral. -/
theorem leftpad_hexDigits_hexValue {digits : List Char} (present : digits ≠ [])
    (hexadecimal : ∀ c ∈ digits, (hexDigit? c).isSome = true) :
    (hexDigits (hexValue digits)).leftpad digits.length '0' = digits.map Char.toUpper := by
  -- From the last digit back, which is where a value grows; a digit alone has nothing to be padded.
  induction digits using List.reverseRecOn with
  | nil => exact (present rfl).elim
  | append_singleton digits last ih =>
    obtain ⟨digit, read⟩ := Option.isSome_iff_exists.mp (hexadecimal last (by simp))
    obtain ⟨small, upper⟩ := toUpper_of_hexDigit? read
    rw [hexValue_concat, read, Option.getD_some, List.length_append, List.length_singleton,
      List.map_append, List.map_singleton, upper]
    by_cases alone : digits = []
    · subst alone
      rw [show hexValue [] = 0 from rfl, Nat.mul_zero, Nat.zero_add, hexDigits_eq_if, if_pos small]
      rfl
    · rw [leftpad_hexDigits_concat _ (List.length_pos_iff.mpr alone) small,
        ih alone fun c member => hexadecimal c (List.mem_append_left _ member)]

theorem head?_hexDigits_ne {n : Nat} (positive : 0 < n) : (hexDigits n).head? ≠ some '0' := by
  induction n using Nat.strongRecOn with
  | ind n ih =>
    rw [hexDigits_eq_if]
    split
    · rename_i small
      have all : ∀ digit < 16, 0 < digit → digit.digitChar.toUpper ≠ '0' := by decide
      simpa using all n small positive
    · have higher := ih (n / 16) (by omega) (by omega)
      have some : hexDigits (n / 16) ≠ [] := by simp [hexDigits_eq_toDigits]
      rwa [List.head?_append_of_ne_nil _ some]

theorem dropWhile_leftpad (k : Nat) (digits : List Char) :
    (digits.leftpad k '0').dropWhile (· == '0') = digits.dropWhile (· == '0') := by
  apply List.dropWhile_append_of_pos
  intro c member
  rw [List.eq_of_mem_replicate member, beq_self_eq_true]

theorem leftpad_dropWhile_hexDigits {width : Nat} (positive : 0 < width) (n : Nat) :
    ((hexDigits n).dropWhile (· == '0')).leftpad width '0' = (hexDigits n).leftpad width '0' := by
  by_cases zero : n = 0
  · subst zero
    obtain ⟨width, rfl⟩ := Nat.exists_eq_succ_of_ne_zero positive.ne'
    rw [hexDigits_zero]
    simp [List.leftpad, List.replicate_succ']
  · have first := head?_hexDigits_ne (Nat.pos_of_ne_zero zero)
    cases digits : hexDigits n with
    | nil => rfl
    | cons c rest =>
      rw [digits] at first
      rw [List.dropWhile_cons_of_neg]
      simpa using first

/-- A numeral in upper case, without the zeros before it and padded again to a width. -/
def respell (width : Nat) (numeral : String) : String :=
  String.ofList (((numeral.toList.map Char.toUpper).dropWhile (· == '0')).leftpad width '0')

theorem hex_eq_respell {width n : Nat} {numeral : String} (positive : 0 < width)
    (read : hexValue? numeral = some n) : hex width n = respell width numeral := by
  unfold hexValue? at read
  split at read
  · rename_i hexadecimal
    obtain ⟨present, digits⟩ := (isHex_iff numeral).mp hexadecimal
    rw [respell, ← leftpad_hexDigits_hexValue present digits, dropWhile_leftpad,
      leftpad_dropWhile_hexDigits positive, Option.some.inj read]
    rfl
  · cases read

theorem length_hex_eq_max {width : Nat} (positive : 0 < width) (n : Nat) :
    (hex width n).length = max width (Nat.digits 16 n).length := by
  rw [length_hex]
  apply eq_of_forall_ge_iff
  intro k
  rw [Nat.max_le, Nat.max_le]
  -- Two lengths are compared by the widths that they keep to.
  refine and_congr_right fun wide => ?_
  rw [length_hexDigits_le_iff (by omega), Nat.digits_length_le_iff (by omega)]
  rfl

end Text

/-! ### Addresses that are written -/

/-- The texts that a number is written as where it is an address: to four digits in the reports, and
to six in the records of an object program. -/
inductive WrittenAddress : Nat → Nat → String → Prop where
  | inReport (n : Nat) : WrittenAddress 4 n (addressText n)
  | inRecord {n : Nat} (program : ObjectProgram) (start : program.start = n) :
    WrittenAddress 6 n program.startText

namespace WrittenAddress

variable {width n : Nat} {text : String}

theorem eq_hex (written : WrittenAddress width n text) : text = Text.hex width n := by
  cases written with
  | inReport => rfl
  | inRecord program start => rw [ObjectProgram.startText, start]

theorem width_pos (written : WrittenAddress width n text) : 0 < width := by
  cases written <;> omega

theorem hexValue?_eq (written : WrittenAddress width n text) : Text.hexValue? text = some n := by
  rw [written.eq_hex, Text.hexValue?_hex]

end WrittenAddress

/-! ### Lines that set an address -/

theorem nthField_startLine {numeral : String} (unbroken : Unbroken numeral) :
    nthField ("P START " ++ numeral) 1 = "START" ∧
      nthField ("P START " ++ numeral) 2 = numeral := by
  have parts : "P START " = "P" ++ " " ++ "START" ++ " " := rfl
  rw [parts]
  refine (nthField_written ?_ ?_ unbroken ?_).2
  · decide
  · decide
  · intro empty
    simp at empty

theorem Source.read_concat {source longer : Source} {file line : String} {lines : List SourceLine}
    (grown : longer.inputs = source.inputs ++ [.text line]) (read : source.read file = .ok lines) :
    longer.read file =
      .ok (lines ++ [SourceLine.read file (source.inputs.length + 1 : Nat) line]) := by
  apply mapM_ok_iff.mpr
  rw [numbered, grown, List.zipIdx_append, List.zipIdx_singleton, Nat.add_comm 1]
  exact List.rel_append (mapM_ok_iff.mp read) (.cons rfl .nil)

namespace Layout

variable {table : OpcodeTable} {file line : String} {n : Nat}

/-- A line that may be put behind every program: it is warned about nothing and sets the start
address. -/
def Starts (table : OpcodeTable) (file line : String) (n : Nat) : Prop :=
  ∀ (source longer : Source) (layout : Layout), ofSource table file source = .ok layout →
    longer.inputs = source.inputs ++ [.text line] →
    ∃ started, ofSource table file longer = .ok started ∧ started.start = some (n : Int) ∧
      started.diagnostics = layout.diagnostics

theorem starts_of_fields (start : nthField line 1 = "START")
    (numeral : Text.hexValue? (nthField line 2) = some n) : Starts table file line n := by
  intro source longer layout laid grown
  obtain ⟨_, mnemonic, operand⟩ :=
    SourceLine.read_fields file (source.inputs.length + 1 : Nat) line
  rw [start] at mnemonic
  have origin : (SourceLine.read file (source.inputs.length + 1 : Nat) line).origin? = some n := by
    rw [SourceLine.origin?, if_pos mnemonic, operand, numeral]
  have acceptable : (LineInput.text line).Acceptable := by
    rw [LineInput.acceptable_text_iff file (source.inputs.length + 1 : Nat)]
    exact SourceLine.acceptable_of_start mnemonic
  have accepted : (ofSource table file longer).isOk = true := by
    have earlier := (isOk_ofSource_iff table file source).mp (by rw [laid]; rfl)
    rw [isOk_ofSource_iff, grown]
    exact List.forall_mem_append.mpr ⟨earlier, List.forall_mem_singleton.mpr acceptable⟩
  obtain ⟨started, again⟩ := exists_ok accepted
  obtain ⟨lines, read, _⟩ := reflects_of_ofSource laid
  obtain ⟨_, reread, reflects⟩ := reflects_of_ofSource again
  obtain rfl := Except.ok.inj ((Source.read_concat grown read).symm.trans reread)
  refine ⟨started, again, ?_, ?_⟩
  · rw [reflects.start, startOf_concat, origin]
    rfl
  · rw [diagnostics_eq again reread, diagnosticsOf_concat,
      SourceLine.warnings_of_origin (by rw [origin]; rfl), List.append_nil, diagnostics_eq laid read]

theorem Starts.alone (starts : Starts table file line n) (single : '\n' ∉ line.toList) :
    ∃ layout, ofSource table file (.text line) = .ok layout ∧ layout.start = some (n : Int) ∧
      layout.diagnostics = [] := by
  have lines : Text.lines ("\n".intercalate [line]) = [line] :=
    Text.lines_intercalate (by simpa using single) (by simp)
  rw [String.intercalate_singleton] at lines
  exact starts (.lines []) (.text line) (ofStatements table []) rfl (by simp [Source.inputs, lines])

/-- To write an address and to set it by a `START` are inverse to each other. An address that was
written is set again, by a line that is warned about nothing; and an address that was set by a
numeral is written as the numeral in upper case, without the zeros before it and padded to four
digits. So no text is written for two addresses. A text has as many digits as the number, or zeros
to its width. -/
theorem start_inverts_writing (table : OpcodeTable) (file : String) :
    (∀ width n text, WrittenAddress width n text →
      Starts table file ("P START " ++ text) n ∧
      ∃ layout, ofSource table file (.text ("P START " ++ text)) = .ok layout ∧
        layout.start = some (n : Int) ∧ layout.diagnostics = []) ∧
    (∀ numeral : String, numeral ≠ "" → (∀ c ∈ numeral.toList, Text.IsHexDigit c) →
      ∀ line, nthField line 1 = "START" → nthField line 2 = numeral →
        ∃ n, Starts table file line n ∧ addressText n = Text.respell 4 numeral) ∧
    (∀ width width' m n text, WrittenAddress width m text → WrittenAddress width' n text → m = n) ∧
    (∀ width n text, WrittenAddress width n text →
      text.length = max width (Nat.digits 16 n).length) := by
  refine ⟨?_, ?_, ?_, ?_⟩
  · intro width n text written
    have unbroken := (unbroken_of_hexValue? written.hexValue?_eq).1
    obtain ⟨start, operand⟩ := nthField_startLine unbroken
    have starts : Starts table file ("P START " ++ text) n := by
      apply starts_of_fields start
      rw [operand, written.hexValue?_eq]
    have single : '\n' ∉ ("P START " ++ text).toList := by
      simpa using unbroken.not_mem rfl
    exact ⟨starts, starts.alone single⟩
  · rintro numeral present digits line start rfl
    have set : (Text.hexValue? (nthField line 2)).isSome = true :=
      Text.isSome_hexValue?_iff.mpr ⟨present, digits⟩
    obtain ⟨n, read⟩ := Option.isSome_iff_exists.mp set
    exact ⟨n, starts_of_fields start read, Text.hex_eq_respell (by omega) read⟩
  · intro width width' m n text first second
    exact Option.some.inj (first.hexValue?_eq.symm.trans second.hexValue?_eq)
  · intro width n text written
    rw [written.eq_hex, Text.length_hex_eq_max written.width_pos]

theorem start_inverts_writing_of_mixedCase :
    (∃ layout, ofSource oneInstruction unnamedSource
        (.text ("P START " ++ ObjectProgram.startText { name := "P", start := 0xABCDE })) =
          .ok layout ∧
      layout.start = some 0xABCDE ∧ layout.diagnostics = []) ∧
    ∃ layout, ofSource oneInstruction unnamedSource
        (.lines [.text "A WORD", .text "\tSTART 000beEf again"]) = .ok layout ∧
      layout.start.map addressText = some "BEEF" := by
  obtain ⟨written, read, _⟩ := start_inverts_writing oneInstruction unnamedSource
  refine ⟨(written 6 0xABCDE _ (.inRecord _ rfl)).2, ?_⟩
  have digits : ∀ c ∈ "000beEf".toList, Text.IsHexDigit c := by simp [Text.IsHexDigit]
  obtain ⟨n, starts, shown⟩ := read "000beEf" (by decide) digits "\tSTART 000beEf again"
    (by decide +kernel) (by decide +kernel)
  obtain ⟨layout, laid⟩ := exists_ok
    (x := ofSource oneInstruction unnamedSource (.lines [.text "A WORD"])) (by decide +kernel)
  obtain ⟨started, again, start, _⟩ := starts _
    (.lines [.text "A WORD", .text "\tSTART 000beEf again"]) layout laid rfl
  refine ⟨started, again, ?_⟩
  rw [start, Option.map_some, shown]
  decide +kernel

end Layout

end SicAssembler
