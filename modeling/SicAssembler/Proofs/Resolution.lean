import SicAssembler.Proofs.Failures
import SicAssembler.Proofs.RecordWidths
import SicAssembler.Proofs.Renaming

/-!
What an operand stands for under the symbol table of a program. Only labels enter such a table
(`Layout.isLabel_of_mem_keys`), and a label is no numeral, so an operand is found in the table or read
as a number but never both. Its number can be read off the text that it resolves to
(`Layout.resolves_unambiguously`).
-/

namespace SicAssembler

variable {operand : String} {symbols : SymbolTable}

/-! ### Any symbol table -/

/-- An operand in hexadecimal, with the two questions in the other order: it is looked up in the
symbol table only if it is no numeral. -/
def resolveNumeralFirst (symbols : SymbolTable) (operand : String) : Except Failure String :=
  match Text.readDecimal operand with
  | .value n => .ok (addressText n)
  | .tooLong digits => .error (.numeral (.tooLong digits))
  | .notDecimal =>
    match symbols.get? operand with
    | some address => .ok (addressText address)
    | none => .ok "0000"

theorem resolveNumeralFirst_eq
    (unbound : Text.isDecimal operand = true → symbols.get? operand = none) :
    resolveNumeralFirst symbols operand = resolve symbols operand := by
  unfold resolveNumeralFirst resolve
  cases found : symbols.get? operand with
  | none => cases Text.readDecimal operand <;> rfl
  | some address =>
    have other : ¬Text.isDecimal operand = true := by
      intro decimal
      cases (unbound decimal).symm.trans found
    rw [readDecimal_eq, if_neg other]

/-- An operand that resolves to the text of a number, in which the number can be read in base 16. -/
def StandsFor (symbols : SymbolTable) (operand : String) (n : Nat) : Prop :=
  ∃ text, resolve symbols operand = .ok text ∧ text = addressText n ∧ Text.hexValue? text = some n

theorem resolve_eq_ok (short : Text.isDecimal operand = true → operand.length ≤ Text.maxDigits) :
    resolve symbols operand = .ok (Text.hex 4 (operandValue symbols operand)) := by
  cases resolved : resolve symbols operand with
  | ok text => rw [resolve_eq_hex resolved]
  | error failure =>
    obtain ⟨_, decimal, long, _⟩ := resolve_error_iff.mp resolved
    exact absurd (short decimal) (Nat.not_le.mpr long)

theorem standsFor_of_operandValue {n : Nat} (value : operandValue symbols operand = n)
    (short : Text.isDecimal operand = true → operand.length ≤ Text.maxDigits) :
    StandsFor symbols operand n := by
  have resolved : resolve symbols operand = .ok (addressText n) := by
    rw [resolve_eq_ok short, value, addressText]
  exact ⟨_, resolved, rfl, Text.hexValue?_hex 4 n⟩

/-! ### The symbol table of a program -/

namespace Layout

variable {table : OpcodeTable} {file : String} {source : Source} {lines : List SourceLine}
  {layout : Layout}

theorem isLabel_of_mem_keys (reflects : layout.Reflects table lines) {label : String}
    (member : label ∈ layout.symbols.keys) : isLabel label = true := by
  obtain ⟨line, _, defines, rfl⟩ := (mem_keys_iff reflects label).mp member
  exact defines.2

theorem get?_symbols_of_isDecimal (reflects : layout.Reflects table lines)
    (decimal : Text.isDecimal operand = true) : layout.symbols.get? operand = none := by
  rw [OrderedMap.get?_eq_none_iff]
  intro member
  rw [not_isDecimal_of_isLabel (isLabel_of_mem_keys reflects member)] at decimal
  cases decimal

/-- Under the symbol table of a program an operand is no label and numeral at once, so it does not
matter which of the two is asked first. A label stands for its address and a numeral of at most 4300
digits for its value; a longer numeral is refused, and nothing else is. Any other operand resolves to
zero, and every operand to four upper-case digits or more. -/
theorem resolves_unambiguously (laid : ofSource table file source = .ok layout) (operand : String) :
    ¬((layout.symbols.get? operand).isSome = true ∧ Text.isDecimal operand = true) ∧
    resolveNumeralFirst layout.symbols operand = resolve layout.symbols operand ∧
    (∀ address, layout.symbols.get? operand = some address →
      ∃ n : Nat, address = n ∧ StandsFor layout.symbols operand n) ∧
    (Text.isDecimal operand = true → operand.length ≤ 4300 →
      StandsFor layout.symbols operand (decimalValue operand)) ∧
    (∀ failure, resolve layout.symbols operand = .error failure ↔
      Text.isDecimal operand = true ∧ 4300 < operand.length ∧
        failure = .numeral (.tooLong operand.length)) ∧
    (layout.symbols.get? operand = none → Text.isDecimal operand = false →
      resolve layout.symbols operand = .ok "0000") ∧
    (∀ text, resolve layout.symbols operand = .ok text →
      4 ≤ text.length ∧ ∀ c ∈ text.toList, Text.IsUpperHex c) := by
  obtain ⟨lines, _, reflects⟩ := reflects_of_ofSource laid
  have unbound : Text.isDecimal operand = true → layout.symbols.get? operand = none :=
    get?_symbols_of_isDecimal reflects
  have apart : ¬((layout.symbols.get? operand).isSome = true ∧ Text.isDecimal operand = true) := by
    rintro ⟨found, decimal⟩
    rw [unbound decimal] at found
    cases found
  have bound := reflects.get?_symbols operand
  refine ⟨apart, resolveNumeralFirst_eq unbound, ?_, ?_, ?_, ?_, ?_⟩
  · intro address found
    have value : operandValue layout.symbols operand = address := by
      rw [operandValue, found]
    obtain ⟨n, natural⟩ := exists_operandValue_eq bound
    refine ⟨n, value.symm.trans natural, standsFor_of_operandValue natural fun decimal => ?_⟩
    -- A label is no numeral, so it may be of any length.
    exact (apart ⟨Option.isSome_iff_exists.mpr ⟨address, found⟩, decimal⟩).elim
  · intro decimal short
    have value : operandValue layout.symbols operand = decimalValue operand := by
      rw [operandValue, unbound decimal]
      exact if_pos decimal
    exact standsFor_of_operandValue value fun _ => short
  · intro failure
    rw [resolve_error_iff, ← OrderedMap.get?_eq_none_iff]
    exact ⟨And.right, fun refused => ⟨unbound refused.1, refused⟩⟩
  · intro absent other
    rw [resolve, absent, readDecimal_eq, other]
    rfl
  · intro text resolved
    obtain ⟨n, rfl⟩ := exists_hex_of_resolve bound resolved
    exact ⟨by rw [Text.length_hex]; omega, fun c => Text.isUpperHex_of_mem_hex⟩

def zeros (count : Nat) : String := String.ofList (List.replicate count '0')

theorem isDecimal_zeros (count : Nat) : Text.isDecimal (zeros (count + 1)) = true := by
  simp [Text.isDecimal, zeros]

theorem length_zeros (count : Nat) : (zeros count).length = count := by
  simp [zeros]

/-- A program with a label at zero, a numeral where a label should be, and a label that could be a
hexadecimal numeral. -/
def numeralLabels : Source :=
  .text "ZERO ADD 10\n10 ADD FACE\nP START FFFE\nFACE WORD"

theorem resolves_unambiguously_of_numeralLabels :
    ∃ layout, ofSource oneInstruction unnamedSource numeralLabels = .ok layout ∧
      layout.symbols.get? "ZERO" = some 0 ∧ StandsFor layout.symbols "ZERO" 0 ∧
      StandsFor layout.symbols "FACE" 0xFFFE ∧
      layout.symbols.get? "10" = none ∧ StandsFor layout.symbols "10" 10 ∧
      resolve layout.symbols "BEEF" = .ok "0000" ∧
      resolve layout.symbols (zeros 4301) = .error (.numeral (.tooLong 4301)) := by
  obtain ⟨layout, laid⟩ := exists_ok
    (x := ofSource oneInstruction unnamedSource numeralLabels) (by decide +kernel)
  have entered (label : String) (address : Option Int)
      (found : (ofSource oneInstruction unnamedSource numeralLabels).map
        (fun layout => layout.symbols.get? label) = .ok address) :
      layout.symbols.get? label = address :=
    value_of_ok laid _ found
  have zero := entered "ZERO" (some 0) (by decide +kernel)
  have face := entered "FACE" (some 0xFFFE) (by decide +kernel)
  have unbound := entered "BEEF" none (by decide +kernel)
  obtain ⟨_, _, first, _⟩ := resolves_unambiguously laid "ZERO"
  obtain ⟨_, _, second, _⟩ := resolves_unambiguously laid "FACE"
  obtain ⟨apart, _, _, numeral, _⟩ := resolves_unambiguously laid "10"
  obtain ⟨_, _, _, _, _, other, _⟩ := resolves_unambiguously laid "BEEF"
  obtain ⟨_, _, _, _, refused, _⟩ := resolves_unambiguously laid (zeros 4301)
  obtain ⟨_, same, at_zero⟩ := first 0 zero
  obtain rfl := Int.natCast_inj.mp same
  obtain ⟨_, same, far⟩ := second 0xFFFE face
  obtain rfl := Int.natCast_inj.mp same
  refine ⟨layout, laid, zero, at_zero, far, ?_, numeral (by decide) (by decide),
    other unbound (by decide), ?_⟩
  · exact Option.not_isSome_iff_eq_none.mp fun found => apart ⟨found, by decide⟩
  · rw [refused, length_zeros]
    exact ⟨isDecimal_zeros 4300, by omega, rfl⟩

end Layout

end SicAssembler
