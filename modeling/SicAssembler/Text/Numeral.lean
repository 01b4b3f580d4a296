import SicAssembler.Text.CharClass

/-!
Numerals. Addresses are written in upper-case hexadecimal padded with zeros to a least width
(`hex`) and read back in either case (`hexValue?`). Decimal numerals are read by `readDecimal`
and written by `decimal`, both up to `maxDigits` digits.
-/

namespace SicAssembler.Text

/-! ### Hexadecimal -/

/-- The number of digits that are written or read in one step. Long numerals are taken apart in
steps of this size, since a step on a long number costs as much as its length. -/
def stepDigits : Nat := 16

def stepBase : Nat := 0x10000000000000000

theorem stepBase_eq : stepBase = Nat.pow 16 stepDigits := rfl

def hexDigitsOnto (n : Nat) (digits : List Char) : List Char :=
  if n < stepBase then Nat.toDigits 16 n ++ digits
  else hexDigitsOnto (n / stepBase)
    ((Nat.toDigits 16 (n % stepBase)).leftpad stepDigits '0' ++ digits)
termination_by n
decreasing_by
  have large : 1 < stepBase := by decide
  exact Nat.div_lt_self (by omega) large

/-- The upper-case hexadecimal digits of a number, most significant first. -/
def hexDigits (n : Nat) : List Char :=
  (hexDigitsOnto n []).map Char.toUpper

/-- Padding from the left leaves the last digit where it is. -/
theorem leftpad_concat (k : Nat) (digits : List Char) (last : Char) :
    (digits ++ [last]).leftpad (k + 1) '0' = digits.leftpad k '0' ++ [last] := by
  simp [List.leftpad]

/-- The digits of a number above the `k + 1` low digits, and then those, are its digits. -/
theorem toDigits_split (k high low : Nat) (positive : 0 < high) (small : low < Nat.pow 16 (k + 1)) :
    Nat.toDigits 16 (high * Nat.pow 16 (k + 1) + low) =
      Nat.toDigits 16 high ++ (Nat.toDigits 16 low).leftpad (k + 1) '0' := by
  induction k generalizing low with
  | zero =>
    have digit : low < 16 := small
    rw [Nat.toDigits_of_lt_base digit,
      show high * Nat.pow 16 (0 + 1) = 16 * high from Nat.mul_comm ..,
      ← Nat.toDigits_append_toDigits (by omega) positive digit, Nat.toDigits_of_lt_base digit]
    rfl
  | succ k ih =>
    have power : Nat.pow 16 (k + 1 + 1) = Nat.pow 16 (k + 1) * 16 := rfl
    have quotient : low / 16 < Nat.pow 16 (k + 1) := by omega
    have digit : low % 16 < 16 := Nat.mod_lt _ (by omega)
    have above : 0 < high * Nat.pow 16 (k + 1) + low / 16 := by
      have := Nat.mul_pos positive (Nat.pow_pos (n := k + 1) (show 0 < 16 by omega))
      exact Nat.add_pos_left this _
    have whole : high * Nat.pow 16 (k + 1 + 1) + low =
        16 * (high * Nat.pow 16 (k + 1) + low / 16) + low % 16 := by
      rw [power, ← Nat.mul_assoc]
      omega
    rw [whole, ← Nat.toDigits_append_toDigits (by omega) above digit, ih _ quotient,
      Nat.toDigits_of_lt_base digit, List.append_assoc]
    congr 1
    by_cases single : low < 16
    · have none : low / 16 = 0 := Nat.div_eq_of_lt single
      rw [Nat.toDigits_of_lt_base single, none, Nat.mod_eq_of_lt single, ← List.nil_append [_],
        leftpad_concat]
      simp [List.leftpad, Nat.toDigits_zero, List.replicate_succ']
    · rw [Nat.toDigits_of_base_le (n := low) (by omega) (by omega), leftpad_concat]

/-- Taking steps does not change the digits. -/
theorem hexDigitsOnto_eq (n : Nat) (digits : List Char) :
    hexDigitsOnto n digits = Nat.toDigits 16 n ++ digits := by
  fun_induction hexDigitsOnto n digits with
  | case1 => rfl
  | case2 n digits large ih =>
    have positive : 0 < n / stepBase := Nat.div_pos (by omega) (by decide)
    rw [ih, ← List.append_assoc]
    congr 1
    have split := toDigits_split 15 (n / stepBase) (n % stepBase) positive
      (Nat.mod_lt _ (by decide))
    rw [show Nat.pow 16 (15 + 1) = stepBase from stepBase_eq.symm, Nat.div_add_mod'] at split
    exact split.symm

/-- The digits are the usual ones in upper case, whatever the size of a step. -/
theorem hexDigits_eq_toDigits (n : Nat) : hexDigits n = (Nat.toDigits 16 n).map Char.toUpper := by
  rw [hexDigits, hexDigitsOnto_eq, List.append_nil]

/-- A number in hexadecimal with at least `width` characters, a minus sign included. -/
def hex (width : Nat) : Int → String
  | .ofNat n => String.ofList ((hexDigits n).leftpad width '0')
  | .negSucc n => String.ofList ('-' :: (hexDigits (n + 1)).leftpad (width - 1) '0')

def hexDigit? (c : Char) : Option Nat :=
  if c.isDigit then some (c.toNat - '0'.toNat)
  else if 'A' ≤ c ∧ c ≤ 'F' then some (c.toNat - 'A'.toNat + 10)
  else if 'a' ≤ c ∧ c ≤ 'f' then some (c.toNat - 'a'.toNat + 10)
  else none

def isHex (text : String) : Bool :=
  !text.toList.isEmpty && text.toList.all fun c => (hexDigit? c).isSome

/-- What has been read of a numeral: `total` counts for all digits up to the present step, and
`part` for the digits of that step, which count up to `unit`. -/
structure HexReading where
  total : Nat := 0
  unit : Nat := 1
  part : Nat := 0

namespace HexReading

def value (reading : HexReading) : Nat :=
  reading.total * reading.unit + reading.part

/-- Reads one more digit; a character that is no digit counts as zero. -/
def next (reading : HexReading) (c : Char) : HexReading :=
  let unit := 16 * reading.unit
  let part := 16 * reading.part + (hexDigit? c).getD 0
  if unit < stepBase then { reading with unit, part }
  else { total := reading.total * unit + part }

/-- Each digit read counts for the units. -/
theorem value_next (reading : HexReading) (c : Char) :
    (reading.next c).value = 16 * reading.value + (hexDigit? c).getD 0 := by
  simp only [next]
  split
  · simp only [value, Nat.mul_add, Nat.add_assoc]
    rw [Nat.mul_left_comm]
  · simp only [value, Nat.mul_add, Nat.mul_one, Nat.add_zero, Nat.add_assoc]
    rw [Nat.mul_left_comm]

end HexReading

def hexValue (digits : List Char) : Nat :=
  (digits.foldl HexReading.next {}).value

/-- The value is that of the usual scheme, whatever the size of a step. -/
theorem hexValue_eq_foldl (digits : List Char) :
    hexValue digits = digits.foldl (fun value c => 16 * value + (hexDigit? c).getD 0) 0 := by
  have general : ∀ reading : HexReading, (digits.foldl HexReading.next reading).value =
      digits.foldl (fun value c => 16 * value + (hexDigit? c).getD 0) reading.value := by
    induction digits with
    | nil => intro reading; rfl
    | cons c rest ih =>
      intro reading
      rw [List.foldl_cons, List.foldl_cons, ih, HexReading.value_next]
  exact general {}

def hexValue? (text : String) : Option Nat :=
  if isHex text then some (hexValue text.toList) else none

/-! ### Decimal -/

/-- The most digits a decimal numeral may have to be read or written. -/
def maxDigits : Nat := 4300

inductive NumeralFault where
  | tooLong (digits : Nat)
  | tooLarge
  deriving DecidableEq, Repr

def NumeralFault.message : NumeralFault → String
  | .tooLong digits =>
    "Exceeds the limit (4300 digits) for integer string conversion: value has "
      ++ toString digits ++ " digits; use sys.set_int_max_str_digits() to increase the limit"
  | .tooLarge =>
    "Exceeds the limit (4300 digits) for integer string conversion; "
      ++ "use sys.set_int_max_str_digits() to increase the limit"

inductive DecimalReading where
  | notDecimal
  | tooLong (digits : Nat)
  | value (n : Nat)
  deriving DecidableEq, Repr

def isDecimal (text : String) : Bool :=
  !text.toList.isEmpty && text.toList.all Char.isDigit

/-- Reads a decimal numeral. Leading zeros count as digits. -/
def readDecimal (text : String) : DecimalReading :=
  if !isDecimal text then .notDecimal
  else if maxDigits < text.length then .tooLong text.length
  else .value (Nat.ofDigitChars 10 text.toList 0)

/-- A number in decimal, refused from `10 ^ maxDigits` on. -/
def decimal (n : Int) : Except NumeralFault String :=
  if Nat.pow 10 maxDigits ≤ n.natAbs then .error .tooLarge else .ok (toString n)

end SicAssembler.Text
