import SicAssembler.Text.Numeral

/-!
Hexadecimal numerals read back. What `hex` writes for a number that is not negative is made of
hexadecimal digits alone (`hexDigit?_of_mem_hex`), and `hexValue?` finds the number in it again,
whatever the least width (`hexValue?_hex`). The width is kept exactly by the numbers that have no
more digits (`fixedHex_hex_iff`).
-/

namespace SicAssembler.Text

theorem hexDigit?_digitChar {digit : Nat} (small : digit < 16) :
    hexDigit? digit.digitChar.toUpper = some digit := by
  have all : ∀ digit < 16, hexDigit? digit.digitChar.toUpper = some digit := by decide
  exact all digit small

theorem hexDigits_eq_if (n : Nat) :
    hexDigits n =
      if n < 16 then [n.digitChar.toUpper]
      else hexDigits (n / 16) ++ [(n % 16).digitChar.toUpper] := by
  simp only [hexDigits_eq_toDigits]
  rw [Nat.toDigits_eq_if (by omega)]
  split
  · rfl
  · rw [List.map_append, List.map_singleton]

theorem exists_digit_of_mem_hexDigits {n : Nat} {c : Char} (member : c ∈ hexDigits n) :
    ∃ digit < 16, c = digit.digitChar.toUpper := by
  induction n using Nat.strongRecOn with
  | ind n ih =>
    rw [hexDigits_eq_if] at member
    split at member
    · rename_i small
      exact ⟨n, small, List.mem_singleton.mp member⟩
    · rcases List.mem_append.mp member with higher | last
      · exact ih (n / 16) (by omega) higher
      · exact ⟨n % 16, by omega, List.mem_singleton.mp last⟩

theorem hexDigit?_of_mem_hexDigits {n : Nat} {c : Char} (member : c ∈ hexDigits n) :
    (hexDigit? c).isSome = true := by
  obtain ⟨digit, small, rfl⟩ := exists_digit_of_mem_hexDigits member
  rw [hexDigit?_digitChar small]
  rfl

/-! ### The value of what was written -/

theorem hexValue_concat (digits : List Char) (last : Char) :
    hexValue (digits ++ [last]) = 16 * hexValue digits + (hexDigit? last).getD 0 := by
  simp only [hexValue_eq_foldl, List.foldl_append, List.foldl_cons, List.foldl_nil]

theorem hexValue_zeros_append (k : Nat) (digits : List Char) :
    hexValue (List.replicate k '0' ++ digits) = hexValue digits := by
  simp only [hexValue_eq_foldl, List.foldl_append]
  congr 1
  induction k with
  | zero => rfl
  | succ k ih => rw [List.replicate_succ', List.foldl_append, ih]; rfl

theorem hexValue_hexDigits (n : Nat) : hexValue (hexDigits n) = n := by
  induction n using Nat.strongRecOn with
  | ind n ih =>
    rw [hexDigits_eq_if]
    split
    · rename_i small
      rw [← List.nil_append [_], hexValue_concat, hexDigit?_digitChar small]
      exact Nat.zero_add n
    · have quotient := ih (n / 16) (by omega)
      rw [hexValue_concat, quotient, hexDigit?_digitChar (by omega), Option.getD_some]
      omega

theorem toList_hex (width n : Nat) :
    (hex width n).toList = List.replicate (width - (hexDigits n).length) '0' ++ hexDigits n :=
  String.toList_ofList

theorem hexDigit?_of_mem_hex {width n : Nat} {c : Char} (member : c ∈ (hex width n).toList) :
    (hexDigit? c).isSome = true := by
  rw [toList_hex] at member
  rcases List.mem_append.mp member with zero | digit
  · rw [List.eq_of_mem_replicate zero]
    rfl
  · exact hexDigit?_of_mem_hexDigits digit

theorem toList_hex_ne_nil (width n : Nat) : (hex width n).toList ≠ [] := by
  rw [toList_hex, hexDigits_eq_toDigits]
  simp

theorem isHex_iff (text : String) :
    isHex text = true ↔ text.toList ≠ [] ∧ ∀ c ∈ text.toList, (hexDigit? c).isSome = true := by
  simp only [isHex, Bool.and_eq_true, List.all_eq_true, Bool.not_eq_true',
    List.isEmpty_eq_false_iff, ne_eq]

/-- A number is found again in its numeral. -/
theorem hexValue?_hex (width n : Nat) : hexValue? (hex width n) = some n := by
  have digits : isHex (hex width n) = true :=
    (isHex_iff _).mpr ⟨toList_hex_ne_nil width n, fun c member => hexDigit?_of_mem_hex member⟩
  rw [hexValue?, if_pos digits, toList_hex, hexValue_zeros_append, hexValue_hexDigits]

theorem not_mem_hex {c : Char} (width n : Nat) (other : hexDigit? c = none) :
    c ∉ (hex width n).toList := by
  intro member
  have digit := hexDigit?_of_mem_hex member
  rw [other] at digit
  cases digit

/-! ### The width of what was written -/

def IsUpperHex (c : Char) : Prop :=
  c.isDigit = true ∨ 'A' ≤ c ∧ c ≤ 'F'

instance : DecidablePred IsUpperHex := fun c =>
  inferInstanceAs (Decidable (c.isDigit = true ∨ 'A' ≤ c ∧ c ≤ 'F'))

structure FixedHex (width : Nat) (text : String) : Prop where
  length : text.length = width
  digits : ∀ c ∈ text.toList, IsUpperHex c

instance (width : Nat) : DecidablePred (FixedHex width) := fun text =>
  letI : Decidable (∀ c ∈ text.toList, IsUpperHex c) := List.decidableBAll IsUpperHex text.toList
  decidable_of_iff (text.length = width ∧ ∀ c ∈ text.toList, IsUpperHex c)
    ⟨fun h => ⟨h.1, h.2⟩, fun h => ⟨h.length, h.digits⟩⟩

theorem isUpperHex_of_mem_hex {width n : Nat} {c : Char} (member : c ∈ (hex width n).toList) :
    IsUpperHex c := by
  have upper : ∀ digit < 16, IsUpperHex digit.digitChar.toUpper := by decide
  rw [toList_hex] at member
  rcases List.mem_append.mp member with zero | written
  · rw [List.eq_of_mem_replicate zero]
    decide
  · obtain ⟨digit, small, rfl⟩ := exists_digit_of_mem_hexDigits written
    exact upper digit small

theorem hexDigit?_of_isUpperHex {c : Char} (upper : IsUpperHex c) :
    (hexDigit? c).isSome = true := by
  unfold hexDigit?
  rcases upper with decimal | letter
  · rw [if_pos decimal]
    rfl
  · by_cases decimal : c.isDigit = true
    · rw [if_pos decimal]
      rfl
    · rw [if_neg decimal, if_pos letter]
      rfl

theorem length_hexDigits_le_iff {k n : Nat} (positive : 0 < k) :
    (hexDigits n).length ≤ k ↔ n < Nat.pow 16 k := by
  rw [hexDigits_eq_toDigits, List.length_map]
  exact Nat.length_toDigits_le_iff (by omega) positive

theorem length_hex (width n : Nat) :
    (hex width n).length = max width (hexDigits n).length := by
  rw [← String.length_toList, toList_hex, List.length_append, List.length_replicate]
  omega

/-- A numeral keeps to its width as long as the number has no more digits. -/
theorem fixedHex_hex_iff {width n : Nat} (positive : 0 < width) :
    FixedHex width (hex width n) ↔ n < Nat.pow 16 width := by
  have kept : (hex width n).length = width ↔ n < Nat.pow 16 width := by
    rw [← length_hexDigits_le_iff positive, length_hex]
    omega
  rw [← kept]
  exact ⟨FixedHex.length, fun same => ⟨same, fun _ => isUpperHex_of_mem_hex⟩⟩

/-! ### Digits among other characters -/

theorem isDigit_iff (c : Char) : c.isDigit = true ↔ 48 ≤ c.toNat ∧ c.toNat ≤ 57 := by
  change (decide (48 ≤ c.val) && decide (c.val ≤ 57)) = true ↔ _
  simp only [Bool.and_eq_true, decide_eq_true_eq, UInt32.le_iff_toNat_le]
  rfl

theorem le_toNat_of_hexDigit? {c : Char} (digit : (hexDigit? c).isSome = true) : 48 ≤ c.toNat := by
  have points : 'A'.val.toNat = 65 ∧ 'a'.val.toNat = 97 := by decide
  unfold hexDigit? at digit
  split at digit
  · rename_i decimal
    exact ((isDigit_iff c).mp decimal).1
  · split at digit
    · rename_i upper
      have above := UInt32.le_iff_toNat_le.mp (Char.le_def.mp upper.1)
      rw [Char.toNat]
      omega
    · split at digit
      · rename_i lower
        have above := UInt32.le_iff_toNat_le.mp (Char.le_def.mp lower.1)
        rw [Char.toNat]
        omega
      · cases digit

theorem isBlank_of_le {c : Char} (high : 48 ≤ c.toNat) : isBlank c = false := by
  simp only [isBlank, Bool.or_eq_false_iff, beq_eq_false_iff_ne, Bool.and_eq_false_iff,
    decide_eq_false_iff_not]
  refine ⟨?_, .inr (by omega)⟩
  rintro rfl
  exact absurd high (by decide)

theorem isBlank_of_hexDigit? {c : Char} (digit : (hexDigit? c).isSome = true) :
    isBlank c = false :=
  isBlank_of_le (le_toNat_of_hexDigit? digit)

end SicAssembler.Text
