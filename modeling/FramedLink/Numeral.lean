import FramedLink.Bytes

/-! Numbers as text: decimal and lower case hexadecimal numerals without leading zeros, and a reader
for decimal numerals of any length. Main statement: the reader undoes the decimal printer. -/

namespace FramedLink.Numeral

def decimal (number : Nat) : Bytes :=
  (Nat.toDigits 10 number).map Char.toUInt8

def hexadecimal (number : Nat) : Bytes :=
  (Nat.toDigits 16 number).map Char.toUInt8

def hexByte (byte : UInt8) : Bytes :=
  [(Nat.digitChar (byte.toNat / 16)).toUInt8, (Nat.digitChar (byte.toNat % 16)).toUInt8]

def isDigit (byte : UInt8) : Bool :=
  48 ≤ byte && byte ≤ 57

def value (digits : Bytes) : Nat :=
  digits.foldl (fun number digit => 10 * number + (digit.toNat - 48)) 0

/-- A decimal numeral is a row of at least one digit; leading zeros are allowed, signs and blanks
are not. -/
def ofDecimal? (text : Bytes) : Option Nat :=
  if text ≠ [] ∧ text.all isDigit then some (value text) else none

def hexDigit? (byte : UInt8) : Option Nat :=
  if 48 ≤ byte ∧ byte ≤ 57 then some (byte.toNat - 48)
  else if 65 ≤ byte ∧ byte ≤ 70 then some (byte.toNat - 55)
  else if 97 ≤ byte ∧ byte ≤ 102 then some (byte.toNat - 87)
  else none

theorem decimal_ne_nil (number : Nat) : decimal number ≠ [] := by
  simp [decimal, Nat.toDigits_ne_nil]

private theorem toNat_toUInt8 {char : Char} (digit : char.isDigit = true) :
    char.toUInt8.toNat = char.toNat ∧ 48 ≤ char.toNat ∧ char.toNat ≤ 57 := by
  simp only [Char.isDigit, ge_iff_le, Bool.and_eq_true, decide_eq_true_eq, UInt32.le_iff_toNat_le] at digit
  have lower : 48 ≤ char.toNat := digit.1
  have upper : char.toNat ≤ 57 := digit.2
  refine ⟨?_, lower, upper⟩
  show char.toNat % 256 = char.toNat
  omega

theorem isDigit_of_mem_decimal {number : Nat} {byte : UInt8} (member : byte ∈ decimal number) :
    isDigit byte = true := by
  obtain ⟨char, inside, rfl⟩ := List.mem_map.mp member
  have bounds := toNat_toUInt8 (Nat.isDigit_of_mem_toDigits (by decide) (by decide) inside)
  simp only [isDigit, Bool.and_eq_true, decide_eq_true_eq, UInt8.le_iff_toNat_le]
  rw [bounds.1]
  exact bounds.2

private theorem foldl_digits (chars : List Char) (digits : ∀ char ∈ chars, char.isDigit = true)
    (start : Nat) :
    (chars.map Char.toUInt8).foldl (fun number digit => 10 * number + (digit.toNat - 48)) start =
      Nat.ofDigitChars 10 chars start := by
  induction chars generalizing start with
  | nil => simp
  | cons char chars ih =>
    rw [List.map_cons, List.foldl_cons, Nat.ofDigitChars_cons,
      (toNat_toUInt8 (digits char (by simp))).1]
    exact ih (fun other member => digits other (by simp [member])) _

@[simp] theorem value_decimal (number : Nat) : value (decimal number) = number := by
  unfold value decimal
  rw [foldl_digits _ fun char member => Nat.isDigit_of_mem_toDigits (by decide) (by decide) member]
  exact Nat.ofDigitChars_ten_toDigits

@[simp] theorem ofDecimal?_decimal (number : Nat) : ofDecimal? (decimal number) = some number := by
  have digits : (decimal number).all isDigit = true :=
    List.all_eq_true.mpr fun _ member => isDigit_of_mem_decimal member
  simp [ofDecimal?, decimal_ne_nil, digits]

end FramedLink.Numeral
