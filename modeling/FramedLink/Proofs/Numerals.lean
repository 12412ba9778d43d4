import FramedLink.Numeral
import Mathlib.Data.List.Induction

/-! What the printed numerals are. Main statement: a number is printed as its numeral without leading zeros, in the
digits of its base, which has no line end in it. -/

namespace FramedLink.Numeral

def digits : Bytes :=
  Bytes.ofText "0123456789abcdef"

/-- The numeral of the number in that base: the digit of its last place after the numeral of what is above it, if
anything is. -/
inductive IsNumeral (base : Nat) : Nat → Bytes → Prop
  | digit {value : Nat} {digit : UInt8} (small : value < base) (stands : digits[value]? = some digit) :
    IsNumeral base value [digit]
  | more {number value : Nat} {text : Bytes} {digit : UInt8} (nonzero : number ≠ 0) (above : IsNumeral base number text)
    (small : value < base) (stands : digits[value]? = some digit) :
    IsNumeral base (base * number + value) (text ++ [digit])

inductive IsHexRow : Bytes → Bytes → Prop
  | nil : IsHexRow [] []
  | cons {byte high low : UInt8} {bytes text : Bytes} (upper : digits[byte.toNat / 16]? = some high)
    (lower : digits[byte.toNat % 16]? = some low) (row : IsHexRow bytes text) :
    IsHexRow (byte :: bytes) (high :: low :: text)

theorem digits_of_small : ∀ value < 16, digits[value]? = some (Nat.digitChar value).toUInt8 := by
  decide

theorem isNumeral_toDigits {base : Nat} (two : 1 < base) (most : base ≤ 16) (number : Nat) :
    IsNumeral base number ((Nat.toDigits base number).map Char.toUInt8) := by
  induction number using Nat.strongRecOn with
  | ind number ih =>
    rw [Nat.toDigits_eq_if two]
    split
    · rename_i small
      exact .digit small (digits_of_small number (by omega))
    · rename_i large
      have above : number / base ≠ 0 := Nat.ne_of_gt (Nat.div_pos (Nat.le_of_not_lt large) (by omega))
      have last : number % base < base := Nat.mod_lt _ (by omega)
      have rest := ih (number / base) (Nat.div_lt_self (by omega) two)
      have whole := IsNumeral.more above rest last (digits_of_small _ (by omega))
      rw [Nat.div_add_mod] at whole
      rw [List.map_append]
      exact whole

theorem isNumeral_decimal (number : Nat) : IsNumeral 10 number (decimal number) :=
  isNumeral_toDigits (by decide) (by decide) number

theorem isNumeral_hexadecimal (number : Nat) : IsNumeral 16 number (hexadecimal number) :=
  isNumeral_toDigits (by decide) (by decide) number

theorem IsNumeral.last {base number : Nat} {text : Bytes} (numeral : IsNumeral base number text) :
    ∃ above digit, text = above ++ [digit] ∧ digits[number % base]? = some digit ∧
      (number / base = 0 ∧ above = [] ∨ number / base ≠ 0 ∧ IsNumeral base (number / base) above) := by
  cases numeral with
  | @digit value digit small stands =>
    refine ⟨[], digit, rfl, ?_, .inl ⟨Nat.div_eq_of_lt small, rfl⟩⟩
    rw [Nat.mod_eq_of_lt small]
    exact stands
  | @more quotient value text digit nonzero above small stands =>
    have divides : (base * quotient + value) / base = quotient := by
      rw [Nat.mul_add_div (by omega), Nat.div_eq_of_lt small, Nat.add_zero]
    refine ⟨text, digit, rfl, ?_, .inr ?_⟩
    · rw [Nat.mul_add_mod, Nat.mod_eq_of_lt small]
      exact stands
    · rw [divides]
      exact ⟨nonzero, above⟩

theorem IsNumeral.unique {base number : Nat} {one two : Bytes} (first : IsNumeral base number one)
    (second : IsNumeral base number two) : one = two := by
  induction one using List.reverseRecOn generalizing number two with
  | nil =>
    obtain ⟨above, digit, same, -⟩ := first.last
    exact absurd same.symm (List.append_ne_nil_of_right_ne_nil _ (List.cons_ne_nil _ _))
  | append_singleton one last ih =>
    obtain ⟨front, digit, same, stands, rest⟩ := first.last
    obtain ⟨above, other, rfl, also, others⟩ := second.last
    obtain ⟨rfl, single⟩ := List.append_inj' same rfl
    cases single
    rw [stands] at also
    cases also
    rcases rest with ⟨small, rfl⟩ | ⟨large, front⟩ <;> rcases others with ⟨less, rfl⟩ | ⟨more, above⟩
    · rfl
    · exact absurd small more
    · exact absurd less large
    · rw [ih front above]

theorem isHexRow_hexBytes (bytes : Bytes) : IsHexRow bytes (bytes.flatMap hexByte) := by
  induction bytes with
  | nil => exact .nil
  | cons byte bytes ih =>
    have bound := byte.toNat_lt
    exact .cons (digits_of_small _ (by omega)) (digits_of_small _ (Nat.mod_lt _ (by decide))) ih

theorem ne_newline_of_digit {value : Nat} {digit : UInt8} (stands : digits[value]? = some digit) : 10 ≠ digit := by
  have none : 10 ∉ digits := by decide
  rintro rfl
  exact none (List.mem_of_getElem? stands)

theorem IsNumeral.newline_not_mem {base number : Nat} {text : Bytes} (numeral : IsNumeral base number text) :
    10 ∉ text := by
  induction numeral with
  | digit _ stands =>
    rw [List.mem_singleton]
    exact ne_newline_of_digit stands
  | more _ _ _ stands ih =>
    rw [List.mem_append, List.mem_singleton, not_or]
    exact ⟨ih, ne_newline_of_digit stands⟩

theorem IsHexRow.newline_not_mem {bytes text : Bytes} (row : IsHexRow bytes text) : 10 ∉ text := by
  induction row with
  | nil => exact List.not_mem_nil
  | cons upper lower _ ih =>
    rw [List.mem_cons, List.mem_cons, not_or, not_or]
    exact ⟨ne_newline_of_digit upper, ne_newline_of_digit lower, ih⟩

end FramedLink.Numeral
