import FramedLink.Checksum.Serial
import Mathlib.Data.Nat.Bitwise

/-! The checksum by bytes and by bits. Main statement: looking a byte up in the table does what passing its eight bits
through the shift register does, whatever the register holds, so the checksum is that of the generator polynomial and
does not depend on how its input is cut. -/

namespace FramedLink.Checksum

namespace Serial

theorem and_one_eq_one_iff (register : UInt16) : register &&& 1 = 1 ↔ register.toNat % 2 = 1 := by
  rw [← UInt16.toNat_inj, UInt16.toNat_and]
  exact Iff.of_eq (congrArg (· = 1) (Nat.and_one_is_mod _))

def feedback (register : UInt16) : UInt16 :=
  if register.toNat % 2 = 1 then polynomial else 0

theorem shift_eq_feedback (register : UInt16) : shift register = register >>> 1 ^^^ feedback register := by
  unfold shift feedback
  simp only [and_one_eq_one_iff]
  split
  · rfl
  · rw [UInt16.xor_zero]

theorem feedback_xor (one two : UInt16) : feedback (one ^^^ two) = feedback one ^^^ feedback two := by
  have parity : (one ^^^ two).toNat % 2 = (one.toNat + two.toNat) % 2 := by
    rw [UInt16.toNat_xor]
    exact Nat.xor_mod_two_eq
  unfold feedback
  rw [parity, Nat.add_mod]
  rcases Nat.mod_two_eq_zero_or_one one.toNat with first | first <;>
    rcases Nat.mod_two_eq_zero_or_one two.toNat with second | second <;>
    simp [first, second]

theorem shift_xor (one two : UInt16) : shift (one ^^^ two) = shift one ^^^ shift two := by
  rw [shift_eq_feedback, shift_eq_feedback, shift_eq_feedback, feedback_xor, UInt16.shiftRight_xor]
  ac_rfl

theorem repeat_shift_xor (count : Nat) (one two : UInt16) :
    Nat.repeat shift count (one ^^^ two) = Nat.repeat shift count one ^^^ Nat.repeat shift count two := by
  induction count with
  | zero => rfl
  | succ count ih => rw [Nat.repeat, ih, shift_xor, Nat.repeat, Nat.repeat]

theorem toNat_shift_of_even {register : UInt16} (even : register.toNat % 2 = 0) :
    (shift register).toNat = register.toNat / 2 := by
  have nothing : feedback register = 0 := if_neg (by omega)
  rw [shift_eq_feedback, nothing, UInt16.xor_zero, UInt16.toNat_shiftRight]
  exact Nat.shiftRight_eq_div_pow _ 1

theorem toNat_repeat_shift {register : UInt16} {count : Nat} (clear : 2 ^ count ∣ register.toNat) :
    (Nat.repeat shift count register).toNat = register.toNat / 2 ^ count := by
  induction count with
  | zero => rw [Nat.repeat, Nat.pow_zero, Nat.div_one]
  | succ count ih =>
    have earlier := ih (Nat.dvd_trans (Nat.pow_dvd_pow 2 (Nat.le_succ count)) clear)
    obtain ⟨upper, split⟩ := clear
    have even : (Nat.repeat shift count register).toNat % 2 = 0 := by
      rw [earlier, split, Nat.pow_succ, Nat.mul_assoc, Nat.mul_div_cancel_left _ (Nat.two_pow_pos count),
        Nat.mul_mod_right]
    rw [Nat.repeat, toNat_shift_of_even even, earlier, Nat.div_div_eq_div_mul, Nat.pow_succ]

theorem repeat_shift_eight (register : UInt16) :
    Nat.repeat shift 8 register = Nat.repeat shift 8 register.toUInt8.toUInt16 ^^^ register >>> 8 := by
  let lower := register.toUInt8.toUInt16
  have low : lower.toNat = register.toNat % 2 ^ 8 := by simp [lower]
  have clear : (lower ^^^ register).toNat % 2 ^ 8 = 0 := by
    rw [UInt16.toNat_xor, Nat.xor_mod_two_pow, low, Nat.mod_mod, Nat.xor_self]
  have above : (lower ^^^ register).toNat / 2 ^ 8 = register.toNat / 2 ^ 8 := by
    rw [UInt16.toNat_xor, Nat.xor_div_two_pow, low, Nat.div_eq_of_lt (Nat.mod_lt _ (Nat.two_pow_pos 8)), Nat.zero_xor]
  have moved : Nat.repeat shift 8 (lower ^^^ register) = register >>> 8 := by
    apply UInt16.toNat_inj.mp
    rw [toNat_repeat_shift (Nat.dvd_of_mod_eq_zero clear), above, UInt16.toNat_shiftRight]
    exact (Nat.shiftRight_eq_div_pow _ 8).symm
  -- The shift is linear, so the two parts may go their own ways.
  have split : register = lower ^^^ (lower ^^^ register) := by
    rw [← UInt16.xor_assoc, UInt16.xor_self, UInt16.zero_xor]
  rw [← moved, ← repeat_shift_xor, ← split]

theorem step_zero (byte : UInt8) : step 0 byte = Nat.repeat shift 8 byte.toUInt16 := by
  rw [step, UInt16.zero_xor]

end Serial

theorem step_eq_serial (register : UInt16) (byte : UInt8) : step register byte = Serial.step register byte := by
  have entry : table.get ⟨(register.toUInt8 ^^^ byte).toNat, UInt8.toNat_lt _⟩ =
      Serial.step 0 (register.toUInt8 ^^^ byte) := by
    rw [Serial.table_eq_step]
    exact congrArg _ (UInt8.ofNat_toNat)
  have lower : (register ^^^ byte.toUInt16).toUInt8 = register.toUInt8 ^^^ byte := by
    rw [UInt16.toUInt8_xor, UInt8.toUInt8_toUInt16]
  have nothing : byte.toUInt16 >>> 8 = 0 := by
    apply UInt16.toNat_inj.mp
    rw [UInt16.toNat_shiftRight, UInt8.toNat_toUInt16]
    exact (Nat.shiftRight_eq_div_pow _ 8).trans (Nat.div_eq_of_lt byte.toNat_lt)
  rw [step, entry, Serial.step_zero, Serial.step, Serial.repeat_shift_eight (register ^^^ byte.toUInt16), lower,
    UInt16.shiftRight_xor, nothing, UInt16.xor_zero]

theorem update_eq_serial (register : UInt16) (bytes : Bytes) : update register bytes = Serial.update register bytes := by
  induction bytes generalizing register with
  | nil => rfl
  | cons byte bytes ih =>
    rw [update_cons, ih, step_eq_serial]
    rfl

theorem foldl_update (register : UInt16) (chunks : List Bytes) :
    chunks.foldl update register = update register chunks.flatten := by
  induction chunks generalizing register with
  | nil => rfl
  | cons chunk chunks ih => rw [List.foldl_cons, ih, List.flatten_cons, update_append]

/-- From whatever the register holds, the table leads to where the polynomial leads bit by bit, and the pieces of a byte
string, one after the other, give the checksum of the whole. -/
theorem update_serial_and_cut :
    (∀ (register : UInt16) (bytes : Bytes), update register bytes = Serial.update register bytes) ∧
      ∀ chunks : List Bytes, chunks.foldl update 0 = ofBytes chunks.flatten :=
  ⟨update_eq_serial, foldl_update 0⟩

end FramedLink.Checksum
