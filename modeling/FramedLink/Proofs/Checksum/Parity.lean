import FramedLink.Word
import FramedLink.Proofs.Checksum.Polynomial

/-! One bits in words and byte strings, and the bits that damage turns over. Main statement: bytes that pass through
the checksum's register change its number of one bits by their own, up to an even number. -/

namespace FramedLink

def ones : Nat → Nat → Nat
  | 0, _ => 0
  | width + 1, number => number % 2 + ones width (number / 2)

theorem ones_xor (width one two : Nat) : ones width (one ^^^ two) % 2 = (ones width one + ones width two) % 2 := by
  induction width generalizing one two with
  | zero => rfl
  | succ width ih =>
    have rest := ih (one / 2) (two / 2)
    have lowest : (one ^^^ two) % 2 = (one + two) % 2 := Nat.xor_mod_two_eq
    rw [ones, ones, ones, Nat.xor_div_two]
    omega

theorem ones_add (lower upper number : Nat) :
    ones (lower + upper) number = ones lower number + ones upper (number / 2 ^ lower) := by
  induction lower generalizing number with
  | zero => simp [ones]
  | succ lower ih =>
    rw [Nat.succ_add, ones, ih, ones, Nat.div_div_eq_div_mul, Nat.pow_succ', Nat.add_assoc]

theorem ones_mod (width number : Nat) : ones width (number % 2 ^ width) = ones width number := by
  induction width generalizing number with
  | zero => rfl
  | succ width ih =>
    have lowest : number % 2 ^ (width + 1) % 2 = number % 2 :=
      Nat.mod_mod_of_dvd _ ⟨2 ^ width, Nat.pow_succ'⟩
    have rest : number % 2 ^ (width + 1) / 2 = number / 2 % 2 ^ width := by
      rw [Nat.pow_succ', Nat.mod_mul_right_div_self]
    rw [ones, lowest, rest, ih, ones]

@[simp] theorem ones_zero (width : Nat) : ones width 0 = 0 := by
  induction width with
  | zero => rfl
  | succ width ih => rw [ones, Nat.zero_div, ih]

namespace Word

def ones (word : UInt16) : Nat :=
  FramedLink.ones 16 word.toNat

theorem ones_eq (word : UInt16) :
    ones word = FramedLink.ones 8 (low word).toNat + FramedLink.ones 8 (high word).toNat := by
  rw [ones, ones_add 8 8, toNat_low, toNat_high]
  exact congrArg (· + _) (ones_mod 8 word.toNat).symm

theorem ones_xor (one two : UInt16) : ones (one ^^^ two) % 2 = (ones one + ones two) % 2 := by
  rw [ones, UInt16.toNat_xor]
  exact FramedLink.ones_xor 16 one.toNat two.toNat

end Word

namespace Bytes

def ones (bytes : Bytes) : Nat :=
  (bytes.map fun byte => FramedLink.ones 8 byte.toNat).sum

@[simp] theorem ones_nil : ones [] = 0 := rfl

@[simp] theorem ones_cons (byte : UInt8) (bytes : Bytes) :
    ones (byte :: bytes) = FramedLink.ones 8 byte.toNat + ones bytes := by
  simp [ones]

theorem ones_append (one two : Bytes) : ones (one ++ two) = ones one + ones two := by
  simp [ones]

/-- The bytes with one bit turned over. The bits of a byte are counted from the lowest, and on through the bytes. -/
def flip (bytes : Bytes) (position : Nat) : Bytes :=
  bytes.modify (position / 8) (· ^^^ 1 <<< UInt8.ofNat (position % 8))

def flipAll (bytes : Bytes) (positions : List Nat) : Bytes :=
  positions.foldl flip bytes

@[simp] theorem length_flip (bytes : Bytes) (position : Nat) : (bytes.flip position).length = bytes.length :=
  List.length_modify ..

@[simp] theorem length_flipAll (bytes : Bytes) (positions : List Nat) :
    (bytes.flipAll positions).length = bytes.length := by
  induction positions generalizing bytes with
  | nil => rfl
  | cons position positions ih => exact (ih _).trans (length_flip bytes position)

theorem getElem?_flip_of_ne {bytes : Bytes} {position index : Nat} (other : position / 8 ≠ index) :
    (bytes.flip position)[index]? = bytes[index]? := by
  simp [flip, other]

theorem getElem?_flipAll_of_ne {bytes : Bytes} {positions : List Nat} {index : Nat}
    (others : ∀ position ∈ positions, position / 8 ≠ index) :
    (bytes.flipAll positions)[index]? = bytes[index]? := by
  induction positions generalizing bytes with
  | nil => rfl
  | cons position positions ih =>
    rw [flipAll, List.foldl_cons, ← flipAll, ih fun other member => others other (.tail _ member),
      getElem?_flip_of_ne (others position (.head _))]

private theorem ones_modify {change : UInt8 → UInt8}
    (turns : ∀ byte : UInt8, FramedLink.ones 8 (change byte).toNat % 2 = (FramedLink.ones 8 byte.toNat + 1) % 2)
    {bytes : Bytes} {index : Nat} (inside : index < bytes.length) :
    ones (bytes.modify index change) % 2 = (ones bytes + 1) % 2 := by
  induction bytes generalizing index with
  | nil => cases inside
  | cons byte bytes ih =>
    cases index with
    | zero =>
      have turned := turns byte
      rw [List.modify_zero_cons, ones_cons, ones_cons]
      omega
    | succ index =>
      have rest := ih (Nat.lt_of_succ_lt_succ inside)
      rw [List.modify_succ_cons, ones_cons, ones_cons]
      omega

theorem ones_flip {bytes : Bytes} {position : Nat} (inside : position / 8 < bytes.length) :
    ones (bytes.flip position) % 2 = (ones bytes + 1) % 2 := by
  have single : ∀ bit : Fin 8, FramedLink.ones 8 ((1 : UInt8) <<< UInt8.ofNat bit.val).toNat = 1 := by decide
  apply ones_modify _ inside
  intro byte
  have lone := single ⟨position % 8, Nat.mod_lt _ (by decide)⟩
  rw [UInt8.toNat_xor, FramedLink.ones_xor, lone]

theorem ones_flipAll {bytes : Bytes} {positions : List Nat}
    (inside : ∀ position ∈ positions, position / 8 < bytes.length) :
    ones (bytes.flipAll positions) % 2 = (ones bytes + positions.length) % 2 := by
  induction positions generalizing bytes with
  | nil => rw [flipAll, List.foldl_nil, List.length_nil, Nat.add_zero]
  | cons position positions ih =>
    have first := ones_flip (inside position (.head _))
    have others : ∀ other ∈ positions, other / 8 < (bytes.flip position).length := by
      intro other member
      rw [length_flip]
      exact inside other (.tail _ member)
    have rest := ih others
    rw [flipAll, List.foldl_cons, ← flipAll, List.length_cons]
    omega

end Bytes

namespace Checksum

theorem ones_feedback (register : UInt16) : Word.ones (Serial.feedback register) % 2 = register.toNat % 2 := by
  rw [Serial.feedback]
  rcases Nat.mod_two_eq_zero_or_one register.toNat with even | odd
  · rw [if_neg (by omega), even]
    rfl
  · rw [if_pos odd, odd]
    rfl

/-- The generator has an odd number of one bits, which make up for the one that leaves the register. -/
theorem ones_shift (register : UInt16) : Word.ones (Serial.shift register) % 2 = Word.ones register % 2 := by
  have small : register.toNat / 2 < 2 ^ 15 := by
    have bound := register.toNat_lt
    omega
  have moved : (register >>> 1).toNat = register.toNat / 2 := by
    rw [UInt16.toNat_shiftRight]
    exact Nat.shiftRight_eq_div_pow _ 1
  have kept : Word.ones (register >>> 1) = ones 15 (register.toNat / 2) := by
    rw [Word.ones, moved, ones_add 15 1, Nat.div_eq_of_lt small, ones_zero, Nat.add_zero]
  have whole : Word.ones register = register.toNat % 2 + ones 15 (register.toNat / 2) := rfl
  have added := ones_feedback register
  rw [Serial.shift_eq_feedback, Word.ones_xor]
  omega

theorem ones_repeat_shift (count : Nat) (register : UInt16) :
    Word.ones (Nat.repeat Serial.shift count register) % 2 = Word.ones register % 2 := by
  induction count with
  | zero => rfl
  | succ count ih => rw [Nat.repeat, ones_shift, ih]

theorem ones_step (register : UInt16) (byte : UInt8) :
    Word.ones (step register byte) % 2 = (Word.ones register + ones 8 byte.toNat) % 2 := by
  have alone : Word.ones byte.toUInt16 = ones 8 byte.toNat := by
    rw [Word.ones, UInt8.toNat_toUInt16, ones_add 8 8, Nat.div_eq_of_lt byte.toNat_lt, ones_zero, Nat.add_zero]
  rw [step_eq_serial, Serial.step, ones_repeat_shift, Word.ones_xor, alone]

theorem ones_update (register : UInt16) (bytes : Bytes) :
    Word.ones (update register bytes) % 2 = (Word.ones register + bytes.ones) % 2 := by
  induction bytes generalizing register with
  | nil => rw [update_nil, Bytes.ones_nil, Nat.add_zero]
  | cons byte bytes ih =>
    have first := ones_step register byte
    have rest := ih (step register byte)
    rw [update_cons, Bytes.ones_cons]
    omega

end Checksum

end FramedLink
