import FramedLink.Proofs.Checksum.Parity
import FramedLink.Proofs.Checksum.Period

/-! The algebra of the checksum. Registers and byte strings are added by exclusive or, bit by bit. Main statement: the
checksum of a sum is the sum of the checksums, bytes lead different registers to different ones and leave none out, and
one bits come and go in pairs. -/

namespace FramedLink.Checksum

open Function Serial

theorem step_xor_xor (one two : UInt16) (first second : UInt8) :
    Checksum.step (one ^^^ two) (first ^^^ second) = Checksum.step one first ^^^ Checksum.step two second := by
  rw [step_eq_serial, step_eq_serial, step_eq_serial, Serial.step, Serial.step, Serial.step, UInt8.toUInt16_xor,
    ← repeat_shift_xor]
  ac_rfl

theorem step_zero_right (register : UInt16) : Checksum.step register 0 = shift^[8] register := by
  have nothing : UInt8.toUInt16 0 = 0 := rfl
  rw [step_eq_serial, Serial.step, nothing, UInt16.xor_zero, repeat_eq_iterate]

theorem update_zipWith_xor (one two : UInt16) {first second : Bytes} (same : first.length = second.length) :
    Checksum.update (one ^^^ two) (List.zipWith (· ^^^ ·) first second) =
      Checksum.update one first ^^^ Checksum.update two second := by
  induction first generalizing one two second with
  | nil =>
    rw [List.eq_nil_of_length_eq_zero same.symm]
    rfl
  | cons byte first ih =>
    obtain ⟨other, second, rfl⟩ := List.exists_cons_of_length_eq_add_one same.symm
    have rest := ih (Checksum.step one byte) (Checksum.step two other) (Nat.succ.inj same)
    rw [List.zipWith_cons_cons, update_cons, step_xor_xor, rest, update_cons, update_cons]

theorem step_bijective (byte : UInt8) : Bijective (Checksum.step · byte) := by
  let add (register : UInt16) := register ^^^ Checksum.step 0 byte
  have split : (Checksum.step · byte) = add ∘ shift^[8] := by
    funext register
    show _ = shift^[8] register ^^^ Checksum.step 0 byte
    rw [← step_zero_right, ← step_xor_xor, UInt16.xor_zero, UInt8.zero_xor]
  have twice : Involutive add := by
    intro register
    dsimp only [add]
    rw [UInt16.xor_assoc, UInt16.xor_self, UInt16.xor_zero]
  rw [split]
  exact twice.bijective.comp (shift_bijective.iterate 8)

theorem update_bijective (bytes : Bytes) : Bijective (Checksum.update · bytes) := by
  induction bytes with
  | nil => exact bijective_id
  | cons byte bytes ih => exact ih.comp (step_bijective byte)

/-- Bytes of equal number and the registers before them may be added before or after; what the register held can be
told from what it holds after given bytes, and anything can be what it holds then; and the one bits that go in come out
up to an even number. -/
theorem update_additive_bijective_even :
    (∀ (one two : UInt16) (first second : Bytes), first.length = second.length →
      Checksum.update (one ^^^ two) (List.zipWith (· ^^^ ·) first second) =
        Checksum.update one first ^^^ Checksum.update two second) ∧
    (∀ bytes : Bytes, Bijective (Checksum.update · bytes)) ∧
    ∀ (register : UInt16) (bytes : Bytes),
      Word.ones (Checksum.update register bytes) % 2 = (Word.ones register + bytes.ones) % 2 := by
  refine ⟨?_, update_bijective, ones_update⟩
  intro one two first second same
  exact update_zipWith_xor one two same

theorem update_additive_bijective_even_of_three :
    let first : Bytes := [0x31, 0xFF, 0]
    let second : Bytes := [0x80, 0xFF, 0x55]
    first.length = second.length ∧
      Checksum.update 0x7FFF [0xB1, 0, 0x55] = Checksum.update 0xFFFF first ^^^ Checksum.update 0x8000 second := by
  intro first second
  exact ⟨rfl, update_additive_bijective_even.1 0xFFFF 0x8000 first second rfl⟩

end FramedLink.Checksum
