import FramedLink.Proofs.Checksum.Polynomial
import Mathlib.GroupTheory.OrderOfElement

/-! The shift register on its own. Registers multiply as polynomials modulo the generator, so many shifts at once can
be computed by squaring. Main statement: two numbers of shifts lead a lone bit to the same register exactly when they
are a multiple of 32767 apart. -/

namespace FramedLink.Checksum.Serial

open Function

theorem repeat_eq_iterate (count : Nat) (register : UInt16) :
    Nat.repeat shift count register = shift^[count] register := by
  induction count with
  | zero => rfl
  | succ count ih => rw [Nat.repeat, ih, iterate_succ_apply']

theorem iterate_xor (count : Nat) (one two : UInt16) :
    shift^[count] (one ^^^ two) = shift^[count] one ^^^ shift^[count] two := by
  simp only [← repeat_eq_iterate, repeat_shift_xor]

theorem iterate_zero (count : Nat) : shift^[count] 0 = 0 := by
  have alone := iterate_xor count 0 0
  rwa [UInt16.xor_self, UInt16.xor_self] at alone

/-- The polynomial one: the highest bit of a register stands for the lowest power. -/
def unit : UInt16 := 0x8000

/-- The register times the polynomial whose highest power is the lowest of so many bits, by Horner's rule. -/
def times (register : UInt16) : Nat → Nat → UInt16
  | 0, _ => 0
  | width + 1, bits => (if bits.testBit width then register else 0) ^^^ shift (times register width bits)

theorem times_shift (register : UInt16) (width bits : Nat) :
    times (shift register) width bits = shift (times register width bits) := by
  have nothing : shift 0 = 0 := iterate_zero 1
  induction width with
  | zero => exact nothing.symm
  | succ width ih =>
    rw [times, ih, times, shift_xor]
    split
    · rfl
    · rw [nothing]

theorem times_iterate (count : Nat) (register : UInt16) (width bits : Nat) :
    times (shift^[count] register) width bits = shift^[count] (times register width bits) := by
  have commutes : Semiconj (times · width bits) shift shift := fun register => times_shift register width bits
  exact commutes.iterate_right count register

private theorem two_pow_xor {number width : Nat} (small : number < 2 ^ width) :
    2 ^ width ^^^ number = 2 ^ width + number := by
  have positive := Nat.two_pow_pos width
  rw [← Nat.div_add_mod (2 ^ width ^^^ number) (2 ^ width), Nat.xor_div_two_pow, Nat.xor_mod_two_pow,
    Nat.div_self positive, Nat.div_eq_of_lt small, Nat.mod_self, Nat.mod_eq_of_lt small, Nat.xor_zero, Nat.mul_one,
    Nat.zero_xor]

theorem toNat_times_unit {width : Nat} (narrow : width ≤ 16) (bits : Nat) :
    (times unit width bits).toNat = 2 ^ (16 - width) * (bits % 2 ^ width) := by
  -- The low bits stay zero until the last digit, so no shift feeds the generator in.
  induction width with
  | zero => simp [times, Nat.mod_one]
  | succ width ih =>
    have room : 2 ^ (16 - width) = 2 * 2 ^ (15 - width) := by
      rw [← Nat.pow_succ', show 16 - width = (15 - width).succ by omega]
    have before := ih (by omega)
    rw [room, Nat.mul_assoc] at before
    have moved : (shift (times unit width bits)).toNat = 2 ^ (15 - width) * (bits % 2 ^ width) := by
      rw [toNat_shift_of_even (by rw [before, Nat.mul_mod_right]), before, Nat.mul_div_cancel_left _ (by decide)]
    have whole : 2 ^ (15 - width) * 2 ^ width = 2 ^ 15 := by
      rw [← Nat.pow_add, Nat.sub_add_cancel (by omega)]
    have below : 2 ^ (15 - width) * (bits % 2 ^ width) < 2 ^ 15 := by
      rw [← whole]
      exact Nat.mul_lt_mul_of_pos_left (Nat.mod_lt _ (Nat.two_pow_pos width)) (Nat.two_pow_pos _)
    have top : unit.toNat = 2 ^ 15 := rfl
    rw [times, UInt16.toNat_xor, moved, Nat.mod_pow_succ, ← Nat.toNat_testBit, Nat.add_sub_add_right 15 1 width,
      Nat.mul_add, ← Nat.mul_assoc, whole]
    cases bits.testBit width with
    | false => simp
    | true => simp only [if_true, top, two_pow_xor below, Bool.toNat_true, Nat.mul_one, Nat.add_comm]

theorem times_unit (register : UInt16) : times unit 16 register.toNat = register := by
  apply UInt16.toNat_inj.mp
  rw [toNat_times_unit (Nat.le_refl 16), Nat.mod_eq_of_lt register.toNat_lt, Nat.sub_self, Nat.pow_zero, Nat.one_mul]

theorem iterate_eq_times (count : Nat) (register : UInt16) :
    shift^[count] register = times (shift^[count] unit) 16 register.toNat := by
  rw [times_iterate, times_unit]

/-- So many shifts of one, for a count of so many binary digits. -/
def power : Nat → Nat → UInt16
  | 0, _ => unit
  | digits + 1, count =>
    let half := power digits (count / 2)
    let square := times half 16 half.toNat
    if count % 2 = 1 then shift square else square

theorem power_eq_iterate {digits count : Nat} (small : count < 2 ^ digits) :
    power digits count = shift^[count] unit := by
  induction digits generalizing count with
  | zero =>
    have none : count = 0 := by simpa using small
    rw [none]
    rfl
  | succ digits ih =>
    have half : power digits (count / 2) = shift^[count / 2] unit := ih (by rw [Nat.pow_succ] at small; omega)
    have square : times (power digits (count / 2)) 16 (power digits (count / 2)).toNat =
        shift^[count / 2 + count / 2] unit := by
      rw [iterate_add_apply, iterate_eq_times (count / 2) (shift^[count / 2] unit), half]
    simp only [power, square]
    rcases Nat.mod_two_eq_zero_or_one count with even | odd
    · rw [if_neg (by omega), show count / 2 + count / 2 = count by omega]
    · rw [if_pos odd, ← iterate_succ_apply' shift, show (count / 2 + count / 2).succ = count by omega]

def turn : Function.End UInt16 := shift

theorem turn_pow (count : Nat) : turn ^ count = shift^[count] :=
  hom_coe_pow (fun map : Function.End UInt16 => (map : UInt16 → UInt16)) rfl (fun _ _ => rfl) turn count

theorem turn_pow_eq_one_iff (count : Nat) : turn ^ count = 1 ↔ shift^[count] unit = unit := by
  constructor
  · intro identity
    exact congrFun ((turn_pow count).symm.trans identity) unit
  · intro back
    apply (turn_pow count).trans
    funext register
    rw [iterate_eq_times, back, times_unit]
    rfl

theorem orderOf_turn : orderOf turn = 32767 := by
  have computed {count : Nat} (small : count < 2 ^ 15) := power_eq_iterate small
  apply orderOf_eq_of_pow_and_pow_div_prime (by decide)
  · rw [turn_pow_eq_one_iff, ← computed (by decide)]
    decide +kernel
  · intro prime isPrime divides
    -- 32767 is 7 * 31 * 151, and without any one of these factors the shifts end elsewhere.
    have factors : prime = 7 ∨ prime = 31 ∨ prime = 151 := by
      have split : prime ∣ 7 * 31 * 151 := divides
      rw [isPrime.dvd_mul, isPrime.dvd_mul, Nat.prime_dvd_prime_iff_eq isPrime (by decide),
        Nat.prime_dvd_prime_iff_eq isPrime (by decide), Nat.prime_dvd_prime_iff_eq isPrime (by decide)] at split
      omega
    rw [Ne, turn_pow_eq_one_iff]
    rcases factors with rfl | rfl | rfl <;> rw [← computed (by decide)] <;> decide +kernel

theorem iterate_unit_eq_iff (count : Nat) : shift^[count] unit = unit ↔ 32767 ∣ count := by
  rw [← turn_pow_eq_one_iff, ← orderOf_dvd_iff_pow_eq_one, orderOf_turn]

theorem iterate_period (register : UInt16) : shift^[32767] register = register := by
  rw [iterate_eq_times, (iterate_unit_eq_iff _).mpr (Nat.dvd_refl _), times_unit]

theorem shift_bijective : Bijective shift := by
  have back : LeftInverse shift^[32766] shift := by
    intro register
    rw [← iterate_succ_apply, iterate_period]
  have forth : RightInverse shift^[32766] shift := by
    intro register
    rw [← iterate_succ_apply' shift, iterate_period]
  exact ⟨back.injective, forth.surjective⟩

theorem shift_injective : Injective shift :=
  shift_bijective.injective

theorem iterate_add_one_eq_iff (count gap : Nat) : shift^[count + gap] 1 = shift^[count] 1 ↔ 32767 ∣ gap := by
  -- The lone bit is itself the unit, shifted, so what holds of the unit carries over by injectivity.
  have bit : (1 : UInt16) = shift^[15] unit := by decide
  rw [iterate_add_apply, (shift_injective.iterate count).eq_iff, bit, ← iterate_add_apply, Nat.add_comm,
    iterate_add_apply, (shift_injective.iterate 15).eq_iff, iterate_unit_eq_iff]

end FramedLink.Checksum.Serial
