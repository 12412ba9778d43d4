import FramedLink.Proofs.Checksum.Linearity

/-! What bits that were turned over leave in the checksum's register. It depends on their places alone, and not on the
bytes around them. Main statements: of two bits nothing is left exactly when they are a multiple of 32767 places apart,
and of a burst something always is. -/

namespace FramedLink

open Checksum Serial

namespace Bytes

theorem flip_add_eight (byte : UInt8) (bytes : Bytes) (position : Nat) :
    Bytes.flip (byte :: bytes) (position + 8) = byte :: bytes.flip position := by
  rw [flip, Nat.add_div_right position (by decide), Nat.add_mod_right, List.modify_succ_cons, flip]

theorem drop_flip {bytes : Bytes} {position count : Nat} (later : 8 * count ≤ position) :
    (bytes.flip position).drop count = Bytes.flip (bytes.drop count) (position - 8 * count) := by
  have place : (position - 8 * count) / 8 = position / 8 - count := Nat.sub_mul_div position 8 count
  have bit : (position - 8 * count) % 8 = position % 8 := Nat.sub_mul_mod later
  rw [flip, flip, List.drop_modify_of_ge _ _ _ _ (by omega), place, bit]

end Bytes

namespace Checksum

theorem step_xor (register : UInt16) (byte : UInt8) (change : UInt16) :
    Checksum.step (register ^^^ change) byte = Checksum.step register byte ^^^ shift^[8] change := by
  rw [← step_zero_right, ← step_xor_xor, UInt8.xor_zero]

theorem update_xor (register : UInt16) (bytes : Bytes) (change : UInt16) :
    Checksum.update (register ^^^ change) bytes =
      Checksum.update register bytes ^^^ shift^[8 * bytes.length] change := by
  induction bytes generalizing register change with
  | nil => rfl
  | cons byte bytes ih =>
    rw [update_cons, step_xor, ih, update_cons, List.length_cons, Nat.mul_succ, Function.iterate_add_apply]

theorem step_flip (register : UInt16) (byte : UInt8) {bit : Nat} (inside : bit < 8) :
    Checksum.step register (byte ^^^ 1 <<< UInt8.ofNat bit) = Checksum.step register byte ^^^ shift^[8 - bit] 1 := by
  have passed : ∀ bit : Fin 8, Nat.repeat shift 8 ((1 : UInt8) <<< UInt8.ofNat bit).toUInt16 =
      Nat.repeat shift (8 - bit) 1 := by decide
  have alone : Checksum.step 0 (1 <<< UInt8.ofNat bit) = shift^[8 - bit] 1 := by
    rw [step_eq_serial, step_zero, passed ⟨bit, inside⟩, repeat_eq_iterate]
  rw [← alone, ← step_xor_xor, UInt16.xor_zero]

/-- A bit turned over leaves a lone bit that has been shifted as often as there were bits from it to the end. -/
theorem update_flip (register : UInt16) {bytes : Bytes} {position : Nat} (inside : position < 8 * bytes.length) :
    Checksum.update register (bytes.flip position) =
      Checksum.update register bytes ^^^ shift^[8 * bytes.length - position] 1 := by
  induction bytes generalizing register position with
  | nil => cases inside
  | cons byte bytes ih =>
    rw [List.length_cons] at inside ⊢
    -- In the first byte the change enters with this step and passes through the rest; later it is the hypothesis.
    by_cases first : position < 8
    · rw [Bytes.flip, Nat.div_eq_of_lt first, Nat.mod_eq_of_lt first, List.modify_zero_cons, update_cons,
        step_flip register byte first, update_xor, update_cons, ← Function.iterate_add_apply,
        show 8 * bytes.length + (8 - position) = 8 * (bytes.length + 1) - position by omega]
    · obtain ⟨rest, rfl⟩ : ∃ rest, position = rest + 8 := ⟨position - 8, by omega⟩
      rw [Bytes.flip_add_eight, update_cons, update_cons, ih _ (by omega),
        show 8 * (bytes.length + 1) - (rest + 8) = 8 * bytes.length - rest by omega]

/-- What bits at the positions leave in the register, in a byte string of the given length. -/
def residue (length : Nat) (positions : List Nat) : UInt16 :=
  positions.foldr (fun position rest => shift^[8 * length - position] 1 ^^^ rest) 0

theorem update_drop_flipAll (register : UInt16) {bytes : Bytes} {count : Nat} {positions : List Nat}
    (inside : ∀ position ∈ positions, 8 * count ≤ position ∧ position < 8 * bytes.length) :
    Checksum.update register ((bytes.flipAll positions).drop count) =
      Checksum.update register (bytes.drop count) ^^^ residue bytes.length positions := by
  induction positions generalizing bytes with
  | nil => exact (UInt16.xor_zero).symm
  | cons position positions ih =>
    obtain ⟨later, before⟩ := inside position (.head _)
    have others : ∀ other ∈ positions, 8 * count ≤ other ∧ other < 8 * (bytes.flip position).length := by
      intro other member
      rw [Bytes.length_flip]
      exact inside other (.tail _ member)
    have places : 8 * (bytes.drop count).length - (position - 8 * count) = 8 * bytes.length - position := by
      rw [List.length_drop]
      omega
    rw [Bytes.flipAll, List.foldl_cons, ← Bytes.flipAll, ih others, Bytes.drop_flip later,
      update_flip _ (by rw [List.length_drop]; omega), places, Bytes.length_flip, UInt16.xor_assoc, residue, residue,
      List.foldr_cons]

theorem ofBytes_drop_flipAll_eq_iff {bytes : Bytes} {count : Nat} {positions : List Nat}
    (inside : ∀ position ∈ positions, 8 * count ≤ position ∧ position < 8 * bytes.length) :
    ofBytes ((bytes.flipAll positions).drop count) = ofBytes (bytes.drop count) ↔
      residue bytes.length positions = 0 := by
  rw [ofBytes, ofBytes, update_drop_flipAll 0 inside]
  constructor
  · intro same
    exact (UInt16.xor_right_inj _).mp (same.trans UInt16.xor_zero.symm)
  · intro nothing
    rw [nothing, UInt16.xor_zero]

theorem ofBytes_flipAll_eq_iff {bytes : Bytes} {positions : List Nat}
    (inside : ∀ position ∈ positions, position < 8 * bytes.length) :
    ofBytes (bytes.flipAll positions) = ofBytes bytes ↔ residue bytes.length positions = 0 :=
  @ofBytes_drop_flipAll_eq_iff bytes 0 positions fun position member => ⟨Nat.zero_le _, inside position member⟩

theorem residue_pair_eq_zero_iff {length first second : Nat} (ordered : first < second) (inside : second < 8 * length) :
    residue length [first, second] = 0 ↔ 32767 ∣ second - first := by
  have apart : 8 * length - first = 8 * length - second + (second - first) := by omega
  simp only [residue, List.foldr_cons, List.foldr_nil, UInt16.xor_zero, UInt16.xor_eq_zero_iff, apart,
    iterate_add_one_eq_iff]

theorem residue_pair_ne_zero {length first second : Nat} (distinct : first ≠ second)
    (one : first < 8 * length ∧ 8 * length ≤ first + 32767) (two : second < 8 * length ∧ 8 * length ≤ second + 32767) :
    residue length [first, second] ≠ 0 := by
  have swapped : residue length [first, second] = residue length [second, first] := by
    simp only [residue, List.foldr_cons, List.foldr_nil, UInt16.xor_zero]
    exact UInt16.xor_comm _ _
  intro gone
  rcases Nat.lt_or_gt_of_ne distinct with ordered | ordered
  · have apart := Nat.le_of_dvd (by omega) ((residue_pair_eq_zero_iff ordered two.1).mp gone)
    omega
  · rw [swapped] at gone
    have apart := Nat.le_of_dvd (by omega) ((residue_pair_eq_zero_iff ordered one.1).mp gone)
    omega

/-- Some bits, each once, and all of them among sixteen in a row. -/
structure Burst (start : Nat) (positions : List Nat) : Prop where
  nonempty : positions ≠ []
  distinct : positions.Nodup
  near : ∀ position ∈ positions, start ≤ position ∧ position < start + 16

def window (start : Nat) (positions : List Nat) : UInt16 :=
  positions.foldr (fun position rest => UInt16.ofNat (2 ^ (position - start)) ^^^ rest) 0

theorem toNat_two_pow {place : Nat} (inside : place < 16) : (UInt16.ofNat (2 ^ place)).toNat = 2 ^ place := by
  rw [UInt16.toNat_ofNat', Nat.mod_eq_of_lt (Nat.pow_lt_pow_right (by decide) inside)]

theorem iterate_two_pow {place : Nat} (inside : place < 16) : shift^[place] (UInt16.ofNat (2 ^ place)) = 1 := by
  have number := toNat_two_pow inside
  apply UInt16.toNat_inj.mp
  rw [← repeat_eq_iterate, toNat_repeat_shift (by rw [number]), number, Nat.div_self (Nat.two_pow_pos place)]
  rfl

theorem residue_eq_window {length start : Nat} {positions : List Nat}
    (near : ∀ position ∈ positions, start ≤ position ∧ position < start + 16)
    (inside : ∀ position ∈ positions, position < 8 * length) :
    residue length positions = shift^[8 * length - start] (window start positions) := by
  induction positions with
  | nil => exact (iterate_zero _).symm
  | cons position positions ih =>
    obtain ⟨after, before⟩ := near position (.head _)
    have here := inside position (.head _)
    have way : 8 * length - start = 8 * length - position + (position - start) := by omega
    have first : shift^[8 * length - start] (UInt16.ofNat (2 ^ (position - start))) =
        shift^[8 * length - position] 1 := by
      rw [way, Function.iterate_add_apply, iterate_two_pow (by omega)]
    have rest := ih (fun other member => near other (.tail _ member)) fun other member => inside other (.tail _ member)
    rw [residue, List.foldr_cons, ← residue, rest, ← first, ← iterate_xor]
    rfl

theorem testBit_window {start : Nat} {positions : List Nat} (distinct : positions.Nodup)
    (near : ∀ position ∈ positions, start ≤ position ∧ position < start + 16) (index : Nat) :
    (window start positions).toNat.testBit index = decide (start + index ∈ positions) := by
  induction positions with
  | nil => simp [window]
  | cons position positions ih =>
    obtain ⟨after, before⟩ := near position (.head _)
    obtain ⟨absent, others⟩ := List.nodup_cons.mp distinct
    have rest := ih others fun other member => near other (.tail _ member)
    have lone : (UInt16.ofNat (2 ^ (position - start))).toNat.testBit index = decide (start + index = position) := by
      rw [toNat_two_pow (by omega), Nat.testBit_two_pow, decide_eq_decide]
      omega
    rw [window, List.foldr_cons, ← window, UInt16.toNat_xor, Nat.testBit_xor, lone, rest]
    by_cases here : start + index = position
    · simp [here, absent]
    · simp [here]

theorem residue_burst_ne_zero {length start : Nat} {positions : List Nat} (burst : Burst start positions)
    (inside : ∀ position ∈ positions, position < 8 * length) : residue length positions ≠ 0 := by
  rw [residue_eq_window burst.near inside]
  intro gone
  -- Shifting is injective, so nothing is left of no window but an empty one.
  rw [← iterate_zero (8 * length - start), (shift_injective.iterate _).eq_iff] at gone
  obtain ⟨position, member⟩ := List.exists_mem_of_ne_nil positions burst.nonempty
  have bit := testBit_window burst.distinct burst.near (position - start)
  rw [gone, Nat.add_sub_cancel' (burst.near position member).1, decide_eq_true member] at bit
  simp at bit

end Checksum

end FramedLink
