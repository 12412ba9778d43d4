import FramedLink.Proofs.Checksum.Parity
import FramedLink.Proofs.Packet.RoundTrip

/-! Frames of which some bits were turned over on the way. Main statements: an odd number of them outside marker and
length is always noticed, and one in the length is, unless it shortens the frame to another with the same checksum. -/

namespace FramedLink

namespace Word

theorem low_xor (one two : UInt16) : low (one ^^^ two) = low one ^^^ low two := by
  apply UInt8.toNat_inj.mp
  rw [toNat_low, UInt16.toNat_xor, UInt8.toNat_xor, toNat_low, toNat_low]
  exact Nat.xor_mod_two_pow (n := 8)

theorem high_xor (one two : UInt16) : high (one ^^^ two) = high one ^^^ high two := by
  apply UInt8.toNat_inj.mp
  rw [toNat_high, UInt16.toNat_xor, UInt8.toNat_xor, toNat_high, toNat_high]
  exact Nat.xor_div_two_pow (n := 8)

end Word

namespace Frame

theorem even_of_intact {bytes : Bytes} (whole : 4 ≤ bytes.length) (intact : Intact bytes) :
    Bytes.ones (bytes.drop 2) % 2 = 0 := by
  match bytes, whole with
  | _ :: _ :: low :: high :: covered, _ =>
    have summed := Checksum.ones_update 0 covered
    have stated : Checksum.update 0 covered = Word.ofBytes low high := intact
    have split := Word.ones_eq (Word.ofBytes low high)
    rw [stated, split, Word.low_ofBytes, Word.high_ofBytes] at summed
    have nothing : Word.ones 0 = 0 := rfl
    simp only [List.drop_succ_cons, List.drop_zero, Bytes.ones_cons]
    omega

theorem take_flipAll {bytes : Bytes} {positions : List Nat} {count : Nat}
    (later : ∀ position ∈ positions, count ≤ position / 8) :
    (bytes.flipAll positions).take count = bytes.take count := by
  apply List.ext_getElem?
  intro index
  by_cases early : index < count
  · have others : ∀ position ∈ positions, position / 8 ≠ index := by
      intro position member same
      have bound := later position member
      omega
    rw [List.getElem?_take_of_lt early, List.getElem?_take_of_lt early, Bytes.getElem?_flipAll_of_ne others]
  · simp only [List.getElem?_take, if_neg early]

theorem wordAt_flipAll {bytes : Bytes} {positions : List Nat} {offset : Nat}
    (others : ∀ position ∈ positions, position / 8 ≠ offset ∧ position / 8 ≠ offset + 1) :
    wordAt (bytes.flipAll positions) offset = wordAt bytes offset := by
  have first : (bytes.flipAll positions)[offset]? = bytes[offset]? :=
    Bytes.getElem?_flipAll_of_ne fun position member => (others position member).1
  have second : (bytes.flipAll positions)[offset + 1]? = bytes[offset + 1]? :=
    Bytes.getElem?_flipAll_of_ne fun position member => (others position member).2
  simp only [wordAt, List.getD_eq_getElem?_getD, first, second]

theorem not_intact_flipAll {bytes : Bytes} {positions : List Nat} (whole : 4 ≤ bytes.length) (intact : Intact bytes)
    (odd : positions.length % 2 = 1) (later : ∀ position ∈ positions, 2 ≤ position / 8)
    (inside : ∀ position ∈ positions, position / 8 < bytes.length) : ¬ Intact (bytes.flipAll positions) := by
  intro still
  have before := even_of_intact whole intact
  have after := even_of_intact (by rw [Bytes.length_flipAll]; exact whole) still
  have turned := Bytes.ones_flipAll inside
  have marker : (bytes.flipAll positions).take 2 = bytes.take 2 := take_flipAll later
  rw [← List.take_append_drop 2 bytes, Bytes.ones_append] at turned
  rw [List.take_append_drop, ← List.take_append_drop 2 (bytes.flipAll positions), Bytes.ones_append, marker] at turned
  omega

def mislabelled (frame : Frame) (length : UInt16) : Bytes :=
  Header.bytes { frame.header with length := length } ++ frame.payload

theorem flip_wire (frame : Frame) {bit : Nat} (inside : bit < 16) :
    frame.wire.flip (64 + bit) = frame.mislabelled (frame.length ^^^ UInt16.ofNat (2 ^ bit)) := by
  have halves : ∀ bit : Fin 16, let turned := (1 : UInt8) <<< UInt8.ofNat (bit % 8)
      Word.low (UInt16.ofNat (2 ^ bit.val)) = (if bit.val < 8 then turned else 0) ∧
        Word.high (UInt16.ofNat (2 ^ bit.val)) = (if bit.val < 8 then 0 else turned) := by
    decide
  obtain ⟨low, high⟩ := halves ⟨bit, inside⟩
  have shift : (64 + bit) % 8 = bit % 8 := by omega
  rw [mislabelled, wire_eq_header, Bytes.flip, shift]
  simp only [Header.bytes, Word.bytes, Word.low_xor, Word.high_xor, low, high]
  by_cases first : bit < 8
  · have place : (64 + bit) / 8 = 8 := by omega
    simp [place, first, header]
  · have place : (64 + bit) / 8 = 9 := by omega
    simp [place, first, header]

theorem outcomeAt_mislabelled {C : Capacity} (frame : Frame) (length : UInt16) (index : Nat) :
    outcomeAt C (frame.mislabelled length) index = .completed ↔ length.toNat ≤ C ∧ index = 9 + length.toNat ∧
      Checksum.ofBytes (Word.bytes frame.request ++ Word.bytes frame.response ++ Word.bytes length ++
        frame.payload.take length.toNat) = frame.checksum := by
  have found : markerStart? (frame.mislabelled length) = some 0 := by
    have pair : Word.bytes marker = [markerByte, markerByte] := rfl
    simp [mislabelled, Header.bytes, header, pair, markerStart?, List.findIdx?_cons]
  have stated : wordAt (frame.mislabelled length) 8 = length := Word.ofBytes_low_high length
  have checksum : wordAt (frame.mislabelled length) 2 = frame.checksum := Word.ofBytes_low_high frame.checksum
  have covered : ((frame.mislabelled length).drop 4).take (6 + length.toNat) =
      Word.bytes frame.request ++ Word.bytes frame.response ++ Word.bytes length ++
        frame.payload.take length.toNat := by
    rw [Nat.add_comm]
    rfl
  have completed := @outcomeAt_eq_completed_iff C _ 0 index found
  simpa only [Nat.zero_add, stated, checksum, covered] using completed

theorem toNat_flip_length (frame : Frame) (small : frame.payload.length < 65536) {bit : Nat} (inside : bit < 16) :
    (frame.length ^^^ UInt16.ofNat (2 ^ bit)).toNat = frame.payload.length ^^^ 2 ^ bit := by
  have bound : 2 ^ bit < 2 ^ 16 := Nat.pow_lt_pow_right (by decide) inside
  rw [UInt16.toNat_xor, length, UInt16.toNat_ofNat', UInt16.toNat_ofNat', Nat.mod_eq_of_lt small,
    Nat.mod_eq_of_lt bound]

theorem checksum_take (frame : Frame) {length : UInt16} (less : length.toNat < frame.payload.length) :
    checksum ⟨frame.request, frame.response, frame.payload.take length.toNat⟩ =
      Checksum.ofBytes (Word.bytes frame.request ++ Word.bytes frame.response ++ Word.bytes length ++
        frame.payload.take length.toNat) := by
  rw [checksum, covered, Frame.length, List.length_take_of_le (Nat.le_of_lt less), UInt16.ofNat_toNat]

end Frame

namespace Packet

variable {C D : Capacity}

/-- An odd number of bits turned over in checksum, request, response and payload, wherever they are, is noticed with
the last byte and not before. -/
theorem receiveAll_odd_flips {receiver : Packet D} (ready : receiver.Ready) (sender : Packet C) {frame : Frame}
    (composed : frame.payload.length ≤ C) (fits : frame.payload.length ≤ D) {positions : List Nat}
    (odd : positions.length % 2 = 1)
    (places : ∀ position ∈ positions, 2 ≤ position / 8 ∧ position / 8 < 8 ∨
      10 ≤ position / 8 ∧ position / 8 < (sender.compose frame).1.wire.length) :
    let sent := (sender.compose frame).1.wire
    (receiver.receiveAll (sent.flipAll positions)).2 =
      List.replicate (sent.length - 1) .inProgress ++ [.error .badChecksum] := by
  intro sent
  have same : sent = frame.wire := (carries_compose sender composed).wire
  have size := Frame.length_wire frame
  have declared := Frame.declared_wire (Frame.small_of_fits fits)
  rw [← same] at size declared
  simp only [Frame.headerSize] at size
  have inside : ∀ position ∈ positions, position / 8 < sent.length := by
    intro position member
    rcases places position member with early | ⟨-, late⟩
    · omega
    · exact late
  have later : ∀ position ∈ positions, 2 ≤ position / 8 := by
    intro position member
    rcases places position member with early | late <;> omega
  have opens : Frame.Opens (sent.flipAll positions) := by
    rw [Frame.Opens, Frame.take_flipAll later, same]
    exact Frame.opens_wire frame
  have length : Frame.declared (sent.flipAll positions) = frame.payload.length := by
    rw [← declared, Frame.declared, Frame.declared, Frame.wordAt_flipAll]
    intro position member
    rcases places position member with early | late <;> simp only [Frame.lengthOffset] <;> omega
  have damaged : ¬ Frame.Intact (sent.flipAll positions) :=
    Frame.not_intact_flipAll (by omega) (same ▸ Frame.intact_wire frame) odd later inside
  obtain ⟨answers, -⟩ := ready.holds.receiveAll_whole opens
    (by rw [Bytes.length_flipAll, length, size, Frame.headerSize]) (by rw [length]; exact fits)
  rw [answers, if_neg damaged, Bytes.length_flipAll]

theorem receiveAll_odd_flips_of_three :
    ((fresh : Packet ⟨2, by decide⟩).receiveAll
        (((default : Packet .standard).compose ⟨5, 1, [9, 7]⟩).1.wire.flipAll [16, 33, 87])).2 =
      List.replicate 11 .inProgress ++ [.error .badChecksum] := by
  have noticed := @receiveAll_odd_flips .standard ⟨2, by decide⟩ fresh .fresh default ⟨5, 1, [9, 7]⟩ (by decide)
    (by decide) [16, 33, 87] (by decide) (by decide +kernel)
  exact noticed.trans (by decide +kernel)

/-- A bit turned over in the length goes unnoticed only where it shortens the frame, and then just when the beginning
of the payload that is left has the same checksum, with its length, as the whole. -/
theorem completed_of_length_flip_iff (sender : Packet C) {frame : Frame} (composed : frame.payload.length ≤ C)
    {position : Nat} (place : position / 8 = 8 ∨ position / 8 = 9) :
    let sent := (sender.compose frame).1.wire
    let declared := frame.payload.length ^^^ 2 ^ (position - 64)
    .completed ∈ ((fresh : Packet C).receiveAll (sent.flip position)).2 ↔
      declared < frame.payload.length ∧
        Frame.checksum ⟨frame.request, frame.response, frame.payload.take declared⟩ = frame.checksum := by
  intro sent declared
  have small := Frame.small_of_fits composed
  have same : sent = frame.wire := (carries_compose sender composed).wire
  obtain ⟨bit, inside, rfl⟩ : ∃ bit < 16, position = 64 + bit := ⟨position - 64, by omega, by omega⟩
  have turned : declared = frame.payload.length ^^^ 2 ^ bit := by simp only [declared, Nat.add_sub_cancel_left]
  have unequal : declared ≠ frame.payload.length := by
    intro unchanged
    apply Nat.ne_of_gt (Nat.two_pow_pos bit)
    calc 2 ^ bit = frame.payload.length ^^^ declared := by rw [turned, Nat.xor_xor_cancel_left]
      _ = 0 := by rw [unchanged, Nat.xor_self]
  have word : (frame.length ^^^ UInt16.ofNat (2 ^ bit)).toNat = declared := by
    rw [turned, Frame.toNat_flip_length frame small inside]
  have shorter (less : declared < frame.payload.length) := Frame.checksum_take frame (by rw [word]; exact less)
  rw [word] at shorter
  rw [(Ready.fresh (C := C)).holds.outcomes_eq, same, Bytes.length_flip, Frame.length_wire,
    Frame.flip_wire frame inside]
  simp only [List.mem_map, List.mem_range, Frame.outcomeAt_mislabelled, word, Frame.headerSize]
  constructor
  · rintro ⟨index, last, -, rfl, checked⟩
    have less : declared < frame.payload.length := by omega
    exact ⟨less, (shorter less).trans checked⟩
  · rintro ⟨less, checked⟩
    exact ⟨9 + declared, by omega, by omega, rfl, (shorter less).symm.trans checked⟩

theorem completed_of_length_flip_iff_of_two :
    .completed ∈ ((fresh : Packet ⟨1, by decide⟩).receiveAll
        (((default : Packet ⟨1, by decide⟩).compose ⟨1104, 1, [109]⟩).1.wire.flip 64)).2 ∧
      .completed ∉ ((fresh : Packet ⟨1, by decide⟩).receiveAll
        (((default : Packet ⟨1, by decide⟩).compose ⟨1105, 1, [109]⟩).1.wire.flip 64)).2 := by
  constructor
  · exact (completed_of_length_flip_iff default (by decide) (by decide)).mpr (by decide +kernel)
  · exact fun completed => absurd ((completed_of_length_flip_iff default (by decide) (by decide)).mp completed)
      (by decide +kernel)

theorem completed_of_some_length_flip :
    ¬ ∀ (C : Capacity) (sender : Packet C) (frame : Frame) (position : Nat),
      frame.payload.length ≤ C → position / 8 = 8 ∨ position / 8 = 9 →
      .completed ∉ ((fresh : Packet C).receiveAll ((sender.compose frame).1.wire.flip position)).2 := by
  intro never
  exact never ⟨1, by decide⟩ default ⟨1104, 1, [109]⟩ 64 (by decide) (by decide) (by decide +kernel)

end Packet

end FramedLink
