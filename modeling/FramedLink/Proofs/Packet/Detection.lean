import FramedLink.Proofs.Checksum.Residue
import FramedLink.Proofs.Packet.Damage

/-! Damage that leaves a frame its marker, its checksum and its length. It is noticed with the last byte, unless the
checksum of the other bytes stays what it was. Main statements: two bits get past the checksum exactly at distances that
are multiples of 32767, for which a frame of at most 4089 payload bytes is too short; a burst of sixteen bits never
does. -/

namespace FramedLink

namespace Frame

/-- The bit is one of the request, the response or the payload in a frame of the given number of bytes. -/
def InContents (size position : Nat) : Prop :=
  requestOffset ≤ position / 8 ∧ position / 8 < lengthOffset ∨ payloadOffset ≤ position / 8 ∧ position / 8 < size

instance (size position : Nat) : Decidable (InContents size position) :=
  inferInstanceAs (Decidable (_ ∨ _))

theorem InContents.inside {size position : Nat} (whole : headerSize ≤ size) (place : InContents size position) :
    8 * coveredOffset ≤ position ∧ position < 8 * size := by
  simp only [InContents, requestOffset, lengthOffset, payloadOffset] at place
  simp only [headerSize, coveredOffset, requestOffset] at whole ⊢
  omega

theorem intact_flipAll_iff {bytes : Bytes} {positions : List Nat} (whole : headerSize ≤ bytes.length)
    (intact : Intact bytes) (places : ∀ position ∈ positions, InContents bytes.length position) :
    Intact (bytes.flipAll positions) ↔ Checksum.residue bytes.length positions = 0 := by
  have stated : wordAt (bytes.flipAll positions) checksumOffset = wordAt bytes checksumOffset := by
    apply wordAt_flipAll
    intro position member
    have later := ((places position member).inside whole).1
    simp only [checksumOffset, coveredOffset, requestOffset] at later ⊢
    omega
  rw [Intact, stated, ← intact, Checksum.ofBytes_drop_flipAll_eq_iff]
  intro position member
  exact (places position member).inside whole

end Frame

namespace Packet

variable {C : Capacity}

theorem Ready.receiveAll_flipAll {receiver : Packet C} (ready : receiver.Ready) {frame : Frame}
    (fits : frame.payload.length ≤ C) {positions : List Nat}
    (places : ∀ position ∈ positions, Frame.InContents frame.wire.length position) :
    (receiver.receiveAll (frame.wire.flipAll positions)).2 = List.replicate (frame.wire.length - 1) .inProgress ++
      [if Checksum.residue frame.wire.length positions = 0 then .completed else .error .badChecksum] := by
  have size := Frame.length_wire frame
  have declared := Frame.declared_wire (Frame.small_of_fits fits)
  have kept {position : Nat} (member : position ∈ positions) :
      4 ≤ position / 8 ∧ position / 8 ≠ 8 ∧ position / 8 ≠ 9 := by
    have place := places position member
    simp only [Frame.InContents, Frame.requestOffset, Frame.lengthOffset, Frame.payloadOffset] at place
    omega
  have opens : Frame.Opens (frame.wire.flipAll positions) := by
    have marker : (frame.wire.flipAll positions).take 2 = frame.wire.take 2 := by
      apply Frame.take_flipAll
      intro position member
      exact Nat.le_trans (by decide) (kept member).1
    rw [Frame.Opens, marker]
    exact Frame.opens_wire frame
  have length : Frame.declared (frame.wire.flipAll positions) = frame.payload.length := by
    rw [← declared, Frame.declared, Frame.declared, Frame.wordAt_flipAll]
    intro position member
    exact (kept member).2
  have settled := Frame.intact_flipAll_iff (by omega) (Frame.intact_wire frame) places
  obtain ⟨answers, -⟩ := ready.holds.receiveAll_whole opens
    (by rw [Bytes.length_flipAll, length, size]) (by rw [length]; exact fits)
  simp only [answers, Bytes.length_flipAll, settled]

/-- Two bits turned over leave the checksum as it was exactly when they are a multiple of 32767 places apart. In the
contents of a frame of at most 4089 payload bytes no two are, so any packet with room for the frame notices them with
the last byte. -/
theorem two_flips_noticed :
    (∀ (bytes : Bytes) (first second : Nat), first < second → second < 8 * bytes.length →
      (Checksum.ofBytes ((bytes.flip first).flip second) = Checksum.ofBytes bytes ↔ 32767 ∣ second - first)) ∧
    ∀ (C D : Capacity) (receiver : Packet D) (sender : Packet C) (frame : Frame) (first second : Nat),
      receiver.Ready → frame.payload.length ≤ C → frame.payload.length ≤ D → frame.payload.length ≤ 4089 →
      first ≠ second →
      let sent := (sender.compose frame).1.wire
      Frame.InContents sent.length first → Frame.InContents sent.length second →
      (receiver.receiveAll ((sent.flip first).flip second)).2 =
        List.replicate (sent.length - 1) .inProgress ++ [.error .badChecksum] := by
  constructor
  · intro bytes first second ordered inside
    have both : ∀ position ∈ [first, second], position < 8 * bytes.length := by
      intro position member
      rcases List.mem_pair.mp member with rfl | rfl <;> omega
    rw [← Checksum.residue_pair_eq_zero_iff ordered inside, ← Checksum.ofBytes_flipAll_eq_iff both]
    rfl
  · intro C D receiver sender frame first second ready composed fits short distinct sent one two
    have same : sent = frame.wire := (carries_compose sender composed).wire
    have size := Frame.length_wire frame
    rw [same] at one two ⊢
    have places : ∀ position ∈ [first, second], Frame.InContents frame.wire.length position := by
      intro position member
      rcases List.mem_pair.mp member with rfl | rfl
      · exact one
      · exact two
    have left : Checksum.residue frame.wire.length [first, second] ≠ 0 := by
      simp only [Frame.InContents, Frame.requestOffset, Frame.lengthOffset, Frame.payloadOffset] at one two
      simp only [Frame.headerSize] at size
      apply Checksum.residue_pair_ne_zero distinct <;> omega
    have answers := ready.receiveAll_flipAll fits places
    rw [if_neg left] at answers
    exact answers

theorem two_flips_noticed_but_for_cancelling :
    Checksum.ofBytes ((Bytes.flip [1, 2, 3] 0).flip 23) ≠ Checksum.ofBytes [1, 2, 3] ∧
      Checksum.ofBytes ((Bytes.flip (List.replicate 4096 0) 0).flip 32767) = Checksum.ofBytes (List.replicate 4096 0) ∧
      ((fresh : Packet ⟨2, by decide⟩).receiveAll
        ((((default : Packet .standard).compose ⟨5, 1, [9, 7]⟩).1.wire.flip 95).flip 32)).2 =
        List.replicate 11 .inProgress ++ [.error .badChecksum] := by
  have distances := two_flips_noticed.1
  have frames := two_flips_noticed.2
  have noticed := frames .standard ⟨2, by decide⟩ fresh default ⟨5, 1, [9, 7]⟩ 95 32 .fresh (by decide) (by decide)
    (by decide) (by decide) (by decide +kernel) (by decide +kernel)
  refine ⟨?_, ?_, noticed.trans (by decide +kernel)⟩
  · rw [Ne, distances [1, 2, 3] 0 23 (by decide) (by decide)]
    decide
  · rw [distances (List.replicate 4096 0) 0 32767 (by decide) (by rw [List.length_replicate]; decide)]

/-- A burst leaves another checksum, whatever the bytes and wherever it lies. In the contents of a frame it is noticed
with the last byte by any packet with room for the frame. -/
theorem burst_noticed :
    (∀ (bytes : Bytes) (start : Nat) (positions : List Nat), Checksum.Burst start positions →
      (∀ position ∈ positions, position < 8 * bytes.length) →
      Checksum.ofBytes (bytes.flipAll positions) ≠ Checksum.ofBytes bytes) ∧
    ∀ (C D : Capacity) (receiver : Packet D) (sender : Packet C) (frame : Frame) (start : Nat) (positions : List Nat),
      receiver.Ready → frame.payload.length ≤ C → frame.payload.length ≤ D → Checksum.Burst start positions →
      let sent := (sender.compose frame).1.wire
      (∀ position ∈ positions, Frame.InContents sent.length position) →
      (receiver.receiveAll (sent.flipAll positions)).2 =
        List.replicate (sent.length - 1) .inProgress ++ [.error .badChecksum] := by
  constructor
  · intro bytes start positions burst inside
    rw [Ne, Checksum.ofBytes_flipAll_eq_iff inside]
    exact Checksum.residue_burst_ne_zero burst inside
  · intro C D receiver sender frame start positions ready composed fits burst sent places
    have same : sent = frame.wire := (carries_compose sender composed).wire
    have whole : Frame.headerSize ≤ frame.wire.length := by
      rw [Frame.length_wire]
      exact Nat.le_add_right _ _
    rw [same] at places ⊢
    have left : Checksum.residue frame.wire.length positions ≠ 0 := by
      apply Checksum.residue_burst_ne_zero burst
      intro position member
      exact ((places position member).inside whole).2
    have answers := ready.receiveAll_flipAll fits places
    rw [if_neg left] at answers
    exact answers

theorem burst_noticed_across_bytes :
    Checksum.ofBytes (Bytes.flipAll [1, 2, 3, 4] [7, 12, 22]) ≠ Checksum.ofBytes [1, 2, 3, 4] ∧
      ((fresh : Packet ⟨2, by decide⟩).receiveAll
        (((default : Packet .standard).compose ⟨5, 1, [9, 7]⟩).1.wire.flipAll [95, 80, 86])).2 =
        List.replicate 11 .inProgress ++ [.error .badChecksum] := by
  have noticed := burst_noticed.2 .standard ⟨2, by decide⟩ fresh default ⟨5, 1, [9, 7]⟩ 80 [95, 80, 86] .fresh
    (by decide) (by decide) ⟨by decide, by decide, by decide⟩ (by decide +kernel)
  exact ⟨burst_noticed.1 [1, 2, 3, 4] 7 [7, 12, 22] ⟨by decide, by decide, by decide⟩ (by decide),
    noticed.trans (by decide +kernel)⟩

end Packet

end FramedLink
