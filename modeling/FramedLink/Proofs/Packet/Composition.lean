import FramedLink.Packet.Outbound
import FramedLink.Proofs.Packet.Assembly

/-! What a composed packet sends. Main statement: a frame whose payload fits is composed into a packet that
sends the frame's image, and a payload that does not fit is refused. -/

namespace FramedLink

namespace Frame

def header (frame : Frame) : Header :=
  ⟨marker, frame.checksum, frame.request, frame.response, frame.length⟩

theorem wire_eq_header (frame : Frame) : frame.wire = frame.header.bytes ++ frame.payload := by
  simp [wire, covered, header, Header.bytes]

theorem drop_wire (frame : Frame) : frame.wire.drop coveredOffset = frame.covered := rfl

theorem opens_wire (frame : Frame) : Opens frame.wire := by
  have start : frame.wire.take 2 = [markerByte, markerByte] := rfl
  intro byte member
  rw [start] at member
  simpa using member

theorem declared_wire {frame : Frame} (small : frame.payload.length < 65536) :
    declared frame.wire = frame.payload.length := by
  rw [wire_eq_header, declared, wordAt_append (by rw [Header.length_bytes]; decide), ← Header.length_eq, header, length,
    UInt16.toNat_ofNat', Nat.mod_eq_of_lt small]

theorem intact_wire (frame : Frame) : Intact frame.wire := by
  rw [Intact, drop_wire, wire_eq_header, wordAt_append (by rw [Header.length_bytes]; decide), ← Header.checksum_eq]
  rfl

theorem small_of_fits {frame : Frame} {C : Capacity} (fits : frame.payload.length ≤ C) :
    frame.payload.length < 65536 := by
  have bound := C.isLt
  omega

end Frame

namespace Packet

variable {C : Capacity} {packet : Packet C} {frame : Frame}

/-- The packet is about to send the frame. -/
structure Carries (packet : Packet C) (frame : Frame) : Prop where
  cursor : packet.cursor = 0
  wire : packet.wire = frame.wire

theorem toList_overwrite {n : Nat} (buffer : Vector UInt8 n) (position : Nat) (bytes : Bytes)
    (fits : position + bytes.length ≤ n) :
    (overwrite buffer position bytes).toList =
      buffer.toList.take position ++ bytes ++ buffer.toList.drop (position + bytes.length) := by
  induction bytes generalizing buffer position with
  | nil => simp [overwrite]
  | cons byte bytes ih =>
    rw [List.length_cons] at fits
    have inside : position < buffer.toList.length := by rw [Vector.length_toList]; omega
    rw [overwrite, ih _ _ (by omega), Vector.toList_setIfInBounds, List.take_add_one,
      List.take_set_of_le (Nat.le_refl _), List.getElem?_set_self inside, List.drop_set_of_lt (by omega),
      List.length_cons]
    simp [Nat.add_assoc, Nat.add_comm 1]

theorem append_of_empty (packet : Packet C) (empty : packet.length = 0) {bytes : Bytes} (fits : bytes.length ≤ C) :
    packet.append bytes =
      ({ packet with
          buffer := overwrite packet.buffer 0 bytes
          header.length := UInt16.ofNat bytes.length
          status := .ok }, true) := by
  simp [append, empty, fits]

def addressed (packet : Packet C) (frame : Frame) : Packet C :=
  (packet.restart.setRequest frame.request).setResponse frame.response

theorem payload_append_addressed (packet : Packet C) (fits : frame.payload.length ≤ C) :
    ((packet.addressed frame).append frame.payload).1.payload = frame.payload := by
  have small : (UInt16.ofNat frame.payload.length).toNat = frame.payload.length := by
    rw [UInt16.toNat_ofNat', Nat.mod_eq_of_lt (Frame.small_of_fits fits)]
  rw [append_of_empty _ rfl fits, payload, length, small, Vector.toList_take, toList_overwrite _ _ _ (by omega)]
  simp

theorem frame_append_addressed (packet : Packet C) (fits : frame.payload.length ≤ C) :
    ((packet.addressed frame).append frame.payload).1.frame = frame := by
  rw [Packet.frame, payload_append_addressed packet fits, append_of_empty _ rfl fits]
  rfl

theorem compose_of_fits (packet : Packet C) (fits : frame.payload.length ≤ C) :
    packet.compose frame = (((packet.addressed frame).append frame.payload).1.commit, true) := by
  have appended := append_of_empty (packet.addressed frame) rfl fits
  rw [compose, ← addressed, appended]

theorem header_compose (packet : Packet C) (fits : frame.payload.length ≤ C) :
    (packet.compose frame).1.header = frame.header := by
  have checksum : ((packet.addressed frame).append frame.payload).1.contentChecksum = frame.checksum := by
    rw [contentChecksum, frame_append_addressed packet fits]
  rw [compose_of_fits packet fits, commit, checksum, append_of_empty _ rfl fits]
  rfl

theorem carries_compose (packet : Packet C) (fits : frame.payload.length ≤ C) :
    (packet.compose frame).1.Carries frame := by
  refine ⟨by rw [compose_of_fits packet fits]; rfl, ?_⟩
  rw [wire, header_compose packet fits, Frame.wire_eq_header, compose_of_fits packet fits]
  exact congrArg _ (payload_append_addressed packet fits)

theorem carries_commit (contained : packet.Contained) : packet.commit.Carries packet.frame := by
  have length : packet.frame.length = packet.header.length := by
    rw [Frame.length, frame, length_payload contained, Packet.length, UInt16.ofNat_toNat]
  refine ⟨rfl, ?_⟩
  rw [Frame.wire_eq_header, Frame.header, length]
  rfl

theorem compose_snd (packet : Packet C) (frame : Frame) :
    (packet.compose frame).2 = decide (frame.payload.length ≤ C) := by
  by_cases fits : frame.payload.length ≤ C
  · rw [compose_of_fits packet fits, decide_eq_true fits]
  · have refused : (packet.addressed frame).append frame.payload =
        ({ packet.addressed frame with status := .overflow }, false) := by
      rw [append, if_neg (by intro small; apply fits; exact Nat.le_trans (Nat.le_add_right _ _) small)]
    rw [compose, ← addressed, refused, decide_eq_false fits]

theorem parts_of_wire_eq (same : packet.wire = frame.wire) : packet.header = frame.header ∧ packet.frame = frame := by
  rw [wire, Frame.wire_eq_header] at same
  obtain ⟨headers, payloads⟩ := List.append_inj same (by simp only [Frame.Header.length_bytes])
  have header := Frame.Header.bytes_injective headers
  refine ⟨header, ?_⟩
  rw [Packet.frame, header, payloads]
  rfl

theorem Holds.receiveAll_wire (holds : packet.Holds []) (fits : frame.payload.length ≤ C) :
    (packet.receiveAll frame.wire).2 = List.replicate (frame.wire.length - 1) .inProgress ++ [.completed] ∧
      (packet.receiveAll frame.wire).1.wire = frame.wire := by
  have declared := Frame.declared_wire (Frame.small_of_fits fits)
  have size : frame.wire.length = Frame.headerSize + Frame.declared frame.wire := by
    rw [Frame.length_wire, declared]
  obtain ⟨answers, held⟩ := holds.receiveAll_whole (Frame.opens_wire frame) size (by rw [declared]; exact fits)
  rw [if_pos (Frame.intact_wire frame)] at answers
  exact ⟨answers, held.wire_eq size⟩

theorem Carries.header_eq (carries : packet.Carries frame) : packet.header = frame.header :=
  (parts_of_wire_eq carries.wire).1

theorem Carries.frame_eq (carries : packet.Carries frame) : packet.frame = frame :=
  (parts_of_wire_eq carries.wire).2

theorem Carries.fits (carries : packet.Carries frame) : frame.payload.length ≤ C := by
  rw [← carries.frame_eq, Packet.frame, payload, Vector.length_toList]
  exact Nat.min_le_right _ _

theorem Carries.contained (carries : packet.Carries frame) : packet.Contained := by
  have fits := carries.fits
  rw [Contained, length, carries.header_eq, Frame.header, Frame.length, UInt16.toNat_ofNat',
    Nat.mod_eq_of_lt (Frame.small_of_fits fits)]
  exact fits

end Packet

end FramedLink
