import FramedLink.Proofs.Packet.Composition
import FramedLink.Proofs.Packet.Grammar

/-! Composing and receiving undo each other. A composed frame comes out of any packet with room for it as it
went in, also where the capacities differ, and what a packet completes is what composing would send. -/

namespace FramedLink

namespace Frame

theorem underway_suffix (stream : Bytes) : underway stream <:+ stream := by
  cases found : markerStart? stream with
  | some start =>
    rw [underway_of_found found]
    exact List.drop_suffix _ _
  | none =>
    rw [underway_of_search found]
    split
    · rename_i last
      obtain ⟨earlier, rfl⟩ := List.getLast?_eq_some_iff.mp last
      exact List.suffix_append _ _
    · exact List.nil_suffix

end Frame

namespace Packet

variable {C : Capacity} {packet : Packet C} {bytes : Bytes}

/-- The packet has been fed the bytes. It may have been cleared or restarted at any time. -/
inductive Fed : Packet C → Bytes → Prop
  | ready {packet : Packet C} : packet.Ready → Fed packet []
  | receive {packet : Packet C} {bytes : Bytes} (byte : UInt8) :
      Fed packet bytes → Fed (packet.receive byte).1 (bytes ++ [byte])
  | clear {packet : Packet C} {bytes : Bytes} : Fed packet bytes → Fed packet.clear bytes
  | restart {packet : Packet C} {bytes : Bytes} : Fed packet bytes → Fed packet.restart bytes

theorem Fed.receiveAll (fed : packet.Fed bytes) (more : Bytes) : (packet.receiveAll more).1.Fed (bytes ++ more) := by
  induction more generalizing packet bytes with
  | nil => rwa [List.append_nil]
  | cons byte more ih =>
    rw [List.append_cons]
    exact ih (fed.receive byte)

theorem Fed.follows (fed : packet.Fed bytes) : ∃ recent, recent <:+ bytes ∧ packet.Follows recent := by
  induction fed with
  | ready ready => exact ⟨[], List.nil_suffix, ready.holds.follows []⟩
  | receive byte _ ih =>
    obtain ⟨recent, ⟨earlier, split⟩, follows⟩ := ih
    refine ⟨recent ++ [byte], ⟨earlier, ?_⟩, (follows.receive byte).2⟩
    rw [← split, List.append_assoc]
  | @clear before => exact ⟨[], List.nil_suffix, (Ready.clear before).holds.follows []⟩
  | @restart before => exact ⟨[], List.nil_suffix, (Ready.restart before).holds.follows []⟩

theorem wire_compose (packet : Packet C) {frame : Frame} (fits : frame.payload.length ≤ C) :
    let fields := [Word.low frame.request, Word.high frame.request, Word.low frame.response,
      Word.high frame.response, Word.low frame.length, Word.high frame.length]
    let checksum := Checksum.ofBytes (fields ++ frame.payload)
    (packet.compose frame).1.wire =
      [0x55, 0x55, Word.low checksum, Word.high checksum] ++ fields ++ frame.payload := by
  rw [(carries_compose packet fits).wire]
  rfl

theorem receiveAll_compose {D : Capacity} (ready : packet.Ready) (sender : Packet D) {frame : Frame}
    (composed : frame.payload.length ≤ D) (fits : frame.payload.length ≤ C) :
    let sent := (sender.compose frame).1
    let after := (packet.receiveAll sent.wire).1
    (packet.receiveAll sent.wire).2 = List.replicate (sent.wire.length - 1) .inProgress ++ [.completed] ∧
      after.header = sent.header ∧ after.frame = frame := by
  have carries := carries_compose sender composed
  obtain ⟨answers, wire⟩ := ready.holds.receiveAll_wire fits
  obtain ⟨header, contents⟩ := parts_of_wire_eq wire
  simp only [carries.wire, carries.header_eq]
  exact ⟨answers, header, contents⟩

theorem receiveAll_compose_of_too_long {D : Capacity} (ready : packet.Ready) (sender : Packet D) {frame : Frame}
    (composed : frame.payload.length ≤ D) (long : C < frame.payload.length) :
    let sent := (sender.compose frame).1
    let after := (packet.receiveAll sent.wire).1
    (packet.receiveAll sent.wire).2 = List.replicate 9 .inProgress ++ [.error .badLength] ++
        List.replicate frame.payload.length (.error .overflow) ∧
      after.buffer = packet.buffer ∧ after.stored = 0 := by
  have carries := carries_compose sender composed
  have wire := Frame.wire_eq_header frame
  have opens := Frame.opens_wire frame
  have declared := Frame.declared_wire (Frame.small_of_fits composed)
  rw [wire] at opens declared
  rw [Frame.declared_append (Nat.le_of_eq (Frame.Header.length_bytes _).symm)] at declared
  obtain ⟨answers, refused⟩ := ready.holds.receiveAll_oversized (Frame.opens_of_append opens)
    (Frame.Header.length_bytes _) (by rw [declared]; exact long)
  obtain ⟨others, status, last⟩ := refused.ended.receiveAll frame.payload
  simp only [carries.wire, wire, receiveAll_append, answers, others, last]
  exact ⟨trivial, refused.buffer, refused.stored⟩

theorem compose_of_completed (fed : packet.Fed bytes) {byte : UInt8}
    (completed : (packet.receive byte).2 = .completed) (other : Packet C) :
    let after := (packet.receive byte).1
    (bytes ++ [byte]).drop ((bytes ++ [byte]).length - after.frameSize) = after.wire ∧
      (other.compose after.frame).2 = true ∧ (other.compose after.frame).1.wire = after.wire := by
  obtain ⟨recent, ⟨earlier, rfl⟩, follows⟩ := fed.follows
  obtain ⟨whole, held⟩ := follows.receive_completed completed
  simp only
  generalize (packet.receive byte).1 = after at held ⊢
  have wire := held.wire_eq whole.size
  have frame := held.frame_wire_eq whole
  have size : after.frameSize = after.wire.length := by
    rw [frameSize, held.length_eq (by have := whole.size; omega), wire, whole.size]
  have last : after.wire <:+ earlier ++ recent ++ [byte] := by
    rw [wire, List.append_assoc]
    exact (Frame.underway_suffix _).trans (List.suffix_append _ _)
  have fits : after.frame.payload.length ≤ C := by
    rw [Packet.frame, payload, Vector.length_toList]
    exact Nat.min_le_right _ _
  refine ⟨?_, by rw [compose_snd, decide_eq_true fits], ?_⟩
  · rw [size, ← List.suffix_iff_eq_drop.mp last]
  · rw [(carries_compose other fits).wire, frame, wire]

/-- A composed frame has the layout of the wire, any packet with room for its payload receives it unchanged, and
any other refuses its length at the tenth byte. Conversely, what a packet completes is the last that it was fed,
and composing its frame gives it again. -/
theorem compose_receive_round_trip :
    (∀ (C D : Capacity) (sender : Packet C) (receiver : Packet D) (frame : Frame),
      frame.payload.length ≤ C → receiver.Ready →
      let fields := [Word.low frame.request, Word.high frame.request, Word.low frame.response,
        Word.high frame.response, Word.low frame.length, Word.high frame.length]
      let checksum := Checksum.ofBytes (fields ++ frame.payload)
      let sent := (sender.compose frame).1
      let after := (receiver.receiveAll sent.wire).1
      (sender.compose frame).2 = true ∧
        sent.wire = [0x55, 0x55, Word.low checksum, Word.high checksum] ++ fields ++ frame.payload ∧
        (frame.payload.length ≤ D →
          (receiver.receiveAll sent.wire).2 = List.replicate (sent.wire.length - 1) .inProgress ++ [.completed] ∧
            after.header = sent.header ∧ after.frame = frame) ∧
        (D < frame.payload.length →
          (receiver.receiveAll sent.wire).2 = List.replicate 9 .inProgress ++ [.error .badLength] ++
              List.replicate frame.payload.length (.error .overflow) ∧
            after.buffer = receiver.buffer ∧ after.stored = 0)) ∧
    (∀ (C : Capacity) (receiver other : Packet C) (fed : Bytes) (byte : UInt8),
      receiver.Fed fed → (receiver.receive byte).2 = .completed →
      let after := (receiver.receive byte).1
      (fed ++ [byte]).drop ((fed ++ [byte]).length - after.frameSize) = after.wire ∧
        (other.compose after.frame).2 = true ∧ (other.compose after.frame).1.wire = after.wire) := by
  constructor
  · intro C D sender receiver frame composed ready
    exact ⟨by rw [compose_snd, decide_eq_true composed], wire_compose sender composed,
      receiveAll_compose ready sender composed, receiveAll_compose_of_too_long ready sender composed⟩
  · intro C receiver other fed byte history completed
    exact compose_of_completed history completed other

theorem compose_receive_round_trip_of_three_bytes :
    ((fresh : Packet .standard).receiveAll
        ((default : Packet .standard).compose ⟨5, 0, [0x55, 0x55, 1]⟩).1.wire).2 =
        List.replicate 12 .inProgress ++ [.completed] ∧
      ((fresh : Packet ⟨2, by decide⟩).receiveAll
        ((default : Packet .standard).compose ⟨5, 0, [0x55, 0x55, 1]⟩).1.wire).2 =
        List.replicate 9 .inProgress ++ [.error .badLength] ++ List.replicate 3 (.error .overflow) ∧
      ((default : Packet .standard).compose
        (((fresh : Packet .standard).receiveAll [0x55, 0x55, 0, 0xdd, 5, 0, 6, 0, 0]).1.receive 0).1.frame).1.wire =
        [0x55, 0x55, 0, 0xdd, 5, 0, 6, 0, 0, 0] := by
  have forth := compose_receive_round_trip.1
  have back := compose_receive_round_trip.2
  have roomy := (forth .standard .standard default fresh ⟨5, 0, [0x55, 0x55, 1]⟩ (by decide) .fresh).2.2.1 (by decide)
  have narrow := (forth .standard ⟨2, by decide⟩ default fresh ⟨5, 0, [0x55, 0x55, 1]⟩ (by decide) .fresh).2.2.2
    (by decide)
  have again := (back .standard _ default _ 0 ((Fed.ready .fresh).receiveAll [0x55, 0x55, 0, 0xdd, 5, 0, 6, 0, 0])
    (by decide +kernel)).2.2
  exact ⟨roomy.1.trans (by decide +kernel), narrow.1, again.trans (by decide +kernel)⟩

end Packet

end FramedLink
