import FramedLink.Proofs.Packet.Memory

/-! A packet that is used for receiving only. Main statement: its counters agree with each other and with the capacity,
and its declared length does whenever it has arrived whole; while the second byte of a length is awaited, the first
alone may declare more than there is room for. -/

namespace FramedLink.Packet

variable {C : Capacity} {packet : Packet C}

def Operation.isInbound : Operation → Bool
  | .receive _ | .clear | .restart => true
  | _ => false

/-- How far a packet that only receives has been filled. The length is zero until its first byte arrives. -/
structure Filling (packet : Packet C) : Prop where
  early : packet.cursor < Frame.headerSize → packet.stored = 0
  unstated : packet.cursor < 9 → packet.length = 0
  halfStated : packet.cursor = 9 → packet.length < 256
  late : Frame.headerSize ≤ packet.cursor →
    packet.cursor = Frame.headerSize + packet.stored ∧ packet.stored ≤ packet.length ∧ packet.length ≤ C

theorem filling_of_empty (early : packet.cursor < 9) (stored : packet.stored = 0) (unstated : packet.length = 0) :
    packet.Filling :=
  ⟨fun _ => stored, fun _ => unstated, fun _ => by omega, fun late => by simp only [Frame.headerSize] at late; omega⟩

theorem filling_of_whole (whole : packet.cursor = Frame.headerSize) (stored : packet.stored = 0)
    (contained : packet.length ≤ C) : packet.Filling := by
  simp only [Frame.headerSize] at whole
  refine ⟨fun _ => stored, fun _ => by omega, fun _ => by omega, fun _ => ⟨?_, by omega, contained⟩⟩
  simp only [Frame.headerSize]
  omega

theorem filling_fresh : (fresh : Packet C).Filling :=
  filling_of_empty (Nat.zero_lt_succ _) rfl rfl

theorem Filling.withStatus (filling : packet.Filling) (status : Status) :
    ({ packet with status := status } : Packet C).Filling :=
  ⟨filling.early, filling.unstated, filling.halfStated, filling.late⟩

theorem Filling.settle (filling : packet.Filling) : packet.settle.1.Filling := by
  rw [settle_fst]
  exact filling.withStatus _

theorem Filling.putHeader (filling : packet.Filling) (early : packet.cursor < 9) (byte : UInt8) :
    (packet.putHeader byte).Filling := by
  have stored := filling.early (by simp only [Frame.headerSize]; omega)
  have unstated := filling.unstated early
  refine ⟨fun _ => stored, ?_, ?_, ?_⟩
  · intro before
    simp only [Packet.putHeader] at before
    simp only [Packet.length, Packet.putHeader, Frame.Header.length_set (show packet.cursor < 8 by omega)]
    exact unstated
  · intro last
    have cursor : packet.cursor = 8 := by simpa [Packet.putHeader] using last
    have zero : packet.header.length = 0 := UInt16.toNat_inj.mp unstated
    have single := byte.toNat_lt
    simp only [Packet.length, Packet.putHeader, cursor, Frame.Header.set, zero, Word.setLow, Word.toNat_ofBytes]
    exact single
  · intro late
    simp only [Packet.putHeader, Frame.headerSize] at late
    omega

theorem Filling.putPayload (filling : packet.Filling) (whole : Frame.headerSize ≤ packet.cursor)
    (more : packet.stored < packet.length) (byte : UInt8) : (packet.putPayload byte).Filling := by
  obtain ⟨cursor, -, contained⟩ := filling.late whole
  simp only [Frame.headerSize] at whole cursor
  refine ⟨?_, ?_, ?_, ?_⟩ <;> intro position <;> simp only [Packet.putPayload, Frame.headerSize] at position
  · omega
  · omega
  · omega
  · refine ⟨?_, more, contained⟩
    simp only [Packet.putPayload, Frame.headerSize]
    omega

theorem Filling.receive (filling : packet.Filling) (byte : UInt8) : (packet.receive byte).1.Filling := by
  unfold Packet.receive
  split
  · split
    · exact (filling.putHeader (by omega) byte).withStatus _
    · have stored := filling.early (by simp only [Frame.headerSize]; omega)
      have unstated := filling.unstated (by omega)
      exact filling_of_empty (Nat.zero_lt_succ _) stored unstated
  · split
    · exact (filling.putHeader (by omega) byte).withStatus _
    · split
      · rename_i last
        -- The length is whole: it is checked at once, and set to zero if it is refused.
        have cursor : packet.cursor + 1 = Frame.headerSize := by rw [last]; rfl
        simp only
        split
        · rename_i accepted
          exact Filling.settle (filling_of_whole cursor rfl accepted)
        · exact Filling.withStatus (filling_of_whole cursor rfl (Nat.zero_le _)) _
      · split
        · rename_i more
          exact (filling.putPayload (by simp only [Frame.headerSize]; omega) more byte).settle
        · exact filling.withStatus _

theorem Filling.perform (filling : packet.Filling) {operation : Operation} (inbound : operation.isInbound) :
    (packet.perform operation).1.Filling := by
  cases operation with
  | receive byte => exact filling.receive byte
  | clear => exact filling_fresh
  | restart => exact filling_of_empty (Nat.zero_lt_succ _) rfl rfl
  | _ => cases inbound

theorem Filling.performAll (filling : packet.Filling) {operations : List Operation}
    (inbound : ∀ operation ∈ operations, operation.isInbound) : (packet.performAll operations).1.Filling := by
  induction operations generalizing packet with
  | nil => exact filling
  | cons operation operations ih =>
    exact ih (filling.perform (inbound operation (.head _))) fun other member => inbound other (.tail _ member)

theorem Filling.contained_or (filling : packet.Filling) :
    packet.length ≤ C ∨ packet.cursor = 9 ∧ packet.length < 256 := by
  by_cases late : Frame.headerSize ≤ packet.cursor
  · exact .inl (filling.late late).2.2
  · by_cases last : packet.cursor = 9
    · exact .inr ⟨last, filling.halfStated last⟩
    · have unstated := filling.unstated (by simp only [Frame.headerSize] at late; omega)
      exact .inl (by omega)

theorem Filling.stored_le (filling : packet.Filling) : packet.stored ≤ packet.length := by
  by_cases late : Frame.headerSize ≤ packet.cursor
  · exact (filling.late late).2.1
  · rw [filling.early (by omega)]
    exact Nat.zero_le _

theorem Filling.cursor_le (filling : packet.Filling) : packet.cursor ≤ Frame.headerSize + C := by
  by_cases late : Frame.headerSize ≤ packet.cursor
  · obtain ⟨cursor, stored, contained⟩ := filling.late late
    omega
  · omega

namespace Memory

theorem loadAll_beyond {memory : Memory C} {index count : Nat} (start : index ≤ Frame.headerSize + C)
    (beyond : Frame.headerSize + C < index + count) : memory.loadAll index count = none := by
  induction count generalizing index with
  | zero => omega
  | succ count ih =>
    rw [loadAll]
    by_cases inside : index < Frame.headerSize + C
    · rw [ih inside (by omega)]
      cases memory.load index <;> rfl
    · have here : memory.load index = none := Vector.getElem?_eq_none (by omega)
      rw [here]
      rfl

end Memory

theorem wire_memory_beyond (beyond : C < packet.length) : packet.memory.wire = none := by
  rw [Memory.wire, length_memory, Option.bind_eq_bind, Option.bind_some]
  apply Memory.loadAll_beyond <;> simp only [Frame.markerOffset] <;> omega

theorem payload_memory_beyond (beyond : C < packet.length) : packet.memory.payload = none := by
  rw [Memory.payload, length_memory, Option.bind_eq_bind, Option.bind_some]
  apply Memory.loadAll_beyond <;> simp only [Frame.payloadOffset, Frame.headerSize] <;> omega

theorem isValid_memory_beyond (beyond : C < packet.length) : packet.memory.isValid = none := by
  have uncovered : packet.memory.contentChecksum = none := by
    rw [Memory.contentChecksum, length_memory, Option.bind_eq_bind, Option.bind_some, Memory.loadAll_beyond] <;>
      simp only [Frame.coveredOffset, Frame.requestOffset, Frame.headerSize, Option.bind_eq_bind, Option.bind_none] <;>
      omega
  rw [Memory.isValid, uncovered]
  rfl

theorem performAll_receive (packet : Packet C) (bytes : Bytes) :
    (packet.performAll (bytes.map .receive)).1 = (packet.receiveAll bytes).1 := by
  induction bytes generalizing packet with
  | nil => rfl
  | cons byte bytes ih => exact ih _

theorem Holds.length_mod {bytes : Bytes} (holds : packet.Holds bytes) (half : bytes.length = 9) :
    packet.length % 256 = (bytes.getD 8 0).toNat := by
  have header := holds.header
  rw [half, List.take_of_length_le (l := bytes) (by rw [half]; decide)] at header
  rw [← header, Packet.length, ← Word.toNat_low]
  rfl

private def firstLengthByte : Bytes :=
  [0x55, 0x55, 0, 0, 0, 0, 0, 0, 255]

/-- A packet that only receives keeps its counters within its length and its capacity. Its declared length may exceed
the capacity after the ninth byte of a frame, where fewer than 255 bytes fit, and only then do reads reach beyond the
buffer. -/
theorem inbound_within_capacity (C : Capacity) :
    (∀ operations : List Operation, (∀ operation ∈ operations, operation.isInbound) →
      let packet := ((fresh : Packet C).performAll operations).1
      packet.stored ≤ packet.length ∧ packet.cursor ≤ Frame.headerSize + C ∧
        (C < packet.length → packet.cursor = 9 ∧ packet.length < 256 ∧
          packet.memory.wire = none ∧ packet.memory.payload = none ∧ packet.memory.isValid = none) ∧
        (packet.length ≤ C → packet.memory.wire = some packet.wire ∧
          packet.memory.payload = some packet.payload ∧ packet.memory.isValid = some packet.isValid)) ∧
    ((∀ operations : List Operation, (∀ operation ∈ operations, operation.isInbound) →
      ((fresh : Packet C).performAll operations).1.length ≤ C) ↔ 255 ≤ C.val) := by
  refine ⟨?_, ?_, ?_⟩
  · intro operations inbound packet
    have filling : packet.Filling := filling_fresh.performAll inbound
    refine ⟨filling.stored_le, filling.cursor_le, ?_, ?_⟩
    · intro beyond
      have half := filling.contained_or.resolve_left (Nat.not_le_of_lt beyond)
      exact ⟨half.1, half.2, wire_memory_beyond beyond, payload_memory_beyond beyond, isValid_memory_beyond beyond⟩
    · intro contained
      exact ⟨wire_memory contained, payload_memory contained, isValid_memory contained⟩
  · intro always
    have opens : Frame.Opens firstLengthByte := by
      intro byte member
      simpa [firstLengthByte, Frame.markerByte] using member
    have arriving : Frame.verdict C firstLengthByte = .inProgress :=
      Frame.verdict_eq_inProgress_iff.mpr (.inl (by decide))
    have held : ((fresh : Packet C).receiveAll firstLengthByte).1.Holds firstLengthByte :=
      (Ready.fresh.holds.receiveAll opens arriving).2
    have first := held.length_mod rfl
    have within := always (firstLengthByte.map .receive) (by decide)
    rw [performAll_receive] at within
    have single : (firstLengthByte.getD 8 0).toNat = 255 := rfl
    omega
  · intro roomy operations inbound
    have filling : ((fresh : Packet C).performAll operations).1.Filling := filling_fresh.performAll inbound
    rcases filling.contained_or with contained | ⟨-, single⟩
    · exact contained
    · omega

theorem inbound_within_capacity_of_full_frame :
    let packet := ((fresh : Packet ⟨255, by decide⟩).performAll ((Frame.wire ⟨5, 6, [9]⟩).map .receive)).1
    (packet.stored ≤ packet.length ∧ packet.cursor ≤ Frame.headerSize + 255) ∧
      packet.length ≤ 255 ∧ packet.memory.payload = some [9] := by
  obtain ⟨always, roomy⟩ := inbound_within_capacity ⟨255, by decide⟩
  have counters := always ((Frame.wire ⟨5, 6, [9]⟩).map .receive) (by decide +kernel)
  have contained := roomy.mpr (by decide) ((Frame.wire ⟨5, 6, [9]⟩).map .receive) (by decide +kernel)
  exact ⟨⟨counters.1, counters.2.1⟩, contained, (counters.2.2.2 contained).2.1.trans (by decide +kernel)⟩

/-- Nine bytes of a frame may declare what a packet without room for payload cannot hold. -/
theorem declared_beyond_capacity :
    let packet := ((fresh : Packet ⟨0, by decide⟩).performAll ([0x55, 0x55, 0, 0, 0, 0, 0, 0, 5].map .receive)).1
    ¬ packet.length ≤ 0 ∧ packet.memory.wire = none ∧ packet.memory.payload = none ∧ packet.memory.isValid = none := by
  decide +kernel

end FramedLink.Packet
