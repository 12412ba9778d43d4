import FramedLink.Packet.Outbound
import FramedLink.Proofs.Packet.Assembly

/-! What a packet has yet to emit. Main statement: each byte that is taken is the next of these, and with the last one
gone the packet is as it was before the first, but for its status. -/

namespace FramedLink.Packet

variable {C : Capacity} {packet next : Packet C} {byte : UInt8}

/-- The bytes that can still be taken before the cursor returns to the first one. -/
def rest (packet : Packet C) : Bytes :=
  (List.range' packet.cursor (packet.frameSize - packet.cursor)).map packet.byteAt

def spent (packet : Packet C) : Packet C :=
  { packet with cursor := 0, status := .exhausted }

theorem emit_contents (packet : Packet C) :
    packet.emit.1.header = packet.header ∧ packet.emit.1.buffer = packet.buffer := by
  unfold emit
  split <;> exact ⟨rfl, rfl⟩

theorem spent_emit (packet : Packet C) : packet.emit.1.spent = packet.spent := by
  unfold emit
  split <;> rfl

theorem rest_of_emit (taken : packet.emit = (next, some byte)) : packet.rest = byte :: next.rest := by
  unfold emit at taken
  split at taken
  · rename_i inside
    simp only [Prod.mk.injEq, Option.some.injEq] at taken
    obtain ⟨rfl, rfl⟩ := taken
    obtain ⟨more, count⟩ : ∃ more, packet.frameSize - packet.cursor = more + 1 := ⟨_, (Nat.succ_pred (by omega)).symm⟩
    have fewer : packet.frameSize - (packet.cursor + 1) = more := by omega
    rw [rest, count, List.range'_succ, List.map_cons]
    simp only [rest, frameSize, length] at fewer ⊢
    rw [fewer]
    rfl
  · simp at taken

theorem rest_of_exhausted (taken : packet.emit = (next, none)) : packet.rest = [] ∧ next = packet.spent := by
  unfold emit at taken
  split at taken
  · simp at taken
  · rename_i outside
    simp only [Prod.mk.injEq, and_true] at taken
    refine ⟨?_, taken.symm⟩
    rw [rest, Nat.sub_eq_zero_of_le (by omega)]
    rfl

theorem getElem?_wire (contained : packet.Contained) {position : Nat} (inside : position < packet.frameSize) :
    packet.wire[position]? = some (packet.byteAt position) := by
  have size := Frame.Header.length_bytes packet.header
  rw [wire, byteAt]
  by_cases early : position < Frame.headerSize
  · have bound : position < packet.header.bytes.length := by omega
    rw [if_pos early, List.getElem?_append_left bound, List.getD_eq_getElem?_getD, List.getElem?_eq_getElem bound]
    rfl
  · rw [frameSize] at inside
    rw [Contained] at contained
    have bound : position - Frame.headerSize < C.val := by omega
    have counted : position - Frame.headerSize < packet.length := by omega
    rw [if_neg early, List.getElem?_append_right (by omega), size, payload, Vector.toList_take,
      List.getElem?_take_of_lt counted, Vector.getElem?_toList, Vector.getElem?_eq_getElem bound]
    rfl

theorem length_wire (contained : packet.Contained) : packet.wire.length = packet.frameSize := by
  rw [wire, List.length_append, Frame.Header.length_bytes, length_payload contained, frameSize]

theorem rest_eq_drop (contained : packet.Contained) : packet.rest = packet.wire.drop packet.cursor := by
  apply List.ext_getElem?
  intro index
  rw [rest, List.getElem?_map, List.getElem?_drop]
  by_cases inside : index < packet.frameSize - packet.cursor
  · rw [List.getElem?_range' inside, getElem?_wire contained (by omega)]
    simp
  · have beyond : packet.wire.length ≤ packet.cursor + index := by
      rw [length_wire contained]
      omega
    rw [List.getElem?_eq_none (by rw [List.length_range']; omega), List.getElem?_eq_none beyond]
    rfl

end FramedLink.Packet
