import FramedLink.Proofs.Packet.Composition
import FramedLink.Proofs.Receiver.Containment

/-! Frames on their way to a receiver, of which a part may have arrived. Main statement: the next byte either
continues the first of them or completes it, and then the others are still to come. -/

namespace FramedLink

namespace Frame

theorem verdict_of_split {C : Capacity} {frame : Frame} {bytes more : Bytes} (fits : frame.payload.length ≤ C)
    (split : bytes ++ more = frame.wire) :
    verdict C bytes = if more = [] then .completed else .inProgress := by
  have declared := declared_wire (small_of_fits fits)
  have size := length_wire frame
  by_cases last : more = []
  · rw [last, List.append_nil] at split
    rw [if_pos last, split, verdict_of_accepted (by omega) (by omega), if_neg (by omega), if_pos (intact_wire frame)]
  · rw [if_neg last, verdict_eq_inProgress_iff]
    have some : 0 < more.length := List.length_pos_iff.mpr last
    rw [← split, List.length_append] at size
    by_cases short : bytes.length < headerSize
    · exact .inl short
    · rw [← split, declared_append (by omega)] at declared
      exact .inr ⟨by omega, by omega⟩

end Frame

namespace Packet

variable {C : Capacity} {packet : Packet C} {byte : UInt8} {coming : Bytes} {frames : List Frame}

/-- With the bytes that are coming the packet will have received the frames. -/
structure Awaits (packet : Packet C) (coming : Bytes) (frames : List Frame) : Prop where
  fits : ∀ frame ∈ frames, frame.payload.length ≤ C
  arrived : ∃ arrived, packet.Holds arrived ∧ Frame.verdict C arrived = .inProgress ∧
    arrived ++ coming = frames.flatMap Frame.wire

theorem Holds.awaits (rests : packet.Holds []) : packet.Awaits [] [] :=
  ⟨by simp, [], rests, rfl, rfl⟩

theorem Awaits.append (awaits : packet.Awaits coming frames) {more : List Frame}
    (fits : ∀ frame ∈ more, frame.payload.length ≤ C) :
    packet.Awaits (coming ++ more.flatMap Frame.wire) (frames ++ more) := by
  obtain ⟨before, arrived, holds, unfinished, split⟩ := awaits
  refine ⟨?_, arrived, holds, unfinished, ?_⟩
  · intro frame member
    rcases List.mem_append.mp member with earlier | later
    · exact before frame earlier
    · exact fits frame later
  · rw [← List.append_assoc, split, List.flatMap_append]

private theorem Awaits.not_whole {frame : Frame} {rest : List Frame} {arrived more : Bytes}
    (awaits : packet.Awaits coming (frame :: rest)) (unfinished : Frame.verdict C arrived = .inProgress)
    (whole : arrived = frame.wire ++ more) : False := by
  rw [whole] at unfinished
  have completed := Frame.verdict_of_append unfinished
  rw [Frame.verdict_of_split (awaits.fits frame (.head _)) (List.append_nil _), if_pos rfl] at completed
  cases completed

theorem Awaits.eq_nil (awaits : packet.Awaits [] frames) : frames = [] := by
  obtain ⟨-, arrived, -, unfinished, split⟩ := id awaits
  cases frames with
  | nil => rfl
  | cons frame rest =>
    rw [List.append_nil, List.flatMap_cons] at split
    exact (awaits.not_whole unfinished split).elim

theorem Awaits.split (awaits : packet.Awaits (byte :: coming) frames) :
    ∃ arrived frame rest more, frames = frame :: rest ∧ packet.Holds arrived ∧
      Frame.verdict C arrived = .inProgress ∧ arrived ++ byte :: more = frame.wire ∧
      coming = more ++ rest.flatMap Frame.wire := by
  obtain ⟨-, arrived, holds, unfinished, split⟩ := id awaits
  cases frames with
  | nil => simp at split
  | cons frame rest =>
    -- What has arrived ends within the first frame or behind it, and in the latter case it would be complete.
    rw [List.flatMap_cons, List.append_eq_append_iff] at split
    rcases split with ⟨more, first, others⟩ | ⟨beyond, early, -⟩
    · cases more with
      | nil =>
        have whole : arrived = frame.wire ++ [] := by rw [first, List.append_nil, List.append_nil]
        exact (awaits.not_whole unfinished whole).elim
      | cons next more =>
        rw [List.cons_append, List.cons.injEq] at others
        obtain ⟨rfl, others⟩ := others
        exact ⟨arrived, frame, rest, more, rfl, holds, unfinished, first.symm, others⟩
    · exact (awaits.not_whole unfinished early).elim

theorem Awaits.receive (awaits : packet.Awaits (byte :: coming) frames) :
    ((packet.receive byte).2 = .inProgress ∧ (packet.receive byte).1.Awaits coming frames) ∨
      ∃ frame rest, frames = frame :: rest ∧ (packet.receive byte).2 = .completed ∧
        (packet.receive byte).1.wire = frame.wire ∧ (packet.receive byte).1.restart.Awaits coming rest := by
  obtain ⟨arrived, frame, rest, more, rfl, holds, unfinished, first, others⟩ := awaits.split
  have fits := awaits.fits frame (.head _)
  have joined : (arrived ++ [byte]) ++ more = frame.wire := by rw [← first, List.append_assoc]; rfl
  have opens : Frame.Opens (arrived ++ [byte]) := Frame.opens_of_append (joined ▸ Frame.opens_wire frame)
  have verdict := Frame.verdict_of_split fits joined
  obtain ⟨answer, advanced⟩ := holds.receive opens unfinished
  have held := advanced.holds (by rw [verdict]; split <;> simp)
  rw [verdict] at answer
  by_cases last : more = []
  · rw [last, List.append_nil] at joined
    rw [if_pos last] at answer
    have size : (arrived ++ [byte]).length = Frame.headerSize + Frame.declared (arrived ++ [byte]) := by
      rw [joined, Frame.length_wire, Frame.declared_wire (Frame.small_of_fits fits)]
    refine .inr ⟨frame, rest, rfl, answer, by rw [held.wire_eq size, joined], ?_⟩
    refine ⟨fun other member => awaits.fits other (.tail _ member), [], (Ready.restart _).holds, rfl, ?_⟩
    rw [others, last]
    rfl
  · rw [if_neg last] at answer verdict
    refine .inl ⟨answer, awaits.fits, arrived ++ [byte], held, verdict, ?_⟩
    rw [others, ← List.append_assoc, joined]
    rfl

end Packet

namespace Receiver

variable {C : Capacity} {receiver : Receiver C} {byte : UInt8} {coming : Bytes} {frames : List Frame}

theorem take_of_awaits (awaits : receiver.packet.Awaits (byte :: coming) frames) :
    (∃ packet : Packet C, receiver.take byte = (⟨packet, false⟩, none) ∧ packet.Awaits coming frames) ∨
      ∃ frame rest packet, frames = frame :: rest ∧
        receiver.take byte = (⟨packet.restart, false⟩, some (.frame packet)) ∧ packet.wire = frame.wire ∧
        packet.restart.Awaits coming rest := by
  rcases awaits.receive with ⟨answer, still⟩ | ⟨frame, rest, first, answer, wire, others⟩
  · exact .inl ⟨_, take_of_inProgress answer, still⟩
  · exact .inr ⟨frame, rest, _, first, take_of_completed answer, wire, others⟩

end Receiver

end FramedLink
