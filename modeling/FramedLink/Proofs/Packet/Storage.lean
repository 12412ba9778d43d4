import FramedLink.Proofs.Packet.Grammar
import FramedLink.Proofs.Packet.Renewal

/-! Where a packet that only receives puts the bytes of a payload. Main statement: the bytes stored so far stand at the
front of the buffer, in the order in which they arrived after the header, and the rest of the buffer is as it was when
the packet was last emptied. -/

namespace FramedLink.Packet

variable {C : Capacity} {packet before after : Packet C} {stream : Bytes} {byte : UInt8}

/-- A frame that may be complete is answered for as such just when all of its payload is there. -/
structure Settled (after : Packet C) (outcome : Outcome) : Prop where
  terminal : outcome.status.isTerminal = true ↔ after.length ≤ after.stored
  accepted : outcome ≠ .error .overflow

theorem settled_settle (packet : Packet C) : Settled packet.settle.1 packet.settle.2 := by
  unfold settle
  by_cases more : packet.stored < packet.length
  · rw [if_pos more]
    exact ⟨iff_of_false Bool.false_ne_true (Nat.not_le_of_lt more), by simp [proceed]⟩
  · have whole : packet.length ≤ packet.stored := Nat.le_of_not_lt more
    rw [if_neg more]
    split
    · exact ⟨iff_of_true rfl whole, by simp⟩
    · exact ⟨iff_of_true rfl whole, by simp [fail]⟩

inductive Received (packet : Packet C) (byte : UInt8) (after : Packet C) (outcome : Outcome) : Prop
  | early (unfilled : packet.cursor < 9) (cursor : after.cursor < Frame.headerSize)
      (stored : after.stored = packet.stored) (buffer : after.buffer = packet.buffer)
      (answer : outcome = .inProgress ∨ outcome = .error .noMarker)
  | begun (last : packet.cursor = 9) (cursor : after.cursor = Frame.headerSize) (stored : after.stored = 0)
      (buffer : after.buffer = packet.buffer) (answer : Settled after outcome)
  | added (whole : Frame.headerSize ≤ packet.cursor) (more : packet.stored < packet.length)
      (cursor : after.cursor = packet.cursor + 1) (stored : after.stored = packet.stored + 1)
      (length : after.length = packet.length) (buffer : after.buffer = packet.buffer.setIfInBounds packet.stored byte)
      (answer : Settled after outcome)
  | refused (ended : packet.Ended) (same : after = { packet with status := .overflow })
      (answer : outcome = .error .overflow)

theorem received (packet : Packet C) (byte : UInt8) :
    packet.Received byte (packet.receive byte).1 (packet.receive byte).2 := by
  fun_cases receive packet byte with
  | case1 | case3 =>
    have unfilled : packet.cursor < 9 := by omega
    exact .early unfilled (Nat.succ_lt_succ unfilled) rfl rfl (.inl rfl)
  | case2 waiting => exact .early (by omega) (Nat.zero_lt_succ _) rfl rfl (.inr rfl)
  | case4 _ _ last =>
    have cursor : packet.cursor + 1 = Frame.headerSize := by rw [last]; rfl
    have settled := settled_settle { packet.putHeader byte with stored := 0 }
    rw [settle_fst] at settled ⊢
    exact .begun last cursor rfl rfl settled
  | case5 _ _ last =>
    have cursor : packet.cursor + 1 = Frame.headerSize := by rw [last]; rfl
    exact .begun last cursor rfl rfl ⟨iff_of_true rfl (Nat.le_refl 0), by simp [fail]⟩
  | case6 waiting early last more =>
    have whole : Frame.headerSize ≤ packet.cursor := by simp only [Frame.headerSize]; omega
    have settled := settled_settle (packet.putPayload byte)
    rw [settle_fst] at settled ⊢
    exact .added whole more rfl rfl rfl rfl settled
  | case7 waiting early last full =>
    have whole : Frame.headerSize ≤ packet.cursor := by simp only [Frame.headerSize]; omega
    exact .refused ⟨whole, Nat.le_of_not_lt full⟩ rfl rfl

theorem Follows.holds (follows : packet.Follows stream) (unended : ¬ packet.Ended) :
    packet.Holds (Frame.underway stream) := by
  unfold Follows at follows
  split at follows
  · exact follows
  · exact absurd follows unended

/-- The packet has received the stream since it stood empty, with the buffer that it had before. -/
structure Storing (before packet : Packet C) (stream : Bytes) : Prop where
  follows : packet.Follows stream
  behind : packet.buffer.toList.drop packet.stored = before.buffer.toList.drop packet.stored
  front : Frame.headerSize ≤ packet.cursor →
    Frame.headerSize ≤ (Frame.underway stream).length ∧
      packet.stored = min packet.length ((Frame.underway stream).length - Frame.headerSize) ∧
      packet.buffer.toList.take packet.stored = ((Frame.underway stream).drop Frame.headerSize).take packet.stored

theorem Holds.storing (holds : packet.Holds []) : Storing packet packet [] := by
  refine ⟨holds.follows [], rfl, ?_⟩
  intro late
  rw [holds.cursor] at late
  cases late

theorem underway_concat_of_whole (whole : Frame.headerSize ≤ (Frame.underway stream).length) (byte : UInt8) :
    Frame.underway (stream ++ [byte]) = Frame.underway stream ++ [byte] := by
  simp only [Frame.headerSize] at whole
  rw [Frame.underway_concat, if_neg (by omega)]

theorem Storing.begun (storing : Storing before packet stream) (last : packet.cursor = 9)
    (follows : after.Follows (stream ++ [byte])) (stored : after.stored = 0) (buffer : after.buffer = packet.buffer) :
    Storing before after (stream ++ [byte]) := by
  have unended : ¬ packet.Ended := by
    intro ended
    have late := ended.cursor
    simp only [Frame.headerSize] at late
    omega
  have holds := storing.follows.holds unended
  have size : (Frame.underway stream).length = 9 := by rw [← holds.cursor, last]
  have nothing : packet.stored = 0 := by rw [holds.stored, size]; rfl
  have longer : Frame.underway (stream ++ [byte]) = Frame.underway stream ++ [byte] := by
    rw [Frame.underway_concat, if_neg (by omega)]
  refine ⟨follows, by rw [buffer, stored, ← nothing, storing.behind], ?_⟩
  intro
  rw [longer, List.length_append, size, stored]
  exact ⟨Nat.le_refl _, (Nat.min_zero _).symm, rfl⟩

theorem Storing.added (storing : Storing before packet stream) (whole : Frame.headerSize ≤ packet.cursor)
    (room : packet.stored < C) (more : packet.stored < packet.length) (follows : after.Follows (stream ++ [byte]))
    (stored : after.stored = packet.stored + 1) (length : after.length = packet.length)
    (buffer : after.buffer = packet.buffer.setIfInBounds packet.stored byte) :
    Storing before after (stream ++ [byte]) := by
  -- The frame is short of bytes, so none that arrived after the header has been refused yet.
  obtain ⟨arrived, count, front⟩ := storing.front whole
  have all : packet.stored = (Frame.underway stream).length - Frame.headerSize := by omega
  have taken : packet.buffer.toList.take packet.stored = (Frame.underway stream).drop Frame.headerSize := by
    rw [front, List.take_of_length_le (by rw [List.length_drop]; omega)]
  have written : (packet.buffer.setIfInBounds packet.stored byte).toList.take (packet.stored + 1) =
      packet.buffer.toList.take packet.stored ++ [byte] :=
    take_overwrite packet.buffer packet.stored [byte] room
  have behind := congrArg (List.drop 1) storing.behind
  rw [List.drop_drop, List.drop_drop] at behind
  refine ⟨follows, ?_, ?_⟩
  · rw [buffer, stored, Vector.toList_setIfInBounds, List.drop_set_of_lt (Nat.lt_succ_self _), behind]
  · intro
    rw [underway_concat_of_whole arrived, List.length_append, List.length_singleton, stored, length, buffer, written,
      taken, List.drop_append_of_le_length arrived, List.take_of_length_le (i := packet.stored + 1)]
    · exact ⟨by omega, by omega, rfl⟩
    · rw [List.length_append, List.length_drop, List.length_singleton]
      omega

theorem Storing.refused (storing : Storing before packet stream) (ended : packet.Ended) (status : Status)
    (follows : ({ packet with status := status } : Packet C).Follows (stream ++ [byte])) :
    Storing before { packet with status := status } (stream ++ [byte]) := by
  -- The stream grows past the end of the frame: the minimum is the length by now, and stays it.
  obtain ⟨arrived, count, front⟩ := storing.front ended.cursor
  have full := ended.stored
  have kept : packet.stored ≤ ((Frame.underway stream).drop Frame.headerSize).length := by
    rw [List.length_drop]
    omega
  have still : packet.stored = min packet.length ((Frame.underway stream).length + 1 - Frame.headerSize) := by omega
  refine ⟨follows, storing.behind, ?_⟩
  intro
  rw [underway_concat_of_whole arrived, List.length_append, List.drop_append_of_le_length arrived,
    List.take_append_of_le_length kept]
  exact ⟨Nat.le_succ_of_le arrived, still, front⟩

theorem Storing.receive (storing : Storing before packet stream) (filling : packet.Filling) (byte : UInt8) :
    Storing before (packet.receive byte).1 (stream ++ [byte]) := by
  have follows := (storing.follows.receive byte).2
  have received := packet.received byte
  generalize (packet.receive byte).1 = after at follows received
  cases received with
  | early unfilled cursor stored buffer =>
    refine ⟨follows, by rw [buffer, stored, storing.behind], ?_⟩
    intro late
    omega
  | begun last cursor stored buffer => exact storing.begun last follows stored buffer
  | added whole more cursor stored length buffer =>
    have room := Nat.lt_of_lt_of_le more (filling.late whole).2.2
    exact storing.added whole room more follows stored length buffer
  | refused ended same =>
    subst same
    exact storing.refused ended _ follows

theorem Storing.receiveAll (storing : Storing before packet stream) (filling : packet.Filling) (bytes : Bytes) :
    Storing before (packet.receiveAll bytes).1 (stream ++ bytes) := by
  induction bytes generalizing packet stream with
  | nil => rwa [List.append_nil]
  | cons byte bytes ih =>
    rw [List.append_cons]
    exact ih (storing.receive filling byte) (filling.receive byte)

def Operation.empties : Operation → Bool
  | .clear | .restart => true
  | _ => false

/-- Nothing has been done with a packet, or it was emptied last. -/
def Emptied (operations : List Operation) : Prop :=
  ∀ operation ∈ operations.getLast?, operation.empties

theorem exists_arrivals {operations : List Operation} (inbound : ∀ operation ∈ operations, operation.isInbound) :
    ∃ (earlier : List Operation) (arrivals : Bytes),
      operations = earlier ++ arrivals.map .receive ∧ Emptied earlier := by
  induction operations using List.reverseRecOn with
  | nil => exact ⟨[], [], rfl, by simp [Emptied]⟩
  | append_singleton operations operation ih =>
    obtain ⟨earlier, arrivals, split, emptied⟩ := ih fun other member => inbound other (List.mem_append_left _ member)
    have allowed : operation.isInbound := inbound operation (List.mem_append_right _ (.head _))
    cases operation with
    | receive byte => exact ⟨earlier, arrivals ++ [byte], by rw [split]; simp, emptied⟩
    | clear => exact ⟨operations ++ [.clear], [], by simp, by simp [Emptied, Operation.empties]⟩
    | restart => exact ⟨operations ++ [.restart], [], by simp, by simp [Emptied, Operation.empties]⟩
    | _ => cases allowed

theorem ready_of_emptied {operations : List Operation} (emptied : Emptied operations) :
    ((fresh : Packet C).performAll operations).1.Ready := by
  rcases List.eq_nil_or_concat operations with rfl | ⟨earlier, operation, rfl⟩
  · exact .fresh
  · rw [List.concat_eq_append] at emptied ⊢
    have last : operation.empties := emptied operation (by simp)
    rw [performAll_concat]
    cases operation with
    | clear => exact .clear ((fresh : Packet C).performAll earlier).1
    | restart => exact .restart _
    | _ => cases last

theorem exists_start_of_whole (whole : Frame.headerSize ≤ (Frame.underway stream).length) :
    ∃ start, Frame.markerStart? stream = some start ∧ Frame.underway stream = stream.drop start := by
  cases found : Frame.markerStart? stream with
  | some start => exact ⟨start, rfl, Frame.underway_of_found found⟩
  | none =>
    have short := Frame.length_underway_of_search found
    simp only [Frame.headerSize] at whole
    omega

/-- While a header arrives no payload byte counts. From then on cursor, count, length and capacity agree, the bytes
stored are those that arrived after the header, as many of them as the length admits, and past them the buffer is what
it was when the packet was last emptied. -/
theorem inbound_stores_in_order {operations : List Operation}
    (inbound : ∀ operation ∈ operations, operation.isInbound) :
    let packet := ((fresh : Packet C).performAll operations).1
    (packet.cursor < Frame.headerSize → packet.stored = 0) ∧
      (Frame.headerSize ≤ packet.cursor →
        packet.cursor = Frame.headerSize + packet.stored ∧ packet.stored ≤ packet.length ∧ packet.length ≤ C) ∧
      ∃ (earlier : List Operation) (arrivals : Bytes),
        operations = earlier ++ arrivals.map .receive ∧ Emptied earlier ∧
          packet.buffer.toList.drop packet.stored =
            ((fresh : Packet C).performAll earlier).1.buffer.toList.drop packet.stored ∧
          (Frame.headerSize ≤ packet.cursor →
            ∃ start, Frame.markerStart? arrivals = some start ∧ start + Frame.headerSize ≤ arrivals.length ∧
              packet.stored = min packet.length (arrivals.length - (start + Frame.headerSize)) ∧
              packet.buffer.toList.take packet.stored =
                (arrivals.drop (start + Frame.headerSize)).take packet.stored) := by
  intro packet
  have filling : packet.Filling := filling_fresh.performAll inbound
  refine ⟨filling.early, filling.late, ?_⟩
  obtain ⟨earlier, arrivals, split, emptied⟩ := exists_arrivals inbound
  have run : packet = (((fresh : Packet C).performAll earlier).1.receiveAll arrivals).1 := by
    rw [← performAll_receive, ← performAll_append, ← split]
  have begun : ((fresh : Packet C).performAll earlier).1.Filling := by
    apply filling_fresh.performAll
    intro operation member
    apply inbound
    rw [split]
    exact List.mem_append_left _ member
  have storing := (ready_of_emptied emptied).holds.storing.receiveAll begun arrivals
  rw [List.nil_append, ← run] at storing
  refine ⟨earlier, arrivals, split, emptied, storing.behind, ?_⟩
  intro late
  obtain ⟨arrived, count, front⟩ := storing.front late
  obtain ⟨start, found, underway⟩ := exists_start_of_whole arrived
  rw [underway, List.length_drop] at arrived count
  rw [underway, List.drop_drop] at front
  have header : 0 < Frame.headerSize := Nat.zero_lt_succ _
  exact ⟨start, found, by omega, by omega, front⟩

theorem inbound_stores_in_order_over_longer :
    let operations : List Operation := (Frame.wire ⟨5, 6, [1, 2, 3, 4]⟩).map .receive ++ [.restart] ++
      ((Frame.wire ⟨7, 8, [9, 10]⟩).take 11).map .receive
    let packet := ((fresh : Packet ⟨4, by decide⟩).performAll operations).1
    (∀ operation ∈ operations, operation.isInbound) ∧ Frame.headerSize ≤ packet.cursor ∧
      (packet.cursor = Frame.headerSize + packet.stored ∧ packet.stored ≤ packet.length ∧ packet.length ≤ 4) ∧
      (∃ (arrivals : Bytes) (start : Nat), Frame.markerStart? arrivals = some start ∧
        packet.buffer.toList.take packet.stored = (arrivals.drop (start + Frame.headerSize)).take packet.stored) ∧
      packet.stored = 1 ∧ packet.buffer.toList = [9, 2, 3, 4] := by
  intro operations packet
  have inbound : ∀ operation ∈ operations, operation.isInbound := by decide +kernel
  have late : Frame.headerSize ≤ packet.cursor := by decide +kernel
  obtain ⟨-, counters, earlier, arrivals, -, -, -, front⟩ := inbound_stores_in_order (C := ⟨4, by decide⟩) inbound
  obtain ⟨start, found, -, -, bytes⟩ := front late
  exact ⟨inbound, late, counters late, ⟨arrivals, start, found, bytes⟩, by decide +kernel, by decide +kernel⟩

end FramedLink.Packet
