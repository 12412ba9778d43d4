import FramedLink.Proofs.Packet.Emission
import FramedLink.Proofs.Packet.Composition

/-! A committed packet whose bytes are taken one by one without end. Main statement: every round gives the bytes of the
frame and once none, and a receiver with room for the frame completes it once a round. -/

namespace FramedLink.Packet

variable {C : Capacity} {packet : Packet C} {bytes : Bytes}

def emitAll (packet : Packet C) : Nat → Packet C × List (Option UInt8)
  | 0 => (packet, [])
  | count + 1 =>
    let next := packet.emit
    let last := next.1.emitAll count
    (last.1, next.2 :: last.2)

theorem emitAll_add (packet : Packet C) (one two : Nat) :
    packet.emitAll (one + two) =
      (((packet.emitAll one).1.emitAll two).1, (packet.emitAll one).2 ++ ((packet.emitAll one).1.emitAll two).2) := by
  induction one generalizing packet with
  | zero => rw [Nat.zero_add]; rfl
  | succ one ih => rw [Nat.succ_add, emitAll, ih]; rfl

theorem emitAll_succ_fst (packet : Packet C) (count : Nat) :
    (packet.emitAll (count + 1)).1 = (packet.emitAll count).1.emit.1 := by
  rw [emitAll_add]
  rfl

theorem emitAll_contents (packet : Packet C) (count : Nat) :
    (packet.emitAll count).1.header = packet.header ∧ (packet.emitAll count).1.buffer = packet.buffer := by
  induction count with
  | zero => exact ⟨rfl, rfl⟩
  | succ count ih =>
    obtain ⟨header, buffer⟩ := emit_contents (packet.emitAll count).1
    rw [emitAll_succ_fst]
    exact ⟨header.trans ih.1, buffer.trans ih.2⟩

theorem wire_congr {one two : Packet C} (header : one.header = two.header) (buffer : one.buffer = two.buffer) :
    one.wire = two.wire := by
  rw [wire, wire, payload, payload, length, length, header, buffer]

theorem emit_snd (contained : packet.Contained) : packet.emit.2 = packet.wire[packet.cursor]? := by
  unfold emit
  split
  · rename_i inside
    exact (getElem?_wire contained inside).symm
  · rename_i outside
    rw [List.getElem?_eq_none (by rw [length_wire contained]; omega)]

theorem cursor_emit (packet : Packet C) :
    packet.emit.1.cursor = if packet.cursor < packet.frameSize then packet.cursor + 1 else 0 := by
  unfold emit
  split <;> rfl

theorem status_emit (packet : Packet C) :
    packet.emit.1.status = if packet.cursor < packet.frameSize then .ok else .exhausted := by
  unfold emit
  split <;> rfl

private theorem succ_mod_succ (count size : Nat) :
    (count + 1) % (size + 1) = if count % (size + 1) < size then count % (size + 1) + 1 else 0 := by
  -- The call that finds nothing left counts as one, so the period is one more than the size.
  have bound : count % (size + 1) < size + 1 := Nat.mod_lt _ (Nat.succ_pos size)
  conv => lhs; rw [← Nat.div_add_mod count (size + 1), Nat.add_assoc, Nat.mul_add_mod]
  split
  · rw [Nat.mod_eq_of_lt (by omega)]
  · have last : count % (size + 1) = size := by omega
    rw [last, Nat.mod_self]

theorem cursor_emitAll (first : packet.cursor = 0) (count : Nat) :
    (packet.emitAll count).1.cursor = count % (packet.frameSize + 1) := by
  induction count with
  | zero => rw [Nat.zero_mod]; exact first
  | succ count ih =>
    have size : (packet.emitAll count).1.frameSize = packet.frameSize := by
      rw [frameSize, length, (packet.emitAll_contents count).1]
      rfl
    rw [emitAll_succ_fst, cursor_emit, size, ih, succ_mod_succ]

theorem emitAll_rest (packet : Packet C) :
    packet.emitAll (packet.rest.length + 1) = (packet.spent, packet.rest.map some ++ [none]) := by
  generalize remaining : packet.rest = rest
  induction rest generalizing packet with
  | nil =>
    rcases taken : packet.emit with ⟨next, _ | byte⟩
    · rw [List.length_nil, emitAll, emitAll, taken, (rest_of_exhausted taken).2]
      rfl
    · rw [rest_of_emit taken] at remaining
      cases remaining
  | cons byte rest ih =>
    rcases taken : packet.emit with ⟨next, _ | first⟩
    · rw [(rest_of_exhausted taken).1] at remaining
      cases remaining
    · have same := packet.spent_emit
      rw [rest_of_emit taken, List.cons.injEq] at remaining
      rw [taken] at same
      rw [List.length_cons, emitAll, taken]
      simp only [ih next remaining.2, remaining.1, same, List.map_cons, List.cons_append]

theorem emitAll_rounds (contained : packet.Contained) (first : packet.cursor = 0) (rounds : Nat) :
    (packet.emitAll (rounds * (packet.frameSize + 1))).2 =
      (List.replicate rounds (packet.wire.map some ++ [none])).flatten := by
  induction rounds generalizing packet with
  | zero => rw [Nat.zero_mul]; rfl
  | succ rounds ih =>
    have rest : packet.rest = packet.wire := by rw [rest_eq_drop contained, first, List.drop_zero]
    have round := packet.emitAll_rest
    rw [rest, length_wire contained] at round
    have again := ih (show packet.spent.Contained from contained) rfl
    rw [Nat.succ_mul, Nat.add_comm, emitAll_add, round, List.replicate_succ, List.flatten_cons]
    exact congrArg (packet.wire.map some ++ [none] ++ ·) again

/-! Receiving rounds. -/

/-- What a stream leads to byte by byte in a packet that is restarted after each frame, and the frames. -/
def receiveFrames (packet : Packet C) : Bytes → List Outcome × List Frame
  | [] => ([], [])
  | byte :: bytes =>
    match packet.receive byte with
    | (whole, .completed) =>
      let rest := whole.restart.receiveFrames bytes
      (.completed :: rest.1, whole.frame :: rest.2)
    | (after, outcome) =>
      let rest := after.receiveFrames bytes
      (outcome :: rest.1, rest.2)

theorem receiveFrames_of_inProgress {byte : UInt8} (answer : (packet.receive byte).2 = .inProgress) (bytes : Bytes) :
    packet.receiveFrames (byte :: bytes) =
      (.inProgress :: ((packet.receive byte).1.receiveFrames bytes).1,
        ((packet.receive byte).1.receiveFrames bytes).2) := by
  rw [receiveFrames]
  split <;> simp_all

theorem receiveFrames_of_completed {byte : UInt8} (answer : (packet.receive byte).2 = .completed) (bytes : Bytes) :
    let rest := (packet.receive byte).1.restart.receiveFrames bytes
    packet.receiveFrames (byte :: bytes) = (.completed :: rest.1, (packet.receive byte).1.frame :: rest.2) := by
  rw [receiveFrames]
  split <;> simp_all

theorem receiveFrames_whole {count : Nat}
    (answers : (packet.receiveAll bytes).2 = List.replicate count .inProgress ++ [.completed]) (more : Bytes) :
    let rest := (packet.receiveAll bytes).1.restart.receiveFrames more
    packet.receiveFrames (bytes ++ more) =
      (List.replicate count .inProgress ++ .completed :: rest.1, (packet.receiveAll bytes).1.frame :: rest.2) := by
  induction count generalizing packet bytes with
  | zero =>
    match bytes with
    | [] => simp [receiveAll] at answers
    | [byte] =>
      have answer : (packet.receive byte).2 = .completed := by simpa [receiveAll] using answers
      exact receiveFrames_of_completed answer more
    | _ :: _ :: _ => simp [receiveAll] at answers
  | succ count ih =>
    cases bytes with
    | nil => simp [receiveAll, List.replicate_succ] at answers
    | cons byte bytes =>
      simp only [receiveAll, List.replicate_succ, List.cons_append, List.cons.injEq] at answers
      rw [List.cons_append, receiveFrames_of_inProgress answers.1, ih answers.2]
      rfl

theorem Ready.receiveFrames_rounds {frame : Frame} (ready : packet.Ready) (fits : frame.payload.length ≤ C)
    (rounds : Nat) :
    packet.receiveFrames (List.replicate rounds frame.wire).flatten =
      ((List.replicate rounds (List.replicate (frame.wire.length - 1) .inProgress ++ [.completed])).flatten,
        List.replicate rounds frame) := by
  induction rounds generalizing packet with
  | zero => rfl
  | succ rounds ih =>
    obtain ⟨answers, wire⟩ := ready.holds.receiveAll_wire fits
    have contents := (parts_of_wire_eq wire).2
    rw [List.replicate_succ, List.flatten_cons, receiveFrames_whole answers, ih (.restart _), contents]
    simp [List.replicate_succ]

/-- After it is committed a packet gives the bytes of its frame in order, then once none, and so on for ever, while what
it would send at once stays the same. A receiver that is ready and has room takes each round as one frame. -/
theorem commit_emits_rounds (contained : packet.Contained) :
    let sent := packet.commit
    let size := sent.frameSize
    sent.wire.length = size ∧
      (∀ count,
        let before := (sent.emitAll count).1
        before.emit.2 = (if count % (size + 1) < size then sent.wire[count % (size + 1)]? else none) ∧
          before.emit.1.status = (if count % (size + 1) < size then .ok else .exhausted) ∧
          before.emit.1.wire = sent.wire) ∧
      (∀ rounds, (sent.emitAll (rounds * (size + 1))).2 =
        (List.replicate rounds (sent.wire.map some ++ [none])).flatten) ∧
      ∀ (D : Capacity) (receiver : Packet D), receiver.Ready → sent.length ≤ D → ∀ rounds,
        receiver.receiveFrames ((sent.emitAll (rounds * (size + 1))).2.filterMap id) =
          ((List.replicate rounds (List.replicate (size - 1) .inProgress ++ [.completed])).flatten,
            List.replicate rounds sent.frame) := by
  intro sent size
  have within : sent.Contained := contained
  have whole : sent.wire.length = size := length_wire within
  have carries : sent.Carries sent.frame := carries_commit contained
  have emitted := emitAll_rounds within rfl
  refine ⟨whole, ?_, emitted, ?_⟩
  · intro count before
    obtain ⟨header, buffer⟩ := sent.emitAll_contents count
    have wire : before.wire = sent.wire := wire_congr header buffer
    have cursor : before.cursor = count % (size + 1) := cursor_emitAll rfl count
    have length : before.frameSize = size := by rw [frameSize, Packet.length, header]; rfl
    have inside : before.Contained := by rw [Contained, Packet.length, header]; exact within
    have again := before.emit_contents
    refine ⟨?_, by rw [status_emit, cursor, length], (wire_congr again.1 again.2).trans wire⟩
    rw [emit_snd inside, wire, cursor]
    split
    · rfl
    · exact List.getElem?_eq_none (by omega)
  · intro D receiver ready room rounds
    have payload : sent.frame.payload.length = sent.length := length_payload within
    have fits : sent.frame.payload.length ≤ D := by rw [payload]; exact room
    have heard := ready.receiveFrames_rounds fits rounds
    have bytes : ((sent.emitAll (rounds * (size + 1))).2.filterMap id) = (List.replicate rounds sent.wire).flatten := by
      rw [emitted, List.filterMap_flatten]
      simp
    rw [bytes, carries.wire, heard, ← carries.wire, whole]

theorem commit_emits_rounds_of_two :
    let packet := ((fresh : Packet ⟨4, by decide⟩).append [9]).1.setRequest 5
    let sent := packet.commit
    let heard := (sent.emitAll (2 * 12)).2.filterMap id
    packet.Contained ∧ (fresh : Packet ⟨2, by decide⟩).Ready ∧ sent.length ≤ 2 ∧
      (sent.emitAll 11).1.emit.2 = none ∧ (sent.emitAll 12).1.emit.2 = some 0x55 ∧
      (fresh : Packet ⟨2, by decide⟩).receiveFrames heard =
        (List.replicate 10 .inProgress ++ [.completed] ++ (List.replicate 10 .inProgress ++ [.completed]),
          [⟨5, 0, [9]⟩, ⟨5, 0, [9]⟩]) := by
  intro packet sent heard
  have contained : packet.Contained := by decide +kernel
  have room : sent.length ≤ 2 := by decide +kernel
  obtain ⟨-, calls, -, receivers⟩ := commit_emits_rounds contained
  have last : (sent.emitAll 11).1.emit.2 = none := (calls 11).1.trans (by decide +kernel)
  have first : (sent.emitAll 12).1.emit.2 = some 0x55 := (calls 12).1.trans (by decide +kernel)
  have received := receivers ⟨2, by decide⟩ fresh .fresh room 2
  exact ⟨contained, .fresh, room, last, first, received.trans (by decide +kernel)⟩

end FramedLink.Packet
