import FramedLink.Proofs.Packet.Storage

/-! How a packet that only receives comes to the end of a frame. Main statement: its status says that a frame has ended
just when every further byte is refused, and then no byte changes anything that the packet holds. -/

namespace FramedLink.Packet

variable {C : Capacity} {packet after : Packet C} {byte : UInt8} {outcome : Outcome}

theorem status_receive (packet : Packet C) (byte : UInt8) :
    (packet.receive byte).1.status = (packet.receive byte).2.status := by
  fun_cases receive packet byte with
  | case1 | case2 | case3 | case5 | case7 => rfl
  | case4 | case6 => rw [settle_fst]

theorem not_ended_of_early (early : packet.cursor < Frame.headerSize) : ¬ packet.Ended :=
  fun ended => Nat.not_le_of_lt early ended.cursor

theorem Settled.ended_iff (settled : Settled after outcome) (whole : Frame.headerSize ≤ after.cursor) :
    after.Ended ↔ outcome.status.isTerminal = true :=
  ⟨fun ended => settled.terminal.mpr ended.stored, fun terminal => ⟨whole, settled.terminal.mp terminal⟩⟩

theorem Received.ended_iff (received : packet.Received byte after outcome) :
    after.Ended ↔ outcome.status.isTerminal = true := by
  cases received with
  | early _ cursor _ _ answer =>
    have unended := not_ended_of_early cursor
    rcases answer with rfl | rfl <;> exact iff_of_false unended Bool.false_ne_true
  | begun _ cursor _ _ answer => exact answer.ended_iff (Nat.le_of_eq cursor.symm)
  | added whole _ cursor _ _ _ answer => exact answer.ended_iff (by omega)
  | refused ended same answer =>
    subst same answer
    exact iff_of_true ⟨ended.cursor, ended.stored⟩ rfl

theorem Received.overflow_iff (received : packet.Received byte after outcome) :
    outcome = .error .overflow ↔ packet.Ended := by
  cases received with
  | early unfilled _ _ _ answer =>
    have unended : ¬ packet.Ended := not_ended_of_early (Nat.lt_succ_of_lt unfilled)
    rcases answer with rfl | rfl <;> exact iff_of_false (by simp) unended
  | begun last _ _ _ answer =>
    have unended : ¬ packet.Ended := not_ended_of_early (by rw [last]; exact Nat.lt_succ_self 9)
    exact iff_of_false answer.accepted unended
  | added _ more _ _ _ _ answer =>
    exact iff_of_false answer.accepted fun ended => Nat.not_le_of_lt more ended.stored
  | refused ended _ answer => exact iff_of_true answer ended

theorem terminal_iff_ended {operations : List Operation} (inbound : ∀ operation ∈ operations, operation.isInbound) :
    let packet := ((fresh : Packet C).performAll operations).1
    packet.status.isTerminal = true ↔ packet.Ended := by
  intro packet
  have empty (emptied : Packet C) (status : emptied.status = .ok) (cursor : emptied.cursor = 0) :
      emptied.status.isTerminal = true ↔ emptied.Ended := by
    rw [status]
    exact iff_of_false Bool.false_ne_true (not_ended_of_early (by rw [cursor]; exact Nat.zero_lt_succ _))
  rcases List.eq_nil_or_concat operations with rfl | ⟨earlier, operation, rfl⟩
  · exact empty _ rfl rfl
  · have allowed := inbound operation (by simp)
    have last : packet = (((fresh : Packet C).performAll earlier).1.perform operation).1 := by
      simp only [packet, List.concat_eq_append, performAll_concat]
    rw [last]
    cases operation with
    | receive byte =>
      have ended := (((fresh : Packet C).performAll earlier).1.received byte).ended_iff
      rw [← status_receive] at ended
      exact ended.symm
    | clear => exact empty _ rfl rfl
    | restart => exact empty _ rfl rfl
    | _ => cases allowed

/-- A packet that only receives is left with the status that it answers. The status is terminal just when all that may
still come is refused and leaves header, buffer and counters alone, and otherwise no next byte is refused. So nothing
that comes after the end of a frame changes what the packet shows of it. -/
theorem terminal_iff_all_refused {operations : List Operation}
    (inbound : ∀ operation ∈ operations, operation.isInbound) :
    let packet := ((fresh : Packet C).performAll operations).1
    (∀ byte, (packet.receive byte).1.status = (packet.receive byte).2.status) ∧
      (packet.status.isTerminal = true ↔ ∀ bytes,
        let after := (packet.receiveAll bytes).1
        (packet.receiveAll bytes).2 = List.replicate bytes.length (.error .overflow) ∧ after.header = packet.header ∧
          after.buffer = packet.buffer ∧ after.cursor = packet.cursor ∧ after.stored = packet.stored) ∧
      (packet.status.isTerminal = false → ∀ byte, (packet.receive byte).2 ≠ .error .overflow) ∧
      ∀ byte bytes, (packet.receive byte).2.status.isTerminal = true →
        let last := (packet.receive byte).1
        let after := (last.receiveAll bytes).1
        after.wire = last.wire ∧ after.frame = last.frame ∧ after.isValid = last.isValid := by
  intro packet
  have ends := terminal_iff_ended (C := C) inbound
  refine ⟨status_receive packet, ⟨?_, ?_⟩, ?_, ?_⟩
  · intro terminal bytes after
    obtain ⟨refused, status, last⟩ := (ends.mp terminal).receiveAll bytes
    have same : after = { packet with status := status } := last
    exact ⟨refused, by rw [same], by rw [same], by rw [same], by rw [same]⟩
  · intro refuses
    have refused : (packet.receive 0).2 = .error .overflow := by
      simpa [receiveAll] using (refuses [0]).1
    exact ends.mpr ((packet.received 0).overflow_iff.mp refused)
  · intro unended byte refused
    have ended := ends.mpr ((packet.received byte).overflow_iff.mp refused)
    rw [unended] at ended
    cases ended
  · intro byte bytes terminal last after
    obtain ⟨-, status, same⟩ := ((packet.received byte).ended_iff.mpr terminal).receiveAll bytes
    have same : after = { last with status := status } := same
    rw [same]
    exact ⟨rfl, rfl, rfl⟩

theorem terminal_iff_all_refused_of_two_ends :
    let arriving : List Operation := ((Frame.wire ⟨5, 6, [1, 2]⟩).take 11).map .receive
    let refused : List Operation := [0x55, 0x55, 0, 0, 5, 0, 6, 0, 3, 0].map .receive
    let packet := ((fresh : Packet ⟨2, by decide⟩).performAll arriving).1
    let other := ((fresh : Packet ⟨2, by decide⟩).performAll refused).1
    (∀ operation ∈ arriving ++ refused, operation.isInbound) ∧
      packet.status.isTerminal = false ∧ (packet.receive 2).2 ≠ .error .overflow ∧
      (packet.receive 2).2.status.isTerminal = true ∧
      ((packet.receive 2).1.receiveAll [0x55, 0x55]).1.frame = ⟨5, 6, [1, 2]⟩ ∧
      other.status = .badLength ∧ (other.receiveAll [0x55, 0x55]).2 = [.error .overflow, .error .overflow] ∧
      (other.receiveAll [0x55, 0x55]).1.header = other.header := by
  intro arriving refused packet other
  have inbound : ∀ operation ∈ arriving ++ refused, operation.isInbound := by decide +kernel
  have before := terminal_iff_all_refused (C := ⟨2, by decide⟩)
    (fun operation member => inbound operation (List.mem_append_left refused member))
  have after := terminal_iff_all_refused (C := ⟨2, by decide⟩)
    (fun operation member => inbound operation (List.mem_append_right arriving member))
  have unended : packet.status.isTerminal = false := by decide +kernel
  have completed : (packet.receive 2).2.status.isTerminal = true := by decide +kernel
  have ended : other.status = .badLength := by decide +kernel
  have terminal : other.status.isTerminal = true := by rw [ended]; rfl
  have later := after.2.1.mp terminal [0x55, 0x55]
  have kept := before.2.2.2 2 [0x55, 0x55] completed
  exact ⟨inbound, unended, before.2.2.1 unended 2, completed, kept.2.1.trans (by decide +kernel), ended, later.1,
    later.2.1⟩

end FramedLink.Packet
