import FramedLink.Proofs.Packet.Filling

/-! A restarted packet beside a fresh one. What an older frame left in the buffer lies past the bytes that count: past those
received, or past the declared length when sending. Main statement: no operation of either direction tells the two
packets apart. -/

namespace FramedLink.Packet

variable {C : Capacity} {packet one two : Packet C} {shared : Nat}

/-- Two packets of which at most the buffer bytes from a position on differ. -/
structure Twin (shared : Nat) (one two : Packet C) : Prop where
  header : one.header = two.header
  cursor : one.cursor = two.cursor
  stored : one.stored = two.stored
  status : one.status = two.status
  bytes : one.buffer.toList.take shared = two.buffer.toList.take shared

namespace Twin

theorem refl (shared : Nat) (packet : Packet C) : Twin shared packet packet :=
  ⟨rfl, rfl, rfl, rfl, rfl⟩

theorem fewer {less : Nat} (twin : Twin shared one two) (fewer : less ≤ shared) : Twin less one two := by
  refine ⟨twin.header, twin.cursor, twin.stored, twin.status, ?_⟩
  rw [← Nat.min_eq_left fewer, ← List.take_take, ← List.take_take, twin.bytes]

theorem length (twin : Twin shared one two) : one.length = two.length :=
  congrArg (fun header => header.length.toNat) twin.header

theorem withStatus (twin : Twin shared one two) (status : Status) :
    Twin shared { one with status := status } { two with status := status } :=
  ⟨twin.header, twin.cursor, twin.stored, rfl, twin.bytes⟩

theorem payload (twin : Twin shared one two) (covered : one.length ≤ shared) : one.payload = two.payload := by
  have bytes := (twin.fewer covered).bytes
  rw [Packet.payload, Packet.payload, ← twin.length, Vector.toList_take, Vector.toList_take, bytes]

theorem wire (twin : Twin shared one two) (covered : one.length ≤ shared) : one.wire = two.wire := by
  rw [Packet.wire, Packet.wire, twin.header, twin.payload covered]

theorem contentChecksum (twin : Twin shared one two) (covered : one.length ≤ shared) :
    one.contentChecksum = two.contentChecksum := by
  rw [Packet.contentChecksum, Packet.contentChecksum, frame, frame, twin.header, twin.payload covered]

theorem isValid (twin : Twin shared one two) (covered : one.length ≤ shared) : one.isValid = two.isValid := by
  rw [Packet.isValid, Packet.isValid, twin.header, twin.contentChecksum covered]

end Twin

theorem twin_restart (one two : Packet C) : Twin 0 one.restart two.restart :=
  ⟨rfl, rfl, rfl, rfl, rfl⟩

theorem take_overwrite {n : Nat} (buffer : Vector UInt8 n) (position : Nat) (bytes : Bytes)
    (fits : position + bytes.length ≤ n) :
    (overwrite buffer position bytes).toList.take (position + bytes.length) =
      buffer.toList.take position ++ bytes := by
  have size : (buffer.toList.take position ++ bytes).length = position + bytes.length := by
    rw [List.length_append, List.length_take, Vector.length_toList, Nat.min_eq_left (by omega)]
  rw [toList_overwrite buffer position bytes fits, List.take_left' size]

/-! Receiving: what counts are the payload bytes stored so far. -/

theorem Twin.putHeader (twin : Twin one.stored one two) (byte : UInt8) :
    Twin one.stored (one.putHeader byte) (two.putHeader byte) := by
  refine ⟨?_, ?_, twin.stored, twin.status, twin.bytes⟩
  · simp only [Packet.putHeader, twin.header, twin.cursor]
  · simp only [Packet.putHeader, twin.cursor]

theorem Twin.putPayload (twin : Twin one.stored one two) (room : one.stored < C) (byte : UInt8) :
    Twin (one.stored + 1) (one.putPayload byte) (two.putPayload byte) := by
  have bytes (buffer : Vector UInt8 C) :
      (buffer.setIfInBounds one.stored byte).toList.take (one.stored + 1) =
        buffer.toList.take one.stored ++ [byte] :=
    take_overwrite buffer one.stored [byte] room
  refine ⟨twin.header, ?_, ?_, twin.status, ?_⟩
  · simp only [Packet.putPayload, twin.cursor]
  · simp only [Packet.putPayload, twin.stored]
  · simp only [Packet.putPayload, ← twin.stored]
    rw [bytes, bytes, twin.bytes]

theorem Twin.settle (twin : Twin one.stored one two) :
    Twin one.stored one.settle.1 two.settle.1 ∧ one.settle.2 = two.settle.2 := by
  unfold Packet.settle
  rw [← twin.stored, ← twin.length]
  by_cases more : one.stored < one.length
  · rw [if_pos more, if_pos more]
    exact ⟨twin.withStatus _, rfl⟩
  · rw [if_neg more, if_neg more, ← twin.isValid (Nat.le_of_not_lt more)]
    by_cases valid : one.isValid = true
    · rw [if_pos valid, if_pos valid]
      exact ⟨⟨twin.header, twin.cursor, rfl, rfl, twin.bytes⟩, rfl⟩
    · rw [if_neg valid, if_neg valid]
      exact ⟨twin.withStatus _, rfl⟩

theorem stored_settle (packet : Packet C) : packet.settle.1.stored = packet.stored := by
  rw [settle_fst]

theorem Twin.receive (twin : Twin one.stored one two) (filling : one.Filling) (byte : UInt8) :
    Twin (one.receive byte).1.stored (one.receive byte).1 (two.receive byte).1 ∧
      (one.receive byte).2 = (two.receive byte).2 := by
  have declared := twin.putHeader byte
  rw [Packet.receive, Packet.receive, ← twin.cursor, ← twin.stored, ← twin.length]
  by_cases marking : one.cursor < 2
  · rw [if_pos marking, if_pos marking]
    by_cases marker : byte = Frame.markerByte
    · rw [if_pos marker, if_pos marker]
      exact ⟨declared.withStatus _, rfl⟩
    · rw [if_neg marker, if_neg marker]
      exact ⟨⟨twin.header, rfl, rfl, rfl, twin.bytes⟩, rfl⟩
  · rw [if_neg marking, if_neg marking]
    by_cases early : one.cursor < 9
    · rw [if_pos early, if_pos early]
      exact ⟨declared.withStatus _, rfl⟩
    · rw [if_neg early, if_neg early]
      by_cases last : one.cursor = 9
      · rw [if_pos last, if_pos last]
        dsimp only
        rw [← declared.length]
        -- No payload byte counts yet, whatever the older frame left.
        by_cases accepted : (one.putHeader byte).length ≤ C
        · rw [if_pos accepted, if_pos accepted, stored_settle]
          exact Twin.settle ⟨declared.header, declared.cursor, rfl, declared.status, rfl⟩
        · rw [if_neg accepted, if_neg accepted]
          refine ⟨⟨?_, declared.cursor, rfl, rfl, rfl⟩, rfl⟩
          exact congrArg (fun header : Frame.Header => { header with length := 0 }) declared.header
      · rw [if_neg last, if_neg last]
        by_cases more : one.stored < one.length
        · have whole : Frame.headerSize ≤ one.cursor := by simp only [Frame.headerSize]; omega
          obtain ⟨-, -, contained⟩ := filling.late whole
          rw [if_pos more, if_pos more, stored_settle]
          exact Twin.settle (twin.putPayload (Nat.lt_of_lt_of_le more contained) byte)
        · rw [if_neg more, if_neg more]
          exact ⟨twin.withStatus _, rfl⟩

theorem Twin.performInbound (twin : Twin one.stored one two) (filling : one.Filling) {operation : Operation}
    (inbound : operation.isInbound) :
    Twin (one.perform operation).1.stored (one.perform operation).1 (two.perform operation).1 ∧
      (one.perform operation).2 = (two.perform operation).2 := by
  cases operation with
  | receive byte =>
    obtain ⟨next, answer⟩ := twin.receive filling byte
    exact ⟨next, congrArg Answer.outcome answer⟩
  | clear => exact ⟨Twin.refl _ fresh, rfl⟩
  | restart => exact ⟨twin_restart one two, rfl⟩
  | _ => cases inbound

theorem settle_of_judged {byte : UInt8}
    (judged : (packet.receive byte).2 = .completed ∨ (packet.receive byte).2 = .error .badChecksum) :
    ∃ filled : Packet C, packet.receive byte = filled.settle := by
  revert judged
  fun_cases receive packet byte with
  | case1 | case3 => exact fun judged => by simp [proceed] at judged
  | case2 | case5 | case7 => exact fun judged => by simp [fail] at judged
  | case4 | case6 => exact fun _ => ⟨_, rfl⟩

theorem stored_of_judged {byte : UInt8}
    (judged : (packet.receive byte).2 = .completed ∨ (packet.receive byte).2 = .error .badChecksum) :
    (packet.receive byte).1.length ≤ (packet.receive byte).1.stored := by
  obtain ⟨filled, settled⟩ := settle_of_judged judged
  rw [settled] at judged ⊢
  rw [stored_settle, settle_fst]
  apply Nat.le_of_not_lt
  intro (more : filled.stored < filled.length)
  rw [settle, if_pos more] at judged
  simp [proceed] at judged

/-! Sending: what counts is the declared payload. -/

def Operation.isOutbound : Operation → Bool
  | .receive _ => false
  | _ => true

theorem Twin.append (twin : Twin one.length one two) (bytes : Bytes) :
    Twin (one.append bytes).1.length (one.append bytes).1 (two.append bytes).1 ∧
      (one.append bytes).2 = (two.append bytes).2 := by
  unfold Packet.append
  rw [← twin.length]
  by_cases fits : bytes.length + one.length ≤ C
  · have shorter : (UInt16.ofNat (bytes.length + one.length)).toNat ≤ one.length + bytes.length := by
      rw [UInt16.toNat_ofNat', Nat.add_comm]
      exact Nat.mod_le _ _
    have written (buffer : Vector UInt8 C) :
        (overwrite buffer one.length bytes).toList.take (one.length + bytes.length) =
          buffer.toList.take one.length ++ bytes :=
      take_overwrite buffer one.length bytes (by omega)
    rw [if_pos fits, if_pos fits]
    refine ⟨Twin.fewer ⟨?_, twin.cursor, twin.stored, rfl, ?_⟩ shorter, rfl⟩
    · simp only [twin.header]
    · rw [written, written, twin.bytes]
  · rw [if_neg fits, if_neg fits]
    exact ⟨twin.withStatus _, rfl⟩

theorem Twin.commit (twin : Twin one.length one two) : Twin one.length one.commit two.commit := by
  refine ⟨?_, rfl, twin.stored, twin.status, twin.bytes⟩
  simp only [Packet.commit, twin.header, twin.contentChecksum (Nat.le_refl _)]

theorem twin_compose (one two : Packet C) (frame : Frame) :
    Twin (one.compose frame).1.length (one.compose frame).1 (two.compose frame).1 ∧
      (one.compose frame).2 = (two.compose frame).2 := by
  have addressed : Twin (one.addressed frame).length (one.addressed frame) (two.addressed frame) :=
    ⟨rfl, rfl, rfl, rfl, rfl⟩
  have appended := addressed.append frame.payload
  rw [compose, compose, ← Packet.addressed, ← Packet.addressed]
  rcases first : (one.addressed frame).append frame.payload with ⟨filled, whole⟩
  rcases second : (two.addressed frame).append frame.payload with ⟨other, answer⟩
  rw [first, second] at appended
  obtain ⟨twin, rfl⟩ := appended
  cases whole with
  | false => exact ⟨twin, rfl⟩
  | true => exact ⟨twin.commit, rfl⟩

theorem Twin.byteAt (twin : Twin one.length one two) {position : Nat} (inside : position < one.frameSize) :
    one.byteAt position = two.byteAt position := by
  rw [frameSize] at inside
  rw [Packet.byteAt, Packet.byteAt, twin.header]
  by_cases early : position < Frame.headerSize
  · rw [if_pos early, if_pos early]
  · have covered : position - Frame.headerSize < one.length := by omega
    rw [if_neg early, if_neg early, ← Vector.getElem?_toList, ← Vector.getElem?_toList,
      ← List.getElem?_take_of_lt covered, twin.bytes, List.getElem?_take_of_lt covered]

theorem Twin.emit (twin : Twin one.length one two) :
    Twin one.emit.1.length one.emit.1 two.emit.1 ∧ one.emit.2 = two.emit.2 := by
  rw [Packet.emit, Packet.emit, frameSize, frameSize, ← twin.cursor, ← twin.length]
  by_cases more : one.cursor < Frame.headerSize + one.length
  · rw [if_pos more, if_pos more]
    exact ⟨⟨twin.header, rfl, twin.stored, rfl, twin.bytes⟩, congrArg some (twin.byteAt more)⟩
  · rw [if_neg more, if_neg more]
    exact ⟨⟨twin.header, rfl, twin.stored, rfl, twin.bytes⟩, rfl⟩

theorem Twin.performOutbound (twin : Twin one.length one two) {operation : Operation}
    (outbound : operation.isOutbound) :
    Twin (one.perform operation).1.length (one.perform operation).1 (two.perform operation).1 ∧
      (one.perform operation).2 = (two.perform operation).2 := by
  have whole := Nat.le_refl one.length
  cases operation with
  | receive byte => cases outbound
  | append bytes =>
    obtain ⟨next, answer⟩ := twin.append bytes
    exact ⟨next, congrArg Answer.accepted answer⟩
  | setRequest code =>
    refine ⟨⟨?_, twin.cursor, twin.stored, twin.status, twin.bytes⟩, rfl⟩
    exact congrArg (fun header : Frame.Header => { header with request := code }) twin.header
  | setResponse code =>
    refine ⟨⟨?_, twin.cursor, twin.stored, twin.status, twin.bytes⟩, rfl⟩
    exact congrArg (fun header : Frame.Header => { header with response := code }) twin.header
  | commit => exact ⟨twin.commit, rfl⟩
  | compose _ | composeRequest _ _ | composeReply _ _ | composeIdentity _ _ =>
    obtain ⟨next, answer⟩ := twin_compose one two _
    exact ⟨next, congrArg Answer.accepted answer⟩
  | emit =>
    obtain ⟨next, answer⟩ := twin.emit
    exact ⟨next, congrArg Answer.emitted answer⟩
  | clear => exact ⟨Twin.refl _ fresh, rfl⟩
  | restart => exact ⟨twin_restart one two, rfl⟩
  | wire => exact ⟨twin, congrArg Answer.contents (twin.wire whole)⟩
  | payload => exact ⟨twin, congrArg Answer.contents (twin.payload whole)⟩
  | isValid => exact ⟨twin, congrArg Answer.valid (twin.isValid whole)⟩
  | contentChecksum => exact ⟨twin, congrArg Answer.checksum (twin.contentChecksum whole)⟩

theorem performAll_concat (packet : Packet C) (operations : List Operation) (operation : Operation) :
    packet.performAll (operations ++ [operation]) =
      (((packet.performAll operations).1.perform operation).1,
        (packet.performAll operations).2 ++ [((packet.performAll operations).1.perform operation).2]) := by
  induction operations generalizing packet with
  | nil => rfl
  | cons other operations ih =>
    rw [List.cons_append, performAll, ih]
    rfl

theorem performAll_alike {motive : Packet C → Packet C → Prop} {allowed : Operation → Bool}
    (step : ∀ {one two : Packet C} {operation : Operation}, motive one two → allowed operation →
      motive (one.perform operation).1 (two.perform operation).1 ∧
        (one.perform operation).2 = (two.perform operation).2)
    {operations : List Operation} (all : ∀ operation ∈ operations, allowed operation) (alike : motive one two) :
    motive (one.performAll operations).1 (two.performAll operations).1 ∧
      (one.performAll operations).2 = (two.performAll operations).2 := by
  induction operations generalizing one two with
  | nil => exact ⟨alike, rfl⟩
  | cons operation operations ih =>
    obtain ⟨next, answer⟩ := step alike (all operation (.head _))
    obtain ⟨last, answers⟩ := ih (fun other member => all other (.tail _ member)) next
    refine ⟨last, ?_⟩
    rw [performAll, performAll, answer, answers]

theorem stored_of_last_judged {operations : List Operation}
    (judged : (packet.performAll operations).2.getLast? = some (.outcome .completed) ∨
      (packet.performAll operations).2.getLast? = some (.outcome (.error .badChecksum))) :
    (packet.performAll operations).1.length ≤ (packet.performAll operations).1.stored := by
  rcases List.eq_nil_or_concat operations with rfl | ⟨earlier, operation, rfl⟩
  · simp [performAll] at judged
  · simp only [List.concat_eq_append, performAll_concat, List.getLast?_concat, Option.some.injEq] at judged ⊢
    cases operation with
    | receive byte =>
      apply stored_of_judged
      simpa [perform, Prod.map] using judged
    | _ => simp [perform, Prod.map] at judged

/-- A packet that starts over is as good as a fresh one, whatever was in it: receiving, both give the same outcomes and
keep the same counters, fields and stored bytes, and the same contents whenever a frame is whole; sending, both give
the same answers and bytes and keep the same contents. -/
theorem restart_as_fresh (packet : Packet C) (operations : List Operation) :
    ((∀ operation ∈ operations, operation.isInbound) →
      let old := packet.restart.performAll operations
      let new := (fresh : Packet C).performAll operations
      old.2 = new.2 ∧ old.1.header = new.1.header ∧ old.1.cursor = new.1.cursor ∧ old.1.stored = new.1.stored ∧
        old.1.status = new.1.status ∧
        old.1.buffer.toList.take old.1.stored = new.1.buffer.toList.take new.1.stored ∧
        (old.2.getLast? = some (.outcome .completed) ∨ old.2.getLast? = some (.outcome (.error .badChecksum)) →
          old.1.payload = new.1.payload ∧ old.1.wire = new.1.wire)) ∧
    ((∀ operation ∈ operations, operation.isOutbound) →
      let old := packet.restart.performAll operations
      let new := (fresh : Packet C).performAll operations
      old.2 = new.2 ∧ old.1.header = new.1.header ∧ old.1.cursor = new.1.cursor ∧ old.1.stored = new.1.stored ∧
        old.1.status = new.1.status ∧ old.1.payload = new.1.payload ∧ old.1.wire = new.1.wire ∧
        old.1.isValid = new.1.isValid) := by
  have start : Twin 0 packet.restart (fresh : Packet C) := twin_restart packet fresh
  refine ⟨fun inbound => ?_, fun outbound => ?_⟩
  · have filling : packet.restart.Filling := filling_of_empty (Nat.zero_lt_succ _) rfl rfl
    obtain ⟨⟨twin, -⟩, answers⟩ :=
      performAll_alike (motive := fun one two : Packet C => Twin one.stored one two ∧ one.Filling)
        (fun {one two operation} alike inbound =>
          have step := alike.1.performInbound alike.2 inbound
          ⟨⟨step.1, alike.2.perform inbound⟩, step.2⟩) inbound ⟨start, filling⟩
    refine ⟨answers, twin.header, twin.cursor, twin.stored, twin.status, ?_, ?_⟩
    · rw [← twin.stored, twin.bytes]
    · intro judged
      have whole := stored_of_last_judged judged
      exact ⟨twin.payload whole, twin.wire whole⟩
  · obtain ⟨twin, answers⟩ :=
      performAll_alike (motive := fun one two : Packet C => Twin one.length one two)
        (fun alike outbound => alike.performOutbound outbound) outbound
        (show Twin packet.restart.length packet.restart fresh from start)
    have whole := Nat.le_refl (packet.restart.performAll operations).1.length
    exact ⟨answers, twin.header, twin.cursor, twin.stored, twin.status, twin.payload whole, twin.wire whole,
      twin.isValid whole⟩

theorem restart_as_fresh_over_longer :
    let packet := ((fresh : Packet ⟨4, by decide⟩).compose ⟨5, 6, [1, 2, 3, 4]⟩).1
    let arriving := (Frame.wire ⟨7, 8, [9]⟩).map Operation.receive
    let leaving : List Operation := [.append [9], .commit, .emit, .wire]
    ((∀ operation ∈ arriving, operation.isInbound) ∧
      (packet.restart.performAll arriving).2.getLast? = some (.outcome .completed) ∧
      (packet.restart.performAll arriving).1.payload = [9]) ∧
    (∀ operation ∈ leaving, operation.isOutbound) ∧
      (packet.restart.performAll leaving).2 =
        [.accepted true, .done, .emitted (some 0x55), .contents (Frame.wire ⟨0, 0, [9]⟩)] := by
  intro packet arriving leaving
  have inbound : ∀ operation ∈ arriving, operation.isInbound := by decide +kernel
  have outbound : ∀ operation ∈ leaving, operation.isOutbound := by decide +kernel
  have whole : (packet.restart.performAll arriving).2.getLast? = some (.outcome .completed) := by decide +kernel
  have received := ((restart_as_fresh packet arriving).1 inbound).2.2.2.2.2.2 (.inl whole)
  have sent := (restart_as_fresh packet leaving).2 outbound
  exact ⟨⟨inbound, whole, received.1.trans (by decide +kernel)⟩, outbound, sent.1.trans (by decide +kernel)⟩

end FramedLink.Packet
