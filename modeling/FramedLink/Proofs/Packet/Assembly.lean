import FramedLink.Packet.Inbound

/-! A packet on its way through a frame. The bytes since the frame began determine what the next byte leads
to. Main statement: one byte more leads to the verdict on the bytes with it, and as long as no length was
refused the packet holds them all. -/

namespace FramedLink

namespace Frame

def wordAt (bytes : Bytes) (offset : Nat) : UInt16 :=
  Word.ofBytes (bytes.getD offset 0) (bytes.getD (offset + 1) 0)

def declared (bytes : Bytes) : Nat :=
  (wordAt bytes lengthOffset).toNat

def Intact (bytes : Bytes) : Prop :=
  Checksum.ofBytes (bytes.drop coveredOffset) = wordAt bytes checksumOffset

instance (bytes : Bytes) : Decidable (Intact bytes) :=
  inferInstanceAs (Decidable (_ = _))

/-- What the last byte of a frame's beginning leads to where there is room for `C` payload bytes. -/
def verdict (C : Capacity) (bytes : Bytes) : Outcome :=
  if bytes.length < headerSize then .inProgress
  else if C.val < declared bytes then .error .badLength
  else if bytes.length < headerSize + declared bytes then .inProgress
  else if Intact bytes then .completed
  else .error .badChecksum

/-- Whether a byte string agrees with the marker as far as it goes. -/
def Opens (bytes : Bytes) : Prop :=
  ∀ byte ∈ bytes.take 2, byte = markerByte

theorem wordAt_append {bytes : Bytes} {offset : Nat} (inside : offset + 1 < bytes.length) (more : Bytes) :
    wordAt (bytes ++ more) offset = wordAt bytes offset := by
  have first : offset < bytes.length := by omega
  simp [wordAt, List.getD_eq_getElem?_getD, List.getElem?_append_left, inside, first]

theorem wordAt_take {bytes : Bytes} {offset count : Nat} (inside : offset + 1 < count) :
    wordAt (bytes.take count) offset = wordAt bytes offset := by
  have first : offset < count := by omega
  simp [wordAt, List.getD_eq_getElem?_getD, inside, first]

theorem declared_append {bytes : Bytes} (whole : headerSize ≤ bytes.length) (more : Bytes) :
    declared (bytes ++ more) = declared bytes := by
  rw [declared, wordAt_append, declared]
  simp only [headerSize, lengthOffset] at whole ⊢
  omega

theorem opens_of_append {bytes more : Bytes} (opens : Opens (bytes ++ more)) : Opens bytes := by
  intro byte member
  apply opens
  rw [List.take_append]
  exact List.mem_append_left _ member

theorem verdict_of_accepted {C : Capacity} {bytes : Bytes} (whole : headerSize ≤ bytes.length)
    (accepted : declared bytes ≤ C) :
    verdict C bytes = if bytes.length < headerSize + declared bytes then .inProgress
      else if Intact bytes then .completed else .error .badChecksum := by
  rw [verdict, if_neg (by omega), if_neg (by omega)]

theorem verdict_eq_inProgress_iff {C : Capacity} {bytes : Bytes} :
    verdict C bytes = .inProgress ↔ bytes.length < headerSize ∨
      declared bytes ≤ C ∧ bytes.length < headerSize + declared bytes := by
  unfold verdict
  split
  · simp [*]
  · split
    · simp only [reduceCtorEq, false_iff]
      omega
    · split
      · simp only [true_iff]
        omega
      · split <;> simp only [reduceCtorEq, false_iff] <;> omega

theorem verdict_eq_badLength_iff {C : Capacity} {bytes : Bytes} :
    verdict C bytes = .error .badLength ↔ headerSize ≤ bytes.length ∧ C < declared bytes := by
  unfold verdict
  split
  · simp only [reduceCtorEq, false_iff]
    omega
  · split
    · simp only [true_iff]
      omega
    · split
      · simp only [reduceCtorEq, false_iff]
        omega
      · split <;> simp only [reduceCtorEq, Outcome.error.injEq, false_iff] <;> omega

theorem verdict_of_append {C : Capacity} {bytes more : Bytes}
    (unfinished : verdict C (bytes ++ more) = .inProgress) : verdict C bytes = .inProgress := by
  rw [verdict_eq_inProgress_iff] at unfinished ⊢
  by_cases short : bytes.length < headerSize
  · exact .inl short
  · rw [declared_append (by omega), List.length_append] at unfinished
    omega

theorem size_of_finished {C : Capacity} {bytes : Bytes} {byte : UInt8} (unfinished : verdict C bytes = .inProgress)
    (finished : verdict C (bytes ++ [byte]) ≠ .inProgress)
    (accepted : verdict C (bytes ++ [byte]) ≠ .error .badLength) :
    (bytes ++ [byte]).length = headerSize + declared (bytes ++ [byte]) ∧ declared (bytes ++ [byte]) ≤ C := by
  rw [Ne, verdict_eq_inProgress_iff] at finished
  rw [Ne, verdict_eq_badLength_iff] at accepted
  rw [verdict_eq_inProgress_iff] at unfinished
  have fits : declared (bytes ++ [byte]) ≤ C := by omega
  have longer : (bytes ++ [byte]).length = bytes.length + 1 := List.length_append
  refine ⟨?_, fits⟩
  by_cases short : bytes.length < headerSize
  · omega
  · rw [declared_append (Nat.le_of_not_lt short)] at finished ⊢
    omega

/-- The image of a frame that fits and arrived undamaged. -/
structure Whole (C : Capacity) (bytes : Bytes) : Prop where
  opens : Opens bytes
  size : bytes.length = headerSize + declared bytes
  fits : declared bytes ≤ C
  intact : Intact bytes

theorem whole_of_completed {C : Capacity} {bytes : Bytes} {byte : UInt8} (opens : Opens (bytes ++ [byte]))
    (unfinished : verdict C bytes = .inProgress) (completed : verdict C (bytes ++ [byte]) = .completed) :
    Whole C (bytes ++ [byte]) := by
  obtain ⟨size, fits⟩ := size_of_finished unfinished (by rw [completed]; simp) (by rw [completed]; simp)
  refine ⟨opens, size, fits, ?_⟩
  rw [verdict_of_accepted (by omega) fits, if_neg (by omega)] at completed
  split at completed
  · assumption
  · cases completed

namespace Header

theorem request_eq (header : Header) : header.request = wordAt header.bytes requestOffset :=
  (Word.ofBytes_low_high _).symm

theorem response_eq (header : Header) : header.response = wordAt header.bytes responseOffset :=
  (Word.ofBytes_low_high _).symm

theorem length_eq (header : Header) : header.length = wordAt header.bytes lengthOffset :=
  (Word.ofBytes_low_high _).symm

theorem checksum_eq (header : Header) : header.checksum = wordAt header.bytes checksumOffset :=
  (Word.ofBytes_low_high _).symm

end Header

end Frame

namespace Packet

variable {C : Capacity} {packet : Packet C} {bytes : Bytes} {byte : UInt8}

/-- The packet holds the bytes as the beginning of a frame. -/
structure Holds (packet : Packet C) (bytes : Bytes) : Prop where
  cursor : packet.cursor = bytes.length
  stored : packet.stored = bytes.length - Frame.headerSize
  header : packet.header.bytes.take bytes.length = bytes.take Frame.headerSize
  payload : packet.buffer.toList.take packet.stored = bytes.drop Frame.headerSize

/-- Nothing has been done with the packet since it was made, cleared or restarted. -/
inductive Ready : Packet C → Prop
  | fresh : Ready fresh
  | clear (before : Packet C) : Ready before.clear
  | restart (before : Packet C) : Ready before.restart

structure Ended (packet : Packet C) : Prop where
  cursor : Frame.headerSize ≤ packet.cursor
  stored : packet.length ≤ packet.stored

theorem Ready.holds (ready : packet.Ready) : packet.Holds [] := by
  cases ready <;> exact ⟨rfl, rfl, rfl, rfl⟩

theorem Holds.putHeader (holds : packet.Holds bytes) (short : bytes.length < Frame.headerSize)
    (byte : UInt8) :
    (packet.putHeader byte).Holds (bytes ++ [byte]) := by
  obtain ⟨cursor, stored, header, payload⟩ := holds
  simp only [Frame.headerSize] at short stored header payload
  refine ⟨?_, ?_, ?_, ?_⟩
  · simp [Packet.putHeader, cursor]
  · simp only [Packet.putHeader, stored, List.length_append, List.length_singleton, Frame.headerSize]
    omega
  · have inside : bytes.length < packet.header.bytes.length := by
      rw [Frame.Header.length_bytes]
      exact short
    simp only [Packet.putHeader, Frame.Header.bytes_set, cursor, List.length_append, List.length_singleton,
      Frame.headerSize]
    rw [List.take_of_length_le (l := bytes) (by omega)] at header
    rw [List.take_add_one, List.take_set_of_le (Nat.le_refl _), header, List.getElem?_set_self inside,
      List.take_of_length_le (by simp only [List.length_append, List.length_singleton]; omega)]
    rfl
  · have nothing : packet.stored = 0 := by omega
    simp only [Packet.putHeader, nothing, List.take_zero, Frame.headerSize]
    rw [List.drop_of_length_le (by simp only [List.length_append, List.length_singleton]; omega)]

theorem Holds.putPayload (holds : packet.Holds bytes) (whole : Frame.headerSize ≤ bytes.length)
    (room : packet.stored < C) (byte : UInt8) : (packet.putPayload byte).Holds (bytes ++ [byte]) := by
  obtain ⟨cursor, stored, header, payload⟩ := holds
  refine ⟨?_, ?_, ?_, ?_⟩
  · simp [Packet.putPayload, cursor]
  · simp only [Packet.putPayload, stored, List.length_append, List.length_singleton]
    omega
  · have full : packet.header.bytes = bytes.take Frame.headerSize := by
      rwa [List.take_of_length_le (by rw [Frame.Header.length_bytes]; exact whole)] at header
    simp only [Packet.putPayload]
    rw [List.take_of_length_le, full, List.take_append_of_le_length whole]
    rw [Frame.Header.length_bytes, List.length_append]
    omega
  · have inside : packet.stored < packet.buffer.toList.length := by
      rw [Vector.length_toList]
      exact room
    simp only [Packet.putPayload, Vector.toList_setIfInBounds]
    rw [List.take_add_one, List.take_set_of_le (Nat.le_refl _), payload, List.getElem?_set_self inside,
      List.drop_append_of_le_length whole]
    rfl

theorem Holds.wordAt_header (holds : packet.Holds bytes) (whole : Frame.headerSize ≤ bytes.length)
    {offset : Nat} (inside : offset + 1 < Frame.headerSize) :
    Frame.wordAt packet.header.bytes offset = Frame.wordAt bytes offset := by
  have full := holds.header
  rw [List.take_of_length_le (by rw [Frame.Header.length_bytes]; exact whole)] at full
  rw [full, Frame.wordAt_take inside]

theorem Holds.length_eq (holds : packet.Holds bytes) (whole : Frame.headerSize ≤ bytes.length) :
    packet.length = Frame.declared bytes := by
  rw [length, Frame.Header.length_eq, holds.wordAt_header whole (by decide), Frame.declared]

theorem Holds.payload_eq (holds : packet.Holds bytes)
    (full : bytes.length = Frame.headerSize + Frame.declared bytes) :
    packet.payload = bytes.drop Frame.headerSize := by
  have stored := holds.stored
  have same : packet.length = packet.stored := by rw [holds.length_eq (by omega)]; omega
  rw [Packet.payload, Vector.toList_take, same, holds.payload]

theorem Holds.wire_eq (holds : packet.Holds bytes)
    (full : bytes.length = Frame.headerSize + Frame.declared bytes) : packet.wire = bytes := by
  have header := holds.header
  rw [List.take_of_length_le (by rw [Frame.Header.length_bytes]; omega)] at header
  rw [wire, holds.payload_eq full, header, List.take_append_drop]

theorem drop_wire (contained : packet.Contained) :
    packet.wire.drop Frame.coveredOffset = packet.frame.covered := by
  have same : packet.frame.length = packet.header.length := by
    rw [Frame.length, frame, length_payload contained, length, UInt16.ofNat_toNat]
  rw [Frame.covered, same]
  rfl

theorem isValid_iff (contained : packet.Contained) : packet.isValid = true ↔ Frame.Intact packet.wire := by
  have checksum : packet.header.checksum = Frame.wordAt packet.wire Frame.checksumOffset := by
    rw [Frame.Header.checksum_eq, wire, Frame.wordAt_append (by rw [Frame.Header.length_bytes]; decide)]
  rw [isValid, beq_iff_eq, Frame.Intact, drop_wire contained, checksum, contentChecksum, Frame.checksum]

theorem Holds.frame_wire_eq (holds : packet.Holds bytes) (whole : Frame.Whole C bytes) :
    packet.frame.wire = bytes := by
  have wire := holds.wire_eq whole.size
  have contained : packet.Contained := by
    rw [Contained, holds.length_eq (by have := whole.size; omega)]
    exact whole.fits
  have checksum : packet.frame.checksum = packet.header.checksum := by
    have valid := (isValid_iff contained).mpr (by rw [wire]; exact whole.intact)
    rwa [isValid, beq_iff_eq] at valid
  have marker : packet.header.marker = Frame.marker := by
    have opens := whole.opens
    rw [← wire] at opens
    have first := opens (Word.low packet.header.marker) (.head _)
    have second := opens (Word.high packet.header.marker) (.tail _ (.head _))
    rw [← Word.ofBytes_low_high packet.header.marker, first, second]
    rfl
  have length : packet.frame.length = packet.header.length := by
    rw [Frame.length, frame, length_payload contained, Packet.length, UInt16.ofNat_toNat]
  rw [Frame.wire, Frame.covered, checksum, length, ← marker, ← wire]
  simp [Packet.wire, Frame.Header.bytes, frame]

theorem settle_fst (packet : Packet C) : packet.settle.1 = { packet with status := packet.settle.2.status } := by
  unfold settle
  split
  · rfl
  · split <;> rfl

theorem Holds.withStatus (holds : packet.Holds bytes) (status : Status) :
    ({ packet with status := status } : Packet C).Holds bytes :=
  ⟨holds.cursor, holds.stored, holds.header, holds.payload⟩

theorem Holds.settle (holds : packet.Holds bytes) (whole : Frame.headerSize ≤ bytes.length)
    (accepted : Frame.declared bytes ≤ C) (inside : bytes.length ≤ Frame.headerSize + Frame.declared bytes) :
    packet.settle.2 = Frame.verdict C bytes ∧ packet.settle.1.Holds bytes := by
  refine ⟨?_, by rw [settle_fst]; exact holds.withStatus _⟩
  have length := holds.length_eq whole
  have stored := holds.stored
  by_cases more : packet.stored < Frame.declared bytes
  · rw [Packet.settle, length, if_pos more, Frame.verdict_of_accepted whole accepted, if_pos (by omega)]
    rfl
  · have full : bytes.length = Frame.headerSize + Frame.declared bytes := by omega
    have valid : packet.isValid = true ↔ Frame.Intact bytes := by
      rw [isValid_iff (by rw [Contained, length]; exact accepted), holds.wire_eq full]
    rw [Packet.settle, length, if_neg more, Frame.verdict_of_accepted whole accepted]
    by_cases intact : Frame.Intact bytes
    · rw [if_pos (valid.mpr intact), if_neg (by omega), if_pos intact]
    · rw [if_neg (fun checked => intact (valid.mp checked)), if_neg (by omega), if_neg intact]
      rfl

theorem Holds.receive_noise (holds : packet.Holds bytes) (waiting : bytes.length < 2)
    (noise : byte ≠ Frame.markerByte) :
    (packet.receive byte).2 = .error .noMarker ∧ (packet.receive byte).1.Holds [] := by
  have stored := holds.stored
  have nothing : packet.stored = 0 := by rw [stored]; exact Nat.sub_eq_zero_of_le (by simp only [Frame.headerSize]; omega)
  rw [receive, if_pos (by rw [holds.cursor]; exact waiting), if_neg noise]
  exact ⟨rfl, rfl, nothing, rfl, by rw [fail, nothing]; rfl⟩

structure Refused (before packet : Packet C) : Prop where
  ended : packet.Ended
  buffer : packet.buffer = before.buffer
  stored : packet.stored = 0

def Advanced (before after : Packet C) (bytes : Bytes) : Prop :=
  if Frame.verdict C bytes = .error .badLength then Refused before after else after.Holds bytes

private theorem Holds.receive_early (holds : packet.Holds bytes) (early : bytes.length < 9)
    (opens : Frame.Opens (bytes ++ [byte])) :
    (packet.receive byte).2 = Frame.verdict C (bytes ++ [byte]) ∧
      Advanced packet (packet.receive byte).1 (bytes ++ [byte]) := by
  have cursor := holds.cursor
  have longer : (bytes ++ [byte]).length = bytes.length + 1 := by simp
  have next : packet.receive byte = (packet.putHeader byte).proceed := by
    unfold Packet.receive
    by_cases waiting : packet.cursor < 2
    · have marker : byte = Frame.markerByte := by
        apply opens
        rw [List.take_of_length_le (by omega)]
        simp
      rw [if_pos waiting, if_pos marker]
    · rw [if_neg waiting, if_pos (by omega)]
  have verdict : Frame.verdict C (bytes ++ [byte]) = .inProgress := by
    rw [Frame.verdict, if_pos (by simp only [Frame.headerSize]; omega)]
  rw [Advanced, next, verdict, if_neg (by simp)]
  exact ⟨rfl, (holds.putHeader (by simp only [Frame.headerSize]; omega) byte).withStatus _⟩

private theorem Holds.receive_last_of_header (holds : packet.Holds bytes) (last : bytes.length = 9) :
    (packet.receive byte).2 = Frame.verdict C (bytes ++ [byte]) ∧
      Advanced packet (packet.receive byte).1 (bytes ++ [byte]) := by
  have cursor := holds.cursor
  have stored := holds.stored
  have longer : (bytes ++ [byte]).length = Frame.headerSize := by simp [last, Frame.headerSize]
  have filled := holds.putHeader (by simp only [Frame.headerSize]; omega) byte
  have length := filled.length_eq (Nat.le_of_eq longer.symm)
  have nothing : packet.stored = 0 := by simp only [Frame.headerSize] at stored; omega
  have same : ({ packet.putHeader byte with stored := 0 } : Packet C) = packet.putHeader byte := by
    simp only [Packet.putHeader, nothing]
  have next : packet.receive byte = if Frame.declared (bytes ++ [byte]) ≤ C.val then (packet.putHeader byte).settle
      else fail { packet.putHeader byte with header.length := 0, stored := 0 } .badLength := by
    unfold Packet.receive
    rw [if_neg (by omega), if_neg (by omega), if_pos (by omega)]
    simp only [length, same]
  by_cases accepted : Frame.declared (bytes ++ [byte]) ≤ C.val
  · have settled := filled.settle (Nat.le_of_eq longer.symm) accepted (by omega)
    have other : Frame.verdict C (bytes ++ [byte]) ≠ .error .badLength := by
      rw [Ne, Frame.verdict_eq_badLength_iff]
      omega
    rw [Advanced, next, if_pos accepted, if_neg other]
    exact settled
  · have verdict : Frame.verdict C (bytes ++ [byte]) = .error .badLength := by
      rw [Frame.verdict_eq_badLength_iff]
      omega
    rw [Advanced, next, if_neg accepted, if_pos verdict, verdict]
    refine ⟨rfl, ⟨⟨?_, Nat.le_refl _⟩, rfl, rfl⟩⟩
    simp only [fail, Packet.putHeader, cursor, Frame.headerSize]
    omega

private theorem Holds.receive_payload (holds : packet.Holds bytes) (whole : Frame.headerSize ≤ bytes.length)
    (unfinished : Frame.verdict C bytes = .inProgress) :
    (packet.receive byte).2 = Frame.verdict C (bytes ++ [byte]) ∧
      Advanced packet (packet.receive byte).1 (bytes ++ [byte]) := by
  rw [Frame.verdict_eq_inProgress_iff] at unfinished
  have cursor := holds.cursor
  have stored := holds.stored
  have length := holds.length_eq whole
  have longer : (bytes ++ [byte]).length = bytes.length + 1 := by simp
  have same : Frame.declared (bytes ++ [byte]) = Frame.declared bytes := Frame.declared_append whole _
  have next : packet.receive byte = (packet.putPayload byte).settle := by
    unfold Packet.receive
    simp only [Frame.headerSize] at whole stored unfinished
    rw [if_neg (by omega), if_neg (by omega), if_neg (by omega), if_pos (by omega)]
  have filled := holds.putPayload whole (by omega) byte
  have other : Frame.verdict C (bytes ++ [byte]) ≠ .error .badLength := by
    rw [Ne, Frame.verdict_eq_badLength_iff]
    omega
  rw [Advanced, next, if_neg other]
  exact filled.settle (by omega) (by omega) (by omega)

/-- One more byte of a frame's beginning leads to the verdict on the beginning with it. -/
theorem Holds.receive (holds : packet.Holds bytes) (opens : Frame.Opens (bytes ++ [byte]))
    (unfinished : Frame.verdict C bytes = .inProgress) :
    (packet.receive byte).2 = Frame.verdict C (bytes ++ [byte]) ∧
      Advanced packet (packet.receive byte).1 (bytes ++ [byte]) := by
  -- The tenth byte stands apart: it completes the length, which can be refused there and only there.
  by_cases early : bytes.length < 9
  · exact holds.receive_early early opens
  · by_cases last : bytes.length = 9
    · exact holds.receive_last_of_header last
    · exact holds.receive_payload (by simp only [Frame.headerSize]; omega) unfinished

theorem Holds.ended (holds : packet.Holds bytes) (finished : Frame.verdict C bytes ≠ .inProgress)
    (accepted : Frame.verdict C bytes ≠ .error .badLength) : packet.Ended := by
  rw [Ne, Frame.verdict_eq_inProgress_iff] at finished
  rw [Ne, Frame.verdict_eq_badLength_iff] at accepted
  have whole : Frame.headerSize ≤ bytes.length := by omega
  have cursor := holds.cursor
  have stored := holds.stored
  have length := holds.length_eq whole
  exact ⟨by omega, by omega⟩

theorem Advanced.ended {before after : Packet C} (advanced : Advanced before after bytes)
    (finished : Frame.verdict C bytes ≠ .inProgress) : after.Ended := by
  unfold Advanced at advanced
  split at advanced
  · exact advanced.ended
  · rename_i accepted
    exact advanced.ended finished accepted

theorem Advanced.holds {before after : Packet C} (advanced : Advanced before after bytes)
    (accepted : Frame.verdict C bytes ≠ .error .badLength) : after.Holds bytes := by
  rwa [Advanced, if_neg accepted] at advanced

theorem Ended.receive (ended : packet.Ended) (byte : UInt8) :
    packet.receive byte = packet.fail .overflow ∧ (packet.receive byte).1.Ended := by
  obtain ⟨cursor, stored⟩ := ended
  have refused : packet.receive byte = packet.fail .overflow := by
    unfold Packet.receive
    simp only [Frame.headerSize] at cursor
    rw [if_neg (by omega), if_neg (by omega), if_neg (by omega), if_neg (by omega)]
  rw [refused]
  exact ⟨rfl, cursor, stored⟩

theorem receiveAll_append (packet : Packet C) (one two : Bytes) :
    packet.receiveAll (one ++ two) =
      (((packet.receiveAll one).1.receiveAll two).1,
        (packet.receiveAll one).2 ++ ((packet.receiveAll one).1.receiveAll two).2) := by
  induction one generalizing packet with
  | nil => rfl
  | cons byte one ih => simp only [List.cons_append, receiveAll, ih]

theorem receiveAll_concat (packet : Packet C) (bytes : Bytes) (byte : UInt8) :
    packet.receiveAll (bytes ++ [byte]) =
      (((packet.receiveAll bytes).1.receive byte).1,
        (packet.receiveAll bytes).2 ++ [((packet.receiveAll bytes).1.receive byte).2]) := by
  rw [receiveAll_append]
  rfl

theorem Holds.receiveAll (holds : packet.Holds bytes) {more : Bytes} (opens : Frame.Opens (bytes ++ more))
    (unfinished : Frame.verdict C (bytes ++ more) = .inProgress) :
    (packet.receiveAll more).2 = List.replicate more.length .inProgress ∧
      (packet.receiveAll more).1.Holds (bytes ++ more) := by
  induction more generalizing packet bytes with
  | nil => exact ⟨rfl, by rw [List.append_nil]; exact holds⟩
  | cons byte more ih =>
    have split : bytes ++ byte :: more = (bytes ++ [byte]) ++ more := by simp
    rw [split] at opens unfinished
    have incomplete := Frame.verdict_of_append unfinished
    obtain ⟨answer, advanced⟩ := holds.receive (Frame.opens_of_append opens) (Frame.verdict_of_append incomplete)
    rw [incomplete] at answer
    have held := advanced.holds (by rw [incomplete]; simp)
    obtain ⟨answers, last⟩ := ih held opens unfinished
    rw [split]
    refine ⟨?_, last⟩
    rw [Packet.receiveAll, answer, answers, List.length_cons, List.replicate_succ]

theorem Holds.receiveAll_concat (holds : packet.Holds bytes) {more : Bytes}
    (opens : Frame.Opens (bytes ++ more ++ [byte]))
    (unfinished : Frame.verdict C (bytes ++ more) = .inProgress) :
    (packet.receiveAll (more ++ [byte])).2 =
        List.replicate more.length .inProgress ++ [Frame.verdict C (bytes ++ more ++ [byte])] ∧
      Advanced (packet.receiveAll more).1 (packet.receiveAll (more ++ [byte])).1 (bytes ++ more ++ [byte]) := by
  obtain ⟨answers, held⟩ := holds.receiveAll (Frame.opens_of_append opens) unfinished
  obtain ⟨answer, advanced⟩ := held.receive opens unfinished
  rw [Packet.receiveAll_concat, answers, answer]
  exact ⟨rfl, advanced⟩

private theorem exists_concat (whole : Frame.headerSize ≤ bytes.length) :
    ∃ before last, bytes = before ++ [last] := by
  have some : bytes ≠ [] := by
    rintro rfl
    cases whole
  exact ⟨bytes.dropLast, bytes.getLast some, (List.dropLast_concat_getLast some).symm⟩

theorem Holds.receiveAll_whole (holds : packet.Holds []) (opens : Frame.Opens bytes)
    (whole : bytes.length = Frame.headerSize + Frame.declared bytes) (accepted : Frame.declared bytes ≤ C) :
    (packet.receiveAll bytes).2 = List.replicate (bytes.length - 1) .inProgress ++
        [if Frame.Intact bytes then .completed else .error .badChecksum] ∧
      (packet.receiveAll bytes).1.Holds bytes := by
  have final : Frame.verdict C bytes = if Frame.Intact bytes then .completed else .error .badChecksum := by
    rw [Frame.verdict_of_accepted (by omega) accepted, if_neg (by omega)]
  obtain ⟨before, last, rfl⟩ := exists_concat (show Frame.headerSize ≤ bytes.length by omega)
  have length : (before ++ [last]).length = before.length + 1 := by simp
  have unfinished : Frame.verdict C before = .inProgress := by
    rw [Frame.verdict_eq_inProgress_iff]
    by_cases short : before.length < Frame.headerSize
    · exact .inl short
    · rw [Frame.declared_append (by omega)] at whole accepted
      exact .inr ⟨accepted, by omega⟩
  obtain ⟨answers, advanced⟩ := holds.receiveAll_concat opens unfinished
  rw [List.nil_append] at answers advanced
  refine ⟨by rw [answers, final, length]; rfl, advanced.holds ?_⟩
  rw [final]
  split <;> simp

theorem cursor_receive_le (packet : Packet C) (byte : UInt8) :
    (packet.receive byte).1.cursor ≤ packet.cursor + 1 := by
  unfold receive
  split
  · split
    · exact Nat.le_refl _
    · exact Nat.zero_le _
  · split
    · exact Nat.le_refl _
    · split
      · simp only
        split
        · rw [settle_fst]
          exact Nat.le_refl _
        · exact Nat.le_refl _
      · split
        · rw [settle_fst]
          exact Nat.le_refl _
        · exact Nat.le_succ _

theorem buffer_receive (early : packet.cursor < Frame.headerSize) (byte : UInt8) :
    (packet.receive byte).1.buffer = packet.buffer := by
  simp only [Frame.headerSize] at early
  unfold receive
  split
  · split <;> rfl
  · split
    · rfl
    · rw [if_pos (by omega)]
      simp only
      split
      · rw [settle_fst]
        rfl
      · rfl

theorem buffer_receiveAll (early : packet.cursor + bytes.length ≤ Frame.headerSize) :
    (packet.receiveAll bytes).1.buffer = packet.buffer := by
  induction bytes generalizing packet with
  | nil => rfl
  | cons byte bytes ih =>
    have next := cursor_receive_le packet byte
    rw [List.length_cons] at early
    rw [Packet.receiveAll]
    exact (ih (by omega)).trans (buffer_receive (by omega) byte)

theorem Holds.receiveAll_oversized (holds : packet.Holds []) (opens : Frame.Opens bytes)
    (header : bytes.length = Frame.headerSize) (large : C < Frame.declared bytes) :
    (packet.receiveAll bytes).2 = List.replicate 9 .inProgress ++ [.error .badLength] ∧
      Refused packet (packet.receiveAll bytes).1 := by
  have final : Frame.verdict C bytes = .error .badLength :=
    Frame.verdict_eq_badLength_iff.mpr ⟨by omega, large⟩
  have buffer : (packet.receiveAll bytes).1.buffer = packet.buffer := by
    apply buffer_receiveAll
    rw [holds.cursor, header]
    exact Nat.le_refl _
  obtain ⟨before, last, rfl⟩ := exists_concat (Nat.le_of_eq header.symm)
  have length : before.length = 9 := by simpa [Frame.headerSize] using header
  have unfinished : Frame.verdict C before = .inProgress :=
    Frame.verdict_eq_inProgress_iff.mpr (.inl (by simp only [Frame.headerSize]; omega))
  obtain ⟨answers, advanced⟩ := holds.receiveAll_concat opens unfinished
  rw [List.nil_append] at answers advanced
  rw [Advanced, if_pos final] at advanced
  exact ⟨by rw [answers, final, length], advanced.ended, buffer, advanced.stored⟩

theorem Ended.receiveAll (ended : packet.Ended) (bytes : Bytes) :
    (packet.receiveAll bytes).2 = List.replicate bytes.length (.error .overflow) ∧
      ∃ status, (packet.receiveAll bytes).1 = { packet with status := status } := by
  induction bytes generalizing packet with
  | nil => exact ⟨rfl, packet.status, rfl⟩
  | cons byte bytes ih =>
    obtain ⟨refused, still⟩ := ended.receive byte
    obtain ⟨answers, status, last⟩ := ih still
    rw [refused] at answers last
    rw [Packet.receiveAll, refused]
    exact ⟨by rw [answers]; rfl, status, by rw [last]; rfl⟩

end Packet

end FramedLink
