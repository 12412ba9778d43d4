import FramedLink.Proofs.Packet.Emission
import FramedLink.Proofs.Packet.Operation

/-! A packet as it lies in memory: one array of cells, the header in the first ten and the buffer after it. An access
outside the array fails. Main statement: whatever is done with a packet, no access fails, and the array shows what the
packet shows. -/

namespace FramedLink.Packet

variable {C : Capacity}

structure Memory (C : Capacity) where
  cells : Vector UInt8 (Frame.headerSize + C)
  cursor : Nat := 0
  stored : Nat := 0
  status : Status := .ok
  deriving DecidableEq

namespace Memory

def load (memory : Memory C) (index : Nat) : Option UInt8 :=
  memory.cells[index]?

def store (memory : Memory C) (index : Nat) (byte : UInt8) : Option (Memory C) :=
  if index < Frame.headerSize + C then some { memory with cells := memory.cells.setIfInBounds index byte } else none

def loadWord (memory : Memory C) (index : Nat) : Option UInt16 := do
  let first ← memory.load index
  let second ← memory.load (index + 1)
  return Word.ofBytes first second

def storeWord (memory : Memory C) (index : Nat) (word : UInt16) : Option (Memory C) := do
  let half ← memory.store index (Word.low word)
  half.store (index + 1) (Word.high word)

def loadAll (memory : Memory C) (index : Nat) : Nat → Option Bytes
  | 0 => some []
  | count + 1 => do
    let byte ← memory.load index
    let bytes ← memory.loadAll (index + 1) count
    return byte :: bytes

def storeAll (memory : Memory C) (index : Nat) : Bytes → Option (Memory C)
  | [] => some memory
  | byte :: bytes => do
    let next ← memory.store index byte
    next.storeAll (index + 1) bytes

def length (memory : Memory C) : Option Nat := do
  let word ← memory.loadWord Frame.lengthOffset
  return word.toNat

def wire (memory : Memory C) : Option Bytes := do
  let length ← memory.length
  memory.loadAll Frame.markerOffset (Frame.headerSize + length)

def payload (memory : Memory C) : Option Bytes := do
  let length ← memory.length
  memory.loadAll Frame.payloadOffset length

def contentChecksum (memory : Memory C) : Option UInt16 := do
  let length ← memory.length
  let covered ← memory.loadAll Frame.coveredOffset (Frame.headerSize + length - Frame.coveredOffset)
  return Checksum.ofBytes covered

def isValid (memory : Memory C) : Option Bool := do
  let computed ← memory.contentChecksum
  let stated ← memory.loadWord Frame.checksumOffset
  return computed == stated

def setRequest (memory : Memory C) (code : UInt16) : Option (Memory C) :=
  memory.storeWord Frame.requestOffset code

def setResponse (memory : Memory C) (code : UInt16) : Option (Memory C) :=
  memory.storeWord Frame.responseOffset code

def clear (memory : Memory C) : Option (Memory C) := do
  let cleared ← memory.storeAll Frame.markerOffset (List.replicate (Frame.headerSize + C) 0)
  return { cells := cleared.cells }

def restart (memory : Memory C) : Option (Memory C) := do
  let cleared ← memory.storeAll Frame.markerOffset (List.replicate Frame.headerSize 0)
  return { cells := cleared.cells }

def append (memory : Memory C) (bytes : Bytes) : Option (Memory C × Bool) := do
  let length ← memory.length
  if bytes.length + length ≤ C then
    let filled ← memory.storeAll (Frame.payloadOffset + length) bytes
    let counted ← filled.storeWord Frame.lengthOffset (UInt16.ofNat (bytes.length + length))
    return ({ counted with status := .ok }, true)
  else return ({ memory with status := .overflow }, false)

def commit (memory : Memory C) : Option (Memory C) := do
  let checksum ← memory.contentChecksum
  let summed ← memory.storeWord Frame.checksumOffset checksum
  let marked ← summed.storeWord Frame.markerOffset Frame.marker
  return { marked with cursor := 0 }

def compose (memory : Memory C) (frame : Frame) : Option (Memory C × Bool) := do
  let restarted ← memory.restart
  let asked ← restarted.setRequest frame.request
  let addressed ← asked.setResponse frame.response
  match ← addressed.append frame.payload with
  | (filled, true) => return (← filled.commit, true)
  | (refused, false) => return (refused, false)

def emit (memory : Memory C) : Option (Memory C × Option UInt8) := do
  let length ← memory.length
  if memory.cursor < Frame.headerSize + length then
    let byte ← memory.load memory.cursor
    return ({ memory with cursor := memory.cursor + 1, status := .ok }, some byte)
  else return ({ memory with cursor := 0, status := .exhausted }, none)

def proceed (memory : Memory C) : Memory C × Outcome :=
  ({ memory with status := .building }, .inProgress)

def fail (memory : Memory C) (status : Status) : Memory C × Outcome :=
  ({ memory with status := status }, .error status)

def putHeader (memory : Memory C) (byte : UInt8) : Option (Memory C) := do
  let filled ← memory.store memory.cursor byte
  return { filled with cursor := memory.cursor + 1 }

def putPayload (memory : Memory C) (byte : UInt8) : Option (Memory C) := do
  let filled ← memory.store (Frame.payloadOffset + memory.stored) byte
  return { filled with cursor := memory.cursor + 1, stored := memory.stored + 1 }

def settle (memory : Memory C) : Option (Memory C × Outcome) := do
  let length ← memory.length
  if memory.stored < length then return memory.proceed
  else if ← memory.isValid then return ({ memory with status := .received }, .completed)
  else return memory.fail .badChecksum

def receive (memory : Memory C) (byte : UInt8) : Option (Memory C × Outcome) :=
  if memory.cursor < 2 then
    if byte = Frame.markerByte then do return (← memory.putHeader byte).proceed
    else return fail { memory with cursor := 0 } .noMarker
  else if memory.cursor < 9 then do return (← memory.putHeader byte).proceed
  else if memory.cursor = 9 then do
    let declared ← memory.putHeader byte
    let length ← declared.length
    if length ≤ C then settle { declared with stored := 0 }
    else
      let refused ← declared.storeWord Frame.lengthOffset 0
      return fail { refused with stored := 0 } .badLength
  else do
    let length ← memory.length
    if memory.stored < length then
      let filled ← memory.putPayload byte
      filled.settle
    else return memory.fail .overflow

def perform (memory : Memory C) : Operation → Option (Memory C × Answer)
  | .receive byte => do
    let (after, outcome) ← memory.receive byte
    return (after, .outcome outcome)
  | .append bytes => do
    let (after, whole) ← memory.append bytes
    return (after, .accepted whole)
  | .setRequest code => do return (← memory.setRequest code, .done)
  | .setResponse code => do return (← memory.setResponse code, .done)
  | .commit => do return (← memory.commit, .done)
  | .compose frame => composed frame
  | .composeRequest request payload => composed ⟨request, Frame.pendingResponse, payload⟩
  | .composeReply request payload => composed ⟨request, Frame.successResponse, payload⟩
  | .composeIdentity identity encoding =>
    composed ⟨Frame.identityRequest, Frame.successResponse, identity.encode encoding⟩
  | .emit => do
    let (after, byte) ← memory.emit
    return (after, .emitted byte)
  | .clear => do return (← memory.clear, .done)
  | .restart => do return (← memory.restart, .done)
  | .wire => do return (memory, .contents (← memory.wire))
  | .payload => do return (memory, .contents (← memory.payload))
  | .isValid => do return (memory, .valid (← memory.isValid))
  | .contentChecksum => do return (memory, .checksum (← memory.contentChecksum))
where
  composed (frame : Frame) : Option (Memory C × Answer) := do
    let (after, whole) ← memory.compose frame
    return (after, .accepted whole)

def performAll (memory : Memory C) : List Operation → Option (Memory C × List Answer)
  | [] => some (memory, [])
  | operation :: operations => do
    let (next, answer) ← memory.perform operation
    let (last, answers) ← next.performAll operations
    return (last, answer :: answers)

theorem storeAll_of_fits {memory : Memory C} {index : Nat} {bytes : Bytes}
    (fits : index + bytes.length ≤ Frame.headerSize + C) :
    memory.storeAll index bytes = some { memory with cells := overwrite memory.cells index bytes } := by
  induction bytes generalizing memory index with
  | nil => rfl
  | cons byte bytes ih =>
    rw [List.length_cons] at fits
    have inside : index < Frame.headerSize + C := by omega
    rw [storeAll, store, if_pos inside, Option.bind_eq_bind, Option.bind_some, ih (by omega), overwrite]

end Memory

def image (packet : Packet C) : Bytes :=
  packet.header.bytes ++ packet.buffer.toList

theorem length_image (packet : Packet C) : packet.image.length = Frame.headerSize + C := by
  rw [image, List.length_append, Frame.Header.length_bytes, Vector.length_toList]

def cells (header : Frame.Header) (buffer : Vector UInt8 C) : Vector UInt8 (Frame.headerSize + C) :=
  (⟨header.bytes.toArray, rfl⟩ : Vector UInt8 Frame.headerSize) ++ buffer

def memory (packet : Packet C) : Memory C where
  cells := cells packet.header packet.buffer
  cursor := packet.cursor
  stored := packet.stored
  status := packet.status

variable {packet next : Packet C} {index count : Nat} {byte : UInt8} {bytes : Bytes}

theorem toList_cells (packet : Packet C) : packet.memory.cells.toList = packet.image := by
  simp [memory, cells, image, Vector.toList]

theorem memory_eq (packet : Packet C) {cells : Vector UInt8 (Frame.headerSize + C)}
    (same : cells.toList = packet.image) :
    ({ cells := cells, cursor := packet.cursor, stored := packet.stored, status := packet.status } : Memory C) =
      packet.memory := by
  rw [Vector.toList_inj.mp (same.trans (toList_cells packet).symm)]
  rfl

theorem load_memory (packet : Packet C) (index : Nat) : packet.memory.load index = packet.image[index]? := by
  rw [Memory.load, ← Vector.getElem?_toList, toList_cells]

theorem loadAll_memory (inside : index + count ≤ Frame.headerSize + C) :
    packet.memory.loadAll index count = some ((packet.image.drop index).take count) := by
  induction count generalizing index with
  | zero => rfl
  | succ count ih =>
    have here : index < packet.image.length := by rw [length_image]; omega
    rw [Memory.loadAll, load_memory, List.getElem?_eq_getElem here, ih (by omega), List.drop_eq_getElem_cons here]
    rfl

theorem loadWord_memory (early : index + 1 < Frame.headerSize) :
    packet.memory.loadWord index = some (Frame.wordAt packet.header.bytes index) := by
  have size := Frame.Header.length_bytes packet.header
  have first : index < packet.header.bytes.length := by omega
  have second : index + 1 < packet.header.bytes.length := by omega
  rw [Memory.loadWord, load_memory, load_memory, image, List.getElem?_append_left first,
    List.getElem?_append_left second, List.getElem?_eq_getElem first, List.getElem?_eq_getElem second, Frame.wordAt,
    List.getD_eq_getElem?_getD, List.getD_eq_getElem?_getD, List.getElem?_eq_getElem first,
    List.getElem?_eq_getElem second]
  rfl

theorem length_memory (packet : Packet C) : packet.memory.length = some packet.length := by
  rw [Memory.length, loadWord_memory (by decide), ← Frame.Header.length_eq]
  rfl

theorem store_header (early : index < Frame.headerSize) (packet : Packet C) (byte : UInt8) :
    packet.memory.store index byte = some { packet with header := packet.header.set index byte : Packet C }.memory := by
  have inside : index < Frame.headerSize + C := by omega
  rw [Memory.store, if_pos inside]
  refine congrArg some (memory_eq { packet with header := packet.header.set index byte } ?_)
  rw [Vector.toList_setIfInBounds, toList_cells, image, image, Frame.Header.bytes_set, List.set_append_left]
  rw [Frame.Header.length_bytes]
  exact early

theorem store_payload (inside : index < C) (packet : Packet C) (byte : UInt8) :
    packet.memory.store (Frame.payloadOffset + index) byte =
      some { packet with buffer := packet.buffer.setIfInBounds index byte : Packet C }.memory := by
  have header := Frame.Header.length_bytes packet.header
  rw [Memory.store, if_pos (by simp only [Frame.payloadOffset, Frame.headerSize]; omega)]
  refine congrArg some (memory_eq { packet with buffer := packet.buffer.setIfInBounds index byte } ?_)
  rw [Vector.toList_setIfInBounds, toList_cells, image, image, List.set_append_right, header,
    Vector.toList_setIfInBounds]
  · rw [Frame.payloadOffset, Frame.headerSize, Nat.add_sub_cancel_left]
  · rw [header, Frame.headerSize, Frame.payloadOffset]
    omega

theorem storeAll_payload (fits : index + bytes.length ≤ C) (packet : Packet C) :
    packet.memory.storeAll (Frame.payloadOffset + index) bytes =
      some { packet with buffer := overwrite packet.buffer index bytes : Packet C }.memory := by
  induction bytes generalizing packet index with
  | nil => rfl
  | cons byte bytes ih =>
    rw [List.length_cons] at fits
    rw [Memory.storeAll, store_payload (by omega), Option.bind_eq_bind, Option.bind_some, Nat.add_assoc,
      ih (by omega), overwrite]

theorem storeWord_header (early : index + 1 < Frame.headerSize) (packet : Packet C) (word : UInt16) :
    packet.memory.storeWord index word =
      some { packet with
        header := (packet.header.set index (Word.low word)).set (index + 1) (Word.high word) : Packet C }.memory := by
  rw [Memory.storeWord, store_header (by omega), Option.bind_eq_bind, Option.bind_some, store_header early]

theorem storeWord_length (packet : Packet C) (word : UInt16) :
    packet.memory.storeWord Frame.lengthOffset word = some { packet with header.length := word : Packet C }.memory := by
  rw [storeWord_header (by decide)]
  simp [Frame.Header.set, Frame.lengthOffset, Word.setLow, Word.setHigh]

theorem setRequest_memory (packet : Packet C) (code : UInt16) :
    packet.memory.setRequest code = some (packet.setRequest code).memory := by
  rw [Memory.setRequest, storeWord_header (by decide)]
  simp [Frame.Header.set, Frame.requestOffset, Word.setLow, Word.setHigh, setRequest]

theorem setResponse_memory (packet : Packet C) (code : UInt16) :
    packet.memory.setResponse code = some (packet.setResponse code).memory := by
  rw [Memory.setResponse, storeWord_header (by decide)]
  simp [Frame.Header.set, Frame.responseOffset, Word.setLow, Word.setHigh, setResponse]

theorem take_image (packet : Packet C) : packet.image.take packet.frameSize = packet.wire := by
  rw [image, frameSize, ← Frame.Header.length_bytes packet.header, List.take_length_add_append, wire, payload,
    Vector.toList_take]

theorem wire_memory (contained : packet.Contained) : packet.memory.wire = some packet.wire := by
  rw [Contained] at contained
  rw [Memory.wire, length_memory, Option.bind_eq_bind, Option.bind_some,
    loadAll_memory (by simp only [Frame.markerOffset]; omega), Frame.markerOffset, List.drop_zero, ← frameSize,
    take_image]

theorem payload_memory (contained : packet.Contained) : packet.memory.payload = some packet.payload := by
  rw [Contained] at contained
  rw [Memory.payload, length_memory, Option.bind_eq_bind, Option.bind_some,
    loadAll_memory (by simp only [Frame.payloadOffset, Frame.headerSize]; omega), image, List.drop_left' (by rfl),
    payload, Vector.toList_take]

theorem contentChecksum_memory (contained : packet.Contained) :
    packet.memory.contentChecksum = some packet.contentChecksum := by
  have inside :
      Frame.coveredOffset + (Frame.headerSize + packet.length - Frame.coveredOffset) ≤ Frame.headerSize + C := by
    rw [Contained] at contained
    simp only [Frame.coveredOffset, Frame.requestOffset, Frame.headerSize]
    omega
  rw [Memory.contentChecksum, length_memory, Option.bind_eq_bind, Option.bind_some, loadAll_memory inside,
    ← List.drop_take, ← frameSize, take_image, drop_wire contained]
  rfl

theorem isValid_memory (contained : packet.Contained) : packet.memory.isValid = some packet.isValid := by
  rw [Memory.isValid, contentChecksum_memory contained, Option.bind_eq_bind, Option.bind_some,
    loadWord_memory (by decide), ← Frame.Header.checksum_eq]
  rfl

theorem clear_memory (packet : Packet C) : packet.memory.clear = some packet.clear.memory := by
  rw [Memory.clear, Memory.storeAll_of_fits (by simp [Frame.markerOffset]), Option.bind_eq_bind, Option.bind_some]
  refine congrArg some (memory_eq packet.clear ?_)
  have zeros : packet.clear.image = List.replicate (Frame.headerSize + C) 0 := by
    rw [image, clear, fresh, Vector.toList_replicate, ← List.replicate_append_replicate]
    exact congrArg (· ++ List.replicate C.val 0) (show ({} : Frame.Header).bytes = _ by decide)
  rw [toList_overwrite _ _ _ (by simp [Frame.markerOffset]), toList_cells, zeros, List.drop_of_length_le]
  · simp [Frame.markerOffset]
  · rw [length_image, List.length_replicate]
    exact Nat.le_add_left _ _

theorem restart_memory (packet : Packet C) : packet.memory.restart = some packet.restart.memory := by
  rw [Memory.restart, Memory.storeAll_of_fits (by simp [Frame.markerOffset]), Option.bind_eq_bind, Option.bind_some]
  refine congrArg some (memory_eq packet.restart ?_)
  have zeros : packet.restart.header.bytes = List.replicate Frame.headerSize 0 := by
    simp only [restart]
    decide
  rw [toList_overwrite _ _ _ (by simp [Frame.markerOffset]), toList_cells, image, image, List.drop_left' (by rfl),
    Frame.markerOffset, List.take_zero, List.nil_append, zeros]
  rfl

theorem append_memory (packet : Packet C) (bytes : Bytes) :
    packet.memory.append bytes = some ((packet.append bytes).1.memory, (packet.append bytes).2) := by
  simp only [Memory.append, length_memory, Option.bind_eq_bind, Option.bind_some, append]
  by_cases fits : bytes.length + packet.length ≤ C
  · simp only [if_pos fits, storeAll_payload (show packet.length + bytes.length ≤ C by omega), Option.bind_some,
      storeWord_length]
    rfl
  · simp only [if_neg fits]
    rfl

theorem commit_memory (contained : packet.Contained) : packet.memory.commit = some packet.commit.memory := by
  simp only [Memory.commit, contentChecksum_memory contained, Option.bind_eq_bind, Option.bind_some]
  rw [storeWord_header (by decide), Option.bind_some, storeWord_header (by decide), Option.bind_some]
  simp [Frame.Header.set, Frame.checksumOffset, Frame.markerOffset, Word.setLow, Word.setHigh, commit, memory]

theorem compose_memory (packet : Packet C) (frame : Frame) :
    packet.memory.compose frame = some ((packet.compose frame).1.memory, (packet.compose frame).2) := by
  simp only [Memory.compose, restart_memory, setRequest_memory, setResponse_memory, append_memory, Option.bind_eq_bind,
    Option.bind_some, compose]
  rcases taken : ((packet.restart.setRequest frame.request).setResponse frame.response).append frame.payload with
    ⟨filled, _ | _⟩
  · rfl
  · simp only [commit_memory (contained_append taken), Option.bind_some]
    rfl

theorem emit_memory (contained : packet.Contained) :
    packet.memory.emit = some (packet.emit.1.memory, packet.emit.2) := by
  rw [Memory.emit, length_memory, Option.bind_eq_bind, Option.bind_some, ← frameSize]
  by_cases inside : packet.cursor < packet.frameSize
  · have taken : packet.emit =
        ({ packet with cursor := packet.cursor + 1, status := .ok }, some (packet.byteAt packet.cursor)) :=
      if_pos inside
    have loaded : packet.memory.load packet.cursor = some (packet.byteAt packet.cursor) := by
      rw [load_memory, ← getElem?_wire contained inside, ← take_image, List.getElem?_take_of_lt inside]
    rw [if_pos (show packet.memory.cursor < _ from inside), taken]
    exact congrArg (Option.bind · _) loaded
  · have exhausted : packet.emit = ({ packet with cursor := 0, status := .exhausted }, none) := if_neg inside
    rw [if_neg (show ¬ packet.memory.cursor < _ from inside), exhausted]
    rfl

theorem settle_memory (contained : packet.Contained) :
    packet.memory.settle = some (packet.settle.1.memory, packet.settle.2) := by
  simp only [Memory.settle, length_memory, isValid_memory contained, Option.bind_eq_bind, Option.bind_some, settle]
  by_cases more : packet.stored < packet.length
  · rw [if_pos (show packet.memory.stored < _ from more), if_pos more]
    rfl
  · rw [if_neg (show ¬ packet.memory.stored < _ from more), if_neg more]
    cases packet.isValid <;> rfl

theorem putHeader_memory (early : packet.cursor < Frame.headerSize) (byte : UInt8) :
    packet.memory.putHeader byte = some (packet.putHeader byte).memory := by
  have stored : packet.memory.store packet.memory.cursor byte = _ := store_header early packet byte
  rw [Memory.putHeader, stored]
  rfl

theorem putPayload_memory (room : packet.stored < C) (byte : UInt8) :
    packet.memory.putPayload byte = some (packet.putPayload byte).memory := by
  have stored : packet.memory.store (Frame.payloadOffset + packet.memory.stored) byte = _ :=
    store_payload room packet byte
  rw [Memory.putPayload, stored]
  rfl

theorem Sound.receive_memory (sound : packet.Sound) (byte : UInt8) :
    packet.memory.receive byte = some ((packet.receive byte).1.memory, (packet.receive byte).2) := by
  have cursor : packet.memory.cursor = packet.cursor := rfl
  have stored : packet.memory.stored = packet.stored := rfl
  unfold Memory.receive Packet.receive
  rw [cursor, stored]
  split
  · rename_i waiting
    split
    · rw [putHeader_memory (by simp only [Frame.headerSize]; omega)]
      rfl
    · rfl
  · split
    · rw [putHeader_memory (by simp only [Frame.headerSize]; omega)]
      rfl
    · split
      · rename_i last
        rw [putHeader_memory (by simp only [Frame.headerSize]; omega)]
        simp only [Option.bind_eq_bind, Option.bind_some, length_memory]
        split
        · rename_i accepted
          have contained : ({ packet.putHeader byte with stored := 0 } : Packet C).Contained := accepted
          exact settle_memory contained
        · rw [storeWord_length]
          rfl
      · have contained := sound.contained (by omega)
        simp only [Option.bind_eq_bind, Option.bind_some, length_memory]
        split
        · rename_i more
          rw [putPayload_memory (Nat.lt_of_lt_of_le more contained), Option.bind_some]
          have still : (packet.putPayload byte).Contained := contained
          exact settle_memory still
        · rfl

theorem Sound.perform_memory (sound : packet.Sound) {operation : Operation} (permitted : packet.Permits operation) :
    packet.memory.perform operation = some ((packet.perform operation).1.memory, (packet.perform operation).2) := by
  cases operation with
  | receive byte =>
    rw [Memory.perform, sound.receive_memory]
    rfl
  | append bytes =>
    rw [Memory.perform, append_memory]
    rfl
  | setRequest code =>
    rw [Memory.perform, setRequest_memory]
    rfl
  | setResponse code =>
    rw [Memory.perform, setResponse_memory]
    rfl
  | commit =>
    rw [Memory.perform, commit_memory (permitted rfl)]
    rfl
  | compose _ | composeRequest _ _ | composeReply _ _ | composeIdentity _ _ =>
    rw [Memory.perform, Memory.perform.composed, compose_memory]
    rfl
  | emit =>
    rw [Memory.perform, emit_memory (permitted rfl)]
    rfl
  | clear =>
    rw [Memory.perform, clear_memory]
    rfl
  | restart =>
    rw [Memory.perform, restart_memory]
    rfl
  | wire =>
    rw [Memory.perform, wire_memory (permitted rfl)]
    rfl
  | payload =>
    rw [Memory.perform, payload_memory (permitted rfl)]
    rfl
  | isValid =>
    rw [Memory.perform, isValid_memory (permitted rfl)]
    rfl
  | contentChecksum =>
    rw [Memory.perform, contentChecksum_memory (permitted rfl)]
    rfl

theorem Sound.performAll_memory (sound : packet.Sound) {operations : List Operation}
    (permitted : packet.PermitsAll operations) :
    packet.memory.performAll operations =
      some ((packet.performAll operations).1.memory, (packet.performAll operations).2) := by
  induction operations generalizing packet with
  | nil => rfl
  | cons operation operations ih =>
    simp only [Memory.performAll, sound.perform_memory permitted.1, Option.bind_eq_bind, Option.bind_some,
      ih (sound.perform permitted.1) permitted.2]
    rfl

/-- Nothing that is done with a packet, in whatever order, reads or writes beyond the end of its array. -/
theorem performAll_within_bounds {operations : List Operation} (permitted : (fresh : Packet C).PermitsAll operations) :
    let done := (fresh : Packet C).performAll operations
    (fresh : Packet C).memory.performAll operations = some (done.1.memory, done.2) ∧
      (C < done.1.length → done.1.cursor = 9) ∧ done.1.stored ≤ C ∧ done.1.CanReceive ∧ done.1.CanEmit := by
  intro done
  have sound : done.1.Sound := sound_fresh.performAll permitted
  refine ⟨sound_fresh.performAll_memory permitted, sound.early, sound.stored, ?_, ?_⟩
  · intro filled more
    have contained := sound.contained (by simp only [Frame.headerSize] at filled; omega)
    exact Nat.lt_of_lt_of_le more contained
  · intro inside
    by_cases last : done.1.cursor = 9
    · rw [last]
      exact Nat.lt_of_lt_of_le (by decide) (Nat.le_add_right Frame.headerSize C)
    · have contained := sound.contained last
      exact Nat.lt_of_lt_of_le inside (Nat.add_le_add_left contained _)

private def mixture : List Operation :=
  [.compose ⟨5, 6, [1, 2]⟩] ++ List.replicate 8 .emit ++ [.receive 0xFF, .append [7], .setRequest 9, .receive 0x01] ++
    [.restart, .append [3], .emit, .emit, .append [4], .receive 0x55, .commit, .wire, .emit]

theorem performAll_within_bounds_of_mixture :
    (fresh : Packet ⟨2, by decide⟩).PermitsAll mixture ∧
      (2 < ((fresh : Packet ⟨2, by decide⟩).performAll (mixture.take 12)).1.length ∧
        ((fresh : Packet ⟨2, by decide⟩).performAll (mixture.take 12)).1.cursor = 9) ∧
      (((fresh : Packet ⟨2, by decide⟩).memory.performAll mixture).map fun done => done.2.getLast?) =
        some (some (.emitted (some Frame.markerByte))) := by
  have permitted : (fresh : Packet ⟨2, by decide⟩).PermitsAll mixture := by decide +kernel
  have earlier : (fresh : Packet ⟨2, by decide⟩).PermitsAll (mixture.take 12) := by decide +kernel
  have beyond : 2 < ((fresh : Packet ⟨2, by decide⟩).performAll (mixture.take 12)).1.length := by decide +kernel
  refine ⟨permitted, ⟨beyond, (performAll_within_bounds earlier).2.1 beyond⟩, ?_⟩
  rw [(performAll_within_bounds permitted).1]
  decide +kernel

end FramedLink.Packet
