import FramedLink.Proofs.Packet.Composition

/-! What can be done with a packet, sending and receiving in any order. Main statement: a declared length beyond the
capacity is there only while its second byte is awaited, and no more payload bytes are counted than there is room
for. -/

namespace FramedLink

theorem Frame.Header.length_set {position : Nat} (early : position < 8) (header : Frame.Header) (byte : UInt8) :
    (header.set position byte).length = header.length := by
  match position with
  | 0 | 1 | 2 | 3 | 4 | 5 | 6 | 7 => rfl

namespace Packet

variable {C : Capacity}

inductive Operation where
  | receive (byte : UInt8)
  | append (bytes : Bytes)
  | setRequest (code : UInt16)
  | setResponse (code : UInt16)
  | commit
  | compose (frame : Frame)
  | composeRequest (request : UInt16) (payload : Bytes)
  | composeReply (request : UInt16) (payload : Bytes)
  | composeIdentity (identity : Identity) (encoding : Identity.Encoding)
  | emit
  | clear
  | restart
  | wire
  | payload
  | isValid
  | contentChecksum
  deriving DecidableEq

inductive Answer where
  | done
  | outcome (outcome : Outcome)
  | accepted (whole : Bool)
  | emitted (byte : Option UInt8)
  | contents (bytes : Bytes)
  | valid (valid : Bool)
  | checksum (word : UInt16)
  deriving DecidableEq, Repr

def perform (packet : Packet C) : Operation → Packet C × Answer
  | .receive byte => (packet.receive byte).map id .outcome
  | .append bytes => (packet.append bytes).map id .accepted
  | .setRequest code => (packet.setRequest code, .done)
  | .setResponse code => (packet.setResponse code, .done)
  | .commit => (packet.commit, .done)
  | .compose frame => (packet.compose frame).map id .accepted
  | .composeRequest request payload => (packet.composeRequest request payload).map id .accepted
  | .composeReply request payload => (packet.composeReply request payload).map id .accepted
  | .composeIdentity identity encoding => (packet.composeIdentity identity encoding).map id .accepted
  | .emit => packet.emit.map id .emitted
  | .clear => (packet.clear, .done)
  | .restart => (packet.restart, .done)
  | .wire => (packet, .contents packet.wire)
  | .payload => (packet, .contents packet.payload)
  | .isValid => (packet, .valid packet.isValid)
  | .contentChecksum => (packet, .checksum packet.contentChecksum)

/-- Whether an operation goes by the declared length as it is. Receiving and appending check it. -/
def Operation.trustsLength : Operation → Bool
  | .commit | .emit | .wire | .payload | .isValid | .contentChecksum => true
  | _ => false

def Permits (packet : Packet C) (operation : Operation) : Prop :=
  operation.trustsLength → packet.Contained

instance (packet : Packet C) (operation : Operation) : Decidable (packet.Permits operation) :=
  inferInstanceAs (Decidable (_ → _))

def performAll (packet : Packet C) : List Operation → Packet C × List Answer
  | [] => (packet, [])
  | operation :: operations =>
    let next := packet.perform operation
    let last := next.1.performAll operations
    (last.1, next.2 :: last.2)

def PermitsAll (packet : Packet C) : List Operation → Prop
  | [] => True
  | operation :: operations => packet.Permits operation ∧ (packet.perform operation).1.PermitsAll operations

instance decidablePermitsAll (packet : Packet C) (operations : List Operation) :
    Decidable (packet.PermitsAll operations) :=
  match operations with
  | [] => inferInstanceAs (Decidable True)
  | operation :: operations =>
    have := decidablePermitsAll (packet.perform operation).1 operations
    inferInstanceAs (Decidable (_ ∧ _))

/-- Some permitted operations lead from a fresh packet to this one. -/
def Reachable (packet : Packet C) : Prop :=
  ∃ operations, (fresh : Packet C).PermitsAll operations ∧ ((fresh : Packet C).performAll operations).1 = packet

/-- What the counters say of a packet, however it has been used. -/
structure Sound (packet : Packet C) : Prop where
  early : C < packet.length → packet.cursor = 9
  stored : packet.stored ≤ C

variable {packet : Packet C}

theorem Sound.contained (sound : packet.Sound) (elsewhere : packet.cursor ≠ 9) : packet.Contained :=
  Nat.le_of_not_lt fun beyond => elsewhere (sound.early beyond)

theorem sound_of_contained (contained : packet.Contained) (stored : packet.stored ≤ C) : packet.Sound :=
  ⟨fun beyond => absurd contained (Nat.not_le_of_lt beyond), stored⟩

theorem sound_restart (packet : Packet C) : packet.restart.Sound :=
  sound_of_contained (Nat.zero_le _) (Nat.zero_le _)

theorem Sound.receive (sound : packet.Sound) (byte : UInt8) : (packet.receive byte).1.Sound := by
  unfold Packet.receive
  split
  · rename_i waiting
    split
    · refine sound_of_contained ?_ sound.stored
      have contained := sound.contained (by omega)
      rwa [Contained, length, proceed, putHeader, Frame.Header.length_set (by omega)]
    · exact sound_of_contained (sound.contained (by omega)) sound.stored
  · split
    · rename_i unfilled
      by_cases last : packet.cursor = 8
      · -- The first byte of a length arrives: beside the second of an older one it may declare anything.
        exact ⟨fun _ => by simp only [proceed, putHeader, last], sound.stored⟩
      · refine sound_of_contained ?_ sound.stored
        have contained := sound.contained (by omega)
        rwa [Contained, length, proceed, putHeader, Frame.Header.length_set (by omega)]
    · split
      · simp only
        split
        · rename_i accepted
          rw [settle_fst]
          exact sound_of_contained accepted (Nat.zero_le _)
        · exact sound_of_contained (Nat.zero_le _) (Nat.zero_le _)
      · have contained := sound.contained (by omega)
        split
        · rename_i more
          rw [settle_fst]
          exact sound_of_contained contained (Nat.lt_of_lt_of_le more contained)
        · exact sound_of_contained contained sound.stored

theorem contained_append {filled : Packet C} {bytes : Bytes} (taken : packet.append bytes = (filled, true)) :
    filled.Contained := by
  have small := C.isLt
  unfold Packet.append at taken
  simp only at taken
  split at taken
  · rename_i fits
    obtain ⟨rfl, -⟩ := Prod.mk.injEq .. ▸ taken
    rw [Contained, length, UInt16.toNat_ofNat', Nat.mod_eq_of_lt (by omega)]
    exact fits
  · simp at taken

theorem Sound.append (sound : packet.Sound) (bytes : Bytes) : (packet.append bytes).1.Sound := by
  have stored : (packet.append bytes).1.stored = packet.stored := by
    unfold Packet.append
    simp only
    split <;> rfl
  rcases taken : packet.append bytes with ⟨filled, _ | _⟩ <;> rw [taken] at stored
  · unfold Packet.append at taken
    simp only at taken
    split at taken <;> cases taken
    exact ⟨sound.early, sound.stored⟩
  · exact sound_of_contained (contained_append taken) (Nat.le_trans (Nat.le_of_eq stored) sound.stored)

theorem sound_commit (contained : packet.Contained) (sound : packet.Sound) : packet.commit.Sound :=
  sound_of_contained contained sound.stored

theorem sound_compose (packet : Packet C) (frame : Frame) : (packet.compose frame).1.Sound := by
  have addressed : (packet.addressed frame).Sound := sound_of_contained (Nat.zero_le _) (Nat.zero_le _)
  have appended := addressed.append frame.payload
  rw [compose, ← Packet.addressed]
  rcases taken : (packet.addressed frame).append frame.payload with ⟨filled, _ | _⟩ <;> rw [taken] at appended
  · exact appended
  · exact sound_commit (contained_append taken) appended

theorem Sound.emit (sound : packet.Sound) (contained : packet.Contained) : packet.emit.1.Sound := by
  unfold Packet.emit
  split
  · exact sound_of_contained contained sound.stored
  · exact sound_of_contained contained sound.stored

theorem Sound.perform (sound : packet.Sound) {operation : Operation} (permitted : packet.Permits operation) :
    (packet.perform operation).1.Sound := by
  cases operation with
  | receive byte => exact sound.receive byte
  | append bytes => exact sound.append bytes
  | setRequest _ | setResponse _ => exact ⟨sound.early, sound.stored⟩
  | commit => exact sound_commit (permitted rfl) sound
  | compose _ | composeRequest _ _ | composeReply _ _ | composeIdentity _ _ => exact sound_compose packet _
  | emit => exact sound.emit (permitted rfl)
  | clear => exact sound_of_contained (Nat.zero_le _) (Nat.zero_le _)
  | restart => exact sound_restart packet
  | wire | payload | isValid | contentChecksum => exact sound

theorem Sound.performAll (sound : packet.Sound) {operations : List Operation}
    (permitted : packet.PermitsAll operations) : (packet.performAll operations).1.Sound := by
  induction operations generalizing packet with
  | nil => exact sound
  | cons operation operations ih => exact ih (sound.perform permitted.1) permitted.2

theorem sound_fresh : (fresh : Packet C).Sound :=
  sound_of_contained (Nat.zero_le _) (Nat.zero_le _)

theorem performAll_append (packet : Packet C) (one two : List Operation) :
    (packet.performAll (one ++ two)).1 = ((packet.performAll one).1.performAll two).1 := by
  induction one generalizing packet with
  | nil => rfl
  | cons operation one ih => exact ih _

theorem permitsAll_append (packet : Packet C) (one two : List Operation) :
    packet.PermitsAll (one ++ two) ↔ packet.PermitsAll one ∧ (packet.performAll one).1.PermitsAll two := by
  induction one generalizing packet with
  | nil => simp [PermitsAll, performAll]
  | cons operation one ih =>
    rw [List.cons_append, PermitsAll, PermitsAll, ih, and_assoc]
    rfl

theorem reachable_fresh : (fresh : Packet C).Reachable :=
  ⟨[], trivial, rfl⟩

theorem Reachable.perform (reachable : packet.Reachable) (operation : Operation)
    (permitted : packet.Permits operation) : (packet.perform operation).1.Reachable := by
  obtain ⟨operations, earlier, rfl⟩ := reachable
  refine ⟨operations ++ [operation], ?_, ?_⟩
  · rw [permitsAll_append]
    exact ⟨earlier, permitted, trivial⟩
  · rw [performAll_append]
    rfl

theorem Reachable.sound (reachable : packet.Reachable) : packet.Sound := by
  obtain ⟨operations, permitted, rfl⟩ := reachable
  exact sound_fresh.performAll permitted

end Packet

end FramedLink
