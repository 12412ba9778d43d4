import FramedLink.Endpoint.Basic

/-! How an endpoint sends. A byte that the channel refuses is kept and goes first next time. -/

namespace FramedLink

namespace Packet

variable {C : Capacity}

def remaining (packet : Packet C) : Nat :=
  packet.frameSize - packet.cursor

theorem remaining_emit {packet next : Packet C} {byte : UInt8}
    (taken : packet.emit = (next, some byte)) : next.remaining < packet.remaining := by
  unfold emit at taken
  split at taken
  · rename_i inside
    obtain ⟨rfl, -⟩ := Prod.mk.injEq .. ▸ taken
    simp only [remaining, frameSize, length] at inside ⊢
    omega
  · simp at taken

end Packet

namespace Session

variable {C : Capacity} {τ : Type} [Channel τ]

/-- Takes bytes from the outgoing packet and writes them until one is refused, for at most so many steps.
Tells whether all is out. -/
def writeOut (session : Session C τ) : Nat → Session C τ × Bool
  | 0 => (session, false)
  | steps + 1 =>
    match session.endpoint.outgoing.emit with
    | (packet, none) =>
      ({ session with endpoint.outgoing := packet, endpoint.sending := false }.noteEvent .frameSent packet,
        true)
    | (packet, some byte) =>
      match Channel.write session.port byte with
      | (port, true) => { session with endpoint.outgoing := packet, port := port }.writeOut steps
      | (port, false) =>
        ({ session with endpoint.outgoing := packet, endpoint.refused := some byte, port := port }, false)

def writeRest (session : Session C τ) : Session C τ × Bool :=
  session.writeOut (session.endpoint.outgoing.remaining + 1)

/-- Writes as much as the channel takes. Tells whether nothing is left to send. -/
def flush (session : Session C τ) : Session C τ × Bool :=
  if session.endpoint.sending then
    match session.endpoint.refused with
    | none => session.writeRest
    | some byte =>
      match Channel.write session.port byte with
      | (port, true) => { session with endpoint.refused := none, port := port }.writeRest
      | (port, false) => ({ session with port := port }, false)
  else (session, true)

def dispatch (session : Session C τ) (packet : Packet C) : Session C τ :=
  { session with endpoint.outgoing := packet, endpoint.sending := true, endpoint.refused := none }.flush.1

/-- Sends a request, unless a frame is still on its way or the payload does not fit. -/
def send (session : Session C τ) (request : UInt16) (payload : Bytes) :
    Session C τ × Except Endpoint.Fault Unit :=
  if session.endpoint.sending then (session, .error .busy)
  else match session.endpoint.outgoing.composeRequest request payload with
    | (packet, false) => ({ session with endpoint.outgoing := packet }, .error .payloadTooLarge)
    | (packet, true) => (session.dispatch packet, .ok ())

def sendIdentityRequest (session : Session C τ) : Session C τ × Except Endpoint.Fault Unit :=
  session.send Frame.identityRequest []

private theorem writeOut_congr {session : Session C τ} {one two : Nat}
    (enough : session.endpoint.outgoing.remaining < one)
    (plenty : session.endpoint.outgoing.remaining < two) :
    session.writeOut one = session.writeOut two := by
  induction one generalizing session two with
  | zero => omega
  | succ one ih =>
    cases two with
    | zero => omega
    | succ two =>
      rw [writeOut, writeOut]
      split
      · rfl
      · rename_i packet byte taken
        have fewer := Packet.remaining_emit taken
        split
        · exact ih (Nat.lt_of_lt_of_le fewer (by omega)) (Nat.lt_of_lt_of_le fewer (by omega))
        · rfl

theorem writeOut_eq_writeRest {session : Session C τ} {steps : Nat}
    (enough : session.endpoint.outgoing.remaining < steps) :
    session.writeOut steps = session.writeRest :=
  writeOut_congr enough (Nat.lt_succ_self _)

theorem backlog_writeOut (session : Session C τ) (steps : Nat) :
    Channel.backlog (session.writeOut steps).1.port ≤ Channel.backlog session.port := by
  induction steps generalizing session with
  | zero => exact Nat.le_refl _
  | succ steps ih =>
    rw [writeOut]
    split
    · exact Nat.le_refl _
    · rename_i packet byte taken
      have kept := Channel.backlog_write session.port byte
      split
      · rename_i port written
        rw [written] at kept
        exact Nat.le_trans (ih _) kept
      · rename_i port written
        rw [written] at kept
        exact kept

theorem backlog_flush (session : Session C τ) :
    Channel.backlog session.flush.1.port ≤ Channel.backlog session.port := by
  unfold flush
  split
  · split
    · exact backlog_writeOut session _
    · rename_i byte _
      have kept := Channel.backlog_write session.port byte
      split
      · rename_i port written
        rw [written] at kept
        exact Nat.le_trans (backlog_writeOut ..) kept
      · rename_i port written
        rw [written] at kept
        exact kept
  · exact Nat.le_refl _

theorem backlog_dispatch (session : Session C τ) (packet : Packet C) :
    Channel.backlog (session.dispatch packet).port ≤ Channel.backlog session.port :=
  backlog_flush _

end Session

end FramedLink
