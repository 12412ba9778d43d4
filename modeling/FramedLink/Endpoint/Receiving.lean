import FramedLink.Endpoint.Sending

/-! How an endpoint receives. A host notes responses and learns the identity of the other side. A client
answers every frame once, a damaged one with a response that says so, and reads nothing more while
its answer is on its way. -/

namespace FramedLink

open Endpoint (Profile)

namespace Session

variable {C : Capacity} {τ : Type} [Channel τ]

/-- Sends a reply, or in place of one that could not be composed a bare failure, or else nothing. -/
def reply (session : Session C τ) (request : Packet C) (composed : Packet C × Bool) : Session C τ :=
  match composed with
  | (packet, true) => session.dispatch packet
  | (packet, false) =>
    let noted := session.noteEvent .replyTooLarge request
    match packet.compose ⟨request.header.request, Frame.failureResponse, []⟩ with
    | (failure, true) => noted.dispatch failure
    | (refused, false) => { noted with endpoint.outgoing := refused }

/-- What a response tells of the other side's identity, which stays as it was when it tells nothing. -/
def learnPeer (session : Session C τ) (response : Packet C) : Session C τ :=
  if response.header.request = Frame.identityRequest ∧ response.header.response = Frame.successResponse then
    match Identity.ofPayload? response.payload with
    | some identity => { session with endpoint.peer := some identity }
    | none => session
  else session

def serve (me : Profile C) (session : Session C τ) (request : Packet C) : Session C τ :=
  match me.handler request session.endpoint.outgoing with
  | (packet, true) => (session.note (.asked request.frame true)).dispatch packet
  | (packet, false) =>
    let noted := (session.note (.asked request.frame false)).noteEvent .unknownRequest request
    noted.reply request (packet.compose ⟨request.header.request, Frame.unknownResponse, []⟩)

def acceptFrame (me : Profile C) (session : Session C τ) (packet : Packet C) : Session C τ :=
  match me.role with
  | .host => (session.learnPeer packet).note (.answered packet.frame)
  | .client =>
    if packet.header.request = Frame.identityRequest then
      session.reply packet (session.endpoint.outgoing.composeIdentity me.identity me.encoding)
    else session.serve me packet

def acceptFault (me : Profile C) (session : Session C τ) (status : Status) (packet : Packet C) :
    Session C τ :=
  match status with
  | .badChecksum =>
    let noted := session.noteEvent .badChecksum packet
    match me.role with
    | .host => noted
    | .client =>
      noted.reply packet
        (noted.endpoint.outgoing.compose ⟨packet.header.request, Frame.damagedResponse, []⟩)
  | .badLength => session.noteEvent .badLength packet
  | _ => session.noteEvent .overflow packet

/-- Takes one byte that was read. Tells how many frames it completed. -/
def accept (me : Profile C) (session : Session C τ) (byte : UInt8) : Session C τ × Nat :=
  let taken := session.endpoint.receiver.take byte
  let next := { session with endpoint.receiver := taken.1 }
  match taken.2 with
  | none => (next, 0)
  | some (.gap packet) => (next.noteEvent .resync packet, 0)
  | some (.frame packet) => ((next.noteEvent .frameReceived packet).acceptFrame me packet, 1)
  | some (.fault status packet) => (next.acceptFault me status packet, 0)

/-- Whether the endpoint may read: a client with an answer on its way may not. -/
def canRead (me : Profile C) (session : Session C τ) : Bool :=
  me.role == .host || !session.endpoint.sending

def readUpTo (me : Profile C) (session : Session C τ) : Nat → Session C τ × Nat
  | 0 => (session, 0)
  | budget + 1 =>
    if session.canRead me then
      match Channel.read session.port with
      | none => (session, 0)
      | some (byte, port) =>
        let next := { session with port := port }.accept me byte
        let last := next.1.readUpTo me budget
        (last.1, next.2 + last.2)
    else (session, 0)

def readAll (me : Profile C) (session : Session C τ) : Session C τ × Nat :=
  session.readUpTo me (Channel.backlog session.port)

/-- Sends what is waiting, reads what is there, and sends again. Tells how many frames were completed. -/
def poll (me : Profile C) (session : Session C τ) : Session C τ × Nat :=
  let read := session.flush.1.readAll me
  (read.1.flush.1, read.2)

theorem backlog_reply (session : Session C τ) (request : Packet C) (composed : Packet C × Bool) :
    Channel.backlog (session.reply request composed).port ≤ Channel.backlog session.port := by
  unfold reply
  split
  · exact backlog_dispatch session _
  · simp only
    split
    · exact backlog_dispatch (session.noteEvent .replyTooLarge request) _
    · exact Nat.le_refl _

omit [Channel τ] in
theorem port_learnPeer (session : Session C τ) (response : Packet C) :
    (session.learnPeer response).port = session.port := by
  unfold learnPeer
  split
  · split <;> rfl
  · rfl

theorem backlog_serve (me : Profile C) (session : Session C τ) (request : Packet C) :
    Channel.backlog (session.serve me request).port ≤ Channel.backlog session.port := by
  unfold serve
  split
  · exact backlog_dispatch _ _
  · exact backlog_reply _ _ _

theorem backlog_acceptFrame (me : Profile C) (session : Session C τ) (packet : Packet C) :
    Channel.backlog (session.acceptFrame me packet).port ≤ Channel.backlog session.port := by
  unfold acceptFrame
  split
  · exact Nat.le_of_eq (by rw [port_note, port_learnPeer])
  · split
    · exact backlog_reply _ _ _
    · exact backlog_serve _ _ _

theorem backlog_acceptFault (me : Profile C) (session : Session C τ) (status : Status) (packet : Packet C) :
    Channel.backlog (session.acceptFault me status packet).port ≤ Channel.backlog session.port := by
  unfold acceptFault
  split
  · simp only
    split
    · exact Nat.le_refl _
    · exact backlog_reply _ _ _
  · exact Nat.le_refl _
  · exact Nat.le_refl _

theorem backlog_accept (me : Profile C) (session : Session C τ) (byte : UInt8) :
    Channel.backlog (session.accept me byte).1.port ≤ Channel.backlog session.port := by
  unfold accept
  simp only
  split
  · exact Nat.le_refl _
  · exact Nat.le_refl _
  · exact backlog_acceptFrame _ _ _
  · exact backlog_acceptFault _ _ _ _

private theorem readUpTo_idle {me : Profile C} {session : Session C τ}
    (idle : Channel.backlog session.port = 0) (budget : Nat) :
    session.readUpTo me budget = (session, 0) := by
  cases budget with
  | zero => rfl
  | succ budget =>
    rw [readUpTo]
    split
    · split
      · rfl
      · rename_i byte port found
        have less := Channel.backlog_read found
        omega
    · rfl

private theorem readUpTo_congr {me : Profile C} {session : Session C τ} {one two : Nat}
    (enough : Channel.backlog session.port ≤ one) (plenty : Channel.backlog session.port ≤ two) :
    session.readUpTo me one = session.readUpTo me two := by
  induction one generalizing session two with
  | zero => rw [readUpTo_idle (by omega), readUpTo_idle (by omega)]
  | succ one ih =>
    cases two with
    | zero => rw [readUpTo_idle (by omega), readUpTo_idle (by omega)]
    | succ two =>
      rw [readUpTo, readUpTo]
      split
      · split
        · rfl
        · rename_i byte port found
          have less := Channel.backlog_read found
          let next := ({ session with port := port }.accept me byte).1
          have kept : Channel.backlog next.port ≤ Channel.backlog port := backlog_accept ..
          have low : Channel.backlog next.port ≤ one := by omega
          have high : Channel.backlog next.port ≤ two := by omega
          simp only [next, ih low high]
      · rfl

/-- A budget beyond what is waiting makes no difference: nothing arrives in the meantime. -/
theorem readUpTo_eq_readAll {me : Profile C} {session : Session C τ} {budget : Nat}
    (enough : Channel.backlog session.port ≤ budget) :
    session.readUpTo me budget = session.readAll me :=
  readUpTo_congr enough (Nat.le_refl _)

end Session

end FramedLink
