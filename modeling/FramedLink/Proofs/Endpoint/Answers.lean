import FramedLink.Proofs.Endpoint.Outflow
import FramedLink.Proofs.Endpoint.Reaction

/-! What a client says to a frame that arrived whole. Main statement: the client takes on one reply to it, which
the frame and the client's profile determine, and calls its handler once or, for the identity, not at all. -/

namespace FramedLink

open Endpoint (Profile)

namespace Endpoint.Profile

variable {C : Capacity}

/-- The handler goes by the frame it is shown: it packs the answer, or leaves the frame unanswered. -/
def AnswersBy (me : Profile C) (answer : Frame → Option Frame) : Prop :=
  ∀ (request reply : Packet C) (frame : Frame), request.wire = frame.wire →
    match answer frame with
    | some response => ∃ packet, me.handler request reply = (packet, true) ∧ packet.Carries response
    | none => (me.handler request reply).2 = false

def replyTo (me : Profile C) (answer : Frame → Option Frame) (frame : Frame) : Frame :=
  if frame.request = Frame.identityRequest then
    if me.encoding.size ≤ C then ⟨frame.request, Frame.successResponse, me.identity.encode me.encoding⟩
    else ⟨frame.request, Frame.failureResponse, []⟩
  else (answer frame).getD ⟨frame.request, Frame.unknownResponse, []⟩

def callsFor (answer : Frame → Option Frame) (frame : Frame) : List Notice :=
  if frame.request = Frame.identityRequest then [] else [.asked frame (answer frame).isSome]

theorem replyTo_fits {me : Profile C} {answer : Frame → Option Frame} {frame : Frame} (answers : me.AnswersBy answer)
    (fits : frame.payload.length ≤ C) :
    (me.replyTo answer frame).payload.length ≤ C := by
  unfold replyTo
  split
  · split
    · rw [Identity.length_encode]
      assumption
    · exact Nat.zero_le _
  · have carries := Packet.carries_compose (default : Packet C) fits
    have handled := answers _ default frame carries.wire
    split at handled
    · rename_i response known
      obtain ⟨filled, -, packed⟩ := handled
      rw [known]
      exact packed.fits
    · rename_i unknown
      rw [unknown]
      exact Nat.zero_le _

end Endpoint.Profile

namespace Session

variable {C : Capacity} {τ : Type} [Channel τ] {me : Profile C} {answer : Frame → Option Frame}
  {session : Session C τ} {packet : Packet C} {frame : Frame}

theorem sends_reply (settled : session.endpoint.Settled) (idle : session.endpoint.sending = false)
    (request packet : Packet C) (frame : Frame) :
    session.Sends (session.reply request (packet.compose frame))
      (if frame.payload.length ≤ C then frame else ⟨request.header.request, Frame.failureResponse, []⟩).wire [] := by
  have told := Packet.compose_snd packet frame
  rcases composed : packet.compose frame with ⟨left, _ | _⟩
  · rw [composed, eq_comm, decide_eq_false_iff_not] at told
    have bare : (⟨request.header.request, Frame.failureResponse, []⟩ : Frame).payload.length ≤ C := Nat.zero_le _
    have noted := Sends.noteEvent settled .replyTooLarge request
    have still : (session.noteEvent .replyTooLarge request).endpoint.sending = false := idle
    have replied := noted.trans (sends_dispatch still (Packet.carries_compose left bare))
    rw [if_neg told, reply_of_refused]
    exact replied
  · rw [composed, eq_comm, decide_eq_true_iff] at told
    have carries := Packet.carries_compose packet told
    rw [composed] at carries
    rw [if_pos told]
    exact sends_dispatch idle carries

theorem sends_serve (answers : me.AnswersBy answer) (settled : session.endpoint.Settled)
    (idle : session.endpoint.sending = false) (arrived : packet.wire = frame.wire) :
    session.Sends (session.serve me packet) ((answer frame).getD ⟨frame.request, Frame.unknownResponse, []⟩).wire
      [.asked frame (answer frame).isSome] := by
  obtain ⟨header, contents⟩ := Packet.parts_of_wire_eq arrived
  have request : packet.header.request = frame.request := by
    rw [header]
    rfl
  have handled := answers packet session.endpoint.outgoing frame arrived
  unfold serve
  rw [contents, request]
  split at handled
  · rename_i response known
    obtain ⟨filled, handled, carries⟩ := handled
    have asked := Sends.note settled (.asked frame true)
    have still : (session.note (.asked frame true)).endpoint.sending = false := idle
    have replied := asked.trans (sends_dispatch still carries)
    rw [handled, known]
    exact replied
  · rename_i unknown
    obtain ⟨left, known⟩ : ∃ left, me.handler packet session.endpoint.outgoing = (left, false) :=
      ⟨_, Prod.ext rfl handled⟩
    rw [known, unknown]
    have asked := Sends.note settled (.asked frame false)
    have noted := asked.trans (Sends.noteEvent asked.settled .unknownRequest packet)
    have bare : (⟨frame.request, Frame.unknownResponse, []⟩ : Frame).payload.length ≤ C := Nat.zero_le _
    have replied := noted.trans
      (sends_reply noted.settled idle packet left ⟨frame.request, Frame.unknownResponse, []⟩)
    rw [if_pos bare] at replied
    exact replied

theorem sends_acceptFrame_of_client (client : me.role = .client) (answers : me.AnswersBy answer)
    (settled : session.endpoint.Settled) (idle : session.endpoint.sending = false)
    (arrived : packet.wire = frame.wire) :
    session.Sends (session.acceptFrame me packet) (me.replyTo answer frame).wire (Profile.callsFor answer frame) := by
  have request : packet.header.request = frame.request := by
    rw [(Packet.parts_of_wire_eq arrived).1]
    rfl
  unfold acceptFrame
  rw [client, Profile.replyTo, Profile.callsFor]
  simp only [request]
  split
  · rename_i identity
    have replied := sends_reply settled idle packet session.endpoint.outgoing
      ⟨frame.request, Frame.successResponse, me.identity.encode me.encoding⟩
    rw [Identity.length_encode, request, identity] at replied
    rw [identity]
    exact replied
  · exact sends_serve answers settled idle arrived

theorem sends_acceptFrame_of_host (host : me.role = .host) (settled : session.endpoint.Settled)
    (arrived : packet.wire = frame.wire) : session.Sends (session.acceptFrame me packet) [] [.answered frame] := by
  have learned : ∃ peer, session.learnPeer packet = { session with endpoint.peer := peer } := by
    unfold learnPeer
    split
    · split <;> exact ⟨_, rfl⟩
    · exact ⟨_, rfl⟩
  obtain ⟨peer, learned⟩ := learned
  unfold acceptFrame
  rw [host, (Packet.parts_of_wire_eq arrived).2]
  simp only [learned]
  refine ⟨⟨[], .nothing _, List.append_nil _⟩, ⟨settled.contained, settled.refused⟩, rfl, ?_⟩
  simp [Session.note, Notice.calls, Notice.event?]

theorem accept_of_none {byte : UInt8} {receiver : Receiver C}
    (taken : session.endpoint.receiver.take byte = (receiver, none)) :
    session.accept me byte = ({ session with endpoint.receiver := receiver }, 0) := by
  rw [accept, taken]

theorem accept_of_frame {byte : UInt8} {receiver : Receiver C}
    (taken : session.endpoint.receiver.take byte = (receiver, some (.frame packet))) :
    session.accept me byte =
      ((({ session with endpoint.receiver := receiver } : Session C τ).noteEvent .frameReceived packet).acceptFrame me
        packet, 1) := by
  rw [accept, taken]

theorem readUpTo_induction {motive : Session C τ → Prop}
    (read : ∀ (session : Session C τ) (byte : UInt8) (port : τ), session.canRead me = true →
      Channel.read session.port = some (byte, port) → motive session →
      motive (({ session with port := port } : Session C τ).accept me byte).1)
    (start : motive session) (budget : Nat) : motive (session.readUpTo me budget).1 := by
  induction budget generalizing session with
  | zero => exact start
  | succ budget ih =>
    rw [readUpTo]
    split
    · rename_i free
      split
      · exact start
      · rename_i byte port found
        exact ih (read session byte port free found start)
    · exact start

theorem poll_induction {motive : Session C τ → Prop}
    (write : ∀ session : Session C τ, motive session → motive session.flush.1)
    (read : ∀ (session : Session C τ) (byte : UInt8) (port : τ), session.canRead me = true →
      Channel.read session.port = some (byte, port) → motive session →
      motive (({ session with port := port } : Session C τ).accept me byte).1)
    (start : motive session) : motive (session.poll me).1 :=
  write _ (readUpTo_induction read (write _ start) _)

end Session

end FramedLink
