import FramedLink.Endpoint.Receiving
import FramedLink.Proofs.Endpoint.Writing
import FramedLink.Proofs.Packet.Composition

/-! What an endpoint makes of what its receiver finds. Main statement: to accept a byte is to learn from the finding, to
note what there is to note, and then to begin sending at most one packet. -/

namespace FramedLink

open Endpoint (Profile)

namespace Endpoint

variable {C : Capacity}

structure Reaction (C : Capacity) where
  notices : List Notice
  reply : Option (Packet C) := none

namespace Reaction

def after (reaction : Reaction C) (notices : List Notice) : Reaction C :=
  { reaction with notices := notices ++ reaction.notices }

def replying (request : Packet C) : Packet C × Bool → Reaction C
  | (packet, true) => ⟨[], some packet⟩
  | (packet, false) =>
    ⟨[.about .replyTooLarge request], some (packet.compose ⟨request.header.request, Frame.failureResponse, []⟩).1⟩

end Reaction

namespace Profile

def serving (me : Profile C) (draft request : Packet C) : Reaction C :=
  match me.handler request draft with
  | (packet, true) => ⟨[.asked request.frame true], some packet⟩
  | (packet, false) =>
    (Reaction.replying request (packet.compose ⟨request.header.request, Frame.unknownResponse, []⟩)).after
      [.asked request.frame false, .about .unknownRequest request]

/-- How an endpoint reacts to a finding when its outgoing packet is the given one. -/
def react (me : Profile C) (draft : Packet C) : Finding C → Reaction C
  | .gap packet => ⟨[.about .resync packet], none⟩
  | .frame packet =>
    match me.role with
    | .host => ⟨[.about .frameReceived packet, .answered packet.frame], none⟩
    | .client =>
      (if packet.header.request = Frame.identityRequest then
        Reaction.replying packet (draft.composeIdentity me.identity me.encoding)
      else me.serving draft packet).after [.about .frameReceived packet]
  | .fault .badChecksum packet =>
    match me.role with
    | .host => ⟨[.about .badChecksum packet], none⟩
    | .client =>
      (Reaction.replying packet (draft.compose ⟨packet.header.request, Frame.damagedResponse, []⟩)).after
        [.about .badChecksum packet]
  | .fault .badLength packet => ⟨[.about .badLength packet], none⟩
  | .fault _ packet => ⟨[.about .overflow packet], none⟩

end Profile

end Endpoint

def Role.learned {C : Capacity} (role : Role) (peer : Option Identity) : Finding C → Option Identity
  | .frame packet =>
    match role with
    | .host =>
      if packet.header.request = Frame.identityRequest ∧ packet.header.response = Frame.successResponse then
        (Identity.ofPayload? packet.payload).or peer
      else peer
    | .client => peer
  | _ => peer

open Endpoint (Reaction)

namespace Notice

def isSent : Notice → Bool
  | event reported => reported.kind == .frameSent
  | _ => false

def sent (log : List Notice) : List Notice :=
  log.filter isSent

/-- All other notices: what the receiving side reports, and the calls of the handler. -/
def received (log : List Notice) : List Notice :=
  log.filter fun notice => !notice.isSent

end Notice

theorem received_eq_self_of_sent {log : List Notice} (none : Notice.sent log = []) : Notice.received log = log := by
  rw [Notice.sent, List.filter_eq_nil_iff] at none
  rw [Notice.received, List.filter_eq_self]
  intro notice member
  simpa using none notice member

theorem sent_replying {C : Capacity} (request : Packet C) (composed : Packet C × Bool) :
    Notice.sent (Reaction.replying request composed).notices = [] := by
  rcases composed with ⟨packet, _ | _⟩ <;> rfl

theorem sent_react {C : Capacity} (me : Profile C) (draft : Packet C) (found : Finding C) :
    Notice.sent (me.react draft found).notices = [] := by
  have later (reaction : Reaction C) (notices : List Notice) (mine : Notice.sent notices = [])
      (others : Notice.sent reaction.notices = []) : Notice.sent (reaction.after notices).notices = [] := by
    rw [Reaction.after, Notice.sent, List.filter_append]
    exact List.append_eq_nil_iff.mpr ⟨mine, others⟩
  unfold Profile.react
  split
  · rfl
  · split
    · rfl
    · refine later _ _ rfl ?_
      split
      · exact sent_replying _ _
      · unfold Profile.serving
        split
        · rfl
        · exact later _ _ rfl (sent_replying _ _)
  · split
    · rfl
    · exact later _ _ rfl (sent_replying _ _)
  · rfl
  · rfl

theorem react_of_host {C : Capacity} {me other : Profile C} (host : me.role = .host) (too : other.role = .host)
    (draft spare : Packet C) (found : Finding C) :
    (me.react draft found).reply = none ∧ me.react draft found = other.react spare found := by
  unfold Profile.react
  split <;> simp [host, too]

namespace Session

variable {C : Capacity} {τ : Type} [Channel τ] {me : Profile C} {session : Session C τ}

def noteAll (session : Session C τ) (notices : List Notice) : Session C τ :=
  { session with log := session.log ++ notices }

def perform (session : Session C τ) (reaction : Reaction C) : Session C τ :=
  match reaction.reply with
  | none => session.noteAll reaction.notices
  | some packet => (session.noteAll reaction.notices).dispatch packet

theorem perform_after (session : Session C τ) (reaction : Reaction C) (notices : List Notice) :
    session.perform (reaction.after notices) = (session.noteAll notices).perform reaction := by
  unfold perform
  simp only [Reaction.after, noteAll, List.append_assoc]

theorem writes_perform (session : Session C τ) (reaction : Reaction C) :
    (reaction.reply = none ∧ session.perform reaction = session.noteAll reaction.notices) ∨
      ∃ packet, reaction.reply = some packet ∧
        ((session.noteAll reaction.notices).starting packet).Writes (session.perform reaction) := by
  rw [perform]
  cases reaction.reply with
  | none => exact .inl ⟨rfl, rfl⟩
  | some packet => exact .inr ⟨packet, rfl, writes_dispatch _ packet⟩

/-- A bare failure has no payload and fits any packet, so something is sent in any case. -/
theorem reply_of_refused (session : Session C τ) (request packet : Packet C) :
    session.reply request (packet, false) =
      (session.noteEvent .replyTooLarge request).dispatch
        (packet.compose ⟨request.header.request, Frame.failureResponse, []⟩).1 := by
  let bare : Frame := ⟨request.header.request, Frame.failureResponse, []⟩
  have fits : (packet.compose bare).2 = true := (Packet.compose_snd packet bare).trans (decide_eq_true (Nat.zero_le _))
  unfold reply
  split
  · rename_i other composed
    cases composed
  · rename_i refused composed
    cases composed
    simp only
    split
    · rename_i failure made
      rw [made]
    · rename_i left made
      rw [made] at fits
      cases fits

theorem reply_eq_perform (session : Session C τ) (request : Packet C) (composed : Packet C × Bool) :
    session.reply request composed = session.perform (Reaction.replying request composed) := by
  rcases composed with ⟨packet, _ | _⟩
  · exact reply_of_refused session request packet
  · simp [reply, perform, Reaction.replying, noteAll]

theorem serve_eq_perform (session : Session C τ) (request : Packet C) :
    session.serve me request = session.perform (me.serving session.endpoint.outgoing request) := by
  rcases handled : me.handler request session.endpoint.outgoing with ⟨packet, _ | _⟩
  · simp only [serve, Profile.serving, handled, perform_after, reply_eq_perform]
    simp [noteEvent, note, noteAll, Notice.about]
  · simp only [serve, Profile.serving, handled]
    rfl

def finding (me : Profile C) (session : Session C τ) (receiver : Receiver C) (finding : Finding C) : Session C τ :=
  { session with endpoint.receiver := receiver, endpoint.peer := me.role.learned session.endpoint.peer finding }

theorem acceptFrame_eq_perform (session : Session C τ) (receiver : Receiver C) (packet : Packet C) :
    (({ session with endpoint.receiver := receiver } : Session C τ).noteEvent .frameReceived packet).acceptFrame me
        packet =
      (session.finding me receiver (.frame packet)).perform
        (me.react session.endpoint.outgoing (.frame packet)) := by
  unfold acceptFrame Profile.react finding Role.learned
  cases me.role with
  | host =>
    simp only [learnPeer]
    split
    · cases Identity.ofPayload? packet.payload <;> simp [perform, noteEvent, note, noteAll, Notice.about]
    · simp [perform, noteEvent, note, noteAll, Notice.about]
  | client =>
    simp only [perform_after]
    split
    · exact reply_eq_perform _ _ _
    · exact serve_eq_perform _ _

theorem acceptFault_eq_perform (session : Session C τ) (receiver : Receiver C) (status : Status) (packet : Packet C) :
    ({ session with endpoint.receiver := receiver } : Session C τ).acceptFault me status packet =
      (session.finding me receiver (.fault status packet)).perform
        (me.react session.endpoint.outgoing (.fault status packet)) := by
  cases status with
  | badChecksum =>
    unfold acceptFault Profile.react finding Role.learned
    cases me.role with
    | host => rfl
    | client =>
      simp only [perform_after]
      exact reply_eq_perform _ _ _
  | _ => rfl

theorem accept_fst (session : Session C τ) (byte : UInt8) :
    (session.accept me byte).1 =
      match session.endpoint.receiver.take byte with
      | (receiver, none) => { session with endpoint.receiver := receiver }
      | (receiver, some finding) =>
        (session.finding me receiver finding).perform (me.react session.endpoint.outgoing finding) := by
  unfold accept
  simp only
  rcases session.endpoint.receiver.take byte with ⟨receiver, _ | finding⟩
  · rfl
  · cases finding with
    | gap packet => rfl
    | frame packet => exact acceptFrame_eq_perform session receiver packet
    | fault status packet => exact acceptFault_eq_perform session receiver status packet

end Session

end FramedLink
