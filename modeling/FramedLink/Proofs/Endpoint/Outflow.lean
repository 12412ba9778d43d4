import FramedLink.Proofs.Endpoint.Writing
import FramedLink.Proofs.Packet.Composition

/-! What an endpoint has still to write. Main statement: whatever the channel refuses, the bytes that were unsent
and those of frames taken on since are the bytes that the channel took and those that are unsent now. -/

namespace FramedLink

namespace Endpoint

variable {C : Capacity}

/-- The bytes that were taken on and that the channel has yet to take. -/
def unsent (endpoint : Endpoint C) : Bytes :=
  if endpoint.sending then endpoint.refused.toList ++ endpoint.outgoing.wire.drop endpoint.outgoing.cursor else []

/-- How every call leaves the sending part of an endpoint: a frame is on its way just while a byte is refused. -/
structure Settled (endpoint : Endpoint C) : Prop where
  contained : endpoint.sending = true → endpoint.outgoing.Contained
  refused : endpoint.refused.isSome = endpoint.sending

theorem unsent_of_idle {endpoint : Endpoint C} (idle : endpoint.sending = false) : endpoint.unsent = [] := by
  rw [unsent, idle]
  rfl

theorem unsent_eq_pending {endpoint : Endpoint C} (contained : endpoint.sending = true → endpoint.outgoing.Contained) :
    endpoint.unsent = endpoint.pending := by
  unfold unsent pending
  split
  · rename_i sending
    rw [Packet.rest_eq_drop (contained sending)]
  · rfl

end Endpoint

/-- The notices that are not events: the handler was called. -/
def Notice.calls (log : List Notice) : List Notice :=
  log.filter fun notice => notice.event?.isNone

namespace Session

variable {C : Capacity} {τ : Type} [Channel τ] {before between after session : Session C τ}

/-- The endpoint took on bytes to send, called its handler so, and wrote what it could. -/
structure Sends (before after : Session C τ) (sent : Bytes) (calls : List Notice) : Prop where
  flow : ∃ bytes, Channel.Took before.port bytes after.port ∧
    before.endpoint.unsent ++ sent = bytes ++ after.endpoint.unsent
  settled : after.endpoint.Settled
  receiver : after.endpoint.receiver = before.endpoint.receiver
  calls : Notice.calls after.log = Notice.calls before.log ++ calls

theorem Sends.refl (settled : session.endpoint.Settled) : session.Sends session [] [] :=
  ⟨⟨[], .nothing _, by simp⟩, settled, rfl, by simp⟩

theorem Sends.trans {one two : Bytes} {earlier later : List Notice} (first : before.Sends between one earlier)
    (second : between.Sends after two later) : before.Sends after (one ++ two) (earlier ++ later) := by
  obtain ⟨written, took, split⟩ := first.flow
  obtain ⟨more, tookMore, rest⟩ := second.flow
  refine ⟨⟨written ++ more, took.append tookMore, ?_⟩, second.settled, second.receiver.trans first.receiver, ?_⟩
  · rw [← List.append_assoc, split, List.append_assoc, rest, List.append_assoc]
  · rw [second.calls, first.calls, List.append_assoc]

theorem Sends.note (settled : session.endpoint.Settled) (notice : Notice) :
    session.Sends (session.note notice) [] (Notice.calls [notice]) :=
  ⟨⟨[], .nothing _, by simp [Session.note]⟩, settled, rfl, by simp [Session.note, Notice.calls]⟩

theorem Sends.noteEvent (settled : session.endpoint.Settled) (kind : Event.Kind) (packet : Packet C) :
    session.Sends (session.noteEvent kind packet) [] [] :=
  Sends.note settled _

theorem Writes.sends (writes : before.Writes after)
    (contained : before.endpoint.sending = true → before.endpoint.outgoing.Contained) : before.Sends after [] [] := by
  obtain ⟨bytes, took, split⟩ := writes.flow
  have still : after.endpoint.sending = true → after.endpoint.outgoing.Contained := by
    intro sending
    rw [Packet.Contained, Packet.length, writes.header]
    exact contained (writes.was_sending sending)
  refine ⟨⟨bytes, took, ?_⟩, ⟨still, writes.held⟩, writes.receiver, ?_⟩
  · rw [List.append_nil, Endpoint.unsent_eq_pending contained, split, Endpoint.unsent_eq_pending still]
  · rw [writes.log]
    split <;> simp [Notice.calls, Notice.about, Notice.event?]

theorem sends_flush (settled : session.endpoint.Settled) : session.Sends session.flush.1 [] [] :=
  (writes_flush settled.refused).sends settled.contained

theorem sends_dispatch (idle : session.endpoint.sending = false) {packet : Packet C} {frame : Frame}
    (carries : packet.Carries frame) : session.Sends (session.dispatch packet) frame.wire [] := by
  have written : (session.starting packet).Sends (session.dispatch packet) [] [] :=
    (writes_dispatch session packet).sends (fun _ => carries.contained)
  obtain ⟨bytes, took, split⟩ := written.flow
  refine ⟨⟨bytes, took, ?_⟩, written.settled, written.receiver, written.calls⟩
  rw [← split, Endpoint.unsent_of_idle idle, ← carries.wire]
  simp [Endpoint.unsent, starting, carries.cursor]

theorem sends_send (settled : session.endpoint.Settled) (request : UInt16) (payload : Bytes) :
    (session.endpoint.sending = false ∧ payload.length ≤ C ∧ (session.send request payload).2 = .ok () ∧
      session.Sends (session.send request payload).1 (Frame.wire ⟨request, Frame.pendingResponse, payload⟩) []) ∨
    (∃ fault, (session.send request payload).2 = .error fault ∧
      session.Sends (session.send request payload).1 [] []) := by
  have fits := Packet.compose_snd session.endpoint.outgoing ⟨request, Frame.pendingResponse, payload⟩
  unfold send Packet.composeRequest
  split
  · exact .inr ⟨.busy, rfl, Sends.refl settled⟩
  · rename_i busy
    have idle : session.endpoint.sending = false := by simpa using busy
    split
    · rename_i packet composed
      refine .inr ⟨.payloadTooLarge, rfl, ⟨[], .nothing _, ?_⟩, ⟨?_, settled.refused⟩, rfl, by simp⟩
      · simp [Endpoint.unsent, idle]
      · simp [idle]
    · rename_i packet composed
      rw [composed, eq_comm, decide_eq_true_iff] at fits
      have carries := Packet.carries_compose session.endpoint.outgoing fits
      rw [composed] at carries
      exact .inl ⟨idle, fits, rfl, sends_dispatch idle carries⟩

end Session

end FramedLink
