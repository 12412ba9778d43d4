import FramedLink.Proofs.Endpoint.Record
import FramedLink.Proofs.Receiver.Containment

/-! What an endpoint makes of the bytes that it has read, in however many pieces. Main statements: these bytes determine
what its receiver holds, what it has found and what it knows of the other side; and of a client that is told to send
nothing they determine all that it has noted, all that it sends and the packet that it gives its handler next. -/

namespace FramedLink

open Endpoint (Profile Reaction Service)

theorem Receiver.takeAll_concat {C : Capacity} (receiver : Receiver C) (bytes : Bytes) (byte : UInt8) :
    receiver.takeAll (bytes ++ [byte]) = (((receiver.takeAll bytes).1.take byte).1,
      (receiver.takeAll bytes).2 ++ ((receiver.takeAll bytes).1.take byte).2.toList) := by
  rw [takeAll_append, takeAll, takeAll, List.append_nil]

namespace Endpoint.Service

variable {C : Capacity}

/-- How often the handler of a client has been called, and the outgoing packet, after a finding and all that is sent
for it. -/
def drafted (me : Service C) (ready : Nat × Packet C) (found : Finding C) : Nat × Packet C :=
  let reaction := (me.profile ready.1).react ready.2 found
  (ready.1 + (Notice.calls reaction.notices).length, (reaction.reply.map Packet.spent).getD ready.2)

def meeting (me : Service C) : Nat × Packet C → List (Finding C) → List (Occasion C)
  | _, [] => []
  | ready, found :: more => .finding ready.1 found ready.2 :: me.meeting (me.drafted ready found) more

theorem meeting_append (me : Service C) (ready : Nat × Packet C) (one two : List (Finding C)) :
    me.meeting ready (one ++ two) = me.meeting ready one ++ me.meeting (one.foldl me.drafted ready) two := by
  induction one generalizing ready with
  | nil => rfl
  | cons found one ih => rw [List.cons_append, meeting, ih, meeting, List.cons_append, List.foldl_cons]

def heeding (me : Service C) (bytes : Bytes) : List (Occasion C) :=
  me.meeting (0, .fresh) (Receiver.takeAll {} bytes).2

def output (me : Service C) (bytes : Bytes) : Bytes :=
  ((me.heeding bytes).filterMap (Occasion.begun me)).flatMap Packet.rest

theorem rest_begun (me : Service C) (calls : Nat) (found : Finding C) (draft : Packet C) :
    ([Occasion.finding calls found draft].filterMap (Occasion.begun me)).flatMap Packet.rest =
      ((me.profile calls).react draft found).reply.toList.flatMap Packet.rest := by
  rw [List.filterMap_cons, Occasion.begun]
  cases ((me.profile calls).react draft found).reply <;> rfl

theorem heeding_mono (me : Service C) {one two : Bytes} (shorter : one <+: two) :
    me.heeding one <+: me.heeding two := by
  obtain ⟨more, rfl⟩ := shorter
  rw [heeding, heeding, Receiver.takeAll_append, meeting_append]
  exact List.prefix_append _ _

theorem heeding_concat (me : Service C) (bytes : Bytes) (byte : UInt8) :
    me.heeding (bytes ++ [byte]) = me.heeding bytes ++
      me.meeting ((Receiver.takeAll {} bytes).2.foldl me.drafted (0, .fresh))
        ((Receiver.takeAll {} bytes).1.take byte).2.toList := by
  rw [heeding, Receiver.takeAll_concat, meeting_append]
  rfl

theorem output_mono (me : Service C) {one two : Bytes} (shorter : one <+: two) :
    me.output one <+: me.output two := by
  obtain ⟨more, joined⟩ := me.heeding_mono shorter
  rw [output, output, ← joined, List.filterMap_append, List.flatMap_append]
  exact List.prefix_append _ _

end Endpoint.Service

namespace Session

variable {C : Capacity} {τ : Type} [Channel τ] {me : Service C} {session before after : Session C (Tapped τ)}
  {occasions : List (Occasion C)}

theorem Writes.received (writes : before.Writes after) : Notice.received after.log = Notice.received before.log := by
  rw [writes.log, Notice.received, List.filter_append]
  split <;> simp [Notice.received, Notice.isSent, Notice.about]

theorem Writes.callCount (writes : before.Writes after) : after.callCount = before.callCount := by
  rw [Session.callCount, writes.log, Notice.calls, List.filter_append]
  split <;> simp [Session.callCount, Notice.calls, Notice.about, Notice.event?]

omit [Channel τ] in
theorem callCount_noteAll (session : Session C (Tapped τ)) (notices : List Notice) :
    (session.noteAll notices).callCount = session.callCount + (Notice.calls notices).length := by
  rw [callCount, noteAll, Notice.calls, List.filter_append, List.length_append]
  rfl

/-- What the bytes that were read determine, whatever the endpoint sends besides. -/
structure Hears (me : Service C) (session : Session C (Tapped τ)) (occasions : List (Occasion C)) : Prop where
  receiver : session.endpoint.receiver = (Receiver.takeAll {} session.port.read).1
  findings : occasions.filterMap Occasion.finding? = (Receiver.takeAll {} session.port.read).2
  peer : session.endpoint.peer = (Receiver.takeAll ({} : Receiver C) session.port.read).2.foldl me.role.learned none
  received : Notice.received session.log = occasions.flatMap (Occasion.notices me)

theorem Hears.writes (hears : Hears me before occasions) (writes : before.Writes after) :
    Hears me after occasions := by
  refine ⟨?_, ?_, ?_, ?_⟩
  · rw [writes.receiver, writes.read_eq]
    exact hears.receiver
  · rw [writes.read_eq]
    exact hears.findings
  · rw [writes.peer, writes.read_eq]
    exact hears.peer
  · rw [writes.received]
    exact hears.received

theorem Hears.perform {reaction : Reaction C} (hears : Hears me (session.noteAll reaction.notices) occasions) :
    Hears me (session.perform reaction) occasions := by
  rcases writes_perform session reaction with ⟨-, same⟩ | ⟨packet, -, writes⟩
  · rw [same]
    exact hears
  · have began : Hears me ((session.noteAll reaction.notices).starting packet) occasions :=
      ⟨hears.receiver, hears.findings, hears.peer, hears.received⟩
    exact began.writes writes

theorem Hears.read {byte : UInt8} {port : Tapped τ} (found : Channel.read session.port = some (byte, port))
    (hears : Hears me session occasions) :
    let moved : Session C (Tapped τ) := { session with port := port }
    Hears me (moved.accept (me.profile session.callCount) byte).1 (occasions ++ moved.faces byte) := by
  intro moved
  have read : moved.port.read = session.port.read ++ [byte] := (Tapped.of_read found).1
  have heard := Receiver.takeAll_concat ({} : Receiver C) session.port.read byte
  rw [← hears.receiver, ← read] at heard
  rcases accept_cases (me.profile session.callCount) moved byte with
    ⟨receiver, taken, faces, accepted⟩ | ⟨receiver, finding, taken, faces, accepted⟩
  · rw [show session.endpoint.receiver.take byte = _ from taken] at heard
    rw [faces, accepted, List.append_nil]
    refine ⟨?_, ?_, ?_, hears.received⟩
    · rw [heard]
    · rw [heard, hears.findings]
      simp
    · rw [heard]
      simpa using hears.peer
  · rw [show session.endpoint.receiver.take byte = _ from taken] at heard
    rw [faces, accepted]
    apply Hears.perform
    refine ⟨?_, ?_, ?_, ?_⟩
    · exact (congrArg Prod.fst heard).symm
    · rw [List.filterMap_append, hears.findings]
      exact (congrArg Prod.snd heard).symm
    · have peer : session.endpoint.peer = _ := hears.peer
      simp only [noteAll, Session.finding]
      rw [heard, List.foldl_append, ← peer]
      rfl
    · let notices := ((me.profile session.callCount).react session.endpoint.outgoing finding).notices
      have others : Notice.received notices = notices := received_eq_self_of_sent (sent_react _ _ finding)
      have noted : [Occasion.finding session.callCount finding session.endpoint.outgoing].flatMap
          (Occasion.notices me) = notices := List.append_nil _
      show Notice.received (session.log ++ notices) = _
      rw [Notice.received] at others
      rw [Notice.received, List.filter_append, others, ← Notice.received, hears.received, List.flatMap_append]
      exact congrArg _ noted.symm

theorem Hears.send (hears : Hears me session occasions) (request : UInt16) (payload : Bytes) :
    Hears me (session.send request payload).1 (occasions ++ session.asks request payload) := by
  have more (packet : Packet C) : Hears me session (occasions ++ [.request packet]) := by
    refine ⟨hears.receiver, ?_, hears.peer, ?_⟩
    · rw [List.filterMap_append, hears.findings]
      exact List.append_nil _
    · simpa [Occasion.notices] using hears.received
  rw [asks, Session.send]
  cases session.endpoint.sending with
  | true => simpa using hears
  | false =>
    rcases session.endpoint.outgoing.composeRequest request payload with ⟨packet, _ | _⟩
    · simpa using (⟨hears.receiver, hears.findings, hears.peer, hears.received⟩ :
        Hears me { session with endpoint.outgoing := packet } occasions)
    · have began : Hears me (session.starting packet) (occasions ++ [.request packet]) :=
        ⟨(more packet).receiver, (more packet).findings, (more packet).peer, (more packet).received⟩
      exact began.writes (writes_dispatch session packet)

theorem Hears.call (held : session.endpoint.refused.isSome = session.endpoint.sending)
    (hears : Hears me session occasions) (call : Call) :
    (session.call me call).1.endpoint.refused.isSome = (session.call me call).1.endpoint.sending ∧
      Hears me (session.call me call).1 (occasions ++ (session.call me call).2) := by
  let motive (session : Session C (Tapped τ)) (occasions : List (Occasion C)) : Prop :=
    session.endpoint.refused.isSome = session.endpoint.sending ∧ Hears me session occasions
  have start : motive session occasions := ⟨held, hears⟩
  refine call_induction ?_ ?_ ?_ start
  · rintro session occasions ⟨held, hears⟩
    exact ⟨(writes_flush held).held, hears.writes (writes_flush held)⟩
  · rintro session occasions byte port - found ⟨held, hears⟩
    let moved : Session C (Tapped τ) := { session with port := port }
    have kept : moved.endpoint.refused.isSome = moved.endpoint.sending := held
    exact ⟨(leaves_accept (me.profile session.callCount) moved byte).held kept, hears.read found⟩
  · rintro - session occasions request payload ⟨held, hears⟩
    exact ⟨(leaves_send session request payload).held held, hears.send request payload⟩

theorem perform_of_idle (idle : session.endpoint.sending = false)
    (held : session.endpoint.refused.isSome = session.endpoint.sending) (reaction : Reaction C) :
    let after := session.perform reaction
    after.endpoint.refused.isSome = after.endpoint.sending ∧ after.port.read = session.port.read ∧
      session.port.written <+: after.port.written ∧
      after.port.written ++ after.endpoint.pending = session.port.written ++ reaction.reply.toList.flatMap Packet.rest ∧
      after.callCount = session.callCount + (Notice.calls reaction.notices).length ∧
      after.endpoint.draft = (reaction.reply.map Packet.spent).getD session.endpoint.outgoing := by
  intro after
  have called := session.callCount_noteAll reaction.notices
  rcases writes_perform session reaction with ⟨silent, same⟩ | ⟨packet, replied, writes⟩
  · have still : after.endpoint.sending = false := by
      rw [show after = _ from same]
      exact idle
    rw [Endpoint.pending_of_idle still, Endpoint.draft_of_idle still, silent]
    rw [show after = _ from same]
    exact ⟨held, rfl, List.prefix_refl _, rfl, called, rfl⟩
  · have flow := writes.outflow
    rw [replied]
    refine ⟨writes.held, writes.read_eq, writes.written_grows, ?_, writes.callCount.trans called, writes.draft⟩
    rw [show after.port.written ++ after.endpoint.pending = _ from flow, Option.toList_some, List.flatMap_singleton]
    rfl

/-- What the bytes that were read determine besides, if the endpoint is a client that was told to send nothing. -/
structure Heeds (me : Service C) (session : Session C (Tapped τ)) (occasions : List (Occasion C)) : Prop
    extends Hears me session occasions where
  held : session.endpoint.refused.isSome = session.endpoint.sending
  heeding : occasions = me.heeding session.port.read
  outflow : session.port.written ++ session.endpoint.pending = me.output session.port.read
  ready : (session.callCount, session.endpoint.draft) =
    (Receiver.takeAll {} session.port.read).2.foldl me.drafted (0, .fresh)
  ahead : ∀ earlier byte, session.port.read = earlier ++ [byte] → me.output earlier <+: session.port.written

theorem Heeds.flush (heeds : Heeds me session occasions) : Heeds me session.flush.1 occasions := by
  have writes := writes_flush heeds.held
  refine ⟨heeds.toHears.writes writes, writes.held, ?_, ?_, ?_, ?_⟩
  · rw [writes.read_eq]
    exact heeds.heeding
  · rw [writes.outflow, writes.read_eq]
    exact heeds.outflow
  · rw [writes.callCount, writes.draft, writes.read_eq]
    exact heeds.ready
  · rw [writes.read_eq]
    intro earlier byte last
    exact (heeds.ahead earlier byte last).trans writes.written_grows

theorem Heeds.read (client : me.role = .client) {byte : UInt8} {port : Tapped τ}
    (free : me.role = .client → session.endpoint.sending = false)
    (found : Channel.read session.port = some (byte, port)) (heeds : Heeds me session occasions) :
    let moved : Session C (Tapped τ) := { session with port := port }
    Heeds me (moved.accept (me.profile session.callCount) byte).1 (occasions ++ moved.faces byte) := by
  intro moved
  have hears : Hears me (moved.accept (me.profile session.callCount) byte).1 (occasions ++ moved.faces byte) :=
    heeds.toHears.read found
  have idle := free client
  obtain ⟨read, same, -⟩ := Tapped.of_read found
  have heard := Receiver.takeAll_concat ({} : Receiver C) session.port.read byte
  have written := heeds.outflow
  have ready := heeds.ready
  rw [Endpoint.pending_of_idle idle, List.append_nil] at written
  rw [Endpoint.draft_of_idle idle] at ready
  rw [← heeds.receiver, ← read] at heard
  have heeding : occasions ++ moved.faces byte = me.heeding port.read := by
    rw [read, Service.heeding_concat, ← heeds.heeding, ← heeds.receiver, ← ready, faces]
    cases (session.endpoint.receiver.take byte).2 <;> rfl
  have output : me.output port.read =
      session.port.written ++ ((moved.faces byte).filterMap (Occasion.begun me)).flatMap Packet.rest := by
    rw [Service.output, ← heeding, List.filterMap_append, List.flatMap_append, heeds.heeding, ← Service.output, written]
  have ahead (earlier : Bytes) (other : UInt8) (last : port.read = earlier ++ [other]) :
      me.output earlier = session.port.written := by
    rw [read] at last
    rw [← (List.append_inj' last rfl).1, ← written]
  rcases accept_cases (me.profile session.callCount) moved byte with
    ⟨receiver, taken, faces, accepted⟩ | ⟨receiver, finding, taken, faces, accepted⟩
  · rw [show session.endpoint.receiver.take byte = _ from taken] at heard
    rw [faces] at output heeding
    rw [accepted, faces] at hears ⊢
    refine ⟨hears, heeds.held, heeding, ?_, ?_, ?_⟩
    · show port.written ++ session.endpoint.pending = me.output port.read
      rw [Endpoint.pending_of_idle idle, output, same]
      rfl
    · show (session.callCount, session.endpoint.draft) =
        (Receiver.takeAll {} port.read).2.foldl me.drafted (0, .fresh)
      rw [heeds.ready, heard, Option.toList_none, List.append_nil]
    · intro earlier other last
      exact ⟨[], by rw [List.append_nil, ahead earlier other last]; exact same.symm⟩
  · let now := me.profile session.callCount
    obtain ⟨held, unread, grown, flow, called, drafted⟩ :=
      (moved.finding now receiver finding).perform_of_idle idle heeds.held (now.react session.endpoint.outgoing finding)
    rw [show session.endpoint.receiver.take byte = _ from taken] at heard
    rw [faces] at output heeding
    rw [accepted, faces] at hears ⊢
    refine ⟨hears, held, ?_, ?_, ?_, ?_⟩
    · rw [unread]
      exact heeding
    · rw [flow, unread]
      show port.written ++ _ = me.output port.read
      rw [output, same]
      exact congrArg _ (me.rest_begun session.callCount finding session.endpoint.outgoing).symm
    · rw [called, drafted, unread]
      show _ = (Receiver.takeAll {} port.read).2.foldl me.drafted (0, .fresh)
      rw [heard, List.foldl_append, ← ready]
      rfl
    · rw [unread]
      intro earlier other last
      rw [ahead earlier other last, ← same]
      exact grown

theorem Heeds.call (client : me.role = .client) (heeds : Heeds me session occasions) {call : Call}
    (unasked : call.isRequest = false) :
    Heeds me (session.call me call).1 (occasions ++ (session.call me call).2) := by
  refine call_induction (fun _ _ held => held.flush) ?_ ?_ heeds
  · intro session occasions byte port free found held
    exact held.read client free found
  · intro asked
    rw [unasked] at asked
    cases asked

omit [Channel τ] in
theorem Hears.elapse (hears : Hears me session occasions) (port : τ) :
    Hears me { session with port.port := port } occasions :=
  ⟨hears.receiver, hears.findings, hears.peer, hears.received⟩

omit [Channel τ] in
theorem Heeds.elapse (heeds : Heeds me session occasions) (port : τ) :
    Heeds me { session with port.port := port } occasions :=
  ⟨heeds.toHears.elapse port, heeds.held, heeds.heeding, heeds.outflow, heeds.ready, heeds.ahead⟩

omit [Channel τ] in
theorem heeds_opening (port : τ) : Heeds me (opening port : Session C (Tapped τ)) [] :=
  ⟨⟨rfl, rfl, rfl, rfl⟩, rfl, rfl, rfl, rfl, fun _ _ last => by simp [opening] at last⟩

theorem Heeds.run (client : me.role = .client) (heeds : Heeds me session occasions) {moves : List (Move τ)}
    (unasked : ∀ move ∈ moves, move.isRequest = false) :
    Heeds me (session.run me moves).1 (occasions ++ (session.run me moves).2) := by
  induction moves generalizing session occasions with
  | nil =>
    rw [Session.run, List.append_nil]
    exact heeds
  | cons move moves ih =>
    have first := unasked move List.mem_cons_self
    have others : ∀ move ∈ moves, move.isRequest = false := by
      intro other member
      exact unasked other (List.mem_cons_of_mem _ member)
    rw [Session.run, ← List.append_assoc]
    cases move with
    | call made => exact ih (heeds.call client first) others
    | elapse port =>
      rw [Session.move, List.append_nil]
      exact ih (heeds.elapse port) others

end Session

end FramedLink
