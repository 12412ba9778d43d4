import FramedLink.Duplex.Wires
import FramedLink.Proofs.Endpoint.Record
import FramedLink.Proofs.Packet.Operation

/-! Whatever the channel refuses, and whenever. Main statement: the bytes that it took and those that are still to go
are those of the packets that the endpoint began to send, one after the other, none of which changes on its way. -/

namespace FramedLink

open Endpoint (Profile Reaction Service)

/-- How many of the byte strings, one after the other, lie whole within the first so many bytes. -/
def Bytes.wholeWithin : List Bytes → Nat → Nat
  | [], _ => 0
  | bytes :: more, room => if bytes.length ≤ room then wholeWithin more (room - bytes.length) + 1 else 0

theorem Bytes.wholeWithin_append (one two : List Bytes) (room : Nat) :
    wholeWithin (one ++ two) (one.flatten.length + room) = one.length + wholeWithin two room := by
  induction one with
  | nil => simp
  | cons bytes one ih =>
    have enough : bytes.length ≤ (bytes :: one).flatten.length + room := by
      rw [List.flatten_cons, List.length_append]
      omega
    have left : (bytes :: one).flatten.length + room - bytes.length = one.flatten.length + room := by
      rw [List.flatten_cons, List.length_append]
      omega
    rw [List.cons_append, wholeWithin, if_pos enough, left, ih, List.length_cons]
    omega

namespace Packet

variable {C : Capacity} {packet : Packet C}

/-- The packet has been used by its operations only, and its next byte is the first. -/
structure Rewound (packet : Packet C) : Prop where
  reachable : packet.Reachable
  cursor : packet.cursor = 0

theorem Rewound.contained (rewound : packet.Rewound) : packet.Contained :=
  rewound.reachable.sound.contained (by rw [rewound.cursor]; decide)

theorem Rewound.rest_eq (rewound : packet.Rewound) : packet.rest = packet.wire := by
  rw [rest_eq_drop rewound.contained, rewound.cursor, List.drop_zero]

theorem Reachable.spent {packet : Packet C} (reachable : packet.Reachable) (contained : packet.Contained) :
    packet.spent.Reachable := by
  have emitted : packet.emit.1.Reachable := reachable.perform .emit fun _ => contained
  rcases taken : packet.emit with ⟨next, _ | byte⟩
  · rw [taken, (rest_of_exhausted taken).2] at emitted
    exact emitted
  · have fewer := remaining_emit taken
    have same := spent_emit packet
    have header := (emit_contents packet).1
    rw [taken] at emitted same header
    have still : next.Contained := by
      rw [Contained, length, show next.header = packet.header from header]
      exact contained
    rw [← same]
    exact Reachable.spent emitted still
termination_by packet.remaining

theorem Rewound.spent (rewound : packet.Rewound) : packet.spent.Reachable :=
  rewound.reachable.spent rewound.contained

theorem Reachable.compose (reachable : packet.Reachable) (frame : Frame) : (packet.compose frame).1.Reachable :=
  reachable.perform (.compose frame) fun trusts => nomatch trusts

theorem cursor_compose (packet : Packet C) (frame : Frame) : (packet.compose frame).1.cursor = 0 := by
  unfold Packet.compose Packet.append
  simp only
  split <;> rename_i taken <;> split at taken <;> cases taken <;> rfl

theorem Reachable.rewound_compose (reachable : packet.Reachable) (frame : Frame) : (packet.compose frame).1.Rewound :=
  ⟨reachable.compose frame, cursor_compose packet frame⟩

end Packet

namespace Receiver

variable {C : Capacity} {receiver : Receiver C}

theorem reachable_take (reachable : receiver.packet.Reachable) (byte : UInt8) :
    (receiver.take byte).1.packet.Reachable ∧
      ∀ packet, (receiver.take byte).2 = some (.frame packet) → packet.Reachable := by
  have received : (receiver.packet.receive byte).1.Reachable :=
    reachable.perform (.receive byte) fun trusts => nomatch trusts
  have restarted : (receiver.packet.receive byte).1.restart.Reachable :=
    received.perform .restart fun trusts => nomatch trusts
  unfold take
  split <;> rename_i answer <;> rw [answer] at received restarted
  · exact ⟨received, by simp⟩
  · refine ⟨restarted, ?_⟩
    rintro packet ⟨⟩
    exact received
  · refine ⟨received, ?_⟩
    split <;> simp
  · exact ⟨restarted, by simp⟩

end Receiver

namespace Endpoint.Profile

variable {C : Capacity} {me : Profile C} {draft packet : Packet C} {found : Finding C}

/-- The handler uses the packet for the reply by its operations only, and a reply that is to be sent is at its first
byte. -/
structure Tidy (me : Profile C) : Prop where
  reachable : ∀ {request reply : Packet C}, request.Reachable → reply.Reachable →
    (me.handler request reply).1.Reachable
  cursor : ∀ {request reply : Packet C}, request.Reachable → reply.Reachable → (me.handler request reply).2 = true →
    (me.handler request reply).1.cursor = 0

theorem rewound_replying {request : Packet C} {composed : Packet C × Bool} (rewound : composed.1.Rewound)
    (reply : (Reaction.replying request composed).reply = some packet) : packet.Rewound := by
  rcases composed with ⟨filled, _ | _⟩
  · simp only [Reaction.replying, Option.some.injEq] at reply
    subst reply
    exact rewound.reachable.rewound_compose _
  · simp only [Reaction.replying, Option.some.injEq] at reply
    subst reply
    exact rewound

theorem Tidy.rewound_reply (tidy : me.Tidy) (usable : draft.Reachable)
    (arrived : ∀ request, found = .frame request → request.Reachable)
    (reply : (me.react draft found).reply = some packet) : packet.Rewound := by
  unfold react at reply
  split at reply
  · cases reply
  · rename_i request
    split at reply
    · cases reply
    · simp only [Reaction.after] at reply
      split at reply
      · exact rewound_replying (usable.rewound_compose _) reply
      · have worked := tidy.reachable (arrived request rfl) usable
        have returned := tidy.cursor (arrived request rfl) usable
        unfold serving at reply
        split at reply <;> rename_i left handled <;> rw [handled] at worked returned
        · cases reply
          exact ⟨worked, returned rfl⟩
        · exact rewound_replying (worked.rewound_compose _) reply
  · split at reply
    · cases reply
    · exact rewound_replying (usable.rewound_compose _) reply
  · cases reply
  · cases reply

end Endpoint.Profile

namespace Session

variable {C : Capacity} {τ : Type} [Channel τ] {me : Service C} {session before after : Session C (Tapped τ)}
  {begun : List (Packet C)} {occasions : List (Occasion C)} {packet : Packet C}

/-- The packets that the endpoint began to send, against what the channel took and what is still to go. -/
structure Ledger (session : Session C (Tapped τ)) (begun : List (Packet C)) : Prop where
  flow : session.port.written ++ session.endpoint.pending = begun.flatMap Packet.rest
  current : session.endpoint.sending = true → ∃ earlier packet gone, begun = earlier ++ [packet] ∧
    packet.rest = gone ++ session.endpoint.pending ∧ session.endpoint.outgoing.header = packet.header ∧
    session.endpoint.outgoing.buffer = packet.buffer
  sent : Notice.sent session.log =
    (if session.endpoint.sending then begun.dropLast else begun).map (Notice.about .frameSent)

theorem Ledger.writes (ledger : before.Ledger begun) (writes : before.Writes after) : after.Ledger begun := by
  obtain ⟨bytes, took, split⟩ := writes.flow
  refine ⟨?_, ?_, ?_⟩
  · rw [(Tapped.of_took took).1, List.append_assoc, ← split]
    exact ledger.flow
  · intro sending
    obtain ⟨earlier, packet, gone, last, rest, header, buffer⟩ := ledger.current (writes.was_sending sending)
    refine ⟨earlier, packet, gone ++ bytes, last, ?_, writes.header.trans header, writes.buffer.trans buffer⟩
    rw [rest, split, List.append_assoc]
  · rw [writes.log, Notice.sent, List.filter_append, ← Notice.sent, ledger.sent]
    cases sending : before.endpoint.sending with
    | true =>
      cases still : after.endpoint.sending with
      | true => simp
      | false =>
        obtain ⟨earlier, packet, gone, last, -, header, -⟩ := ledger.current sending
        have event : Notice.about .frameSent before.endpoint.outgoing = Notice.about .frameSent packet := by
          rw [Notice.about, Notice.about, header]
        have counted : (Notice.about .frameSent packet).isSent = true := rfl
        rw [last, event]
        simp [counted]
    | false =>
      have idle : after.endpoint.sending = false := by
        cases still : after.endpoint.sending with
        | true => exact absurd (writes.was_sending still) (by simp [sending])
        | false => rfl
      simp [idle]

omit [Channel τ] in
theorem Ledger.starting (ledger : session.Ledger begun) (idle : session.endpoint.sending = false)
    (packet : Packet C) : (session.starting packet).Ledger (begun ++ [packet]) := by
  have flow := ledger.flow
  have sent := ledger.sent
  have pending : (session.starting packet).endpoint.pending = packet.rest := rfl
  rw [Endpoint.pending_of_idle idle, List.append_nil] at flow
  rw [idle] at sent
  refine ⟨?_, ?_, ?_⟩
  · rw [pending, List.flatMap_append, ← flow]
    simp [Session.starting]
  · intro _
    exact ⟨begun, packet, [], rfl, pending ▸ rfl, rfl, rfl⟩
  · simpa [Session.starting] using sent

omit [Channel τ] in
theorem Ledger.noteAll (ledger : session.Ledger begun) {notices : List Notice} (others : Notice.sent notices = []) :
    (session.noteAll notices).Ledger begun := by
  refine ⟨ledger.flow, ledger.current, ?_⟩
  have sent := ledger.sent
  rw [Notice.sent] at others sent
  rw [Session.noteAll, Notice.sent, List.filter_append, others, List.append_nil]
  exact sent

structure Conserves (me : Service C) (session : Session C (Tapped τ)) (occasions : List (Occasion C)) : Prop where
  ledger : session.Ledger (occasions.filterMap (Occasion.begun me))
  held : session.endpoint.refused.isSome = session.endpoint.sending
  rewound : ∀ packet ∈ occasions.filterMap (Occasion.begun me), packet.Rewound
  draft : session.endpoint.draft.Reachable
  receiver : session.endpoint.receiver.packet.Reachable

theorem Conserves.flush (conserves : Conserves me session occasions) : Conserves me session.flush.1 occasions := by
  have writes := writes_flush conserves.held
  refine ⟨conserves.ledger.writes writes, writes.held, conserves.rewound, ?_, ?_⟩
  · rw [writes.draft]
    exact conserves.draft
  · rw [writes.receiver]
    exact conserves.receiver

theorem Conserves.dispatch (conserves : Conserves me session occasions) (idle : session.endpoint.sending = false)
    {occasion : Occasion C} (begins : occasion.begun me = some packet) (rewound : packet.Rewound) :
    Conserves me (session.dispatch packet) (occasions ++ [occasion]) := by
  have writes := writes_dispatch session packet
  have begun : (occasions ++ [occasion]).filterMap (Occasion.begun me) =
      occasions.filterMap (Occasion.begun me) ++ [packet] := by
    simp [List.filterMap_append, begins]
  refine ⟨?_, writes.held, ?_, ?_, ?_⟩
  · rw [begun]
    exact (conserves.ledger.starting idle packet).writes writes
  · rw [begun]
    intro other member
    rcases List.mem_append.mp member with earlier | last
    · exact conserves.rewound other earlier
    · rw [List.mem_singleton.mp last]
      exact rewound
  · rw [writes.draft]
    exact rewound.spent
  · rw [writes.receiver]
    exact conserves.receiver

theorem Conserves.perform (conserves : Conserves me session occasions) {calls : Nat} {draft : Packet C}
    {found : Finding C} (idle : me.role = .client → session.endpoint.sending = false)
    (rewound : ∀ packet, me.role = .client → ((me.profile calls).react draft found).reply = some packet →
      packet.Rewound) :
    Conserves me (session.perform ((me.profile calls).react draft found))
      (occasions ++ [.finding calls found draft]) := by
  have ledger := conserves.ledger.noteAll (sent_react (me.profile calls) draft found)
  have noted : Conserves me (session.noteAll ((me.profile calls).react draft found).notices) occasions :=
    ⟨ledger, conserves.held, conserves.rewound, conserves.draft, conserves.receiver⟩
  rw [Session.perform]
  cases replied : ((me.profile calls).react draft found).reply with
  | none =>
    have same : (occasions ++ [Occasion.finding calls found draft]).filterMap (Occasion.begun me) =
        occasions.filterMap (Occasion.begun me) := by
      simp [List.filterMap_append, Occasion.begun, replied]
    exact ⟨same ▸ noted.ledger, noted.held, same ▸ noted.rewound, noted.draft, noted.receiver⟩
  | some packet =>
    have client : me.role = .client := by
      cases role : me.role with
      | client => rfl
      | host =>
        have host : (me.profile calls).role = .host := role
        rw [(react_of_host host host draft draft found).1] at replied
        cases replied
    exact noted.dispatch (idle client) replied (rewound packet client replied)

theorem Conserves.read (tidy : ∀ calls, (me.profile calls).Tidy) {byte : UInt8} {port : Tapped τ}
    (idle : me.role = .client → session.endpoint.sending = false)
    (found : Channel.read session.port = some (byte, port)) (conserves : Conserves me session occasions) :
    let moved : Session C (Tapped τ) := { session with port := port }
    Conserves me (moved.accept (me.profile session.callCount) byte).1 (occasions ++ moved.faces byte) := by
  intro moved
  obtain ⟨-, written, -⟩ := Tapped.of_read found
  have flow : moved.port.written ++ moved.endpoint.pending = _ := written ▸ conserves.ledger.flow
  have arrived := Receiver.reachable_take conserves.receiver byte
  rcases accept_cases (me.profile session.callCount) moved byte with
    ⟨receiver, taken, faces, accepted⟩ | ⟨receiver, finding, taken, faces, accepted⟩
  · rw [faces, accepted, List.append_nil]
    refine ⟨⟨flow, conserves.ledger.current, conserves.ledger.sent⟩, conserves.held, conserves.rewound,
      conserves.draft, ?_⟩
    rw [show session.endpoint.receiver.take byte = _ from taken] at arrived
    exact arrived.1
  · rw [faces, accepted]
    rw [show session.endpoint.receiver.take byte = _ from taken] at arrived
    have found : Conserves me (moved.finding (me.profile session.callCount) receiver finding) occasions :=
      ⟨⟨flow, conserves.ledger.current, conserves.ledger.sent⟩, conserves.held, conserves.rewound,
        conserves.draft, arrived.1⟩
    refine found.perform idle ?_
    intro packet client reply
    have usable := conserves.draft
    rw [Endpoint.draft_of_idle (idle client)] at usable
    have request (found : Packet C) (same : finding = .frame found) : found.Reachable :=
      arrived.2 found (congrArg some same)
    exact (tidy session.callCount).rewound_reply usable request reply

theorem Conserves.send (conserves : Conserves me session occasions) (request : UInt16) (payload : Bytes) :
    Conserves me (session.send request payload).1 (occasions ++ session.asks request payload) := by
  have usable := conserves.draft
  rw [asks, Session.send]
  cases sending : session.endpoint.sending with
  | true =>
    simp only [if_true, List.append_nil]
    exact conserves
  | false =>
    rw [Endpoint.draft_of_idle sending] at usable
    have rewound : (session.endpoint.outgoing.composeRequest request payload).1.Rewound := usable.rewound_compose _
    rcases composed : session.endpoint.outgoing.composeRequest request payload with ⟨packet, _ | _⟩ <;>
      rw [composed] at rewound
    · -- The refused request is not begun, and only the packet that nobody is sending has changed.
      let left : Session C (Tapped τ) := { session with endpoint.outgoing := packet }
      have idle : left.endpoint.sending = false := sending
      have flow := conserves.ledger.flow
      rw [Endpoint.pending_of_idle sending] at flow
      have ledger : left.Ledger (occasions.filterMap (Occasion.begun me)) := by
        refine ⟨?_, ?_, conserves.ledger.sent⟩
        · rw [Endpoint.pending_of_idle idle]
          exact flow
        · intro still
          rw [idle] at still
          cases still
      have spare : left.endpoint.draft.Reachable := by
        rw [Endpoint.draft_of_idle idle]
        exact rewound.reachable
      simp only [Bool.false_eq_true, if_false, List.append_nil]
      exact ⟨ledger, conserves.held, conserves.rewound, spare, conserves.receiver⟩
    · simp only [Bool.false_eq_true, if_false]
      exact conserves.dispatch sending rfl rewound

theorem Conserves.call (tidy : ∀ calls, (me.profile calls).Tidy) (conserves : Conserves me session occasions)
    (call : Call) : Conserves me (session.call me call).1 (occasions ++ (session.call me call).2) := by
  refine call_induction (fun _ _ held => held.flush) ?_ ?_ conserves
  · intro session occasions byte port free found held
    exact held.read tidy free found
  · intro _ session occasions request payload held
    exact held.send request payload

theorem Conserves.move (tidy : ∀ calls, (me.profile calls).Tidy) (conserves : Conserves me session occasions)
    (move : Move τ) : Conserves me (session.move me move).1 (occasions ++ (session.move me move).2) := by
  cases move with
  | call call => exact conserves.call tidy call
  | elapse port =>
    rw [Session.move, List.append_nil]
    exact ⟨⟨conserves.ledger.flow, conserves.ledger.current, conserves.ledger.sent⟩, conserves.held, conserves.rewound,
      conserves.draft, conserves.receiver⟩

theorem Conserves.run (tidy : ∀ calls, (me.profile calls).Tidy) (conserves : Conserves me session occasions)
    (moves : List (Move τ)) : Conserves me (session.run me moves).1 (occasions ++ (session.run me moves).2) := by
  induction moves generalizing session occasions with
  | nil =>
    rw [Session.run, List.append_nil]
    exact conserves
  | cons move moves ih =>
    rw [Session.run, ← List.append_assoc]
    exact ih (conserves.move tidy move)

omit [Channel τ] in
theorem conserves_opening (port : τ) : Conserves me (opening port : Session C (Tapped τ)) [] :=
  ⟨⟨rfl, by simp [opening], rfl⟩, rfl, by simp, Packet.reachable_fresh, Packet.reachable_fresh⟩

omit [Channel τ] in
theorem Conserves.flatMap_rest (conserves : Conserves me session occasions) :
    (occasions.filterMap (Occasion.begun me)).flatMap Packet.rest =
      (occasions.filterMap (Occasion.begun me)).flatMap Packet.wire := by
  rw [List.flatMap_def, List.flatMap_def]
  apply congrArg List.flatten
  apply List.map_congr_left
  intro packet member
  exact (conserves.rewound packet member).rest_eq

omit [Channel τ] in
theorem Conserves.unsent (conserves : Conserves me session occasions) :
    session.endpoint.unsent = session.endpoint.pending := by
  apply Endpoint.unsent_eq_pending
  intro sending
  obtain ⟨earlier, packet, gone, last, -, header, -⟩ := conserves.ledger.current sending
  have rewound : packet.Rewound := conserves.rewound packet (by rw [last]; exact List.mem_concat_self ..)
  rw [Packet.Contained, Packet.length, header]
  exact rewound.contained

omit [Channel τ] in
theorem Conserves.length_sent (conserves : Conserves me session occasions) :
    (Notice.sent session.log).length =
      Bytes.wholeWithin ((occasions.filterMap (Occasion.begun me)).map Packet.wire) session.port.written.length := by
  have flow := conserves.ledger.flow
  rw [conserves.flatMap_rest] at flow
  rw [conserves.ledger.sent, List.length_map]
  cases sending : session.endpoint.sending with
  | false =>
    rw [Endpoint.pending_of_idle sending, List.append_nil] at flow
    have counted := Bytes.wholeWithin_append ((occasions.filterMap (Occasion.begun me)).map Packet.wire) [] 0
    rw [List.append_nil, Nat.add_zero, ← List.flatMap_def, ← flow, List.length_map] at counted
    exact counted.symm
  | true =>
    obtain ⟨earlier, packet, gone, last, rest, -, -⟩ := conserves.ledger.current sending
    have rewound : packet.Rewound := conserves.rewound packet (by rw [last]; exact List.mem_concat_self ..)
    have more := List.length_pos_iff.mpr (Endpoint.pending_ne_nil conserves.held sending)
    rw [rewound.rest_eq] at rest
    have short : ¬ packet.wire.length ≤ gone.length := by
      rw [rest, List.length_append]
      omega
    have written : session.port.written = (earlier.map Packet.wire).flatten ++ gone := by
      rw [last, List.flatMap_append, List.flatMap_singleton, rest, ← List.append_assoc] at flow
      exact List.append_cancel_right flow
    rw [last, written, List.length_append, List.map_append, Bytes.wholeWithin_append]
    simp [Bytes.wholeWithin, short]

/-- However often the channel refuses, what it took and what is still to go are the frames that were begun, in order; a
byte is kept just while a frame is on its way, whose packet stays as it was begun; and of each frame that is out whole
there is one notice. -/
theorem run_conserves (tidy : ∀ calls, (me.profile calls).Tidy) (port : τ) (moves : List (Move τ)) :
    let done := (opening port : Session C (Tapped τ)).run me moves
    let begun := done.2.filterMap (Occasion.begun me)
    done.1.port.written ++ done.1.endpoint.unsent = begun.flatMap Packet.wire ∧
      (done.1.endpoint.sending = true ↔ done.1.endpoint.refused.isSome = true) ∧
      (done.1.endpoint.sending = true → ∃ packet, begun.getLast? = some packet ∧
        done.1.endpoint.outgoing.header = packet.header ∧ done.1.endpoint.outgoing.buffer = packet.buffer) ∧
      (Notice.sent done.1.log).length = Bytes.wholeWithin (begun.map Packet.wire) done.1.port.written.length := by
  intro done begun
  have conserves : Conserves me done.1 done.2 := (conserves_opening port).run tidy moves
  refine ⟨?_, ?_, ?_, conserves.length_sent⟩
  · rw [conserves.unsent, conserves.ledger.flow, conserves.flatMap_rest]
  · rw [conserves.held]
  · intro sending
    obtain ⟨earlier, packet, gone, last, -, header, buffer⟩ := conserves.ledger.current sending
    exact ⟨packet, by rw [show begun = _ from last, List.getLast?_concat], header, buffer⟩

private def counting : Service ⟨2, Capacity.two_lt⟩ where
  role := .client
  identity := ⟨⟨1, 2, 3⟩, 2, Vector.replicate _ 0⟩
  encoding := .text
  handler := fun calls request reply =>
    reply.composeReply request.header.request (request.payload ++ [UInt8.ofNat calls])

private theorem tidy_counting (calls : Nat) : (counting.profile calls).Tidy :=
  ⟨fun _ usable => usable.compose _, fun _ _ _ => Packet.cursor_compose _ _⟩

private def holding (bytes : Bytes) : Port 7 :=
  ⟨(Ring.empty.pushAll bytes).1, .empty⟩

private def turns : List (Move (Port 7)) :=
  let wire := Frame.wire ⟨7, 0, [4]⟩
  [.elapse (holding (wire.take 7)), .call .poll, .elapse (holding (wire.drop 7)), .call .poll, .call (.send 8 []),
    .elapse (holding (wire.take 7)), .call .poll, .elapse (holding (wire.drop 7)), .call .poll, .call .flush]

private def refusing : Session ⟨2, Capacity.two_lt⟩ (Tapped (Port 7)) × List (Occasion ⟨2, Capacity.two_lt⟩) :=
  (opening (holding [])).run counting turns

theorem run_conserves_of_counting :
    (∀ calls, (counting.profile calls).Tidy) ∧
      refusing.1.port.written =
        Frame.wire ⟨7, Frame.successResponse, [4, 0]⟩ ++ (Frame.wire ⟨7, Frame.successResponse, [4, 1]⟩).take 7 ∧
      refusing.1.endpoint.unsent = (Frame.wire ⟨7, Frame.successResponse, [4, 1]⟩).drop 7 ∧
      (Notice.sent refusing.1.log).length = 1 := by
  have conserved := run_conserves tidy_counting (holding []) turns
  have ran : (opening (holding [])).run counting turns = refusing := by rw [refusing]
  rw [ran] at conserved
  obtain ⟨flow, -, -, counted⟩ := conserved
  have written : refusing.1.port.written =
      Frame.wire ⟨7, Frame.successResponse, [4, 0]⟩ ++ (Frame.wire ⟨7, Frame.successResponse, [4, 1]⟩).take 7 := by
    decide +kernel
  have begun : (refusing.2.filterMap (Occasion.begun counting)).map Packet.wire =
      [Frame.wire ⟨7, Frame.successResponse, [4, 0]⟩, Frame.wire ⟨7, Frame.successResponse, [4, 1]⟩] := by
    decide +kernel
  rw [begun, written] at counted
  rw [List.flatMap_def, begun, written, List.append_assoc] at flow
  refine ⟨tidy_counting, written, ?_, ?_⟩
  · have remainder := List.append_cancel_left flow
    rw [List.flatten_cons, List.flatten_nil, List.append_nil] at remainder
    apply List.append_cancel_left
    rw [remainder, List.take_append_drop]
  · rw [counted]
    decide +kernel

end Session

end FramedLink
