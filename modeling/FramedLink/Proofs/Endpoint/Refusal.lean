import FramedLink.Proofs.Endpoint.Conservation
import FramedLink.Proofs.Endpoint.Setup
import FramedLink.Proofs.Packet.Renewal

/-! What a refused request leaves behind. Main statement: one that comes while a frame is on its way changes nothing,
and one whose payload is too large nothing but the packet that nobody is sending; and whatever is called for later, the
same is written and reported as if it had never been made, as long as replies are packed afresh. -/

namespace FramedLink

open Endpoint (Profile Reaction Service)

variable {C : Capacity}

theorem Packet.Twin.remaining {one two : Packet C} (twin : Twin one.length one two) :
    one.remaining = two.remaining := by
  rw [Packet.remaining, Packet.remaining, frameSize, frameSize, twin.cursor, twin.length]

namespace Endpoint

/-- If a finding has the handler called, it packs a reply or does not know the request, whatever packet it is given. -/
def Profile.PacksAfresh (me : Profile C) (found : Finding C) : Prop :=
  ∀ request, found = .frame request → me.role = .client → request.header.request ≠ Frame.identityRequest →
    (∃ frame, ∀ reply, me.handler request reply = ((reply.compose frame).1, true)) ∨
      ∀ reply, (me.handler request reply).2 = false

namespace Reaction

/-- Two reactions that differ at most in what the packet of the reply holds beside its frame. -/
structure Alike (one two : Reaction C) : Prop where
  notices : one.notices = two.notices
  reply : Option.Rel (fun one two => Packet.Twin one.length one two) one.reply two.reply

theorem Alike.refl (reaction : Reaction C) : reaction.Alike reaction := by
  refine ⟨rfl, ?_⟩
  cases reaction.reply with
  | none => exact .none
  | some packet => exact .some (.refl _ packet)

theorem Alike.wire_reply {one two : Reaction C} (alike : one.Alike two) :
    one.reply.map Packet.wire = two.reply.map Packet.wire := by
  obtain ⟨notices, reply⟩ := one
  obtain ⟨told, answer⟩ := two
  cases alike.reply with
  | none => rfl
  | some twin => exact congrArg some (twin.wire (Nat.le_refl _))

theorem Alike.after {one two : Reaction C} (alike : one.Alike two) (notices : List Notice) :
    (one.after notices).Alike (two.after notices) :=
  ⟨congrArg (notices ++ ·) alike.notices, alike.reply⟩

theorem alike_replying (request : Packet C) {one two : Packet C × Bool}
    (same : Packet.Twin one.1.length one.1 two.1 ∧ one.2 = two.2) :
    (replying request one).Alike (replying request two) := by
  obtain ⟨packet, composed⟩ := one
  obtain ⟨other, answer⟩ := two
  obtain ⟨twin, rfl⟩ : Packet.Twin packet.length packet other ∧ composed = answer := same
  cases composed with
  | true => exact ⟨rfl, .some twin⟩
  | false => exact ⟨rfl, .some (Packet.twin_compose packet other _).1⟩

end Reaction

variable {me : Profile C} {found : Finding C}

theorem Profile.alike_serving {request : Packet C}
    (packs : (∃ frame, ∀ reply, me.handler request reply = ((reply.compose frame).1, true)) ∨
      ∀ reply, (me.handler request reply).2 = false) (draft spare : Packet C) :
    (me.serving draft request).Alike (me.serving spare request) := by
  unfold Profile.serving
  rcases packs with ⟨frame, packed⟩ | declined
  · rw [packed draft, packed spare]
    exact ⟨rfl, .some (Packet.twin_compose draft spare frame).1⟩
  · have first := declined draft
    have second := declined spare
    rcases handled : me.handler request draft with ⟨packet, _ | _⟩ <;> rw [handled] at first <;> cases first
    rcases other : me.handler request spare with ⟨left, _ | _⟩ <;> rw [other] at second <;> cases second
    exact (Reaction.alike_replying request (Packet.twin_compose packet left _)).after _

theorem Profile.PacksAfresh.alike (packs : me.PacksAfresh found) (draft spare : Packet C) :
    (me.react draft found).Alike (me.react spare found) := by
  cases found with
  | gap packet => exact .refl _
  | frame request =>
    unfold Profile.react
    cases role : me.role with
    | host => exact .refl _
    | client =>
      apply Reaction.Alike.after
      by_cases identity : request.header.request = Frame.identityRequest
      · rw [if_pos identity, if_pos identity]
        exact Reaction.alike_replying request (Packet.twin_compose draft spare _)
      · rw [if_neg identity, if_neg identity]
        exact Profile.alike_serving (packs request rfl role identity) draft spare
  | fault status packet =>
    cases status with
    | badChecksum =>
      unfold Profile.react
      cases me.role with
      | host => exact .refl _
      | client => exact (Reaction.alike_replying packet (Packet.twin_compose draft spare _)).after _
    | _ => exact .refl _

end Endpoint

def Occasion.PacksAfresh (me : Service C) : Occasion C → Prop
  | request _ => True
  | finding calls found _ => (me.profile calls).PacksAfresh found

def Occasion.wires (me : Service C) (occasions : List (Occasion C)) : List Bytes :=
  (occasions.filterMap (begun me)).map Packet.wire

theorem Occasion.wires_append (me : Service C) (one two : List (Occasion C)) :
    wires me (one ++ two) = wires me one ++ wires me two := by
  rw [wires, List.filterMap_append, List.map_append, wires, wires]

theorem Occasion.wires_singleton (me : Service C) (occasion : Occasion C) :
    wires me [occasion] = ((occasion.begun me).map Packet.wire).toList := by
  rw [wires, List.filterMap_cons]
  cases occasion.begun me <;> rfl

namespace Session

variable {τ : Type} [Channel τ] {one two session : Session C τ} {me : Service C}

/-- Two sessions that differ at most in the outgoing packet, and there only in what will never be sent. -/
inductive Alike (session : Session C τ) : Session C τ → Prop
  | other (packet : Packet C)
    (twin : session.endpoint.sending = true →
      Packet.Twin session.endpoint.outgoing.length session.endpoint.outgoing packet) :
    Alike session { session with endpoint.outgoing := packet }

omit [Channel τ] in
theorem Alike.of_idle (idle : session.endpoint.sending = false) (packet : Packet C) :
    session.Alike { session with endpoint.outgoing := packet } :=
  .other packet fun sending => absurd sending (by rw [idle]; exact Bool.false_ne_true)

omit [Channel τ] in
theorem Alike.port_eq (alike : one.Alike two) : two.port = one.port := by
  cases alike
  rfl

omit [Channel τ] in
theorem Alike.log_eq (alike : one.Alike two) : two.log = one.log := by
  cases alike
  rfl

theorem alike_writeOut {packet : Packet C}
    (twin : Packet.Twin session.endpoint.outgoing.length session.endpoint.outgoing packet) (steps : Nat) :
    (session.writeOut steps).1.Alike
      (({ session with endpoint.outgoing := packet } : Session C τ).writeOut steps).1 := by
  induction steps generalizing session packet with
  | zero => exact .other packet fun _ => twin
  | succ steps ih =>
    obtain ⟨next, answer⟩ := twin.emit
    rw [writeOut, writeOut]
    simp only
    generalize session.endpoint.outgoing.emit = first at next answer ⊢
    generalize packet.emit = second at next answer ⊢
    obtain ⟨left, emitted⟩ := first
    obtain ⟨other, same⟩ := second
    obtain rfl : emitted = same := answer
    have next : Packet.Twin left.length left other := next
    cases emitted with
    | none =>
      have reported : ({ session with endpoint.outgoing := other, endpoint.sending := false } : Session C τ).noteEvent
          .frameSent other = { ({ session with endpoint.outgoing := left, endpoint.sending := false } :
            Session C τ).noteEvent .frameSent left with endpoint.outgoing := other } := by
        rw [noteEvent, noteEvent, ← next.header]
        rfl
      simp only [reported]
      exact .of_idle rfl other
    | some byte =>
      simp only
      rcases Channel.write session.port byte with ⟨port, _ | _⟩
      · exact .other other fun _ => next
      · exact @ih { session with endpoint.outgoing := left, port := port } other next

theorem alike_writeRest {packet : Packet C}
    (twin : Packet.Twin session.endpoint.outgoing.length session.endpoint.outgoing packet) :
    session.writeRest.1.Alike ({ session with endpoint.outgoing := packet } : Session C τ).writeRest.1 := by
  unfold writeRest
  rw [show ({ session with endpoint.outgoing := packet } : Session C τ).endpoint.outgoing.remaining = _ from
    twin.remaining.symm]
  exact alike_writeOut twin _

theorem Alike.flush (alike : one.Alike two) : one.flush.1.Alike two.flush.1 := by
  obtain ⟨packet, twin⟩ := alike
  obtain ⟨⟨receiver, outgoing, sending, refused, peer⟩, port, log⟩ := one
  cases sending with
  | false => exact .of_idle rfl packet
  | true =>
    have same := twin rfl
    cases refused with
    | none => exact alike_writeRest same
    | some byte =>
      simp only [Session.flush, if_true]
      rcases Channel.write port byte with ⟨next, _ | _⟩
      · exact @Alike.other _ _ ⟨⟨receiver, outgoing, true, some byte, peer⟩, next, log⟩ packet fun _ => same
      · exact @alike_writeRest _ _ _ ⟨⟨receiver, outgoing, true, none, peer⟩, next, log⟩ packet same

theorem Alike.dispatch (alike : one.Alike two) {packet other : Packet C}
    (twin : Packet.Twin packet.length packet other) : (one.dispatch packet).Alike (two.dispatch other) := by
  obtain ⟨left, -⟩ := alike
  have started : (one.starting packet).Alike { one.starting packet with endpoint.outgoing := other } :=
    .other other fun _ => twin
  exact started.flush

theorem Alike.perform (alike : one.Alike two) {reaction other : Reaction C} (same : reaction.Alike other) :
    (one.perform reaction).Alike (two.perform other) := by
  obtain ⟨packet, twin⟩ := alike
  obtain ⟨notices, reply⟩ := reaction
  obtain ⟨told, answer⟩ := other
  obtain ⟨rfl, replies⟩ := same
  have noted : (one.noteAll notices).Alike { one.noteAll notices with endpoint.outgoing := packet } :=
    .other packet twin
  cases replies with
  | none => exact noted
  | some twin => exact noted.dispatch twin

/-- Two sessions, and what there was to begin sending for, that differ in nothing that is ever written. -/
structure Matches (me : Service C) (one two : Session C τ × List (Occasion C)) : Prop where
  session : one.1.Alike two.1
  wires : Occasion.wires me two.2 = Occasion.wires me one.2

theorem Alike.read (alike : one.Alike two) (byte : UInt8)
    (packs : ∀ occasion ∈ one.faces byte, occasion.PacksAfresh me) :
    Matches me ((one.accept (me.profile one.callCount) byte).1, one.faces byte)
      ((two.accept (me.profile two.callCount) byte).1, two.faces byte) := by
  obtain ⟨packet, twin⟩ := alike
  let other : Session C τ := { one with endpoint.outgoing := packet }
  let now := me.profile one.callCount
  show Matches me ((one.accept now byte).1, one.faces byte) ((other.accept now byte).1, other.faces byte)
  have afresh (receiver : Receiver C) (found : Finding C)
      (taken : one.endpoint.receiver.take byte = (receiver, some found)) : now.PacksAfresh found := by
    refine packs (.finding one.callCount found one.endpoint.outgoing) ?_
    rw [faces, taken]
    exact List.mem_singleton.mpr rfl
  rw [accept_fst, accept_fst, faces, faces]
  simp only [other]
  rcases taken : one.endpoint.receiver.take byte with ⟨receiver, _ | found⟩
  · exact ⟨@Alike.other _ _ { one with endpoint.receiver := receiver } packet twin, rfl⟩
  · have afresh := afresh receiver found taken
    have same := afresh.alike one.endpoint.outgoing packet
    have start : (one.finding now receiver found).Alike
        { one.finding now receiver found with endpoint.outgoing := packet } := .other packet twin
    refine ⟨start.perform same, ?_⟩
    show Occasion.wires me [.finding one.callCount found packet] =
      Occasion.wires me [.finding one.callCount found one.endpoint.outgoing]
    rw [Occasion.wires_singleton, Occasion.wires_singleton]
    exact congrArg Option.toList same.wire_reply.symm

theorem Alike.readNext (alike : one.Alike two)
    (packs : ∀ occasion ∈ (one.readNext me).2, occasion.PacksAfresh me) :
    Matches me (one.readNext me) (two.readNext me) := by
  obtain ⟨packet, twin⟩ := alike
  let other : Session C τ := { one with endpoint.outgoing := packet }
  have read (byte : UInt8) (port : τ) (free : me.role = .client → one.endpoint.sending = false)
      (found : Channel.read one.port = some (byte, port)) : Matches me (one.readNext me) (other.readNext me) := by
    let moved : Session C τ := { one with port := port }
    have next : moved.Alike { moved with endpoint.outgoing := packet } := .other packet twin
    have alsoFree : me.role = .client → other.endpoint.sending = false := free
    have alsoFound : Channel.read other.port = some (byte, port) := found
    have step := readNext_of_read alsoFree alsoFound
    rw [readNext_of_read free found] at packs ⊢
    rw [step]
    exact next.read byte packs
  rcases readNext_cases me one with stopped | ⟨byte, port, free, found, -⟩
  · rcases readNext_cases me other with still | ⟨byte, port, free, found, -⟩
    · show Matches me (one.readNext me) (other.readNext me)
      rw [stopped, still]
      exact ⟨.other packet twin, rfl⟩
    · exact read byte port free found
  · exact read byte port free found

omit [Channel τ] in
theorem Matches.append {first second : Session C τ × List (Occasion C)} {earlier later : List (Occasion C)}
    (wires : Occasion.wires me later = Occasion.wires me earlier) (matched : Matches me first second) :
    Matches me (first.1, earlier ++ first.2) (second.1, later ++ second.2) := by
  refine ⟨matched.session, ?_⟩
  rw [Occasion.wires_append, Occasion.wires_append, wires, matched.wires]

theorem Alike.readEach (alike : one.Alike two) (budget : Nat)
    (packs : ∀ occasion ∈ (one.readEach me budget).2, occasion.PacksAfresh me) :
    Matches me (one.readEach me budget) (two.readEach me budget) := by
  induction budget generalizing one two with
  | zero => exact ⟨alike, rfl⟩
  | succ budget ih =>
    rw [Session.readEach] at packs
    have first := alike.readNext fun occasion member => packs occasion (List.mem_append_left _ member)
    have rest := ih first.session fun occasion member => packs occasion (List.mem_append_right _ member)
    exact rest.append first.wires

theorem Alike.send (alike : one.Alike two) (request : UInt16) (payload : Bytes) :
    (two.send request payload).2 = (one.send request payload).2 ∧
      Matches me ((one.send request payload).1, one.asks request payload)
        ((two.send request payload).1, two.asks request payload) := by
  obtain ⟨packet, twin⟩ := alike
  obtain ⟨⟨receiver, outgoing, sending, refused, peer⟩, port, log⟩ := one
  let one : Session C τ := ⟨⟨receiver, outgoing, sending, refused, peer⟩, port, log⟩
  have alike : one.Alike { one with endpoint.outgoing := packet } := .other packet twin
  cases sending with
  | true => exact ⟨rfl, alike, rfl⟩
  | false =>
    obtain ⟨composed, answer⟩ := Packet.twin_compose outgoing packet ⟨request, Frame.pendingResponse, payload⟩
    simp only [Session.send, asks, Packet.composeRequest]
    rcases first : outgoing.compose ⟨request, Frame.pendingResponse, payload⟩ with ⟨filled, whole⟩
    rcases second : packet.compose ⟨request, Frame.pendingResponse, payload⟩ with ⟨other, accepted⟩
    rw [first, second] at composed answer
    obtain rfl : whole = accepted := answer
    cases whole with
    | false => exact ⟨rfl, @Alike.of_idle _ _ { one with endpoint.outgoing := filled } rfl other, rfl⟩
    | true =>
      refine ⟨rfl, alike.dispatch composed, ?_⟩
      show [other.wire] = [filled.wire]
      rw [composed.wire (Nat.le_refl _)]

theorem Alike.call (alike : one.Alike two) (call : Call)
    (packs : ∀ occasion ∈ (one.call me call).2, occasion.PacksAfresh me) :
    Matches me (one.call me call) (two.call me call) := by
  cases call with
  | send request payload => exact (alike.send request payload).2
  | askIdentity => exact (alike.send Frame.identityRequest []).2
  | flush => exact ⟨alike.flush, rfl⟩
  | poll =>
    have flushed := alike.flush
    rw [Session.call] at packs
    have read := flushed.readEach _ packs
    rw [Session.call, Session.call, flushed.port_eq]
    exact ⟨read.session.flush, read.wires⟩

section

variable {one two session : Session C (Tapped τ)}

theorem Alike.move (alike : one.Alike two) (move : Move τ)
    (packs : ∀ occasion ∈ (one.move me move).2, occasion.PacksAfresh me) :
    Matches me (one.move me move) (two.move me move) := by
  cases move with
  | call made => exact alike.call made packs
  | elapse port =>
    obtain ⟨packet, twin⟩ := alike
    exact ⟨@Alike.other _ _ { one with port.port := port } packet twin, rfl⟩

theorem Alike.run (alike : one.Alike two) (moves : List (Move τ))
    (packs : ∀ occasion ∈ (one.run me moves).2, occasion.PacksAfresh me) :
    Matches me (one.run me moves) (two.run me moves) := by
  induction moves generalizing one two with
  | nil => exact ⟨alike, rfl⟩
  | cons move moves ih =>
    rw [Session.run] at packs
    have first := alike.move move fun occasion member => packs occasion (List.mem_append_left _ member)
    have rest := ih first.session fun occasion member => packs occasion (List.mem_append_right _ member)
    exact rest.append first.wires

structure Recorded (me : Service C) (session : Session C (Tapped τ)) (occasions : List (Occasion C)) : Prop where
  held : session.endpoint.refused.isSome = session.endpoint.sending
  ledger : session.Ledger (occasions.filterMap (Occasion.begun me))

variable {before after : Session C (Tapped τ)} {occasions : List (Occasion C)}

theorem Recorded.writes (recorded : Recorded me before occasions) (writes : before.Writes after) :
    Recorded me after occasions :=
  ⟨writes.held, recorded.ledger.writes writes⟩

theorem Recorded.dispatch (recorded : Recorded me session occasions) (idle : session.endpoint.sending = false)
    {packet : Packet C} {occasion : Occasion C} (begins : occasion.begun me = some packet) :
    Recorded me (session.dispatch packet) (occasions ++ [occasion]) := by
  have writes := writes_dispatch session packet
  refine ⟨writes.held, ?_⟩
  rw [List.filterMap_append, List.filterMap_cons, begins]
  exact (recorded.ledger.starting idle packet).writes writes

theorem Recorded.read {byte : UInt8} {port : Tapped τ} (free : me.role = .client → session.endpoint.sending = false)
    (found : Channel.read session.port = some (byte, port)) (recorded : Recorded me session occasions) :
    let moved : Session C (Tapped τ) := { session with port := port }
    Recorded me (moved.accept (me.profile session.callCount) byte).1 (occasions ++ moved.faces byte) := by
  intro moved
  let now := me.profile session.callCount
  have flow : port.written ++ session.endpoint.pending = _ := (Tapped.of_read found).2.1 ▸ recorded.ledger.flow
  rcases accept_cases now moved byte with ⟨receiver, -, faces, accepted⟩ | ⟨receiver, found, -, faces, accepted⟩
  · rw [faces, accepted, List.append_nil]
    exact ⟨recorded.held, flow, recorded.ledger.current, recorded.ledger.sent⟩
  · let reaction := now.react moved.endpoint.outgoing found
    have ledger : (moved.finding now receiver found).Ledger (occasions.filterMap (Occasion.begun me)) :=
      ⟨flow, recorded.ledger.current, recorded.ledger.sent⟩
    have noted : Recorded me ((moved.finding now receiver found).noteAll reaction.notices) occasions :=
      ⟨recorded.held, ledger.noteAll (sent_react now moved.endpoint.outgoing found)⟩
    have begins : (Occasion.finding moved.callCount found moved.endpoint.outgoing).begun me = reaction.reply := rfl
    rw [faces, accepted, perform]
    split
    · rename_i silent
      have none : (Occasion.finding moved.callCount found moved.endpoint.outgoing).begun me = none := silent
      refine ⟨noted.held, ?_⟩
      rw [List.filterMap_append, List.filterMap_cons, none, List.filterMap_nil, List.append_nil]
      exact noted.ledger
    · rename_i packet replied
      -- Only a client replies, and it reads only while nothing is on its way.
      have client : me.role = .client := by
        cases role : me.role with
        | client => rfl
        | host =>
          have host : now.role = .host := role
          rw [(react_of_host host host moved.endpoint.outgoing moved.endpoint.outgoing found).1] at replied
          cases replied
      exact noted.dispatch (free client) replied

theorem Recorded.send (recorded : Recorded me session occasions) (request : UInt16) (payload : Bytes) :
    Recorded me (session.send request payload).1 (occasions ++ session.asks request payload) := by
  rw [asks, Session.send]
  cases sending : session.endpoint.sending with
  | true =>
    simp only [if_true, List.append_nil]
    exact recorded
  | false =>
    rcases session.endpoint.outgoing.composeRequest request payload with ⟨packet, _ | _⟩
    · let left : Session C (Tapped τ) := { session with endpoint.outgoing := packet }
      have idle : left.endpoint.sending = false := sending
      have flow := recorded.ledger.flow
      rw [Endpoint.pending_of_idle sending, ← Endpoint.pending_of_idle idle] at flow
      simp only [Bool.false_eq_true, if_false, List.append_nil]
      exact ⟨recorded.held, flow, fun still => absurd (idle.symm.trans still) Bool.false_ne_true,
        recorded.ledger.sent⟩
    · simp only [Bool.false_eq_true, if_false]
      exact recorded.dispatch sending rfl

theorem Recorded.call (recorded : Recorded me session occasions) (call : Call) :
    Recorded me (session.call me call).1 (occasions ++ (session.call me call).2) := by
  refine call_induction ?_ ?_ ?_ recorded
  · intro session occasions recorded
    exact recorded.writes (writes_flush recorded.held)
  · intro session occasions byte port free found recorded
    exact recorded.read free found
  · intro _ session occasions request payload recorded
    exact recorded.send request payload

theorem Recorded.run (recorded : Recorded me session occasions) (moves : List (Move τ)) :
    Recorded me (session.run me moves).1 (occasions ++ (session.run me moves).2) := by
  induction moves generalizing session occasions with
  | nil =>
    rw [Session.run, List.append_nil]
    exact recorded
  | cons move moves ih =>
    rw [Session.run, ← List.append_assoc]
    cases move with
    | call made => exact ih (recorded.call made)
    | elapse port =>
      rw [Session.move, List.append_nil]
      exact ih ⟨recorded.held, recorded.ledger.flow, recorded.ledger.current, recorded.ledger.sent⟩

theorem Recorded.outflow_grows (recorded : Recorded me session occasions) (moves : List (Move τ)) :
    let after := (session.run me moves).1
    session.port.written ++ session.endpoint.pending <+: after.port.written ++ after.endpoint.pending := by
  intro after
  rw [recorded.ledger.flow, (recorded.run moves).ledger.flow, List.filterMap_append, List.flatMap_append]
  exact List.prefix_append _ _

end

theorem send_eq_busy_iff {request : UInt16} {payload : Bytes} :
    (session.send request payload).2 = .error .busy ↔ session.endpoint.sending = true := by
  rw [Session.send]
  cases session.endpoint.sending with
  | true => simp
  | false =>
    rcases session.endpoint.outgoing.composeRequest request payload with ⟨packet, _ | _⟩ <;> simp

theorem send_of_busy {request : UInt16} {payload : Bytes} (sending : session.endpoint.sending = true) :
    (session.send request payload).1 = session := by
  rw [Session.send, if_pos sending]

theorem send_eq_payloadTooLarge_iff {request : UInt16} {payload : Bytes} :
    (session.send request payload).2 = .error .payloadTooLarge ↔
      session.endpoint.sending = false ∧ C < payload.length := by
  have fits := session.endpoint.outgoing.compose_snd ⟨request, Frame.pendingResponse, payload⟩
  rw [Session.send, Packet.composeRequest]
  cases session.endpoint.sending with
  | true => simp
  | false =>
    generalize session.endpoint.outgoing.compose ⟨request, Frame.pendingResponse, payload⟩ = composed at fits
    rcases composed with ⟨packet, _ | _⟩ <;> simpa using fits

theorem alike_of_payloadTooLarge {request : UInt16} {payload : Bytes}
    (refused : (session.send request payload).2 = .error .payloadTooLarge) :
    session.Alike (session.send request payload).1 := by
  have idle : ¬ session.endpoint.sending = true := Bool.not_eq_true _ ▸ (send_eq_payloadTooLarge_iff.mp refused).1
  rw [Session.send, if_neg idle] at refused ⊢
  generalize session.endpoint.outgoing.composeRequest request payload = composed at refused ⊢
  obtain ⟨packet, _ | _⟩ := composed
  · exact .other packet fun sending => absurd sending idle
  · cases refused

/-- A request that comes while a frame is on its way changes nothing, and that frame goes out whole. One whose payload is
too large changes nothing but a packet that is not on its way; if replies are packed afresh, all that happens later is
as without it, and any one request or reply that is packed afresh is sent as without it anyhow. -/
theorem refused_send_leaves_no_trace (me : Service C) (port : τ) (moves : List (Move τ)) (request : UInt16)
    (payload : Bytes) :
    let earlier := (opening port : Session C (Tapped τ)).run me moves
    let now := earlier.1
    let tried := now.send request payload
    (tried.2 = .error .busy ↔ now.endpoint.sending = true) ∧
    (tried.2 = .error .payloadTooLarge ↔ now.endpoint.sending = false ∧ C < payload.length) ∧
    (tried.2 = .error .busy → tried.1 = now ∧
      ∃ packet before gone, (earlier.2.filterMap (Occasion.begun me)).getLast? = some packet ∧
        now.port.written = before ++ gone ∧ packet.rest = gone ++ now.endpoint.pending ∧
        ∀ later : List (Move τ),
          let after := (tried.1.run me later).1
          before ++ packet.rest <+: after.port.written ++ after.endpoint.pending) ∧
    (tried.2 = .error .payloadTooLarge →
      (∃ packet, tried.1 = { now with endpoint.outgoing := packet }) ∧
      ∀ later : List (Move τ), (∀ occasion ∈ (now.run me later).2, occasion.PacksAfresh me) →
        let after := tried.1.run me later
        let otherwise := now.run me later
        otherwise.1.Alike after.1 ∧ after.1.port = otherwise.1.port ∧ after.1.log = otherwise.1.log ∧
          Occasion.wires me after.2 = Occasion.wires me otherwise.2 ∧
          ∀ (next : UInt16) (contents : Bytes),
            (after.1.send next contents).2 = (otherwise.1.send next contents).2 ∧
            (after.1.send next contents).1.port = (otherwise.1.send next contents).1.port) ∧
    (∀ one two : Packet C,
      (∀ (next : UInt16) (contents : Bytes),
        (one.composeRequest next contents).1.wire = (two.composeRequest next contents).1.wire) ∧
      ∀ (calls : Nat) (found : Finding C), (me.profile calls).PacksAfresh found →
        ((me.profile calls).react one found).reply.map Packet.wire =
          ((me.profile calls).react two found).reply.map Packet.wire) := by
  intro earlier now tried
  have start : Recorded me (opening port : Session C (Tapped τ)) [] := ⟨rfl, rfl, nofun, rfl⟩
  have recorded : Recorded me now earlier.2 := start.run moves
  refine ⟨send_eq_busy_iff, send_eq_payloadTooLarge_iff, ?_, ?_, ?_⟩
  · intro busy
    have sending := send_eq_busy_iff.mp busy
    have same : tried.1 = now := send_of_busy sending
    obtain ⟨others, packet, gone, last, rest, -, -⟩ := recorded.ledger.current sending
    have flow := recorded.ledger.flow
    rw [last, List.flatMap_append, List.flatMap_singleton, rest, ← List.append_assoc] at flow
    refine ⟨same, packet, others.flatMap Packet.rest, gone, ?_, List.append_cancel_right flow, rest, ?_⟩
    · rw [last, List.getLast?_concat]
    · intro later
      rw [same, rest, ← List.append_assoc, ← flow]
      exact recorded.outflow_grows later
  · intro refused
    have alike : now.Alike tried.1 := alike_of_payloadTooLarge refused
    refine ⟨?_, ?_⟩
    · generalize tried.1 = left at alike
      obtain ⟨packet, -⟩ := alike
      exact ⟨packet, rfl⟩
    · intro later packs after otherwise
      have matched : Matches me otherwise after := alike.run later packs
      refine ⟨matched.session, matched.session.port_eq, matched.session.log_eq, matched.wires, ?_⟩
      intro next contents
      have sent : _ ∧ Matches me _ _ := matched.session.send next contents
      exact ⟨sent.1, sent.2.session.port_eq⟩
  · intro one two
    refine ⟨?_, ?_⟩
    · intro next contents
      exact (Packet.twin_compose one two _).1.wire (Nat.le_refl _)
    · intro calls found packs
      exact (packs.alike one two).wire_reply

private def echo : Service ⟨2, Capacity.two_lt⟩ where
  role := .client
  identity := ⟨⟨1, 2, 3⟩, 2, Vector.replicate _ 0⟩
  encoding := .text
  handler := fun _ request reply => reply.composeReply request.header.request request.payload

private theorem packs_echo (calls : Nat) (found : Finding ⟨2, Capacity.two_lt⟩) :
    (echo.profile calls).PacksAfresh found := by
  rintro request - - -
  have composed (reply : Packet ⟨2, Capacity.two_lt⟩) := reply.compose_snd
    ⟨request.header.request, Frame.successResponse, request.payload⟩
  by_cases fits : request.payload.length ≤ 2
  · exact .inl ⟨_, fun reply => Prod.ext rfl ((composed reply).trans (decide_eq_true fits))⟩
  · exact .inr fun reply => (composed reply).trans (decide_eq_false fits)

private def arriving (frame : Frame) (unread : Nat) : Move (Port 15) :=
  .elapse ⟨(Ring.empty.pushAll frame.wire).1, (Ring.empty.pushAll (List.replicate unread 0)).1⟩

private def answered (unread : Nat) : Session ⟨2, Capacity.two_lt⟩ (Tapped (Port 15)) :=
  ((opening ⟨.empty, .empty⟩).run echo [arriving ⟨7, 0, [4]⟩ unread, .call .poll]).1

private def afterwards : List (Move (Port 15)) :=
  [arriving ⟨7, 0, [5, 6]⟩ 0, .call .poll, .elapse ⟨.empty, .empty⟩, .call (.send 8 [])]

theorem refused_send_leaves_no_trace_of_echo :
    ((answered 10).send 8 []).2 = .error .busy ∧ ((answered 10).send 8 []).1 = answered 10 ∧
      ((answered 0).send 9 [1, 2, 3]).2 = .error .payloadTooLarge ∧
      (((answered 0).send 9 [1, 2, 3]).1.run echo afterwards).1.port.written =
        Frame.wire ⟨7, 1, [4]⟩ ++ Frame.wire ⟨7, 1, [5, 6]⟩ ++ Frame.wire ⟨8, 0, []⟩ := by
  obtain ⟨-, -, waiting, -, -⟩ := refused_send_leaves_no_trace echo (⟨.empty, .empty⟩ : Port 15)
    [arriving ⟨7, 0, [4]⟩ 10, .call .poll] 8 []
  obtain ⟨-, -, -, alike, -⟩ := refused_send_leaves_no_trace echo (⟨.empty, .empty⟩ : Port 15)
    [arriving ⟨7, 0, [4]⟩ 0, .call .poll] 9 [1, 2, 3]
  have busy : ((answered 10).send 8 []).2 = .error .busy := by decide +kernel
  have refused : ((answered 0).send 9 [1, 2, 3]).2 = .error .payloadTooLarge := by decide +kernel
  have packs : ∀ occasion ∈ ((answered 0).run echo afterwards).2, occasion.PacksAfresh echo := by
    intro occasion _
    cases occasion with
    | request packet => trivial
    | finding calls found draft => exact packs_echo calls found
  have same := ((alike refused).2 afterwards packs).2.1
  refine ⟨busy, (waiting busy).1, refused, ?_⟩
  rw [show (((answered 0).send 9 [1, 2, 3]).1.run echo afterwards).1.port = _ from same]
  decide +kernel

end Session

end FramedLink
