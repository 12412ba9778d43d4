import FramedLink.Duplex.Basic
import FramedLink.Proofs.Endpoint.Answers
import FramedLink.Proofs.Receiver.Arrival
import FramedLink.Ring.Queue

/-! A host and a client in exchange. Main statements: whatever either side does, the frames on their way each way
stay whole and in order, a request leaves its way just when it is served, and a reply just when it is returned. -/

namespace FramedLink

open Endpoint (Profile)

variable {n : Nat}

namespace Port

theorem write_eq (port : Port n) (byte : UInt8) :
    Channel.write port byte = ({ port with outgoing := (port.outgoing.push byte).1 }, (port.outgoing.push byte).2) :=
  rfl

theorem of_took {before after : Port n} {bytes : Bytes} (took : Channel.Took before bytes after) :
    after.incoming = before.incoming ∧ after.outgoing.toList = before.outgoing.toList ++ bytes := by
  induction took with
  | nothing => simp
  | @taken before between after byte bytes written _ ih =>
    rw [write_eq] at written
    obtain ⟨rfl, taken⟩ := Prod.mk.injEq .. ▸ written
    have room : before.outgoing.isFull = false := by
      cases full : before.outgoing.isFull with
      | false => rfl
      | true => simp [Ring.push_of_isFull full] at taken
    refine ⟨ih.1, ?_⟩
    rw [ih.2, Ring.toList_push room, List.append_assoc]
    rfl
  | @refused before between after byte bytes written _ ih =>
    rw [write_eq] at written
    obtain ⟨rfl, refused⟩ := Prod.mk.injEq .. ▸ written
    have full : before.outgoing.isFull = true := by
      cases room : before.outgoing.isFull with
      | true => rfl
      | false => simp [Ring.push_of_not_isFull room] at refused
    rw [ih.1, ih.2, Ring.push_of_isFull full]
    exact ⟨rfl, rfl⟩

theorem of_read {port rest : Port n} {byte : UInt8} (found : Channel.read port = some (byte, rest)) :
    port.incoming.toList = byte :: rest.incoming.toList ∧ rest.outgoing = port.outgoing := by
  change port.read = _ at found
  simp only [read, Option.map_eq_some_iff, Prod.exists, Prod.mk.injEq] at found
  obtain ⟨element, incoming, popped, rfl, rfl⟩ := found
  exact ⟨Ring.toList_pop popped, rfl⟩

end Port

namespace Session

variable {C : Capacity} {before after session : Session C (Port n)}

/-- What was taken on and has yet to be read at the other end. -/
def outflow (session : Session C (Port n)) : Bytes :=
  session.port.outgoing.toList ++ session.endpoint.unsent

theorem Sends.outflow {sent : Bytes} {calls : List Notice} (sends : before.Sends after sent calls) :
    after.outflow = before.outflow ++ sent := by
  obtain ⟨bytes, took, split⟩ := sends.flow
  rw [Session.outflow, Session.outflow, (Port.of_took took).2, List.append_assoc, List.append_assoc, split]

theorem Sends.incoming {sent : Bytes} {calls : List Notice} (sends : before.Sends after sent calls) :
    after.port.incoming = before.port.incoming := by
  obtain ⟨bytes, took, -⟩ := sends.flow
  exact (Port.of_took took).1

section

variable {τ : Type} [Channel τ]

def taking (session : Session C τ) (port : τ) (receiver : Receiver C) : Session C τ :=
  { session with port := port, endpoint.receiver := receiver }

theorem accept_of_awaits {session : Session C τ} (me : Profile C) (port : τ) {byte : UInt8} {coming : Bytes}
    {frames : List Frame} (awaits : session.endpoint.receiver.packet.Awaits (byte :: coming) frames) :
    (∃ receiver, receiver.packet.Awaits coming frames ∧
        (({ session with port := port } : Session C τ).accept me byte).1 = session.taking port receiver) ∨
      ∃ receiver packet frame rest, frames = frame :: rest ∧ packet.wire = frame.wire ∧
        receiver.packet.Awaits coming rest ∧
        (({ session with port := port } : Session C τ).accept me byte).1 =
          ((session.taking port receiver).noteEvent .frameReceived packet).acceptFrame me packet := by
  let moved : Session C τ := { session with port := port }
  have here : moved.endpoint.receiver.packet.Awaits (byte :: coming) frames := awaits
  rcases Receiver.take_of_awaits here with ⟨packet, taken, still⟩ | ⟨frame, rest, packet, first, taken, wire, others⟩
  · exact .inl ⟨⟨packet, false⟩, still, congrArg Prod.fst (accept_of_none taken)⟩
  · exact .inr ⟨⟨packet.restart, false⟩, packet, frame, rest, first, wire, others,
      congrArg Prod.fst (accept_of_frame taken)⟩

end

end Session

def Side.other : Side → Side
  | host => client
  | client => host

theorem Side.eq_or_eq_other (one two : Side) : one = two ∨ one = two.other := by
  cases one <;> cases two <;> simp [other]

namespace Duplex

variable {C : Capacity}

def endpoint (link : Duplex C C n) : Side → Endpoint C
  | .host => link.host
  | .client => link.client

def calls (link : Duplex C C n) (side : Side) : List Notice :=
  Notice.calls (link.log.filterMap fun entry => if entry.1 = side then some entry.2 else none)

/-- The bytes on their way to a side, those included that the other side has yet to write. -/
def comingTo (link : Duplex C C n) (side : Side) : Bytes :=
  (link.wires.port side).incoming.toList ++ (link.endpoint side.other).unsent

def sessionAt (link : Duplex C C n) (side : Side) : Session C (Port n) :=
  { endpoint := link.endpoint side, port := link.wires.port side }

def withSession (link : Duplex C C n) (side : Side) (session : Session C (Port n)) : Duplex C C n where
  host := match side with
    | .host => session.endpoint
    | .client => link.host
  client := match side with
    | .host => link.client
    | .client => session.endpoint
  wires := .ofPort side session.port
  log := link.log ++ session.log.map fun notice => (side, notice)

variable {link : Duplex C C n} {session next : Session C (Port n)} {side : Side} {α : Type}

theorem atHost_eq (link : Duplex C C n) (work : Session C (Port n) → Session C (Port n) × α) :
    link.atHost work = (link.withSession .host (work (link.sessionAt .host)).1, (work (link.sessionAt .host)).2) := rfl

theorem atClient_eq (link : Duplex C C n) (work : Session C (Port n) → Session C (Port n) × α) :
    link.atClient work =
      (link.withSession .client (work (link.sessionAt .client)).1, (work (link.sessionAt .client)).2) := rfl

theorem withSession_sessionAt (link : Duplex C C n) (side : Side) :
    link.withSession side (link.sessionAt side) = link := by
  cases side <;> simp [withSession, sessionAt, endpoint]

theorem endpoint_withSession (link : Duplex C C n) (side : Side) (session : Session C (Port n)) :
    (link.withSession side session).endpoint side = session.endpoint ∧
      (link.withSession side session).endpoint side.other = link.endpoint side.other := by
  cases side <;> exact ⟨rfl, rfl⟩

theorem comingTo_withSession (link : Duplex C C n) (side : Side) (session : Session C (Port n)) :
    (link.withSession side session).comingTo side =
        session.port.incoming.toList ++ (link.endpoint side.other).unsent ∧
      (link.withSession side session).comingTo side.other = session.outflow := by
  cases side <;> exact ⟨rfl, rfl⟩

private theorem filterMap_side (log : List Notice) (side one : Side) :
    ((log.map fun notice => (side, notice)).filterMap fun entry => if entry.1 = one then some entry.2 else none) =
      if side = one then log else [] := by
  induction log with
  | nil => exact (ite_self []).symm
  | cons notice log ih =>
    rw [List.map_cons, List.filterMap_cons, ih]
    by_cases same : side = one
    · simp only [if_pos same]
    · simp only [if_neg same]

theorem calls_withSession_eq (link : Duplex C C n) (side one : Side) (session : Session C (Port n)) :
    (link.withSession side session).calls one =
      link.calls one ++ if side = one then Notice.calls session.log else [] := by
  have log : (link.withSession side session).log = link.log ++ session.log.map fun notice => (side, notice) := rfl
  rw [Duplex.calls, log, List.filterMap_append, filterMap_side, Notice.calls, List.filter_append]
  refine congrArg (link.calls one ++ ·) ?_
  split <;> rfl

theorem calls_withSession (link : Duplex C C n) (side : Side) {calls : List Notice}
    (logged : Notice.calls next.log = Notice.calls session.log ++ calls) :
    (link.withSession side next).calls side = (link.withSession side session).calls side ++ calls ∧
      (link.withSession side next).calls side.other = (link.withSession side session).calls side.other := by
  have other : side ≠ side.other := by cases side <;> nofun
  simp only [calls_withSession_eq, if_neg other, if_true, logged, List.append_assoc, and_self]

/-- Whole frames are on their way to either side, each from where that side stands in it. -/
structure Carrying (link : Duplex C C n) (coming : Side → List Frame) : Prop where
  settled : ∀ side, (link.endpoint side).Settled
  awaits : ∀ side, (link.endpoint side).receiver.packet.Awaits (link.comingTo side) (coming side)

variable {coming later : Side → List Frame} {more rest : List Frame} {calls : List Notice}

theorem Carrying.sends (carrying : (link.withSession side session).Carrying coming)
    (sends : session.Sends next (more.flatMap Frame.wire) calls) (fits : ∀ frame ∈ more, frame.payload.length ≤ C)
    (here : later side = coming side) (there : later side.other = coming side.other ++ more) :
    (link.withSession side next).Carrying later := by
  have own := carrying.awaits side
  have others := carrying.awaits side.other
  have still := carrying.settled side.other
  obtain ⟨before, same⟩ := endpoint_withSession link side session
  obtain ⟨after, kept⟩ := endpoint_withSession link side next
  obtain ⟨inflow, outflow⟩ := comingTo_withSession link side session
  obtain ⟨reading, writing⟩ := comingTo_withSession link side next
  refine ⟨?_, ?_⟩
  · intro one
    rcases Side.eq_or_eq_other one side with rfl | rfl
    · rw [after]
      exact sends.settled
    · rw [kept, ← same]
      exact still
  · intro one
    rcases Side.eq_or_eq_other one side with rfl | rfl
    · rw [after, reading, here, sends.receiver, sends.incoming, ← before, ← inflow]
      exact own
    · rw [kept, writing, there, sends.outflow, ← same, ← outflow]
      exact others.append fits

theorem Carrying.takes (carrying : (link.withSession side session).Carrying coming) {port : Port n} {byte : UInt8}
    (found : Channel.read session.port = some (byte, port)) {receiver : Receiver C}
    (awaits : receiver.packet.Awaits (port.incoming.toList ++ (link.endpoint side.other).unsent) (later side))
    (there : later side.other = coming side.other) :
    (link.withSession side (session.taking port receiver)).Carrying later := by
  have others := carrying.awaits side.other
  have settled := carrying.settled side
  have still := carrying.settled side.other
  obtain ⟨before, same⟩ := endpoint_withSession link side session
  obtain ⟨after, kept⟩ := endpoint_withSession link side (session.taking port receiver)
  obtain ⟨-, outflow⟩ := comingTo_withSession link side session
  obtain ⟨reading, writing⟩ := comingTo_withSession link side (session.taking port receiver)
  have unread : (session.taking port receiver).outflow = session.outflow :=
    congrArg (fun ring => Ring.toList ring ++ session.endpoint.unsent) (Port.of_read found).2
  rw [before] at settled
  refine ⟨?_, ?_⟩
  · intro one
    rcases Side.eq_or_eq_other one side with rfl | rfl
    · rw [after]
      exact ⟨settled.contained, settled.refused⟩
    · rw [kept, ← same]
      exact still
  · intro one
    rcases Side.eq_or_eq_other one side with rfl | rfl
    · rw [after, reading]
      exact awaits
    · rw [kept, writing, there, unread, ← same, ← outflow]
      exact others

/-- How far an exchange has come: the client served some of the requests, of whose replies the host got some, and
the others are coming. -/
structure Course (client : Profile C) (answer : Frame → Option Frame) (start link : Duplex C C n)
    (requests served returned : List Frame) (coming : Side → List Frame) : Prop where
  carrying : link.Carrying coming
  requests : requests = served ++ coming .client
  replies : served.map (client.replyTo answer) = returned ++ coming .host
  host : link.calls .host = start.calls .host ++ returned.map .answered
  client : link.calls .client = start.calls .client ++ served.flatMap (Profile.callsFor answer)

/-- Each request was served once or is coming, and each of the replies was returned once or is coming. -/
def Underway (client : Profile C) (answer : Frame → Option Frame) (start : Duplex C C n) (requests : List Frame)
    (link : Duplex C C n) : Prop :=
  ∃ served returned coming, Course client answer start link requests served returned coming

variable {me : Profile C} {answer : Frame → Option Frame} {start : Duplex C C n} {requests : List Frame}

theorem Underway.settled (underway : Underway me answer start requests (link.withSession side session)) :
    session.endpoint.Settled := by
  obtain ⟨_, _, _, course⟩ := underway
  have settled := course.carrying.settled side
  rwa [(endpoint_withSession link side session).1] at settled

theorem Underway.hostSends (underway : Underway me answer start requests (link.withSession .host session))
    (sends : session.Sends next (more.flatMap Frame.wire) []) (fits : ∀ frame ∈ more, frame.payload.length ≤ C) :
    Underway me answer start (requests ++ more) (link.withSession .host next) := by
  obtain ⟨served, returned, coming, carrying, rfl, replies, host, client⟩ := underway
  obtain ⟨atHost, atClient⟩ := calls_withSession link .host sends.calls
  refine ⟨served, returned, fun | .host => coming .host | .client => coming .client ++ more,
    carrying.sends sends fits rfl rfl, by rw [List.append_assoc], replies, ?_, atClient.trans client⟩
  rw [atHost, List.append_nil, host]

theorem Underway.flush (underway : Underway me answer start requests (link.withSession side session)) :
    Underway me answer start requests (link.withSession side session.flush.1) := by
  have sends : session.Sends session.flush.1 (([] : List Frame).flatMap Frame.wire) [] :=
    Session.sends_flush underway.settled
  obtain ⟨served, returned, coming, carrying, course, replies, host, client⟩ := underway
  obtain ⟨here, there⟩ := calls_withSession link side sends.calls
  rw [List.append_nil] at here
  have carried := carrying.sends sends (by simp) rfl (List.append_nil _).symm
  cases side with
  | host => exact ⟨served, returned, coming, carried, course, replies, here.trans host, there.trans client⟩
  | client => exact ⟨served, returned, coming, carried, course, replies, there.trans host, here.trans client⟩

theorem Underway.hostReads {host : Profile C} (role : host.role = .host) {byte : UInt8} {port : Port n}
    (underway : Underway me answer start requests (link.withSession .host session))
    (found : Channel.read session.port = some (byte, port)) :
    Underway me answer start requests
      (link.withSession .host (({ session with port := port } : Session C (Port n)).accept host byte).1) := by
  obtain ⟨served, returned, coming, carrying, course, replies, calls, client⟩ := underway
  have awaits : session.endpoint.receiver.packet.Awaits
      (session.port.incoming.toList ++ (link.endpoint .client).unsent) (coming .host) :=
    carrying.awaits .host
  rw [(Port.of_read found).1, List.cons_append] at awaits
  rcases Session.accept_of_awaits host port awaits with
    ⟨receiver, still, accepted⟩ | ⟨receiver, packet, reply, rest, first, wire, others, accepted⟩
  · rw [accepted]
    exact ⟨served, returned, coming, carrying.takes found still rfl, course, replies, calls, client⟩
  · have taken : (link.withSession .host (session.taking port receiver)).Carrying
        (fun | .host => rest | .client => coming .client) := carrying.takes found others rfl
    have settled : (session.taking port receiver).endpoint.Settled := taken.settled .host
    have noted := Session.Sends.noteEvent settled .frameReceived packet
    have told := noted.trans (Session.sends_acceptFrame_of_host role noted.settled wire)
    have nothing : (session.taking port receiver).Sends
        (((session.taking port receiver).noteEvent .frameReceived packet).acceptFrame host packet)
        (([] : List Frame).flatMap Frame.wire) [.answered reply] := told
    obtain ⟨atHost, atClient⟩ := calls_withSession link .host nothing.calls
    rw [accepted]
    refine ⟨served, returned ++ [reply], fun | .host => rest | .client => coming .client,
      taken.sends nothing (by simp) rfl (List.append_nil _).symm, course, ?_, ?_, atClient.trans client⟩
    · rw [replies, first, List.append_cons]
    · have before : (link.withSession .host (session.taking port receiver)).calls .host =
          start.calls .host ++ returned.map .answered := calls
      rw [atHost, before, List.map_append, List.append_assoc]
      rfl

theorem Underway.clientReads (role : me.role = .client) (answers : me.AnswersBy answer) {byte : UInt8} {port : Port n}
    (free : session.canRead me = true)
    (underway : Underway me answer start requests (link.withSession .client session))
    (found : Channel.read session.port = some (byte, port)) :
    Underway me answer start requests
      (link.withSession .client (({ session with port := port } : Session C (Port n)).accept me byte).1) := by
  obtain ⟨served, returned, coming, carrying, course, replies, host, calls⟩ := underway
  -- A client reads only while nothing is on its way out, so that a reply is taken on whole.
  have idle : session.endpoint.sending = false := by simpa [Session.canRead, role] using free
  have awaits : session.endpoint.receiver.packet.Awaits
      (session.port.incoming.toList ++ (link.endpoint .host).unsent) (coming .client) :=
    carrying.awaits .client
  rw [(Port.of_read found).1, List.cons_append] at awaits
  rcases Session.accept_of_awaits me port awaits with
    ⟨receiver, still, accepted⟩ | ⟨receiver, packet, request, rest, first, wire, others, accepted⟩
  · rw [accepted]
    exact ⟨served, returned, coming, carrying.takes found still rfl, course, replies, host, calls⟩
  · have taken : (link.withSession .client (session.taking port receiver)).Carrying
        (fun | .host => coming .host | .client => rest) := carrying.takes found others rfl
    have settled : (session.taking port receiver).endpoint.Settled := taken.settled .client
    have noted := Session.Sends.noteEvent settled .frameReceived packet
    have replied := noted.trans (Session.sends_acceptFrame_of_client role answers noted.settled idle wire)
    have whole : [me.replyTo answer request].flatMap Frame.wire = (me.replyTo answer request).wire := by simp
    rw [List.nil_append, List.nil_append, ← whole] at replied
    have small : request.payload.length ≤ C :=
      (carrying.awaits .client).fits request (first ▸ List.mem_cons_self)
    have fits : ∀ frame ∈ [me.replyTo answer request], frame.payload.length ≤ C := by
      intro frame member
      rw [List.mem_singleton.mp member]
      exact Profile.replyTo_fits answers small
    obtain ⟨atClient, atHost⟩ := calls_withSession link .client replied.calls
    rw [accepted]
    refine ⟨served ++ [request], returned,
      fun | .host => coming .host ++ [me.replyTo answer request] | .client => rest,
      taken.sends replied fits rfl rfl, ?_, ?_, atHost.trans host, ?_⟩
    · rw [course, first, List.append_cons]
    · rw [List.map_append, replies, List.append_assoc]
      rfl
    · have before : (link.withSession .client (session.taking port receiver)).calls .client =
          start.calls .client ++ served.flatMap (Profile.callsFor answer) := calls
      rw [atClient, before, List.flatMap_append, List.append_assoc]
      simp

end Duplex

end FramedLink
