import FramedLink.Proofs.Duplex.Drainage
import FramedLink.Proofs.Endpoint.Knowledge
import FramedLink.Proofs.Endpoint.Replies

/-! A link with room. Main statement: where nothing is on its way and the rings have room for what is to be said, a
request is answered within two rounds, whatever the client has to reply, and both sides note just what there is to note
of it. -/

namespace FramedLink

open Endpoint (Profile Reaction)

def Notice.telling (kind : Event.Kind) (frame : Frame) : Notice :=
  .event ⟨kind, frame.request, frame.response, frame.length⟩

theorem Notice.about_eq {C : Capacity} {packet : Packet C} {frame : Frame} (same : packet.header = frame.header)
    (kind : Event.Kind) : Notice.about kind packet = telling kind frame := by
  rw [about, same]
  rfl

theorem Ring.pushAll_of_room {α : Type} {n : Nat} {ring : Ring α n} {elements : List α}
    (room : ring.toList.length + elements.length ≤ n) :
    (ring.pushAll elements).1.toList = ring.toList ++ elements ∧ (ring.pushAll elements).2 = elements.length := by
  induction elements generalizing ring with
  | nil => exact ⟨(List.append_nil _).symm, rfl⟩
  | cons element elements ih =>
    have notFull : ring.isFull = false := by
      rw [Bool.eq_false_iff, Ne, isFull_iff, ← length_toList]
      rw [List.length_cons] at room
      omega
    have pushed := toList_push notFull element
    rw [push_of_not_isFull notFull] at pushed
    have still : (ring.store element).toList.length + elements.length ≤ n := by
      rw [pushed]
      simpa [Nat.add_assoc, Nat.add_comm 1] using room
    obtain ⟨contents, count⟩ := ih still
    rw [pushAll, push_of_not_isFull notFull]
    change ((ring.store element).pushAll elements).1.toList = _ ∧ ((ring.store element).pushAll elements).2 + 1 = _
    rw [contents, count, pushed, List.append_assoc]
    exact ⟨rfl, rfl⟩

namespace Receiver

variable {C : Capacity} {receiver : Receiver C} {bytes : Bytes}

/-- The receiver finds nothing before the last of the bytes, and with that one the finding; then it is between two
frames. -/
def Finds (receiver : Receiver C) (bytes : Bytes) (found : Finding C) : Prop :=
  ∃ front last before next, bytes = front ++ [last] ∧ receiver.takeAll front = (before, []) ∧
    before.take last = (next, some found) ∧ next.packet.Holds []

theorem takeAll_of_inProgress (undecided : ∀ outcome ∈ (receiver.packet.receiveAll bytes).2, outcome = .inProgress) :
    (receiver.takeAll bytes).1.packet = (receiver.packet.receiveAll bytes).1 ∧ (receiver.takeAll bytes).2 = [] := by
  induction bytes generalizing receiver with
  | nil => exact ⟨rfl, rfl⟩
  | cons byte bytes ih =>
    have taken := take_of_inProgress (undecided _ (.head _))
    have later : ∀ outcome ∈ ((receiver.take byte).1.packet.receiveAll bytes).2, outcome = .inProgress := by
      rw [taken]
      exact fun outcome member => undecided outcome (.tail _ member)
    obtain ⟨packet, nothing⟩ := ih later
    rw [taken] at packet nothing
    rw [takeAll, taken]
    exact ⟨packet, nothing⟩

theorem finds_whole (rests : receiver.packet.Holds []) (opens : Frame.Opens bytes)
    (whole : bytes.length = Frame.headerSize + Frame.declared bytes) (accepted : Frame.declared bytes ≤ C) :
    ∃ packet : Packet C, packet.wire = bytes ∧
      receiver.Finds bytes (if Frame.Intact bytes then .frame packet else .fault .badChecksum packet) := by
  obtain ⟨answers, holds⟩ := rests.receiveAll_whole opens whole accepted
  have some : bytes ≠ [] := by
    rintro rfl
    cases whole
  obtain ⟨front, last, rfl⟩ := (List.eq_nil_or_concat bytes).resolve_left some
  rw [List.concat_eq_append] at answers holds whole ⊢
  rw [Packet.receiveAll_concat] at answers holds
  obtain ⟨earlier, answer⟩ := List.append_inj' answers rfl
  have undecided : ∀ outcome ∈ (receiver.packet.receiveAll front).2, outcome = .inProgress := by
    intro outcome member
    rw [earlier] at member
    exact List.eq_of_mem_replicate member
  obtain ⟨packet, nothing⟩ := takeAll_of_inProgress undecided
  let before := (receiver.takeAll front).1
  refine ⟨(before.packet.receive last).1, ?_, front, last, before, ⟨(before.packet.receive last).1.restart, false⟩, rfl,
    Prod.ext rfl nothing, ?_, (Packet.Ready.restart _).holds⟩
  · rw [show before.packet = _ from packet]
    exact holds.wire_eq whole
  · rw [← packet] at answer
    split at answer
    · rename_i intact
      rw [if_pos intact]
      exact take_of_completed (List.singleton_inj.mp answer)
    · rename_i damaged
      rw [if_neg damaged]
      exact take_of_fault (List.singleton_inj.mp answer) nofun

end Receiver

/-- The endpoint has no frame on its way and holds no part of one that is to come. -/
structure Endpoint.Free {C : Capacity} (endpoint : Endpoint C) : Prop where
  idle : endpoint.sending = false
  clear : endpoint.refused = none
  between : endpoint.receiver.packet.Holds []

namespace Session

variable {C : Capacity} {n : Nat} {me : Profile C} {session before between after : Session C (Port n)}
  {frames : List Frame} {notices : List Notice} {found : Finding C}

structure Delivers (before after : Session C (Port n)) (frames : List Frame) : Prop where
  idle : after.endpoint.sending = false
  clear : after.endpoint.refused = none
  receiver : after.endpoint.receiver = before.endpoint.receiver
  peer : after.endpoint.peer = before.endpoint.peer
  incoming : after.port.incoming = before.port.incoming
  outgoing : after.port.outgoing.toList = before.port.outgoing.toList ++ frames.flatMap Frame.wire
  log : after.log = before.log ++ frames.map (.telling .frameSent)

theorem delivers_dispatch {packet : Packet C} {frame : Frame} (carries : packet.Carries frame)
    (room : session.port.outgoing.toList.length + frame.wire.length ≤ n) :
    session.Delivers (session.dispatch packet) [frame] := by
  have writes := writes_dispatch session packet
  obtain ⟨bytes, took, split⟩ := writes.flow
  obtain ⟨incoming, outgoing⟩ := Port.of_took took
  have whole : (session.starting packet).endpoint.pending = frame.wire := carries.rest
  rw [whole] at split
  have idle : (session.dispatch packet).endpoint.sending = false := by
    by_contra still
    rw [Bool.not_eq_false] at still
    -- A frame that is not out ends at a full ring, and the ring has room for all of it.
    obtain ⟨port, byte, refused⟩ := refused_of_flush still
    have full := (Ring.isFull_iff _).mp (Port.isFull_of_refused refused)
    have left := List.length_pos_iff.mpr (Endpoint.pending_ne_nil writes.held still)
    rw [← Ring.length_toList] at full
    change (session.dispatch packet).port.outgoing.toList.length = n at full
    rw [outgoing, List.length_append] at full
    rw [split, List.length_append] at room
    change session.port.outgoing.toList.length + _ = n at full
    omega
  have held := writes.held
  rw [idle, Option.isSome_eq_false_iff, Option.isNone_iff_eq_none] at held
  rw [Endpoint.pending_of_idle idle, List.append_nil] at split
  refine ⟨idle, held, writes.receiver, writes.peer, incoming, ?_, ?_⟩
  · rw [outgoing, ← split, List.flatMap_singleton]
    rfl
  · rw [writes.log, idle, List.map_singleton, ← Notice.about_eq carries.header_eq]
    rfl

theorem send_of_fits (idle : session.endpoint.sending = false) (request : UInt16) {payload : Bytes}
    (fits : payload.length ≤ C) :
    session.send request payload =
      (session.dispatch (session.endpoint.outgoing.compose ⟨request, Frame.pendingResponse, payload⟩).1, .ok ()) := by
  rw [send, idle, if_neg Bool.false_ne_true, Packet.composeRequest, Packet.compose_of_fits _ fits]

theorem delivers_perform {reaction : Reaction C} (idle : session.endpoint.sending = false)
    (clear : session.endpoint.refused = none) (shows : reaction.Shows frames notices)
    (room : session.port.outgoing.toList.length + (frames.flatMap Frame.wire).length ≤ n) :
    (session.noteAll notices).Delivers (session.perform reaction) frames := by
  have carry := shows.carry
  rw [perform, shows.notices]
  cases replied : reaction.reply with
  | none =>
    rw [replied] at carry
    cases carry
    exact ⟨idle, clear, rfl, rfl, rfl, by simp, by simp⟩
  | some packet =>
    rw [replied] at carry
    obtain _ | ⟨carries, others⟩ := carry
    cases others
    rw [List.flatMap_singleton] at room
    exact delivers_dispatch carries room

theorem readUpTo_of_silent (free : session.canRead me = true) {front rest : Bytes} {receiver : Receiver C}
    (coming : session.port.incoming.toList = front ++ rest)
    (silent : session.endpoint.receiver.takeAll front = (receiver, [])) (budget : Nat) :
    ∃ port : Port n, port.incoming.toList = rest ∧ port.outgoing = session.port.outgoing ∧
      session.readUpTo me (front.length + budget) = (session.taking port receiver).readUpTo me budget := by
  induction front generalizing session with
  | nil =>
    cases silent
    exact ⟨session.port, coming, rfl, by rw [List.length_nil, Nat.zero_add]; rfl⟩
  | cons byte front ih =>
    rcases found : Channel.read session.port with _ | ⟨other, port⟩
    · rw [Port.read_eq_none_iff.mp found] at coming
      cases coming
    · obtain ⟨first, kept⟩ := Port.of_read found
      rw [coming, List.cons_append, List.cons.injEq] at first
      obtain ⟨rfl, later⟩ := first
      rw [Receiver.takeAll, Prod.mk.injEq, List.append_eq_nil_iff, Option.toList_eq_nil_iff] at silent
      obtain ⟨last, nothing, others⟩ := silent
      let next := session.taking port (session.endpoint.receiver.take byte).1
      have accepted : ({ session with port := port } : Session C (Port n)).accept me byte = (next, 0) :=
        accept_of_none (Prod.ext rfl nothing)
      have still : next.canRead me = true := free
      have coming : next.port.incoming.toList = front ++ rest := later.symm
      obtain ⟨reached, incoming, outgoing, read⟩ := ih still coming (Prod.ext last others)
      refine ⟨reached, incoming, outgoing.trans kept, ?_⟩
      rw [List.length_cons, Nat.add_right_comm, readUpTo, if_pos free, found]
      simp only [accepted, read, Nat.zero_add]
      rfl

theorem readUpTo_of_last (free : session.canRead me = true) {byte : UInt8} {next : Receiver C}
    (coming : session.port.incoming.toList = [byte])
    (taken : session.endpoint.receiver.take byte = (next, some found)) :
    ∃ port : Port n, port.incoming.toList = [] ∧ port.outgoing = session.port.outgoing ∧
      (session.readUpTo me 1).1 = (({ session with port := port } : Session C (Port n)).finding me next found).perform
        (me.react session.endpoint.outgoing found) := by
  rcases read : Channel.read session.port with _ | ⟨other, port⟩
  · rw [Port.read_eq_none_iff.mp read] at coming
    cases coming
  · obtain ⟨first, kept⟩ := Port.of_read read
    rw [coming, List.cons.injEq] at first
    obtain ⟨rfl, empty⟩ := first
    let moved : Session C (Port n) := { session with port := port }
    have accepted : (moved.accept me byte).1 = _ := accept_fst moved byte
    rw [show moved.endpoint.receiver.take byte = _ from taken] at accepted
    refine ⟨port, empty.symm, kept, ?_⟩
    rw [readUpTo, if_pos free, read]
    exact accepted

structure Answered (before after : Session C (Port n)) (found : Finding C) (notices : List Notice)
    (frames : List Frame) (role : Role) : Prop where
  free : after.endpoint.Free
  peer : after.endpoint.peer = role.learned before.endpoint.peer found
  incoming : after.port.incoming.toList = []
  outgoing : after.port.outgoing.toList = before.port.outgoing.toList ++ frames.flatMap Frame.wire
  log : after.log = before.log ++ notices ++ frames.map (.telling .frameSent)

theorem poll_of_finds (free : session.endpoint.Free)
    (finds : session.endpoint.receiver.Finds session.port.incoming.toList found)
    (shows : (me.react session.endpoint.outgoing found).Shows frames notices)
    (room : session.port.outgoing.toList.length + (frames.flatMap Frame.wire).length ≤ n) :
    session.Answered (session.poll me).1 found notices frames me.role := by
  obtain ⟨front, last, before, next, split, silent, taken, between⟩ := finds
  have may : session.canRead me = true := by simp [canRead, free.idle]
  have flushed : session.flush.1 = session := by rw [flush_of_idle free.idle]
  have budget : Channel.backlog session.port = front.length + 1 := by
    change session.port.incoming.size = _
    rw [← Ring.length_toList, split, List.length_append, List.length_singleton]
  obtain ⟨port, coming, outgoing, read⟩ := readUpTo_of_silent may split silent 1
  have still : (session.taking port before).canRead me = true := may
  obtain ⟨rest, empty, kept, reached⟩ := readUpTo_of_last still coming taken
  have same : rest.outgoing = session.port.outgoing := kept.trans outgoing
  let moved : Session C (Port n) := { session.taking port before with port := rest }
  let heard := moved.finding me next found
  have delivers : (heard.noteAll notices).Delivers (heard.perform (me.react session.endpoint.outgoing found)) frames := by
    refine delivers_perform free.idle free.clear shows ?_
    change rest.outgoing.toList.length + _ ≤ n
    rw [same]
    exact room
  have polled : (session.poll me).1 = heard.perform (me.react session.endpoint.outgoing found) := by
    have last : (session.readAll me).1 = heard.perform (me.react session.endpoint.outgoing found) := by
      rw [readAll, budget, read, reached]
      rfl
    rw [poll, flushed, last, flush_of_idle delivers.idle]
  rw [polled]
  refine ⟨⟨delivers.idle, delivers.clear, ?_⟩, delivers.peer, ?_, ?_, delivers.log⟩
  · rw [delivers.receiver]
    exact between
  · rw [delivers.incoming]
    exact empty
  · rw [delivers.outgoing]
    change rest.outgoing.toList ++ _ = _
    rw [same]

end Session

namespace Duplex

variable {C : Capacity} {n : Nat}

/-- How a link stands while neither side has anything more to do than to read. -/
structure Scene where
  toHost : Bytes := []
  toClient : Bytes := []
  log : List (Side × Notice) := []
  peer : Option Identity := none

/-- The link stands as the scene says: nothing more is to be written, and nothing of a frame was read. -/
structure Stands (link : Duplex C C n) (scene : Scene) : Prop where
  free : ∀ side, (link.endpoint side).Free
  toHost : link.wires.toHost.toList = scene.toHost
  toClient : link.wires.toClient.toList = scene.toClient
  log : link.log = scene.log
  peer : link.host.peer = scene.peer

variable {link : Duplex C C n} {host client : Profile C} {scene : Scene} {log : List (Side × Notice)}
  {peer : Option Identity} {bytes : Bytes} {notices : List Notice} {reply : Frame}

theorem stands_idle : (idle : Duplex C C n).Stands {} := by
  refine ⟨?_, rfl, rfl, rfl, rfl⟩
  rintro (_ | _) <;> exact ⟨rfl, rfl, Packet.Ready.fresh.holds⟩

theorem Stands.free_withSession (stands : link.Stands scene) {side : Side} {next : Session C (Port n)}
    (free : next.endpoint.Free) (which : Side) : ((link.withSession side next).endpoint which).Free := by
  obtain ⟨one, other⟩ := endpoint_withSession link side next
  rcases which.eq_or_eq_other side with rfl | rfl
  · rw [one]
    exact free
  · rw [other]
    exact stands.free _

theorem Stands.quiet (stands : link.Stands { log := log, peer := peer }) : link.Quiet :=
  ⟨stands.toHost, stands.toClient, (stands.free .host).idle, (stands.free .client).idle⟩

theorem Stands.client_answers {next : Session C (Port n)} {found : Finding C} {frames : List Frame} {role : Role}
    (stands : link.Stands scene)
    (answered : (link.sessionAt .client).Answered next found notices frames role) :
    (link.withSession .client next).Stands
      { scene with
        toHost := scene.toHost ++ frames.flatMap Frame.wire
        toClient := []
        log := scene.log ++ (notices ++ frames.map (Notice.telling .frameSent)).map (Side.client, ·) } := by
  refine ⟨stands.free_withSession answered.free, ?_, answered.incoming, ?_, stands.peer⟩
  · rw [← stands.toHost]
    exact answered.outgoing
  · rw [← stands.log]
    exact congrArg (link.log ++ List.map (Side.client, ·) ·) answered.log

theorem Stands.host_hears {next : Session C (Port n)} {found : Finding C} {role : Role} (stands : link.Stands scene)
    (answered : (link.sessionAt .host).Answered next found notices [] role) :
    (link.withSession .host next).Stands
      { scene with
        toHost := []
        log := scene.log ++ notices.map (Side.host, ·)
        peer := role.learned scene.peer found } := by
  refine ⟨stands.free_withSession answered.free, answered.incoming, ?_, ?_, ?_⟩
  · rw [← stands.toClient, ← List.append_nil link.wires.toClient.toList]
    exact answered.outgoing
  · rw [← stands.log, ← List.append_nil notices]
    exact congrArg (link.log ++ List.map (Side.host, ·) ·) answered.log
  · rw [← stands.peer]
    exact answered.peer

theorem Stands.host_delivers {next : Session C (Port n)} {frames : List Frame} (stands : link.Stands scene)
    (delivers : (link.sessionAt .host).Delivers next frames) :
    (link.withSession .host next).Stands
      { scene with
        toClient := scene.toClient ++ frames.flatMap Frame.wire
        log := scene.log ++ frames.map fun frame => (.host, .telling .frameSent frame) } := by
  have between : next.endpoint.receiver.packet.Holds [] := by
    rw [delivers.receiver]
    exact (stands.free .host).between
  refine ⟨stands.free_withSession ⟨delivers.idle, delivers.clear, between⟩, ?_, ?_, ?_, ?_⟩
  · rw [← stands.toHost]
    exact congrArg Ring.toList delivers.incoming
  · rw [← stands.toClient]
    exact delivers.outgoing
  · rw [← stands.log]
    change link.log ++ next.log.map (Side.host, ·) = _
    rw [delivers.log]
    exact congrArg (link.log ++ ·) (List.map_map ..)
  · rw [← stands.peer]
    exact delivers.peer

/-- What both sides note while the client answers something and the host gets the reply. -/
def answering (notices : List Notice) (reply : Frame) : List (Side × Notice) :=
  (notices ++ [Notice.telling .frameSent reply]).map (Side.client, ·) ++
    [(.host, .telling .frameReceived reply), (.host, .answered reply)]

/-- What comes to the client is one frame or a damaged one, to which it has one reply, and there is room for it. -/
structure Asks (client : Profile C) (n : Nat) (bytes : Bytes) (notices : List Notice) (reply : Frame) : Prop where
  opens : Frame.Opens bytes
  whole : bytes.length = Frame.headerSize + Frame.declared bytes
  accepted : Frame.declared bytes ≤ C
  shows : ∀ draft packet : Packet C, packet.wire = bytes →
    (client.react draft (if Frame.Intact bytes then .frame packet else .fault .badChecksum packet)).Shows [reply] notices
  fits : reply.payload.length ≤ C
  room : reply.wire.length ≤ n

theorem Stands.pollClient (host : Profile C) (stands : link.Stands { toClient := bytes, log := log, peer := peer })
    (asks : Asks client n bytes notices reply) :
    (link.act host client .pollClient).1.Stands
      { toHost := reply.wire
        log := log ++ (notices ++ [Notice.telling .frameSent reply]).map (Side.client, ·)
        peer := peer } := by
  let session := link.sessionAt .client
  obtain ⟨packet, wire, finds⟩ := Receiver.finds_whole (stands.free .client).between asks.opens asks.whole asks.accepted
  have coming : session.port.incoming.toList = bytes := stands.toClient
  have empty : session.port.outgoing.toList = [] := stands.toHost
  have shows := asks.shows session.endpoint.outgoing packet wire
  rw [← coming] at finds
  have answered := Session.poll_of_finds (stands.free .client) finds
    (by rw [coming]; exact shows) (by
      rw [show (link.sessionAt .client).port.outgoing.toList = [] from empty]
      simpa using asks.room)
  have after := stands.client_answers answered
  rw [List.flatMap_singleton] at after
  exact after

theorem Stands.pollHost (asking : host.role = .host) (client : Profile C) (fits : reply.payload.length ≤ C)
    (stands : link.Stands { toHost := reply.wire, log := log, peer := peer }) :
    (link.act host client .pollHost).1.Stands
      { log := log ++ [(.host, .telling .frameReceived reply), (.host, .answered reply)]
        peer := Notice.learned peer (.answered reply) } := by
  let session := link.sessionAt .host
  have declared : Frame.declared reply.wire = reply.payload.length := Frame.declared_wire (Frame.small_of_fits fits)
  obtain ⟨packet, wire, finds⟩ := Receiver.finds_whole (stands.free .host).between (Frame.opens_wire reply)
    (by rw [Frame.length_wire, declared]) (by rw [declared]; exact fits)
  rw [if_pos (Frame.intact_wire reply)] at finds
  obtain ⟨header, contents⟩ := Packet.parts_of_wire_eq wire
  have coming : session.port.incoming.toList = reply.wire := stands.toHost
  have react : host.react session.endpoint.outgoing (.frame packet) =
      ⟨[.telling .frameReceived reply, .answered reply], none⟩ := by
    simp only [Profile.react, asking, Notice.about_eq header, contents]
  have shows : (host.react session.endpoint.outgoing (.frame packet)).Shows []
      [.telling .frameReceived reply, .answered reply] := by
    rw [react]
    exact ⟨rfl, .nil⟩
  have learned := learned_of_host asking session.endpoint.outgoing peer (.frame packet)
  rw [react] at learned
  rw [← coming] at finds
  have room : session.port.outgoing.toList.length + (([] : List Frame).flatMap Frame.wire).length ≤ n := by
    rw [show session.port.outgoing.toList = [] from stands.toClient]
    exact Nat.zero_le _
  have after := stands.host_hears (Session.poll_of_finds (stands.free .host) finds shows room)
  rw [learned] at after
  exact after

theorem Stands.runRounds (asking : host.role = .host) (asks : Asks client n bytes notices reply)
    (stands : link.Stands { toClient := bytes, log := log, peer := peer }) (rounds : Nat) :
    (link.runRounds host client (rounds + 2)).1.Stands
      { log := log ++ answering notices reply, peer := Notice.learned peer (.answered reply) } := by
  have waits : (link.act host client .pollHost).1 = link :=
    withSession_poll_of_empty host .host (stands.free .host).idle stands.toHost
  have answered := stands.pollClient host asks
  have first : (link.round host client).1 = (link.act host client .pollClient).1 := by rw [round_eq_act, waits]
  rw [← first] at answered
  have heard := answered.pollHost asking client asks.fits
  have second : ((link.round host client).1.round host client).1 =
      ((link.round host client).1.act host client .pollHost).1 := by
    rw [round_eq_act, heard.quiet.act_poll.2]
  rw [← second] at heard
  rw [Duplex.runRounds, Duplex.runRounds, heard.quiet.runRounds, answering, ← List.append_assoc]
  exact heard

theorem Stands.inject (stands : link.Stands { log := log, peer := peer }) (room : bytes.length ≤ n) :
    (link.inject .host bytes).1.Stands { toClient := bytes, log := log, peer := peer } ∧
      (link.inject .host bytes).2 = bytes.length := by
  have empty : link.wires.toClient.toList = [] := stands.toClient
  have free : link.wires.toClient.toList.length + bytes.length ≤ n := by
    rw [empty]
    simpa
  obtain ⟨pushed, count⟩ := Ring.pushAll_of_room free
  rw [empty, List.nil_append] at pushed
  exact ⟨⟨stands.free, stands.toHost, pushed, stands.log, stands.peer⟩, count⟩

theorem Stands.send (stands : link.Stands { log := log, peer := peer }) (request : UInt16) (payload : Bytes)
    (fits : payload.length ≤ C) (room : (Frame.wire ⟨request, Frame.pendingResponse, payload⟩).length ≤ n) :
    (link.atHost (·.send request payload)).1.Stands
        { toClient := Frame.wire ⟨request, Frame.pendingResponse, payload⟩
          log := log ++ [(.host, .telling .frameSent ⟨request, Frame.pendingResponse, payload⟩)]
          peer := peer } ∧
      (link.atHost (·.send request payload)).2 = .ok () := by
  let frame : Frame := ⟨request, Frame.pendingResponse, payload⟩
  let session := link.sessionAt .host
  have empty : session.port.outgoing.toList = [] := stands.toClient
  have carries : (session.endpoint.outgoing.compose ⟨request, Frame.pendingResponse, payload⟩).1.Carries _ :=
    Packet.carries_compose _ fits
  have sent : session.send request payload = _ := Session.send_of_fits (stands.free .host).idle request fits
  have delivers : session.Delivers (session.send request payload).1 [⟨request, Frame.pendingResponse, payload⟩] := by
    rw [sent]
    exact Session.delivers_dispatch carries (by rw [empty]; simpa using room)
  have after := stands.host_delivers delivers
  rw [List.flatMap_singleton] at after
  exact ⟨after, congrArg Prod.snd sent⟩

/-! What a client replies to that comes to it whole or damaged. -/

section

variable {request frame : Frame}

theorem asks_wire (small : request.payload.length ≤ C) (fits : reply.payload.length ≤ C) (room : reply.wire.length ≤ n)
    (shows : ∀ draft packet : Packet C, packet.header = request.header → packet.frame = request →
      (client.react draft (.frame packet)).Shows [reply] notices) : Asks client n request.wire notices reply := by
  have declared := Frame.declared_wire (Frame.small_of_fits small)
  refine ⟨Frame.opens_wire request, by rw [declared, Frame.length_wire], by rw [declared]; exact small, ?_, fits, room⟩
  intro draft packet wire
  obtain ⟨header, contents⟩ := Packet.parts_of_wire_eq wire
  rw [if_pos (Frame.intact_wire request)]
  exact shows draft packet header contents

theorem asks_identity (serving : client.role = .client) (asked : request.request = Frame.identityRequest)
    (small : request.payload.length ≤ C) (fits : client.encoding.size ≤ C)
    (room : Frame.headerSize + client.encoding.size ≤ n) :
    Asks client n request.wire [.telling .frameReceived request]
      ⟨Frame.identityRequest, Frame.successResponse, client.identity.encode client.encoding⟩ := by
  have size := Identity.length_encode client.identity client.encoding
  refine asks_wire small (size ▸ fits) (by rw [Frame.length_wire, size]; exact room) ?_
  intro draft packet header contents
  have code : packet.header.request = Frame.identityRequest := by rw [header]; exact asked
  rw [Profile.react, serving, ← Notice.about_eq header]
  simp only [if_pos code]
  exact (Reaction.shows_replying packet draft (size ▸ fits)).after [.about .frameReceived packet]

theorem asks_known (serving : client.role = .client) (other : request.request ≠ Frame.identityRequest)
    (small : request.payload.length ≤ C) (room : reply.wire.length ≤ n)
    (fits : reply.payload.length ≤ C)
    (handled : ∀ packet draft : Packet C, packet.frame = request →
      ∃ packed, client.handler packet draft = (packed, true) ∧ packed.Carries reply) :
    Asks client n request.wire [.telling .frameReceived request, .asked request true] reply := by
  refine asks_wire small fits room ?_
  intro draft packet header contents
  obtain ⟨packed, known, carries⟩ := handled packet draft contents
  have code : packet.header.request ≠ Frame.identityRequest := by rw [header]; exact other
  rw [Profile.react, serving, ← Notice.about_eq header]
  simp only [if_neg code, Profile.serving, known]
  rw [contents]
  exact (Reaction.shows_of_carries carries [.asked request true]).after [.about .frameReceived packet]

theorem asks_unknown (serving : client.role = .client) (other : request.request ≠ Frame.identityRequest)
    (small : request.payload.length ≤ C) (room : Frame.headerSize ≤ n)
    (refused : ∀ packet draft : Packet C, packet.frame = request → (client.handler packet draft).2 = false) :
    Asks client n request.wire
      [.telling .frameReceived request, .asked request false, .telling .unknownRequest request]
      ⟨request.request, Frame.unknownResponse, []⟩ := by
  refine asks_wire small (Nat.zero_le _) (by rw [Frame.length_wire]; exact room) ?_
  intro draft packet header contents
  have unknown := refused packet draft contents
  have code : packet.header.request ≠ Frame.identityRequest := by rw [header]; exact other
  rw [Profile.react, serving, ← Notice.about_eq header, ← Notice.about_eq header]
  simp only [if_neg code, Profile.serving]
  rcases handled : client.handler packet draft with ⟨packed, _ | _⟩
  · have shows := Reaction.shows_replying_bare packet packed packet.header.request Frame.unknownResponse
    simp only [contents]
    rw [show packet.header.request = request.request by rw [header]; rfl] at shows ⊢
    exact (shows.after _).after [.about .frameReceived packet]
  · rw [handled] at unknown
    cases unknown

theorem asks_damaged (serving : client.role = .client) (small : request.payload.length ≤ C)
    (room : Frame.headerSize ≤ n) (size : bytes.length = request.payload.length)
    (damaged : ¬ Frame.Intact (request.header.bytes ++ bytes)) :
    Asks client n (request.header.bytes ++ bytes) [.telling .badChecksum request]
      ⟨request.request, Frame.damagedResponse, []⟩ := by
  have declared : Frame.declared (request.header.bytes ++ bytes) = bytes.length := by
    rw [size, ← Frame.declared_wire (Frame.small_of_fits small), Frame.wire_eq_header,
      Frame.declared_append (Nat.le_of_eq (Frame.Header.length_bytes _).symm),
      Frame.declared_append (Nat.le_of_eq (Frame.Header.length_bytes _).symm)]
  have opens : Frame.Opens (request.header.bytes ++ bytes) := by
    have start := Frame.opens_wire request
    rw [Frame.wire_eq_header] at start
    exact start
  refine ⟨opens, by rw [declared, List.length_append, Frame.Header.length_bytes], by rw [declared, size]; exact small,
    ?_, Nat.zero_le _, by rw [Frame.length_wire]; exact room⟩
  intro draft packet wire
  have header : packet.header = request.header :=
    Frame.Header.bytes_injective (List.append_inj wire (by simp only [Frame.Header.length_bytes])).1
  rw [if_neg damaged, Profile.react, serving, ← Notice.about_eq header]
  simp only [header]
  exact (Reaction.shows_replying_bare packet draft request.request Frame.damagedResponse).after
    [.about .badChecksum packet]

end

end Duplex

end FramedLink
