import FramedLink.Proofs.Duplex.ExactlyOnce
import FramedLink.Proofs.Endpoint.Draining

/-! How long an exchange takes to come to rest. Main statement: one round more than there are bytes that the client has
yet to read or to write, and then every request has been answered. -/

namespace FramedLink

open Endpoint (Profile)

structure Traffic where
  read : Bytes := []
  written : Bytes := []
  deriving DecidableEq, Repr

def Tapped.traffic {τ : Type} (tapped : Tapped τ) : Traffic :=
  ⟨tapped.read, tapped.written⟩

namespace Duplex

variable {C : Capacity} {n : Nat}

def clientTapped (link : Duplex C C n) (past : Traffic) : Session C (Tapped (Port n)) :=
  { endpoint := link.client, port := ⟨link.wires.port .client, past.read, past.written⟩ }

def actTraffic (client : Profile C) (link : Duplex C C n) (past : Traffic) : Action → Traffic
  | .pollClient => ((link.clientTapped past).poll client).1.port.traffic
  | .flushClient => (link.clientTapped past).flush.1.port.traffic
  | .ask _ _ | .askIdentity | .pollHost | .flushHost => past

def traffic (host client : Profile C) (link : Duplex C C n) (past : Traffic) : List Action → Traffic
  | [] => past
  | action :: actions =>
    (link.act host client action).1.traffic host client (link.actTraffic client past action) actions

/-- The client has read the requests as far as they have come, and written the replies to those it has served. -/
structure Account (client : Profile C) (answer : Frame → Option Frame) (link : Duplex C C n) (requests : List Frame)
    (traffic : Traffic) : Prop where
  settled : ∀ side, (link.endpoint side).Settled
  read : requests.flatMap Frame.wire = traffic.read ++ link.comingTo .client
  served : ∃ served rest, requests = served ++ rest ∧
    link.client.receiver.packet.Awaits (link.comingTo .client) rest ∧
    (served.map (client.replyTo answer)).flatMap Frame.wire = traffic.written ++ link.client.unsent

variable {link start : Duplex C C n} {host me : Profile C} {answer : Frame → Option Frame}
  {requests more : List Frame} {past : Traffic}

theorem AtRest.account (rests : start.AtRest) : Account me answer start [] {} := by
  refine ⟨rests.carrying.settled, ?_, [], [], rfl, rests.carrying.awaits .client, ?_⟩
  · rw [rests.toQuiet.comingTo]
    rfl
  · rw [Endpoint.unsent_of_idle rests.client]
    rfl

section

variable {session next : Session C (Port n)} {calls : List Notice}

theorem Account.hostSends (account : Account me answer (link.withSession .host session) requests past)
    (sends : session.Sends next (more.flatMap Frame.wire) calls) (fits : ∀ frame ∈ more, frame.payload.length ≤ C) :
    Account me answer (link.withSession .host next) (requests ++ more) past := by
  obtain ⟨settled, read, served, rest, split, awaits, written⟩ := account
  have coming : (link.withSession .host next).comingTo .client =
      (link.withSession .host session).comingTo .client ++ more.flatMap Frame.wire := sends.outflow
  refine ⟨?_, ?_, served, rest ++ more, by rw [split, List.append_assoc], ?_, written⟩
  · intro side
    cases side with
    | host => exact sends.settled
    | client => exact settled .client
  · rw [List.flatMap_append, read, coming, List.append_assoc]
  · rw [coming]
    exact awaits.append fits

theorem Account.hostFlush (account : Account me answer (link.withSession .host session) requests past) :
    Account me answer (link.withSession .host session.flush.1) requests past := by
  have sends : session.Sends session.flush.1 (([] : List Frame).flatMap Frame.wire) [] :=
    Session.sends_flush (account.settled .host)
  have flushed := account.hostSends sends (by simp)
  rwa [List.append_nil] at flushed

theorem Account.hostReads (asking : host.role = .host) {byte : UInt8} {port : Port n}
    (account : Account me answer (link.withSession .host session) requests past)
    (found : Channel.read session.port = some (byte, port)) :
    Account me answer (link.withSession .host (({ session with port := port } : Session C (Port n)).accept host byte).1)
      requests past := by
  obtain ⟨settled, read, served⟩ := account
  let next := (({ session with port := port } : Session C (Port n)).accept host byte).1
  obtain ⟨receiver, peer, log, accepted⟩ := Session.accept_of_host asking { session with port := port } byte
  have coming : (link.withSession .host next).comingTo .client = (link.withSession .host session).comingTo .client := by
    rw [show next = _ from accepted]
    exact congrArg (fun ring => Ring.toList ring ++ session.endpoint.unsent) (Port.of_read found).2
  refine ⟨?_, by rw [coming]; exact read, by rw [coming]; exact served⟩
  intro side
  cases side with
  | host =>
    have before := settled .host
    rw [accepted]
    exact ⟨before.contained, before.refused⟩
  | client => exact settled .client

end

section

variable {session next : Session C (Tapped (Port n))} {served rest : List Frame} {calls : List Notice}

theorem account_of_sends (host : link.host.Settled)
    (read : requests.flatMap Frame.wire =
      session.port.read ++ (link.withSession .client session.untapped).comingTo .client)
    (split : requests = served ++ more ++ rest)
    (awaits : session.endpoint.receiver.packet.Awaits
      ((link.withSession .client session.untapped).comingTo .client) rest)
    (written : (served.map (me.replyTo answer)).flatMap Frame.wire = session.port.written ++ session.endpoint.unsent)
    (sends : session.Sends next ((more.map (me.replyTo answer)).flatMap Frame.wire) calls) :
    Account me answer (link.withSession .client next.untapped) requests next.port.traffic := by
  obtain ⟨bytes, took, flow⟩ := sends.flow
  obtain ⟨wrote, same, inner⟩ := Tapped.of_took took
  have coming : (link.withSession .client next.untapped).comingTo .client =
      (link.withSession .client session.untapped).comingTo .client :=
    congrArg (fun ring => Ring.toList ring ++ link.host.unsent) (Port.of_took inner).1
  have receiver : (link.withSession .client next.untapped).client.receiver = session.endpoint.receiver := sends.receiver
  refine ⟨?_, ?_, served ++ more, rest, split, ?_, ?_⟩
  · intro side
    cases side with
    | host => exact host
    | client => exact sends.settled
  · rw [read, coming, Tapped.traffic, same]
  · rw [receiver, coming]
    exact awaits
  · rw [List.map_append, List.flatMap_append, written, List.append_assoc, flow, ← List.append_assoc, Tapped.traffic,
      wrote]
    rfl

theorem Account.clientFlush
    (account : Account me answer (link.withSession .client session.untapped) requests session.port.traffic) :
    Account me answer (link.withSession .client session.flush.1.untapped) requests session.flush.1.port.traffic := by
  obtain ⟨settled, read, served, rest, split, awaits, written⟩ := account
  have sends : session.Sends session.flush.1 ((([] : List Frame).map (me.replyTo answer)).flatMap Frame.wire) [] :=
    Session.sends_flush (settled .client)
  exact account_of_sends (settled .host) read (by rw [List.append_nil]; exact split) awaits written sends

theorem Account.clientReads (serving : me.role = .client) (answers : me.AnswersBy answer) {byte : UInt8}
    {port : Tapped (Port n)} (free : session.canRead me = true)
    (account : Account me answer (link.withSession .client session.untapped) requests session.port.traffic)
    (found : Channel.read session.port = some (byte, port)) :
    let next := (({ session with port := port } : Session C (Tapped (Port n))).accept me byte).1
    Account me answer (link.withSession .client next.untapped) requests next.port.traffic := by
  intro next
  obtain ⟨settled, read, served, rest, split, awaits, written⟩ := account
  have idle : session.endpoint.sending = false := by simpa [Session.canRead, serving] using free
  obtain ⟨heard, same, inner⟩ := Tapped.of_read found
  have before : (link.withSession .client session.untapped).comingTo .client =
      byte :: (port.port.incoming.toList ++ link.host.unsent) :=
    congrArg (· ++ link.host.unsent) (Port.of_read inner).1
  rw [before] at read awaits
  have hears (receiver : Receiver C) : requests.flatMap Frame.wire = (session.taking port receiver).port.read ++
      (link.withSession .client (session.taking port receiver).untapped).comingTo .client := by
    rw [read, show (session.taking port receiver).port.read = _ from heard, List.append_assoc]
    rfl
  have wrote (receiver : Receiver C) : (served.map (me.replyTo answer)).flatMap Frame.wire =
      (session.taking port receiver).port.written ++ (session.taking port receiver).endpoint.unsent :=
    written.trans (congrArg (· ++ session.endpoint.unsent) same.symm)
  have still (receiver : Receiver C) : (session.taking port receiver).endpoint.Settled :=
    ⟨(settled .client).contained, (settled .client).refused⟩
  rcases Session.accept_of_awaits me port awaits with
    ⟨receiver, coming, accepted⟩ | ⟨receiver, packet, request, others, first, wire, coming, accepted⟩
  · have sends : (session.taking port receiver).Sends next
        ((([] : List Frame).map (me.replyTo answer)).flatMap Frame.wire) [] := by
      rw [show next = _ from accepted]
      exact .refl (still receiver)
    exact account_of_sends (settled .host) (hears receiver) (by rw [List.append_nil]; exact split) coming
      (wrote receiver) sends
  · have noted := Session.Sends.noteEvent (still receiver) .frameReceived packet
    have replied := noted.trans (Session.sends_acceptFrame_of_client serving answers noted.settled idle wire)
    have sends : (session.taking port receiver).Sends next (([request].map (me.replyTo answer)).flatMap Frame.wire)
        (Profile.callsFor answer request) := by
      rw [show next = _ from accepted]
      simpa using replied
    exact account_of_sends (settled .host) (hears receiver) (by rw [split, first, List.append_cons]) coming
      (wrote receiver) sends

end

theorem Account.act (asking : host.role = .host) (serving : me.role = .client) (answers : me.AnswersBy answer)
    (account : Account me answer link requests past) (action : Action) :
    Account me answer (link.act host me action).1 (requests ++ (link.act host me action).2)
      (link.actTraffic me past action) := by
  have atHost : Account me answer (link.withSession .host (link.sessionAt .host)) requests past := by
    rw [withSession_sessionAt]
    exact account
  have atClient : Account me answer (link.withSession .client (link.clientTapped past).untapped) requests
      (link.clientTapped past).port.traffic := by
    have same : (link.clientTapped past).untapped = link.sessionAt .client := rfl
    rw [same, withSession_sessionAt]
    exact account
  have asks (request : UInt16) (payload : Bytes) :
      let asked := link.atHost (·.send request payload)
      Account me answer asked.1 (requests ++ takenOn ⟨request, Frame.pendingResponse, payload⟩ asked.2) past := by
    obtain ⟨sends, fits⟩ := sends_takenOn (atHost.settled .host) request payload
    exact atHost.hostSends sends fits
  cases action with
  | ask request payload => exact asks request payload
  | askIdentity => exact asks Frame.identityRequest []
  | pollHost =>
    rw [Duplex.act, atHost_eq, List.append_nil]
    refine Session.poll_induction
      (motive := fun session => Account me answer (link.withSession .host session) requests past) ?_ ?_ atHost
    · intro session kept
      exact kept.hostFlush
    · intro session byte port _ found kept
      exact kept.hostReads asking found
  | flushHost =>
    rw [Duplex.act, atHost_eq, List.append_nil]
    exact atHost.hostFlush
  | pollClient =>
    have polled : ((link.sessionAt .client).poll me).1 = ((link.clientTapped past).poll me).1.untapped :=
      Session.poll_untapped me (link.clientTapped past)
    rw [Duplex.act, atClient_eq, List.append_nil, polled, actTraffic]
    refine Session.poll_induction
      (motive := fun session =>
        Account me answer (link.withSession .client session.untapped) requests session.port.traffic) ?_ ?_ atClient
    · intro session kept
      exact kept.clientFlush
    · intro session byte port free found kept
      exact kept.clientReads serving answers free found
  | flushClient =>
    have flushed : (link.sessionAt .client).flush.1 = (link.clientTapped past).flush.1.untapped :=
      congrArg Prod.fst (Session.flush_untapped (link.clientTapped past))
    rw [Duplex.act, atClient_eq, List.append_nil, flushed, actTraffic]
    exact atClient.clientFlush

theorem Account.run (asking : host.role = .host) (serving : me.role = .client) (answers : me.AnswersBy answer)
    (account : Account me answer link requests past) (actions : List Action) :
    Account me answer (link.run host me actions).1 (requests ++ (link.run host me actions).2)
      (link.traffic host me past actions) := by
  induction actions generalizing link requests past with
  | nil =>
    rw [Duplex.run, List.append_nil]
    exact account
  | cons action actions ih =>
    rw [Duplex.run, ← List.append_assoc]
    exact ih (account.act asking serving answers action)

/-- How many bytes the client has yet to read and to write for the requests. -/
def outstanding (client : Profile C) (answer : Frame → Option Frame) (requests : List Frame) (traffic : Traffic) :
    Nat :=
  ((requests.flatMap Frame.wire).length - traffic.read.length) +
    (((requests.map (client.replyTo answer)).flatMap Frame.wire).length - traffic.written.length)

theorem Account.prefixes (account : Account me answer link requests past) :
    past.read <+: requests.flatMap Frame.wire ∧
      past.written <+: (requests.map (me.replyTo answer)).flatMap Frame.wire := by
  obtain ⟨-, read, served, rest, split, -, written⟩ := account
  constructor
  · rw [read]
    exact List.prefix_append _ _
  · rw [split, List.map_append, List.flatMap_append, written, List.append_assoc]
    exact List.prefix_append _ _

theorem withSession_poll_of_empty (profile : Profile C) (side : Side) (idle : (link.endpoint side).sending = false)
    (empty : (link.wires.port side).incoming.toList = []) :
    link.withSession side ((link.sessionAt side).poll profile).1 = link := by
  have nothing : Channel.read (link.sessionAt side).port = none := Port.read_eq_none_iff.mpr empty
  rw [Session.poll_of_quiet idle nothing, withSession_sessionAt]

theorem Quiet.act_poll (quiet : link.Quiet) :
    (link.act host me .pollHost).1 = link ∧ (link.act host me .pollClient).1 = link :=
  ⟨withSession_poll_of_empty host .host quiet.host quiet.toHost,
    withSession_poll_of_empty me .client quiet.client quiet.toClient⟩

theorem round_eq_act (host me : Profile C) (link : Duplex C C n) :
    (link.round host me).1 = ((link.act host me .pollHost).1.act host me .pollClient).1 := rfl

theorem Quiet.runRounds (quiet : link.Quiet) (rounds : Nat) : (link.runRounds host me rounds).1 = link := by
  induction rounds with
  | zero => rfl
  | succ rounds ih =>
    have round : (link.round host me).1 = link := by
      rw [round_eq_act, quiet.act_poll.1, quiet.act_poll.2]
    rw [Duplex.runRounds, round, ih]

/-- A poll of the client reads or writes something after one of the host, unless nothing is on its way. -/
theorem progress_of_not_quiet (room : 0 < n) (settled : link.client.Settled) (drained : link.wires.toHost.toList = [])
    (full : link.host.sending = true → link.wires.toClient.isFull = true) (busy : ¬ link.Quiet) (past : Traffic) :
    let later := link.actTraffic me past .pollClient
    past.read.length + past.written.length < later.read.length + later.written.length := by
  intro later
  let client := link.clientTapped past
  have held : client.endpoint.refused.isSome = client.endpoint.sending := settled.refused
  obtain ⟨flushed, polled⟩ := Session.extends_poll me held
  have read : past.read.length ≤ later.read.length := (flushed.trans polled).read.length_le
  have written : past.written.length ≤ later.written.length := (flushed.trans polled).written.length_le
  cases sending : link.client.sending with
  | true =>
    -- The host has made room for the byte that the client was refused.
    obtain ⟨byte, kept⟩ := Option.isSome_iff_exists.mp (held.trans sending)
    obtain ⟨record, accepted, taken, inner⟩ := Session.write_tapped client.port byte
    have free : (Channel.write (link.wires.port .client) byte).2 = true := Port.write_of_empty room drained byte
    have certain : accepted = true := (congrArg Prod.snd inner).symm.trans free
    rw [certain] at taken
    have more : past.written.length < later.written.length := Session.written_poll_lt me held sending kept taken
    omega
  | false =>
    rcases found : Channel.read (link.wires.port .client) with _ | ⟨byte, port⟩
    · -- A host that is still sending would have filled the ring.
      have empty : link.wires.toClient.toList = [] := Port.read_eq_none_iff.mp found
      refine absurd ⟨drained, empty, ?_, sending⟩ busy
      by_contra still
      have size := (Ring.isFull_iff _).mp (full (by simpa using still))
      rw [← Ring.length_toList, empty] at size
      exact absurd size.symm (Nat.ne_of_lt room).symm
    · have more : client.port.read.length < (client.call me.steady .poll).1.port.read.length :=
        Session.read_poll_lt sending held (Tapped.read_of_read found)
      rw [Session.call_steady] at more
      have grown : past.read.length < later.read.length := more
      omega

theorem Account.runRounds_quiet (asking : host.role = .host) (serving : me.role = .client)
    (answers : me.AnswersBy answer) (room : 0 < n) (account : Account me answer link requests past) {rounds : Nat}
    (enough : outstanding me answer requests past < rounds) : (link.runRounds host me rounds).1.Quiet := by
  induction rounds generalizing link past with
  | zero => cases enough
  | succ rounds ih =>
    let turned := (link.act host me .pollHost).1
    have between : Account me answer turned requests past := by
      have kept := account.act asking serving answers .pollHost
      rwa [Duplex.act, List.append_nil] at kept
    have after : Account me answer (link.round host me).1 requests (turned.actTraffic me past .pollClient) := by
      have kept := between.act asking serving answers .pollClient
      rwa [Duplex.act, List.append_nil] at kept
    have held : (link.sessionAt .host).endpoint.refused.isSome = (link.sessionAt .host).endpoint.sending :=
      (account.settled .host).refused
    obtain ⟨drained, full⟩ := Session.poll_of_host asking held
    rw [Duplex.runRounds]
    by_cases quiet : turned.Quiet
    · have still : (link.round host me).1 = turned := by rw [round_eq_act, quiet.act_poll.2]
      rw [still, quiet.runRounds]
      exact quiet
    · let later := turned.actTraffic me past .pollClient
      have progress : past.read.length + past.written.length < later.read.length + later.written.length :=
        progress_of_not_quiet room (between.settled .client) drained full quiet past
      obtain ⟨read, written⟩ := after.prefixes
      have unread : later.read.length ≤ _ := read.length_le
      have unwritten : later.written.length ≤ _ := written.length_le
      apply ih after
      change outstanding me answer requests later < rounds
      unfold outstanding at enough ⊢
      omega

theorem Underway.runRounds (asking : host.role = .host) (serving : me.role = .client) (answers : me.AnswersBy answer)
    (underway : Underway me answer start requests link) (rounds : Nat) :
    Underway me answer start requests (link.runRounds host me rounds).1 := by
  induction rounds generalizing link with
  | zero => exact underway
  | succ rounds ih =>
    have turned := underway.act asking serving answers .pollHost
    have polled := turned.act asking serving answers .pollClient
    rw [Duplex.act, Duplex.act, List.append_nil, List.append_nil] at polled
    exact ih polled

theorem Underway.complete (underway : Underway me answer start requests link) (quiet : link.Quiet) :
    link.calls .host = start.calls .host ++ (requests.map (me.replyTo answer)).map .answered := by
  obtain ⟨served, returned, coming, course⟩ := underway
  have arrived (side : Side) : coming side = [] := by
    have awaits := course.carrying.awaits side
    rw [quiet.comingTo] at awaits
    exact awaits.eq_nil
  have split := course.requests
  have replies := course.replies
  rw [arrived, List.append_nil] at split replies
  rw [course.host, split, replies]

/-- However far an exchange has come, one round more than there are bytes of requests that the client has yet to read
and bytes of replies that it has yet to write bring it to rest, and the host has then got one reply to each request. -/
theorem runRounds_drains (asking : host.role = .host) (serving : me.role = .client) (answers : me.AnswersBy answer)
    (room : 0 < n) (rests : start.AtRest) (actions : List Action) :
    let done := start.run host me actions
    let traffic := start.traffic host me {} actions
    let requested := done.2.flatMap Frame.wire
    let owed := (done.2.map (me.replyTo answer)).flatMap Frame.wire
    requested = traffic.read ++ done.1.comingTo .client ∧ traffic.written <+: owed ∧
      ∀ rounds, (requested.length - traffic.read.length) + (owed.length - traffic.written.length) + 1 ≤ rounds →
        let last := (done.1.runRounds host me rounds).1
        last.Quiet ∧ last.calls .host = start.calls .host ++ (done.2.map (me.replyTo answer)).map .answered := by
  intro done traffic requested owed
  have account : Account me answer done.1 done.2 traffic := rests.account.run asking serving answers actions
  have begun : Underway me answer start [] start := ⟨[], [], fun _ => [], rests.carrying, rfl, rfl, by simp, by simp⟩
  have underway : Underway me answer start done.2 done.1 := begun.run asking serving answers actions
  refine ⟨account.read, account.prefixes.2, ?_⟩
  intro rounds enough last
  have quiet : last.Quiet := account.runRounds_quiet asking serving answers room enough
  exact ⟨quiet, (underway.runRounds asking serving answers rounds).complete quiet⟩

private def asker : Profile ⟨2, Capacity.two_lt⟩ where
  role := .host
  identity := ⟨⟨1, 2, 3⟩, 2, Vector.replicate _ 0⟩
  encoding := .text
  handler := fun _ reply => (reply, false)

private def unknowing : Profile ⟨2, Capacity.two_lt⟩ :=
  { asker with role := .client }

private def beginning : List Action :=
  [.ask 7 [9], .ask 8 [], .pollClient, .flushHost, .pollClient]

theorem runRounds_drains_through_narrow_rings :
    asker.role = .host ∧ unknowing.role = .client ∧ (unknowing.AnswersBy fun _ => none) ∧
      (idle : Duplex ⟨2, by decide⟩ ⟨2, by decide⟩ 1).AtRest ∧
      ((idle : Duplex _ _ 1).traffic asker unknowing {} beginning).read.length = 2 ∧
      (((idle : Duplex _ _ 1).run asker unknowing beginning).1.runRounds asker unknowing 20).1.Quiet ∧
      (((idle : Duplex _ _ 1).run asker unknowing beginning).1.runRounds asker unknowing 20).1.calls .host =
        [.answered ⟨7, Frame.unknownResponse, []⟩] := by
  have asks : asker.role = .host := rfl
  have serves : unknowing.role = .client := rfl
  have answers : unknowing.AnswersBy fun _ => none := fun _ _ _ _ => rfl
  have rests : (idle : Duplex ⟨2, by decide⟩ ⟨2, by decide⟩ 1).AtRest := atRest_idle
  obtain ⟨-, -, drained⟩ := runRounds_drains asks serves answers (Nat.zero_lt_one) rests beginning
  obtain ⟨quiet, calls⟩ := drained 20 (by decide +kernel)
  exact ⟨asks, serves, answers, rests, by decide +kernel, quiet, calls.trans (by decide +kernel)⟩

end Duplex

end FramedLink
