import FramedLink.Proofs.Duplex.Exchange

/-! Requests over a link, in any order of steps and however little room the rings have. Main statement: every
request that the host takes on is served once, and its one reply is returned once, both in order. -/

namespace FramedLink

open Endpoint (Profile)

namespace Duplex

variable {C : Capacity} {n : Nat}

inductive Action where
  | ask (request : UInt16) (payload : Bytes)
  | askIdentity
  | pollHost
  | flushHost
  | pollClient
  | flushClient
  deriving DecidableEq, Repr

def takenOn (request : Frame) : Except Endpoint.Fault Unit → List Frame
  | .ok _ => [request]
  | .error _ => []

def act (host client : Profile C) (link : Duplex C C n) : Action → Duplex C C n × List Frame
  | .ask request payload =>
    let asked := link.atHost (·.send request payload)
    (asked.1, takenOn ⟨request, Frame.pendingResponse, payload⟩ asked.2)
  | .askIdentity =>
    let asked := link.atHost (·.sendIdentityRequest)
    (asked.1, takenOn ⟨Frame.identityRequest, Frame.pendingResponse, []⟩ asked.2)
  | .pollHost => ((link.atHost (·.poll host)).1, [])
  | .flushHost => ((link.atHost (·.flush)).1, [])
  | .pollClient => ((link.atClient (·.poll client)).1, [])
  | .flushClient => ((link.atClient (·.flush)).1, [])

def run (host client : Profile C) (link : Duplex C C n) : List Action → Duplex C C n × List Frame
  | [] => (link, [])
  | action :: actions =>
    let first := link.act host client action
    let rest := first.1.run host client actions
    (rest.1, first.2 ++ rest.2)

structure Quiet (link : Duplex C C n) : Prop where
  toHost : link.wires.toHost.toList = []
  toClient : link.wires.toClient.toList = []
  host : link.host.sending = false
  client : link.client.sending = false

structure AtRest (link : Duplex C C n) : Prop extends link.Quiet where
  hostRefused : link.host.refused = none
  clientRefused : link.client.refused = none
  hostReceiver : link.host.receiver.packet.Holds []
  clientReceiver : link.client.receiver.packet.Holds []

theorem atRest_idle : (idle : Duplex C C n).AtRest :=
  ⟨⟨rfl, rfl, rfl, rfl⟩, rfl, rfl, Packet.Ready.fresh.holds, Packet.Ready.fresh.holds⟩

variable {link start : Duplex C C n} {host me : Profile C} {answer : Frame → Option Frame} {requests : List Frame}

theorem Quiet.comingTo (quiet : link.Quiet) (side : Side) : link.comingTo side = [] := by
  cases side with
  | host => exact List.append_eq_nil_iff.mpr ⟨quiet.toHost, Endpoint.unsent_of_idle quiet.client⟩
  | client => exact List.append_eq_nil_iff.mpr ⟨quiet.toClient, Endpoint.unsent_of_idle quiet.host⟩

theorem AtRest.carrying (rests : start.AtRest) : start.Carrying fun _ => [] := by
  refine ⟨?_, ?_⟩
  · intro side
    cases side with
    | host => exact ⟨by simp [endpoint, rests.host], by simp [endpoint, rests.host, rests.hostRefused]⟩
    | client => exact ⟨by simp [endpoint, rests.client], by simp [endpoint, rests.client, rests.clientRefused]⟩
  · intro side
    rw [rests.toQuiet.comingTo]
    cases side with
    | host => exact rests.hostReceiver.awaits
    | client => exact rests.clientReceiver.awaits

theorem sends_takenOn {session : Session C (Port n)} (settled : session.endpoint.Settled) (request : UInt16)
    (payload : Bytes) :
    let asked := session.send request payload
    let taken := takenOn ⟨request, Frame.pendingResponse, payload⟩ asked.2
    session.Sends asked.1 (taken.flatMap Frame.wire) [] ∧ ∀ frame ∈ taken, frame.payload.length ≤ C := by
  rcases Session.sends_send settled request payload with ⟨-, fits, answered, sends⟩ | ⟨_, answered, sends⟩
  · simp only [answered, takenOn, List.flatMap_singleton, List.mem_singleton, forall_eq]
    exact ⟨sends, fits⟩
  · simp only [answered, takenOn]
    exact ⟨sends, by simp⟩

theorem Underway.asks (underway : Underway me answer start requests link) (request : UInt16) (payload : Bytes) :
    let asked := link.atHost (·.send request payload)
    Underway me answer start (requests ++ takenOn ⟨request, Frame.pendingResponse, payload⟩ asked.2) asked.1 := by
  rw [← withSession_sessionAt link .host] at underway
  obtain ⟨sends, fits⟩ := sends_takenOn underway.settled request payload
  exact underway.hostSends sends fits

theorem Underway.act (asking : host.role = .host) (serving : me.role = .client) (answers : me.AnswersBy answer)
    (underway : Underway me answer start requests link) (action : Action) :
    Underway me answer start (requests ++ (link.act host me action).2) (link.act host me action).1 := by
  have atSide (side : Side) : Underway me answer start requests (link.withSession side (link.sessionAt side)) := by
    rw [withSession_sessionAt]
    exact underway
  cases action with
  | ask request payload => exact underway.asks request payload
  | askIdentity => exact underway.asks Frame.identityRequest []
  | pollHost =>
    rw [Duplex.act, atHost_eq, List.append_nil]
    refine Session.poll_induction
      (motive := fun session => Underway me answer start requests (link.withSession .host session)) ?_ ?_ (atSide .host)
    · intro session held
      exact held.flush
    · intro session byte port _ found held
      exact held.hostReads asking found
  | flushHost =>
    rw [Duplex.act, atHost_eq, List.append_nil]
    exact (atSide .host).flush
  | pollClient =>
    rw [Duplex.act, atClient_eq, List.append_nil]
    refine Session.poll_induction
      (motive := fun session => Underway me answer start requests (link.withSession .client session)) ?_ ?_
      (atSide .client)
    · intro session held
      exact held.flush
    · intro session byte port free found held
      exact held.clientReads serving answers free found
  | flushClient =>
    rw [Duplex.act, atClient_eq, List.append_nil]
    exact (atSide .client).flush

theorem Underway.run (asking : host.role = .host) (serving : me.role = .client) (answers : me.AnswersBy answer)
    (underway : Underway me answer start requests link) (actions : List Action) :
    Underway me answer start (requests ++ (link.run host me actions).2) (link.run host me actions).1 := by
  induction actions generalizing link requests with
  | nil =>
    rw [Duplex.run, List.append_nil]
    exact underway
  | cons action actions ih =>
    rw [Duplex.run, ← List.append_assoc]
    exact ih (underway.act asking serving answers action)

/-- Whatever the two sides do, the client serves the requests that the host took on one after the other, each
once, and the host gets their replies likewise; once nothing is on its way, that is all of them. -/
theorem run_exactly_once (asking : host.role = .host) (serving : me.role = .client) (answers : me.AnswersBy answer)
    (rests : start.AtRest) (actions : List Action) :
    let done := start.run host me actions
    ∃ served returned : List Frame,
      done.1.calls .client = start.calls .client ++ served.flatMap (Profile.callsFor answer) ∧
        done.1.calls .host = start.calls .host ++ returned.map .answered ∧
        served <+: done.2 ∧ returned <+: done.2.map (me.replyTo answer) ∧
        (done.1.Quiet → served = done.2 ∧ returned = done.2.map (me.replyTo answer)) := by
  have begun : Underway me answer start [] start := ⟨[], [], fun _ => [], rests.carrying, rfl, rfl, by simp, by simp⟩
  obtain ⟨served, returned, coming, course⟩ := begun.run asking serving answers actions
  have requests := course.requests
  rw [List.nil_append] at requests
  refine ⟨served, returned, course.client, course.host, ⟨coming .client, requests.symm⟩, ?_, ?_⟩
  · rw [requests, List.map_append, course.replies, List.append_assoc]
    exact List.prefix_append _ _
  · intro quiet
    have arrived (side : Side) : coming side = [] := by
      have awaits := course.carrying.awaits side
      rw [quiet.comingTo] at awaits
      exact awaits.eq_nil
    have replies := course.replies
    rw [arrived, List.append_nil] at requests replies
    exact ⟨requests.symm, by rw [requests, replies]⟩

private def asking : Profile ⟨2, by decide⟩ where
  role := .host
  identity := ⟨⟨1, 2, 3⟩, 2, Vector.replicate _ 0⟩
  encoding := .text
  handler := fun _ reply => (reply, false)

private def echoing : Profile ⟨2, by decide⟩ where
  role := .client
  identity := ⟨⟨1, 2, 3⟩, 2, Vector.replicate _ 0⟩
  encoding := .text
  handler := fun request reply =>
    if request.header.request = 7 then reply.composeReply 7 request.payload else (reply, false)

private def echo (frame : Frame) : Option Frame :=
  if frame.request = 7 then some ⟨7, Frame.successResponse, frame.payload⟩ else none

private theorem answersBy_echo : echoing.AnswersBy echo := by
  intro request reply frame wire
  obtain ⟨header, contents⟩ := Packet.parts_of_wire_eq wire
  have code : request.header.request = frame.request := congrArg Frame.request contents
  have payload : request.payload = frame.payload := congrArg Frame.payload contents
  by_cases known : frame.request = 7
  · have fits : frame.payload.length ≤ 2 := by
      rw [← payload, Packet.payload, Vector.length_toList]
      exact Nat.min_le_right _ _
    have carries := Packet.carries_compose reply
      (show (⟨7, Frame.successResponse, frame.payload⟩ : Frame).payload.length ≤ (⟨2, by decide⟩ : Capacity) from fits)
    have composed := Packet.compose_snd reply ⟨7, Frame.successResponse, frame.payload⟩
    simp only [echo, if_pos known, echoing, code, payload, Packet.composeReply]
    exact ⟨_, Prod.ext rfl (composed.trans (decide_eq_true fits)), carries⟩
  · simp [echo, known, echoing, code]

private def script : List Action :=
  let turns := (List.replicate 4 [.pollClient, .flushClient, .pollHost]).flatten
  [.ask 7 [1, 2], .ask 8 [9]] ++ turns ++ [.askIdentity] ++ turns ++ [.ask 8 []] ++ turns

theorem run_exactly_once_three_replies :
    asking.role = .host ∧ echoing.role = .client ∧ echoing.AnswersBy echo ∧
      (idle : Duplex ⟨2, by decide⟩ ⟨2, by decide⟩ 7).AtRest ∧
      ((idle : Duplex _ _ 7).run asking echoing script).2 = [⟨7, 0, [1, 2]⟩, ⟨1, 0, []⟩, ⟨8, 0, []⟩] ∧
      ((idle : Duplex _ _ 7).run asking echoing script).1.calls .host =
        [.answered ⟨7, Frame.successResponse, [1, 2]⟩, .answered ⟨1, Frame.failureResponse, []⟩,
          .answered ⟨8, Frame.unknownResponse, []⟩] := by
  have asks : asking.role = .host := rfl
  have serves : echoing.role = .client := rfl
  have rests : (idle : Duplex ⟨2, by decide⟩ ⟨2, by decide⟩ 7).AtRest := atRest_idle
  obtain ⟨served, returned, -, calls, -, -, complete⟩ := run_exactly_once asks serves answersBy_echo rests script
  have final : ((idle : Duplex _ _ 7).run asking echoing script).2 = [⟨7, 0, [1, 2]⟩, ⟨1, 0, []⟩, ⟨8, 0, []⟩] ∧
      ((idle : Duplex _ _ 7).run asking echoing script).1.wires.toHost.toList = [] ∧
      ((idle : Duplex _ _ 7).run asking echoing script).1.wires.toClient.toList = [] ∧
      ((idle : Duplex _ _ 7).run asking echoing script).1.host.sending = false ∧
      ((idle : Duplex _ _ 7).run asking echoing script).1.client.sending = false := by
    decide +kernel
  obtain ⟨requests, toHost, toClient, host, client⟩ := final
  refine ⟨asks, serves, answersBy_echo, rests, requests, ?_⟩
  rw [calls, (complete ⟨toHost, toClient, host, client⟩).2, requests]
  decide +kernel

end Duplex

end FramedLink
