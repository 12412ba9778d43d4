import FramedLink.Demo
import FramedLink.Proofs.Duplex.Promptness
import FramedLink.Proofs.Identity.Forms

/-! What the two sides of the demonstration say. Main statement: whatever the client is called and however its identity
travels, the host has an answer to each of its four requests before it goes on, and both sides note always the same but
for the identity. -/

namespace FramedLink.Demo

open Endpoint (Profile)
open Duplex (Asks answering)

def asking (request : UInt16) : Frame :=
  ⟨request, Frame.pendingResponse, []⟩

def undamaged : Frame :=
  ⟨dataRequest, Frame.successResponse, [0xDE, 0xAD, 0xBE, 0xEF]⟩

def introduction (client : Profile capacity) : Frame :=
  ⟨Frame.identityRequest, Frame.successResponse, client.identity.encode client.encoding⟩

def delivery : Frame :=
  ⟨dataRequest, Frame.successResponse, sample⟩

def ignorance : Frame :=
  ⟨strangeRequest, Frame.unknownResponse, []⟩

def complaint : Frame :=
  ⟨dataRequest, Frame.damagedResponse, []⟩

def introducing (client : Profile capacity) : List (Side × Notice) :=
  (.host, .telling .frameSent (asking Frame.identityRequest)) ::
    answering [.telling .frameReceived (asking Frame.identityRequest)] (introduction client)

def conversing : List (Side × Notice) :=
  (.host, .telling .frameSent (asking dataRequest)) ::
      answering [.telling .frameReceived (asking dataRequest), .asked (asking dataRequest) true] delivery ++
    (.host, .telling .frameSent (asking strangeRequest)) ::
      answering [.telling .frameReceived (asking strangeRequest), .asked (asking strangeRequest) false,
        .telling .unknownRequest (asking strangeRequest)] ignorance ++
    answering [.telling .badChecksum undamaged] complaint

variable {host client : Profile capacity} {link : Link} {log : List (Side × Notice)} {peer : Option Identity}
  {notices : List Notice} {reply : Frame}

theorem size_le_capacity (encoding : Identity.Encoding) : encoding.size ≤ capacity := by
  cases encoding <;> decide

theorem asks_introduction (serving : client.role = .client) :
    Asks client Wires.standardRoom (asking Frame.identityRequest).wire
      [.telling .frameReceived (asking Frame.identityRequest)] (introduction client) := by
  have fits := size_le_capacity client.encoding
  exact Duplex.asks_identity serving rfl (Nat.zero_le _) fits
    (Nat.le_trans (Nat.add_le_add_left fits _) (by decide))

theorem asks_delivery (serving : client.role = .client) (handler : client.handler = serveData) :
    Asks client Wires.standardRoom (asking dataRequest).wire
      [.telling .frameReceived (asking dataRequest), .asked (asking dataRequest) true] delivery := by
  have fits : delivery.payload.length ≤ capacity := by decide
  refine Duplex.asks_known serving (by decide) (Nat.zero_le _) (by rw [Frame.length_wire]; decide) fits ?_
  intro packet draft contents
  have code : packet.header.request = dataRequest := congrArg Frame.request contents
  refine ⟨(draft.compose delivery).1, ?_, Packet.carries_compose draft fits⟩
  rw [handler, serveData, if_pos code, code]
  exact Prod.ext rfl ((Packet.compose_snd draft delivery).trans (decide_eq_true fits))

theorem asks_ignorance (serving : client.role = .client) (handler : client.handler = serveData) :
    Asks client Wires.standardRoom (asking strangeRequest).wire
      [.telling .frameReceived (asking strangeRequest), .asked (asking strangeRequest) false,
        .telling .unknownRequest (asking strangeRequest)] ignorance := by
  refine Duplex.asks_unknown serving (by decide) (Nat.zero_le _) (by decide) ?_
  intro packet draft contents
  have code : packet.header.request ≠ dataRequest := by
    rw [show packet.header.request = strangeRequest from congrArg Frame.request contents]
    decide
  rw [handler, serveData, if_neg code]

theorem damage_undamaged : damage undamaged.wire = undamaged.header.bytes ++ [0xDE, 0xAD, 0xBE, 0xEE] := by
  decide +kernel

theorem asks_complaint (serving : client.role = .client) :
    Asks client Wires.standardRoom (damage undamaged.wire) [.telling .badChecksum undamaged] complaint := by
  rw [damage_undamaged]
  exact Duplex.asks_damaged serving (by decide) (by decide) rfl (by decide +kernel)

def Reaches (step : Except Link Link) (scene : Duplex.Scene) : Prop :=
  ∃ link : Link, step = .ok link ∧ link.Stands scene

theorem reaches_exchange (asks : host.role = .host) {request : UInt16}
    (answers : Asks client Wires.standardRoom (asking request).wire notices reply)
    (stands : link.Stands { log := log, peer := peer }) :
    Reaches (exchange host client request link)
      { log := log ++ (.host, .telling .frameSent (asking request)) :: answering notices reply
        peer := Notice.learned peer (.answered reply) } := by
  have small : Frame.headerSize ≤ Wires.standardRoom := by decide
  obtain ⟨sent, taken⟩ := stands.send request [] (Nat.zero_le _) (by rw [Frame.length_wire]; exact small)
  -- Of the eight rounds two are enough.
  have answered := sent.runRounds asks answers 6
  rw [List.append_assoc] at answered
  refine ⟨_, ?_, answered⟩
  unfold exchange
  split
  · rename_i next done
    rw [done]
    rfl
  · rename_i left fault refused
    rw [refused] at taken
    cases taken

theorem reaches_damagedExchange (asks : host.role = .host) (serving : client.role = .client)
    (stands : link.Stands { log := log, peer := peer }) :
    Reaches (damagedExchange host client link)
      { log := log ++ answering [.telling .badChecksum undamaged] complaint
        peer := Notice.learned peer (.answered complaint) } := by
  let packet : Packet capacity := {}
  have fits : undamaged.payload.length ≤ capacity := by decide
  have composed : packet.composeReply dataRequest [0xDE, 0xAD, 0xBE, 0xEF] = ((packet.compose undamaged).1, true) :=
    Prod.ext rfl ((Packet.compose_snd packet undamaged).trans (decide_eq_true fits))
  have wire := (Packet.carries_compose packet fits).wire
  have room : (damage undamaged.wire).length ≤ Wires.standardRoom := by decide
  obtain ⟨written, count⟩ := stands.inject room
  refine ⟨_, ?_, written.runRounds asks (asks_complaint serving) 6⟩
  unfold damagedExchange
  rw [composed]
  simp only [wire, count, if_true]
  rfl

theorem reaches_identityExchange (asks : host.role = .host) (serving : client.role = .client) :
    Reaches (identityExchange host client) { log := introducing client, peer := some client.identity } := by
  have told : Notice.learned none (.answered (introduction client)) = some client.identity := by
    have understood := Identity.ofPayload?_encode client.identity client.encoding
    rw [Notice.learned, if_pos ⟨rfl, rfl⟩, introduction, understood]
    rfl
  have introduced := reaches_exchange asks (asks_introduction serving) Duplex.stands_idle
  rw [told] at introduced
  exact introduced

private theorem learned_of_other {response : Frame} (other : response.request ≠ Frame.identityRequest)
    (peer : Option Identity) : Notice.learned peer (.answered response) = peer :=
  if_neg fun told => other told.1

theorem reaches_laterExchanges (asks : host.role = .host) (serving : client.role = .client)
    (handler : client.handler = serveData) (stands : link.Stands { log := log, peer := peer }) :
    Reaches (laterExchanges host client link) { log := conversing, peer := peer } := by
  have forgetful : Duplex.Stands { link with log := [] } { peer := peer } := { stands with log := rfl }
  obtain ⟨known, first, knows⟩ := reaches_exchange asks (asks_delivery serving handler) forgetful
  obtain ⟨strange, second, wonders⟩ := reaches_exchange asks (asks_ignorance serving handler) knows
  obtain ⟨finished, third, ends⟩ := reaches_damagedExchange asks serving wonders
  rw [learned_of_other (by decide : complaint.request ≠ _), learned_of_other (by decide : ignorance.request ≠ _),
    learned_of_other (by decide : delivery.request ≠ _)] at ends
  refine ⟨finished, ?_, ends⟩
  unfold laterExchanges
  simp only [first, second, third, bind, Except.bind]

end FramedLink.Demo
