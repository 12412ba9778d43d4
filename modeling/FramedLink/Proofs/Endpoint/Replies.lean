import FramedLink.Duplex.Wires
import FramedLink.Proofs.Endpoint.Hearing
import FramedLink.Proofs.Packet.Composition
import FramedLink.Proofs.Receiver.Account

/-! How a client answers what it finds in an arbitrary stream. Main statement: what it has sent, once all is out, is one
frame for each frame it found, whole or damaged, in their order, and nothing for anything else. -/

namespace FramedLink

open Endpoint (Profile Reaction Service)

namespace Packet

variable {C : Capacity}

/-- The packet has nothing of a frame still to send, and its declared length is one that it has room for. -/
structure AtRest (packet : Packet C) : Prop where
  contained : packet.Contained
  cursor : packet.cursor = 0

theorem atRest_fresh : (fresh : Packet C).AtRest :=
  ⟨Nat.zero_le _, rfl⟩

theorem Carries.rest {packet : Packet C} {frame : Frame} (carries : packet.Carries frame) :
    packet.rest = frame.wire := by
  rw [rest_eq_drop carries.contained, carries.cursor, List.drop_zero, carries.wire]

theorem flatMap_rest_of_carries {packets : List (Packet C)} {frames : List Frame}
    (carry : List.Forall₂ Carries packets frames) : packets.flatMap rest = frames.flatMap Frame.wire := by
  induction carry with
  | nil => rfl
  | cons carries _ ih => rw [List.flatMap_cons, List.flatMap_cons, carries.rest, ih]

end Packet

namespace Endpoint.Service

variable {C : Capacity}

/-- Of a request that arrived whole the handler packs the reply that it wants sent. -/
def Packs (me : Service C) : Prop :=
  ∀ (calls : Nat) (request reply packet : Packet C), request.wire = request.frame.wire → reply.AtRest →
    me.handler calls request reply = (packet, true) → ∃ frame, packet.Carries frame

/-- The frames that a client owes for a finding, and what it notes. -/
inductive Answers (me : Service C) : Occasion C → List Frame × List Notice → Prop
  | gap (calls : Nat) (packet draft : Packet C) :
    Answers me (.finding calls (.gap packet) draft) ([], [.about .resync packet])
  | badLength (calls : Nat) (packet draft : Packet C) :
    Answers me (.finding calls (.fault .badLength packet) draft) ([], [.about .badLength packet])
  | damaged (calls : Nat) (packet draft : Packet C) :
    Answers me (.finding calls (.fault .badChecksum packet) draft)
      ([⟨packet.frame.request, Frame.damagedResponse, []⟩], [.about .badChecksum packet])
  | identity {calls : Nat} {packet draft : Packet C} (asked : packet.frame.request = Frame.identityRequest)
    (fits : me.encoding.size ≤ C) :
    Answers me (.finding calls (.frame packet) draft)
      ([⟨Frame.identityRequest, Frame.successResponse, me.identity.encode me.encoding⟩], [.about .frameReceived packet])
  | identityTooLarge {calls : Nat} {packet draft : Packet C} (asked : packet.frame.request = Frame.identityRequest)
    (large : C < me.encoding.size) :
    Answers me (.finding calls (.frame packet) draft)
      ([⟨Frame.identityRequest, Frame.failureResponse, []⟩],
        [.about .frameReceived packet, .about .replyTooLarge packet])
  | known {calls : Nat} {packet draft reply : Packet C} {frame : Frame}
    (other : packet.frame.request ≠ Frame.identityRequest)
    (handled : me.handler calls packet draft = (reply, true)) (carries : reply.Carries frame) :
    Answers me (.finding calls (.frame packet) draft)
      ([frame], [.about .frameReceived packet, .asked packet.frame true])
  | unknown {calls : Nat} {packet draft : Packet C} (other : packet.frame.request ≠ Frame.identityRequest)
    (handled : (me.handler calls packet draft).2 = false) :
    Answers me (.finding calls (.frame packet) draft)
      ([⟨packet.frame.request, Frame.unknownResponse, []⟩],
        [.about .frameReceived packet, .asked packet.frame false, .about .unknownRequest packet])

end Endpoint.Service

namespace Endpoint.Reaction

variable {C : Capacity}

structure Shows (reaction : Reaction C) (frames : List Frame) (notices : List Notice) : Prop where
  notices : reaction.notices = notices
  carry : List.Forall₂ Packet.Carries reaction.reply.toList frames

theorem Shows.after {reaction : Reaction C} {frames : List Frame} {notices : List Notice}
    (shows : reaction.Shows frames notices) (earlier : List Notice) :
    (reaction.after earlier).Shows frames (earlier ++ notices) :=
  ⟨congrArg _ shows.notices, shows.carry⟩

theorem Shows.atRest {reaction : Reaction C} {frames : List Frame} {notices : List Notice} {draft : Packet C}
    (shows : reaction.Shows frames notices) (rests : draft.AtRest) :
    ((reaction.reply.map Packet.spent).getD draft).AtRest := by
  have carry := shows.carry
  cases replied : reaction.reply with
  | none => exact rests
  | some packet =>
    rw [replied] at carry
    obtain _ | ⟨carries, -⟩ := carry
    exact ⟨carries.contained, rfl⟩

theorem shows_of_carries {packet : Packet C} {frame : Frame} (carries : packet.Carries frame) (notices : List Notice) :
    Shows ⟨notices, some packet⟩ [frame] notices :=
  ⟨rfl, .cons carries .nil⟩

theorem shows_replying (request draft : Packet C) {frame : Frame} (fits : frame.payload.length ≤ C) :
    (replying request (draft.compose frame)).Shows [frame] [] := by
  have told := Packet.compose_snd draft frame
  have carries := Packet.carries_compose draft fits
  rw [decide_eq_true fits] at told
  rw [show draft.compose frame = ((draft.compose frame).1, true) from Prod.ext rfl told, replying]
  exact shows_of_carries carries []

theorem shows_replying_bare (request draft : Packet C) (code response : UInt16) :
    (replying request (draft.compose ⟨code, response, []⟩)).Shows [⟨code, response, []⟩] [] :=
  shows_replying request draft (Nat.zero_le _)

theorem shows_replying_tooLarge (request draft : Packet C) {frame : Frame} (large : C < frame.payload.length) :
    (replying request (draft.compose frame)).Shows [⟨request.header.request, Frame.failureResponse, []⟩]
      [.about .replyTooLarge request] := by
  have told := Packet.compose_snd draft frame
  have bare : (⟨request.header.request, Frame.failureResponse, []⟩ : Frame).payload.length ≤ C := Nat.zero_le _
  rw [decide_eq_false (Nat.not_le_of_lt large)] at told
  rw [show draft.compose frame = ((draft.compose frame).1, false) from Prod.ext rfl told, replying]
  exact shows_of_carries (Packet.carries_compose _ bare) _

end Endpoint.Reaction

namespace Endpoint.Service

variable {C : Capacity} {me : Service C}

theorem answers_identity (me : Service C) (calls : Nat) {packet : Packet C} (draft : Packet C)
    (asked : packet.frame.request = Frame.identityRequest) :
    ∃ frames notices, me.Answers (.finding calls (.frame packet) draft) (frames, notices) ∧
      ((Reaction.replying packet (draft.composeIdentity me.identity me.encoding)).after
        [.about .frameReceived packet]).Shows frames notices := by
  let frame : Frame := ⟨Frame.identityRequest, Frame.successResponse, me.identity.encode me.encoding⟩
  have size : frame.payload.length = me.encoding.size := Identity.length_encode ..
  by_cases fits : me.encoding.size ≤ C
  · have shows := Reaction.shows_replying packet draft (size ▸ fits)
    exact ⟨_, _, .identity asked fits, shows.after _⟩
  · have large : C < me.encoding.size := Nat.lt_of_not_le fits
    have shows := Reaction.shows_replying_tooLarge packet draft (size ▸ large)
    rw [show packet.header.request = _ from asked] at shows
    exact ⟨_, _, .identityTooLarge asked large, shows.after _⟩

theorem Packs.answers_request (packs : me.Packs) (calls : Nat) {packet draft : Packet C}
    (whole : packet.wire = packet.frame.wire) (rests : draft.AtRest)
    (other : packet.frame.request ≠ Frame.identityRequest) :
    ∃ frames notices, me.Answers (.finding calls (.frame packet) draft) (frames, notices) ∧
      (((me.profile calls).serving draft packet).after [.about .frameReceived packet]).Shows frames notices := by
  unfold Profile.serving
  rcases handled : (me.profile calls).handler packet draft with ⟨reply, _ | _⟩
  · have shows := Reaction.shows_replying_bare packet reply packet.frame.request Frame.unknownResponse
    have unknown : (me.handler calls packet draft).2 = false := congrArg Prod.snd handled
    exact ⟨_, _, .unknown other unknown, (shows.after _).after _⟩
  · obtain ⟨frame, carries⟩ := packs calls packet draft reply whole rests handled
    have shows := Reaction.shows_of_carries carries [.asked packet.frame true]
    exact ⟨_, _, .known other handled carries, shows.after _⟩

theorem Packs.answers (packs : me.Packs) (client : me.role = .client) (calls : Nat) {draft : Packet C}
    (rests : draft.AtRest) {found : Finding C} (regular : found.Regular) :
    ∃ frames notices, me.Answers (.finding calls found draft) (frames, notices) ∧
      ((me.profile calls).react draft found).Shows frames notices := by
  have role : (me.profile calls).role = .client := client
  cases found with
  | gap packet => exact ⟨_, _, .gap calls packet draft, rfl, .nil⟩
  | frame packet =>
    rw [Profile.react, role]
    by_cases asked : packet.header.request = Frame.identityRequest
    · simp only [if_pos asked]
      exact me.answers_identity calls draft asked
    · simp only [if_neg asked]
      exact packs.answers_request calls regular rests asked
  | fault status packet =>
    rcases regular with rfl | rfl
    · have shows := Reaction.shows_replying_bare packet draft packet.frame.request Frame.damagedResponse
      rw [Profile.react, role]
      exact ⟨_, _, .damaged calls packet draft, shows.after _⟩
    · exact ⟨_, _, .badLength calls packet draft, rfl, .nil⟩

theorem Packs.answers_meeting (packs : me.Packs) (client : me.role = .client) {ready : Nat × Packet C}
    (rests : ready.2.AtRest) {findings : List (Finding C)} (regular : ∀ found ∈ findings, found.Regular) :
    ∃ answers, List.Forall₂ me.Answers (me.meeting ready findings) answers ∧
      (me.meeting ready findings).flatMap (Occasion.notices me) = answers.flatMap Prod.snd ∧
      ((me.meeting ready findings).filterMap (Occasion.begun me)).flatMap Packet.rest =
        (answers.flatMap Prod.fst).flatMap Frame.wire := by
  induction findings generalizing ready with
  | nil => exact ⟨[], .nil, rfl, rfl⟩
  | cons found findings ih =>
    have others : ∀ other ∈ findings, other.Regular := fun other member => regular other (List.mem_cons_of_mem _ member)
    obtain ⟨frames, notices, answered, shows⟩ :=
      packs.answers client ready.1 rests (regular found List.mem_cons_self)
    have still : (me.drafted ready found).2.AtRest := shows.atRest rests
    obtain ⟨answers, all, noted, sent⟩ := ih still others
    refine ⟨(frames, notices) :: answers, .cons answered all, ?_, ?_⟩
    · rw [meeting, List.flatMap_cons, List.flatMap_cons, noted, ← shows.notices]
      rfl
    · have first := me.rest_begun ready.1 found ready.2
      rw [Packet.flatMap_rest_of_carries shows.carry] at first
      rw [meeting, ← List.singleton_append, List.filterMap_append, List.flatMap_append, first, sent,
        List.flatMap_cons, List.flatMap_append]

end Endpoint.Service

namespace Session

variable {C : Capacity} {τ : Type} [Channel τ] {me : Service C}

/-- A client that is told to send nothing has found what there is in the bytes that it has read, and when nothing is on
its way it has sent the frames that it owes for each finding, and no others. -/
theorem run_answers_each (client : me.role = .client) (packs : me.Packs) (port : τ) {moves : List (Move τ)}
    (unasked : ∀ move ∈ moves, move.isRequest = false) :
    let done := (opening port : Session C (Tapped τ)).run me moves
    done.1.endpoint.sending = false →
      done.2.filterMap Occasion.finding? = (Receiver.takeAll {} done.1.port.read).2 ∧
        ∃ answers, List.Forall₂ me.Answers done.2 answers ∧
          done.1.port.written = (answers.flatMap Prod.fst).flatMap Frame.wire ∧
          Notice.received done.1.log = answers.flatMap Prod.snd := by
  intro done idle
  have heeds : Heeds me done.1 done.2 := (heeds_opening port).run client unasked
  have outflow := heeds.outflow
  have fresh : (default : Receiver C).Expects := Receiver.expects_of_holds Packet.Ready.fresh.holds
  have rests : ((0, .fresh) : Nat × Packet C).2.AtRest := Packet.atRest_fresh
  obtain ⟨answers, all, noted, sent⟩ := packs.answers_meeting client rests fun _ told => fresh.regular told
  rw [Endpoint.pending_of_idle idle, List.append_nil] at outflow
  refine ⟨heeds.findings, answers, ?_, ?_, ?_⟩
  · rw [heeds.heeding]
    exact all
  · rw [outflow]
    exact sent
  · rw [heeds.received, heeds.heeding]
    exact noted

private def once : Service ⟨2, Capacity.two_lt⟩ where
  role := .client
  identity := ⟨⟨1, 2, 3⟩, 2, Vector.replicate _ 0⟩
  encoding := .text
  handler := fun calls request reply =>
    let written := reply.composeReply request.header.request request.payload
    if calls = 0 then written else (written.1, false)

private theorem packs_once : once.Packs := by
  intro calls request reply packet _ _ handled
  simp only [once] at handled
  split at handled
  · have told := Packet.compose_snd reply ⟨request.header.request, Frame.successResponse, request.payload⟩
    rw [show reply.compose _ = _ from handled, eq_comm, decide_eq_true_iff] at told
    have carries := Packet.carries_compose reply told
    rw [show reply.compose _ = _ from handled] at carries
    exact ⟨_, carries⟩
  · cases handled

private def mixed : Bytes :=
  Frame.wire ⟨7, 0, [1]⟩ ++ [0, 0] ++ (Frame.wire ⟨7, 0, []⟩).set 2 0 ++ [0x55, 0x55, 0, 0, 0, 0, 0, 0, 3, 0] ++
    Frame.wire ⟨1, 0, []⟩ ++ Frame.wire ⟨7, 0, [1]⟩

private def reading : List (Move (Port 63)) :=
  [.elapse ⟨(Ring.empty.pushAll mixed).1, .empty⟩, .call .poll, .call .flush]

private def replying : Session ⟨2, Capacity.two_lt⟩ (Tapped (Port 63)) ×
    List (Occasion ⟨2, Capacity.two_lt⟩) :=
  (opening ⟨.empty, .empty⟩).run once reading

theorem run_answers_each_of_mixed :
    once.role = .client ∧ once.Packs ∧ (∀ move ∈ reading, move.isRequest = false) ∧
      replying.1.endpoint.sending = false ∧ replying.1.port.read = mixed ∧
      ∃ answers, List.Forall₂ once.Answers replying.2 answers ∧
        (answers.flatMap Prod.fst).flatMap Frame.wire =
          [⟨7, Frame.successResponse, [1]⟩, ⟨7, Frame.damagedResponse, []⟩, ⟨1, Frame.failureResponse, []⟩,
            ⟨7, Frame.unknownResponse, []⟩].flatMap Frame.wire := by
  have unasked : ∀ move ∈ reading, move.isRequest = false := by simp [reading, Move.isRequest, Call.isRequest]
  have idle : replying.1.endpoint.sending = false := by decide +kernel
  have read : replying.1.port.read = mixed := by decide +kernel
  have ran : (opening ⟨.empty, .empty⟩).run once reading = replying := by rw [replying]
  have answered := run_answers_each rfl packs_once (⟨.empty, .empty⟩ : Port 63) unasked
  rw [ran] at answered
  obtain ⟨-, answers, all, written, -⟩ := answered idle
  refine ⟨rfl, packs_once, unasked, idle, read, answers, all, ?_⟩
  rw [← written]
  decide +kernel

end Session

end FramedLink
