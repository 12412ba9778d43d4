import Mathlib.Algebra.GroupWithZero.Nat
import FramedLink.Endpoint.Watch
import FramedLink.Event.Counters
import FramedLink.Proofs.Endpoint.Setup

/-! The counters of an endpoint against what it was asked and what it told. Main statement: a client has sent, but for
the one on its way, a frame for each that it counts as received or damaged, and a host one for each request that it took
on; and the polls of a host tell of just the frames that it counts as received and that its handler was shown. -/

namespace FramedLink

open Endpoint (Profile Reaction Service)

namespace Counters

/-- The count of one kind. Kinds that are not assigned are not counted. -/
def total (counters : Counters) : Event.Kind → Nat
  | .frameReceived => counters.framesReceived
  | .frameSent => counters.framesSent
  | .badChecksum => counters.badChecksums
  | .resync => counters.resyncs
  | .overflow => counters.overflows
  | .badLength => counters.badLengths
  | .unknownRequest => counters.unknownRequests
  | .replyTooLarge => counters.repliesTooLarge
  | .reserved _ => 0

theorem total_count (counters : Counters) (counted : Event.Kind) {kind : Event.Kind}
    (assigned : ∀ code, kind ≠ .reserved code) :
    (counters.count counted).total kind = counters.total kind + if counted == kind then 1 else 0 := by
  cases kind with
  | reserved code => exact absurd rfl (assigned code)
  | _ => cases counted <;> rfl

theorem total_ofEvents (events : List Event) {kind : Event.Kind} (assigned : ∀ code, kind ≠ .reserved code) :
    (ofEvents events).total kind = events.countP fun event => event.kind == kind := by
  have counted (start : Counters) : (events.foldl (fun counters event => counters.count event.kind) start).total kind =
      start.total kind + events.countP fun event => event.kind == kind := by
    induction events generalizing start with
    | nil => rfl
    | cons event events ih =>
      rw [List.foldl_cons, ih, total_count _ _ assigned, List.countP_cons]
      omega
  have empty : ({} : Counters).total kind = 0 := by cases kind <;> rfl
  rw [ofEvents, counted, empty, Nat.zero_add]

end Counters

namespace Notice

def tells (kind : Event.Kind) : Notice → Bool
  | event reported => reported.kind == kind
  | _ => false

def isUnknown : Notice → Bool
  | asked _ known => !known
  | _ => false

def isAnswered : Notice → Bool
  | answered _ => true
  | _ => false

theorem countP_events (log : List Notice) (kind : Event.Kind) :
    ((events log).countP fun event => event.kind == kind) = log.countP (tells kind) := by
  rw [events, List.countP_filterMap]
  apply List.countP_congr
  intro notice _
  cases notice <;> rfl

theorem total_events (log : List Notice) (kind : Event.Kind) (assigned : ∀ code, kind ≠ .reserved code) :
    (Counters.ofEvents (events log)).total kind = log.countP (tells kind) :=
  (Counters.total_ofEvents _ assigned).trans (countP_events log kind)

end Notice

namespace Endpoint

variable {C : Capacity} {me : Profile C}

theorem Reaction.countP_after (reaction : Reaction C) (earlier : List Notice) (p : Notice → Bool) :
    (reaction.after earlier).notices.countP p = earlier.countP p + reaction.notices.countP p :=
  List.countP_append

theorem Reaction.tally_replying (request : Packet C) (composed : Packet C × Bool) :
    (Reaction.replying request composed).reply.isSome ∧
      ∀ p : Notice → Bool, p (.about .replyTooLarge request) = false →
        (Reaction.replying request composed).notices.countP p = 0 := by
  rcases composed with ⟨packet, _ | _⟩
  · refine ⟨rfl, ?_⟩
    intro p other
    rw [Reaction.replying, List.countP_singleton, other]
    rfl
  · exact ⟨rfl, fun _ _ => rfl⟩

theorem Profile.tally_serving (me : Profile C) (draft request : Packet C) :
    let served := me.serving draft request
    served.reply.isSome ∧
      (∀ kind, kind ≠ .unknownRequest → kind ≠ .replyTooLarge → served.notices.countP (Notice.tells kind) = 0) ∧
      served.notices.countP (Notice.tells .unknownRequest) = served.notices.countP Notice.isUnknown := by
  simp only [Profile.serving]
  rcases me.handler request draft with ⟨packet, _ | _⟩
  · obtain ⟨replies, others⟩ :=
      Reaction.tally_replying request (packet.compose ⟨request.header.request, Frame.unknownResponse, []⟩)
    simp only [Reaction.countP_after]
    refine ⟨replies, ?_, ?_⟩
    · intro kind other small
      rw [others (Notice.tells kind) (beq_eq_false_iff_ne.mpr small.symm)]
      simp [Notice.tells, Notice.about, other.symm]
    · rw [others _ rfl, others _ rfl]
      rfl
  · exact ⟨rfl, fun _ _ _ => rfl, rfl⟩

theorem Profile.tally_react_of_client (client : me.role = .client) (draft : Packet C) (found : Finding C) :
    let reaction := me.react draft found
    reaction.notices.countP (Notice.tells .frameReceived) + reaction.notices.countP (Notice.tells .badChecksum) =
        reaction.reply.toList.length ∧
      reaction.notices.countP (Notice.tells .unknownRequest) = reaction.notices.countP Notice.isUnknown := by
  intro reaction
  cases found with
  | gap packet => exact ⟨rfl, rfl⟩
  | frame packet =>
    have replied : ∃ answer : Reaction C, reaction = answer.after [.about .frameReceived packet] ∧
        answer.reply.isSome ∧
        (∀ kind, kind ≠ .unknownRequest → kind ≠ .replyTooLarge → answer.notices.countP (Notice.tells kind) = 0) ∧
        answer.notices.countP (Notice.tells .unknownRequest) = answer.notices.countP Notice.isUnknown := by
      refine ⟨if packet.header.request = Frame.identityRequest then
          Reaction.replying packet (draft.composeIdentity me.identity me.encoding)
        else me.serving draft packet, ?_, ?_⟩
      · simp only [reaction, Profile.react, client]
      · split
        · obtain ⟨replies, others⟩ := Reaction.tally_replying packet (draft.composeIdentity me.identity me.encoding)
          refine ⟨replies, ?_, by rw [others _ rfl, others _ rfl]⟩
          intro kind _ small
          exact others (Notice.tells kind) (beq_eq_false_iff_ne.mpr small.symm)
        · exact me.tally_serving draft packet
    obtain ⟨answer, same, replies, none, unknown⟩ := replied
    obtain ⟨reply, begun⟩ := Option.isSome_iff_exists.mp replies
    rw [same]
    simp only [Reaction.countP_after, none .frameReceived (by decide) (by decide),
      none .badChecksum (by decide) (by decide), unknown]
    rw [Reaction.after, begun]
    exact ⟨rfl, rfl⟩
  | fault status packet =>
    cases status with
    | badChecksum =>
      have same : reaction = (Reaction.replying packet (draft.compose
          ⟨packet.header.request, Frame.damagedResponse, []⟩)).after [.about .badChecksum packet] := by
        simp only [reaction, Profile.react, client]
      obtain ⟨replies, others⟩ :=
        Reaction.tally_replying packet (draft.compose ⟨packet.header.request, Frame.damagedResponse, []⟩)
      obtain ⟨reply, begun⟩ := Option.isSome_iff_exists.mp replies
      rw [same]
      simp only [Reaction.countP_after]
      rw [others _ rfl, others _ rfl, others _ rfl, others _ rfl, Reaction.after, begun]
      exact ⟨rfl, rfl⟩
    | _ => exact ⟨rfl, rfl⟩

end Endpoint

inductive Call.Answer where
  | asked (result : Except Endpoint.Fault Unit)
  | flushed (complete : Bool)
  | polled (frames : Nat)

namespace Call.Answer

def isTakenOn : Answer → Bool
  | asked (.ok _) => true
  | _ => false

def frames : Answer → Nat
  | polled frames => frames
  | _ => 0

end Call.Answer

namespace Occasion

variable {C : Capacity}

def isRequest : Occasion C → Bool
  | request _ => true
  | _ => false

def isFrame : Occasion C → Bool
  | finding _ (.frame _) _ => true
  | _ => false

end Occasion

namespace Session

variable {C : Capacity} {τ : Type} [Channel τ] {me : Service C} {before after session : Session C τ}
  {occasions : List (Occasion C)}

/-- How many frames are completed by reading byte by byte, each with the handler as it is by then. -/
def completes (me : Service C) (session : Session C τ) : Nat → Nat
  | 0 => 0
  | budget + 1 => (session.readUpTo (me.profile session.callCount) 1).2 + (session.readNext me).1.completes me budget

def answer (me : Service C) (session : Session C τ) : Call → Call.Answer
  | .send request payload => .asked (session.send request payload).2
  | .askIdentity => .asked session.sendIdentityRequest.2
  | .flush => .flushed session.flush.2
  | .poll => .polled (session.flush.1.completes me (Channel.backlog session.flush.1.port))

theorem readUpTo_succ_snd (me : Profile C) (session : Session C τ) (budget : Nat) :
    (session.readUpTo me (budget + 1)).2 =
      (session.readUpTo me 1).2 + ((session.readUpTo me 1).1.readUpTo me budget).2 := by
  by_cases free : session.canRead me = true
  · rcases found : Channel.read session.port with _ | ⟨byte, port⟩
    · cases budget <;> simp [readUpTo, free, found]
    · simp only [readUpTo, if_pos free, found, Nat.add_zero]
  · cases budget <;> simp [readUpTo, free]

/-- With a handler that answers alike each time, a poll tells how many frames the endpoint completed. -/
theorem answer_steady (me : Profile C) (session : Session C τ) :
    session.answer me.steady .poll = .polled (session.poll me).2 := by
  have completed (session : Session C τ) (budget : Nat) :
      session.completes me.steady budget = (session.readUpTo me budget).2 := by
    induction budget generalizing session with
    | zero => rfl
    | succ budget ih =>
      rw [completes, ih, readUpTo_succ_snd me session budget]
      rfl
  rw [answer, completed, poll, readAll]

theorem accept_snd_eq_countP (me : Profile C) (session : Session C τ) (byte : UInt8) :
    (session.accept me byte).2 = (session.faces byte).countP Occasion.isFrame := by
  unfold accept faces
  simp only
  rcases session.endpoint.receiver.take byte with ⟨receiver, _ | found⟩
  · rfl
  · cases found <;> rfl

omit [Channel τ] in
theorem countP_isRequest_faces (session : Session C τ) (byte : UInt8) :
    (session.faces byte).countP Occasion.isRequest = 0 := by
  unfold faces
  cases (session.endpoint.receiver.take byte).2 <;> rfl

theorem tally_readEach (me : Service C) (session : Session C τ) (budget : Nat) :
    (session.readEach me budget).2.countP Occasion.isFrame = session.completes me budget ∧
      (session.readEach me budget).2.countP Occasion.isRequest = 0 := by
  induction budget generalizing session with
  | zero => exact ⟨rfl, rfl⟩
  | succ budget ih =>
    obtain ⟨frames, requests⟩ := ih (session.readNext me).1
    have first : (session.readNext me).2.countP Occasion.isFrame =
        (session.readUpTo (me.profile session.callCount) 1).2 ∧
        (session.readNext me).2.countP Occasion.isRequest = 0 := by
      rw [readNext, readUpTo]
      split
      · rcases Channel.read session.port with _ | ⟨byte, port⟩
        · exact ⟨rfl, rfl⟩
        · simp only [readUpTo]
          exact ⟨(accept_snd_eq_countP _ _ byte).symm, countP_isRequest_faces _ byte⟩
      · exact ⟨rfl, rfl⟩
    rw [readEach, completes, List.countP_append, List.countP_append, first.1, first.2, frames, requests]
    exact ⟨rfl, rfl⟩

theorem tally_call (me : Service C) (session : Session C τ) (call : Call) :
    (session.call me call).2.countP Occasion.isRequest = (if (session.answer me call).isTakenOn then 1 else 0) ∧
      (session.call me call).2.countP Occasion.isFrame = (session.answer me call).frames := by
  have asked (request : UInt16) (payload : Bytes) :
      (session.asks request payload).countP Occasion.isRequest =
          (if (Call.Answer.asked (session.send request payload).2).isTakenOn then 1 else 0) ∧
        (session.asks request payload).countP Occasion.isFrame = 0 := by
    rw [asks]
    cases (session.send request payload).2 <;> exact ⟨rfl, rfl⟩
  cases call with
  | send request payload => exact asked request payload
  | askIdentity => exact asked Frame.identityRequest []
  | flush => exact ⟨rfl, rfl⟩
  | poll => exact (tally_readEach me _ _).symm

/-- As many frames are out or on their way as were begun. -/
structure Balances (me : Service C) (session : Session C τ) (occasions : List (Occasion C)) : Prop where
  held : session.endpoint.refused.isSome = session.endpoint.sending
  begun : (occasions.filterMap (Occasion.begun me)).length =
    session.log.countP (Notice.tells .frameSent) + session.endpoint.sending.toNat

theorem Writes.tally (writes : before.Writes after) :
    after.log.countP (Notice.tells .frameSent) + after.endpoint.sending.toNat =
      before.log.countP (Notice.tells .frameSent) + before.endpoint.sending.toNat := by
  have still := writes.was_sending
  rw [writes.log, List.countP_append]
  cases earlier : before.endpoint.sending <;> cases later : after.endpoint.sending
  · rfl
  · rw [earlier, later] at still
    cases still rfl
  · rfl
  · rfl

theorem Balances.writes (balances : Balances me before occasions) (writes : before.Writes after) :
    Balances me after occasions :=
  ⟨writes.held, by rw [writes.tally]; exact balances.begun⟩

theorem Balances.dispatch (balances : Balances me session occasions) (idle : session.endpoint.sending = false)
    {packet : Packet C} {occasion : Occasion C} (begins : occasion.begun me = some packet) :
    Balances me (session.dispatch packet) (occasions ++ [occasion]) := by
  have writes := writes_dispatch session packet
  have begun := balances.begun
  rw [idle] at begun
  refine ⟨writes.held, ?_⟩
  rw [writes.tally, List.filterMap_append, List.length_append, begun, List.filterMap_cons, begins]
  rfl

theorem Balances.read {byte : UInt8} {port : τ} (idle : me.role = .client → session.endpoint.sending = false)
    (balances : Balances me session occasions) :
    let moved : Session C τ := { session with port := port }
    Balances me (moved.accept (me.profile session.callCount) byte).1 (occasions ++ moved.faces byte) := by
  intro moved
  let now := me.profile session.callCount
  rcases accept_cases now moved byte with ⟨receiver, -, faces, accepted⟩ | ⟨receiver, found, -, faces, accepted⟩
  · rw [faces, accepted, List.append_nil]
    exact ⟨balances.held, balances.begun⟩
  · let occasion : Occasion C := .finding moved.callCount found moved.endpoint.outgoing
    let reaction := now.react moved.endpoint.outgoing found
    let noted : Session C τ := (moved.finding now receiver found).noteAll reaction.notices
    have unsent : reaction.notices.countP (Notice.tells .frameSent) = 0 := by
      have none := sent_react now moved.endpoint.outgoing found
      rw [Notice.sent, List.filter_eq_nil_iff] at none
      rw [List.countP_eq_zero]
      exact none
    have kept : Balances me noted occasions := by
      refine ⟨balances.held, ?_⟩
      show _ = (session.log ++ reaction.notices).countP _ + session.endpoint.sending.toNat
      rw [List.countP_append, unsent]
      exact balances.begun
    have begins : occasion.begun me = reaction.reply := rfl
    rw [faces, accepted]
    change Balances me ((moved.finding now receiver found).perform reaction) (occasions ++ [occasion])
    cases replied : reaction.reply with
    | none =>
      have silent : (moved.finding now receiver found).perform reaction = noted := by rw [perform, replied]
      rw [silent]
      refine ⟨kept.held, ?_⟩
      rw [List.filterMap_append, List.filterMap_cons, begins, replied, List.filterMap_nil, List.append_nil]
      exact kept.begun
    | some packet =>
      have client : me.role = .client := by
        cases role : me.role with
        | client => rfl
        | host =>
          have host : now.role = .host := role
          have silent := (react_of_host host host moved.endpoint.outgoing moved.endpoint.outgoing found).1
          rw [show reaction.reply = none from silent] at replied
          cases replied
      have answered : (moved.finding now receiver found).perform reaction = noted.dispatch packet := by
        rw [perform, replied]
      rw [answered]
      exact kept.dispatch (idle client) (begins.trans replied)

theorem Balances.send (balances : Balances me session occasions) (request : UInt16) (payload : Bytes) :
    Balances me (session.send request payload).1 (occasions ++ session.asks request payload) := by
  rw [asks, Session.send]
  cases sending : session.endpoint.sending with
  | true =>
    simp only [if_true, List.append_nil]
    exact balances
  | false =>
    rcases session.endpoint.outgoing.composeRequest request payload with ⟨packet, _ | _⟩
    · simp only [Bool.false_eq_true, if_false, List.append_nil]
      exact ⟨balances.held, balances.begun⟩
    · simp only [Bool.false_eq_true, if_false]
      exact balances.dispatch sending rfl

theorem Balances.call (balances : Balances me session occasions) (call : Call) :
    Balances me (session.call me call).1 (occasions ++ (session.call me call).2) := by
  refine call_induction ?_ ?_ ?_ balances
  · intro session occasions balances
    exact balances.writes (writes_flush balances.held)
  · intro session occasions byte port idle _ balances
    exact balances.read idle
  · intro _ session occasions request payload balances
    exact balances.send request payload

section

variable {session : Session C (Tapped τ)}

def answers (me : Service C) (session : Session C (Tapped τ)) : List (Move τ) → List Call.Answer
  | [] => []
  | .call made :: moves => session.answer me made :: (session.call me made).1.answers me moves
  | .elapse port :: moves => ({ session with port.port := port } : Session C (Tapped τ)).answers me moves

theorem tally_run (me : Service C) (session : Session C (Tapped τ)) (moves : List (Move τ)) :
    (session.run me moves).2.countP Occasion.isRequest = (session.answers me moves).countP Call.Answer.isTakenOn ∧
      (session.run me moves).2.countP Occasion.isFrame = ((session.answers me moves).map Call.Answer.frames).sum := by
  induction moves generalizing session with
  | nil => exact ⟨rfl, rfl⟩
  | cons move moves ih =>
    cases move with
    | call made =>
      obtain ⟨requests, frames⟩ := tally_call me session made
      obtain ⟨later, more⟩ := ih (session.call me made).1
      rw [Session.run, answers, List.countP_append, List.countP_append, List.countP_cons, List.map_cons, List.sum_cons]
      exact ⟨by rw [Session.move, requests, later, Nat.add_comm], by rw [Session.move, frames, more]⟩
    | elapse port =>
      rw [Session.run, answers, Session.move, List.nil_append]
      exact ih _

theorem countP_answers_of_unasked (me : Service C) (session : Session C (Tapped τ)) {moves : List (Move τ)}
    (unasked : ∀ move ∈ moves, move.isRequest = false) :
    (session.answers me moves).countP Call.Answer.isTakenOn = 0 := by
  induction moves generalizing session with
  | nil => rfl
  | cons move moves ih =>
    have first := unasked move List.mem_cons_self
    have others : ∀ move ∈ moves, move.isRequest = false :=
      fun other member => unasked other (List.mem_cons_of_mem _ member)
    cases move with
    | elapse port => exact ih _ others
    | call made =>
      rw [answers, List.countP_cons_of_neg, ih _ others]
      cases made with
      | send _ _ | askIdentity => cases first
      | flush | poll => simp [answer, Call.Answer.isTakenOn]

theorem Balances.run (balances : Balances me session occasions) (moves : List (Move τ)) :
    Balances me (session.run me moves).1 (occasions ++ (session.run me moves).2) := by
  induction moves generalizing session occasions with
  | nil =>
    rw [Session.run, List.append_nil]
    exact balances
  | cons move moves ih =>
    rw [Session.run, ← List.append_assoc]
    cases move with
    | call made => exact ih (balances.call made)
    | elapse port =>
      rw [Session.move, List.append_nil]
      exact ih ⟨balances.held, balances.begun⟩

omit [Channel τ] in
theorem balances_opening (port : τ) : Balances me (opening port : Session C (Tapped τ)) [] :=
  ⟨rfl, rfl⟩

omit [Channel τ] in
theorem Hears.countP_log (hears : Hears me session occasions) {p : Notice → Bool}
    (unsent : ∀ notice, p notice = true → notice.isSent = false) :
    session.log.countP p = (occasions.flatMap (Occasion.notices me)).countP p := by
  rw [← hears.received, Notice.received, List.countP_filter]
  apply List.countP_congr
  intro notice _
  cases told : p notice
  · simp
  · simp [unsent notice told]

omit [Channel τ] in
theorem Hears.total (hears : Hears me session occasions) (kind : Event.Kind)
    (assigned : ∀ code, kind ≠ .reserved code) (other : kind ≠ .frameSent) :
    (Counters.ofEvents (Notice.events session.log)).total kind =
      (occasions.flatMap (Occasion.notices me)).countP (Notice.tells kind) := by
  rw [Notice.total_events session.log kind assigned]
  apply hears.countP_log
  intro notice told
  cases notice with
  | event reported =>
    have same : reported.kind = kind := beq_iff_eq.mp told
    simpa [Notice.isSent, same] using other
  | asked _ _ | answered _ => cases told

end

end Session

namespace Occasion

variable {C : Capacity} {me : Service C}

theorem length_begun_cons (me : Service C) (occasion : Occasion C) (occasions : List (Occasion C)) :
    ((occasion :: occasions).filterMap (begun me)).length =
      (occasion.begun me).toList.length + (occasions.filterMap (begun me)).length := by
  rw [List.filterMap_cons]
  cases occasion.begun me with
  | none => exact (Nat.zero_add _).symm
  | some packet => exact Nat.add_comm _ 1

theorem tally_of_client (client : me.role = .client) (occasion : Occasion C) :
    let noted := occasion.notices me
    (occasion.begun me).toList.length = (if occasion.isRequest then 1 else 0) +
        (noted.countP (Notice.tells .frameReceived) + noted.countP (Notice.tells .badChecksum)) ∧
      noted.countP (Notice.tells .unknownRequest) = noted.countP Notice.isUnknown := by
  cases occasion with
  | request packet => exact ⟨rfl, rfl⟩
  | finding calls found draft =>
    have role : (me.profile calls).role = .client := client
    obtain ⟨replied, known⟩ := Profile.tally_react_of_client role draft found
    exact ⟨replied.symm.trans (Nat.zero_add _).symm, known⟩

theorem tally_of_host (host : me.role = .host) (occasion : Occasion C) :
    let noted := occasion.notices me
    (occasion.begun me).toList.length = (if occasion.isRequest then 1 else 0) ∧
      noted.countP (Notice.tells .frameReceived) = (if occasion.isFrame then 1 else 0) ∧
      noted.countP Notice.isAnswered = (if occasion.isFrame then 1 else 0) ∧
      noted.countP (Notice.tells .unknownRequest) = 0 ∧ noted.countP (Notice.tells .replyTooLarge) = 0 := by
  cases occasion with
  | request packet => exact ⟨rfl, rfl, rfl, rfl, rfl⟩
  | finding calls found draft =>
    have role : (me.profile calls).role = .host := host
    cases found with
    | gap packet => exact ⟨rfl, rfl, rfl, rfl, rfl⟩
    | frame packet =>
      simp only [begun, notices, Profile.react, role]
      exact ⟨rfl, rfl, rfl, rfl, rfl⟩
    | fault status packet =>
      cases status with
      | badChecksum =>
        simp only [begun, notices, Profile.react, role]
        exact ⟨rfl, rfl, rfl, rfl, rfl⟩
      | _ => exact ⟨rfl, rfl, rfl, rfl, rfl⟩

theorem tally_all_of_client (client : me.role = .client) (occasions : List (Occasion C)) :
    let noted := occasions.flatMap (notices me)
    (occasions.filterMap (begun me)).length = occasions.countP isRequest +
        (noted.countP (Notice.tells .frameReceived) + noted.countP (Notice.tells .badChecksum)) ∧
      noted.countP (Notice.tells .unknownRequest) = noted.countP Notice.isUnknown := by
  induction occasions with
  | nil => exact ⟨rfl, rfl⟩
  | cons occasion occasions ih =>
    obtain ⟨begins, unknown⟩ := tally_of_client client occasion
    simp only [List.flatMap_cons, List.countP_append, List.countP_cons, length_begun_cons, begins, unknown, ih.1, ih.2,
      and_true]
    omega

theorem tally_all_of_host (host : me.role = .host) (occasions : List (Occasion C)) :
    let noted := occasions.flatMap (notices me)
    (occasions.filterMap (begun me)).length = occasions.countP isRequest ∧
      noted.countP (Notice.tells .frameReceived) = occasions.countP isFrame ∧
      noted.countP Notice.isAnswered = occasions.countP isFrame ∧
      noted.countP (Notice.tells .unknownRequest) = 0 ∧ noted.countP (Notice.tells .replyTooLarge) = 0 := by
  induction occasions with
  | nil => exact ⟨rfl, rfl, rfl, rfl, rfl⟩
  | cons occasion occasions ih =>
    obtain ⟨begins, received, shown, unknown, large⟩ := tally_of_host host occasion
    obtain ⟨begun, frames, answered, never, fits⟩ := ih
    simp only [List.flatMap_cons, List.countP_append, List.countP_cons, length_begun_cons, begins, received, shown,
      unknown, large, begun, frames, answered, never, fits, Nat.add_comm, and_self]

end Occasion

namespace Session

variable {C : Capacity} {τ : Type} [Channel τ]

/-- Whatever the channel brings and refuses, the counters of an endpoint balance. -/
theorem run_balances (me : Service C) (port : τ) (moves : List (Move τ)) :
    let opened : Session C (Tapped τ) := opening port
    let done := (opened.run me moves).1
    let counters := Counters.ofEvents (Notice.events done.log)
    let answers := opened.answers me moves
    let underway := done.endpoint.sending.toNat
    (me.role = .client →
      ((∀ move ∈ moves, move.isRequest = false) →
        counters.framesReceived + counters.badChecksums = counters.framesSent + underway) ∧
      counters.unknownRequests = done.log.countP Notice.isUnknown) ∧
    (me.role = .host →
      answers.countP Call.Answer.isTakenOn = counters.framesSent + underway ∧
      counters.framesReceived = (answers.map Call.Answer.frames).sum ∧
      counters.framesReceived = done.log.countP Notice.isAnswered ∧
      counters.unknownRequests = 0 ∧ counters.repliesTooLarge = 0) := by
  intro opened done counters answers underway
  let occasions := (opened.run me moves).2
  have hears : Hears me done occasions := (heeds_opening port).toHears.run rfl moves
  have balances : Balances me done occasions := (balances_opening port).run moves
  have begun := balances.begun
  obtain ⟨requests, frames⟩ := tally_run me opened moves
  have sent : counters.framesSent = done.log.countP (Notice.tells .frameSent) :=
    Notice.total_events done.log .frameSent nofun
  have received : counters.framesReceived = _ := hears.total .frameReceived nofun nofun
  have unknown : counters.unknownRequests = _ := hears.total .unknownRequest nofun nofun
  constructor
  · intro client
    obtain ⟨begins, shown⟩ := Occasion.tally_all_of_client client occasions
    constructor
    · intro unasked
      have damaged : counters.badChecksums = _ := hears.total .badChecksum nofun nofun
      rw [countP_answers_of_unasked me opened unasked] at requests
      rw [received, damaged, sent, ← begun, begins, requests, Nat.zero_add]
    · rw [unknown, shown]
      refine (hears.countP_log ?_).symm
      intro notice told
      cases notice with
      | event reported => cases told
      | asked _ _ | answered _ => rfl
  · intro host
    obtain ⟨begins, noted, shown, unasked, fits⟩ := Occasion.tally_all_of_host host occasions
    have large : counters.repliesTooLarge = _ := hears.total .replyTooLarge nofun nofun
    have answered : done.log.countP Notice.isAnswered = _ := hears.countP_log fun notice told => by
      cases notice with
      | event reported => cases told
      | asked _ _ | answered _ => rfl
    refine ⟨?_, ?_, ?_, unknown.trans unasked, large.trans fits⟩
    · rw [← requests, sent, ← begun, begins]
    · rw [received, noted, ← frames]
    · rw [received, noted, answered, shown]

private def perplexed (role : Role) : Service ⟨2, Capacity.two_lt⟩ where
  role := role
  identity := ⟨⟨1, 2, 3⟩, 2, Vector.replicate _ 0⟩
  encoding := .text
  handler := fun _ _ reply => (reply, false)

private def bringing (bytes : Bytes) : Move (Port 7) :=
  .elapse ⟨(Ring.empty.pushAll bytes).1, .empty⟩

private def frameAndDamage : List (Move (Port 7)) :=
  let whole := Frame.wire ⟨7, 0, []⟩
  let damaged := whole.set 2 0
  [bringing (whole.take 7), .call .poll, bringing (whole.drop 7), .call .poll, bringing (damaged.take 7), .call .poll,
    bringing (damaged.drop 7), .call .poll]

private def requestAndResponse : List (Move (Port 7)) :=
  let response := Frame.wire ⟨8, Frame.successResponse, []⟩
  [.call (.send 8 []), .call .askIdentity, bringing (response.take 7), .call .poll, bringing (response.drop 7),
    .call .poll, .call .askIdentity]

private def beginningOf (role : Role) (moves : List (Move (Port 7))) : Session ⟨2, Capacity.two_lt⟩ (Tapped (Port 7)) :=
  ((opening ⟨.empty, .empty⟩).run (perplexed role) moves).1

theorem run_balances_of_perplexed :
    (∀ move ∈ frameAndDamage, move.isRequest = false) ∧
      (let done := beginningOf .client frameAndDamage
        let counters := Counters.ofEvents (Notice.events done.log)
        done.endpoint.sending = true ∧ counters.framesReceived + counters.badChecksums = counters.framesSent + 1 ∧
          counters.unknownRequests = 1) ∧
      (let done := beginningOf .host requestAndResponse
        let counters := Counters.ofEvents (Notice.events done.log)
        done.endpoint.sending = true ∧ counters.framesSent + 1 = 2 ∧ counters.framesReceived = 1) := by
  have unasked : ∀ move ∈ frameAndDamage, move.isRequest = false := by decide
  have client := (run_balances (perplexed .client) (⟨.empty, .empty⟩ : Port 7) frameAndDamage).1 rfl
  have host := (run_balances (perplexed .host) (⟨.empty, .empty⟩ : Port 7) requestAndResponse).2 rfl
  have replying : (beginningOf .client frameAndDamage).endpoint.sending = true := by decide +kernel
  have asking : (beginningOf .host requestAndResponse).endpoint.sending = true := by decide +kernel
  refine ⟨unasked, ⟨replying, ?_, ?_⟩, asking, ?_, ?_⟩
  · have balanced := client.1 unasked
    rw [← beginningOf, replying] at balanced
    exact balanced
  · have unknown := client.2
    rw [← beginningOf] at unknown
    rw [unknown]
    decide +kernel
  · have taken := host.1
    rw [← beginningOf, asking] at taken
    rw [← Bool.toNat_true, ← taken]
    decide +kernel
  · have heard := host.2.1
    rw [← beginningOf] at heard
    rw [heard]
    decide +kernel

end Session

end FramedLink
