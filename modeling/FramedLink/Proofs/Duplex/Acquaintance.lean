import FramedLink.Proofs.Duplex.Drainage
import FramedLink.Proofs.Endpoint.Knowledge
import FramedLink.Proofs.Endpoint.Setup

/-! A host that asks a client for its identity and for nothing else. Main statement: just those settings are accepted
with which this works, and once nothing is on its way the host knows the identity that the settings gave. -/

namespace FramedLink

open Endpoint (Profile)

variable {C : Capacity} {n : Nat}

namespace Endpoint.Profile

def mute (me : Profile C) : Profile C :=
  { me with handler := fun _ reply => (reply, false) }

theorem answersBy_mute (me : Profile C) : me.mute.AnswersBy fun _ => none :=
  fun _ _ _ _ => rfl

theorem replyTo_mute {me : Profile C} (fits : me.encoding.size ≤ C) {request : Frame}
    (identity : request.request = Frame.identityRequest) :
    me.mute.replyTo (fun _ => none) request =
      ⟨Frame.identityRequest, Frame.successResponse, me.identity.encode me.encoding⟩ := by
  have small : me.mute.encoding.size ≤ C := fits
  rw [replyTo, if_pos identity, if_pos small, identity]
  rfl

end Endpoint.Profile

namespace Session

variable {τ : Type} [Channel τ] {me : Profile C} {session : Session C τ}

theorem accept_mute (client : me.role = .client) {byte : UInt8}
    (identity : ∀ receiver packet, session.endpoint.receiver.take byte = (receiver, some (.frame packet)) →
      packet.header.request = Frame.identityRequest) :
    session.accept me byte = session.accept me.mute byte := by
  unfold accept
  rcases taken : session.endpoint.receiver.take byte with ⟨receiver, _ | found⟩
  · rfl
  · cases found with
    | gap packet => rfl
    | frame packet =>
      have asked := identity receiver packet taken
      have mute : me.mute.role = .client := client
      simp only [acceptFrame, client, mute, if_pos asked]
      rfl
    | fault status packet => rfl

theorem readUpTo_congr_profile (one two : Profile C) {motive : Session C τ → Prop} (role : one.role = two.role)
    (step : ∀ (session : Session C τ) (byte : UInt8) (port : τ), session.canRead two = true →
      Channel.read session.port = some (byte, port) → motive session →
      let moved : Session C τ := { session with port := port }
      moved.accept one byte = moved.accept two byte ∧ motive (moved.accept two byte).1)
    (start : motive session) (budget : Nat) : session.readUpTo one budget = session.readUpTo two budget := by
  induction budget generalizing session with
  | zero => rfl
  | succ budget ih =>
    have free : session.canRead one = session.canRead two := by rw [canRead, canRead, role]
    rw [readUpTo, readUpTo, free]
    split
    · rename_i may
      split
      · rfl
      · rename_i byte port found
        obtain ⟨same, kept⟩ := step session byte port may found start
        simp only [same, ih kept]
    · rfl

end Session

namespace Duplex

variable {link start : Duplex C C n} {session : Session C (Port n)} {host me : Profile C}
  {answer : Frame → Option Frame} {requests : List Frame}

theorem Underway.finds_request (underway : Underway me answer start requests (link.withSession .client session))
    {byte : UInt8} {port : Port n} (found : Channel.read session.port = some (byte, port)) {receiver : Receiver C}
    {packet : Packet C} (taken : session.endpoint.receiver.take byte = (receiver, some (.frame packet))) :
    ∃ request ∈ requests, packet.wire = request.wire := by
  obtain ⟨served, returned, coming, course⟩ := underway
  have awaits : session.endpoint.receiver.packet.Awaits
      (session.port.incoming.toList ++ (link.endpoint .host).unsent) (coming .client) :=
    course.carrying.awaits .client
  rw [(Port.of_read found).1, List.cons_append] at awaits
  rcases Receiver.take_of_awaits awaits with ⟨_, nothing, -⟩ | ⟨request, rest, whole, first, frame, wire, -⟩
  · rw [nothing] at taken
    cases taken
  · rw [frame] at taken
    cases taken
    refine ⟨request, ?_, wire⟩
    rw [course.requests, first]
    exact List.mem_append_right _ List.mem_cons_self

structure Informed (link : Duplex C C n) : Prop where
  held : link.host.refused.isSome = link.host.sending
  peer : link.host.peer = (link.calls .host).foldl Notice.learned none

theorem informed_idle : (idle : Duplex C C n).Informed :=
  ⟨rfl, rfl⟩

theorem Informed.atHost (informed : link.Informed) {next : Session C (Port n)}
    (told : (link.sessionAt .host).Informed link.host.peer → next.Informed link.host.peer) :
    (link.withSession .host next).Informed := by
  have after := told ⟨informed.held, rfl⟩
  have logged : Notice.calls next.log = Notice.calls (link.sessionAt .host).log ++ Notice.calls next.log := rfl
  obtain ⟨calls, -⟩ := calls_withSession link .host logged
  rw [withSession_sessionAt] at calls
  refine ⟨after.held, ?_⟩
  rw [calls, List.foldl_append, ← informed.peer]
  exact after.peer

theorem Informed.atClient (informed : link.Informed) (next : Session C (Port n)) :
    (link.withSession .client next).Informed := by
  have logged : Notice.calls next.log = Notice.calls (link.sessionAt .client).log ++ Notice.calls next.log := rfl
  obtain ⟨-, calls⟩ := calls_withSession link .client logged
  rw [withSession_sessionAt] at calls
  refine ⟨informed.held, ?_⟩
  rw [show (link.withSession .client next).calls .host = link.calls .host from calls]
  exact informed.peer

theorem Informed.act (asking : host.role = .host) (informed : link.Informed) (action : Action) :
    (link.act host me action).1.Informed := by
  cases action with
  | ask request payload => exact informed.atHost fun before => before.send request payload
  | askIdentity => exact informed.atHost fun before => before.send Frame.identityRequest []
  | pollHost => exact informed.atHost fun before => before.poll asking
  | flushHost => exact informed.atHost fun before => before.flush
  | pollClient | flushClient => exact informed.atClient _

theorem poll_mute (serving : me.role = .client)
    (underway : Underway me.mute (fun _ => none) start requests link)
    (identity : ∀ request ∈ requests, request.request = Frame.identityRequest) :
    (link.sessionAt .client).poll me = (link.sessionAt .client).poll me.mute := by
  have mute : me.mute.role = .client := serving
  rw [← withSession_sessionAt link .client] at underway
  have reads := Session.readUpTo_congr_profile me me.mute
    (motive := fun session => Underway me.mute (fun _ => none) start requests (link.withSession .client session)) rfl
    (fun session byte port free found kept => by
      refine ⟨Session.accept_mute serving ?_, kept.clientReads mute me.answersBy_mute free found⟩
      intro receiver packet taken
      obtain ⟨request, member, wire⟩ := kept.finds_request found taken
      rw [(Packet.parts_of_wire_eq wire).1]
      exact identity request member)
    underway.flush
  rw [Session.poll, Session.poll, Session.readAll, Session.readAll, reads]

theorem act_mute (host : Profile C) (serving : me.role = .client)
    (underway : Underway me.mute (fun _ => none) start requests link)
    (identity : ∀ request ∈ requests, request.request = Frame.identityRequest) (action : Action) :
    link.act host me action = link.act host me.mute action := by
  cases action with
  | pollClient => rw [Duplex.act, Duplex.act, atClient_eq, atClient_eq, poll_mute serving underway identity]
  | _ => rfl

def Action.asksOnlyIdentity : Action → Bool
  | .ask _ _ => false
  | _ => true

theorem request_of_act {action : Action} (only : action.asksOnlyIdentity) (link : Duplex C C n) :
    ∀ request ∈ (link.act host me action).2, request.request = Frame.identityRequest := by
  cases action with
  | ask _ _ => cases only
  | askIdentity =>
    intro request member
    simp only [Duplex.act, takenOn] at member
    split at member
    · rw [List.mem_singleton.mp member]
    · cases member
  | _ => simp [Duplex.act]

/-- The host has asked for nothing but the identity of the client, so that the client's handler was of no account. -/
structure Introducing (me : Profile C) (requests : List Frame) (link : Duplex C C n) : Prop where
  underway : Underway me.mute (fun _ => none) idle requests link
  identity : ∀ request ∈ requests, request.request = Frame.identityRequest
  informed : link.Informed

theorem introducing_idle (me : Profile C) : Introducing me [] (idle : Duplex C C n) :=
  ⟨⟨[], [], fun _ => [], atRest_idle.carrying, rfl, rfl, by simp, by simp⟩, by simp, informed_idle⟩

theorem Introducing.act (asking : host.role = .host) (serving : me.role = .client)
    (introducing : Introducing me requests link) {action : Action} (only : action.asksOnlyIdentity) :
    Introducing me (requests ++ (link.act host me action).2) (link.act host me action).1 := by
  have mute : me.mute.role = .client := serving
  obtain ⟨underway, identity, informed⟩ := introducing
  refine ⟨?_, ?_, informed.act asking action⟩
  · rw [act_mute host serving underway identity]
    exact underway.act asking mute me.answersBy_mute action
  · intro request member
    rcases List.mem_append.mp member with earlier | now
    · exact identity request earlier
    · exact request_of_act only link request now

theorem Introducing.run (asking : host.role = .host) (serving : me.role = .client)
    (introducing : Introducing me requests link) {actions : List Action}
    (only : ∀ action ∈ actions, action.asksOnlyIdentity) :
    Introducing me (requests ++ (link.run host me actions).2) (link.run host me actions).1 ∧
      link.run host me actions = link.run host me.mute actions := by
  induction actions generalizing link requests with
  | nil =>
    rw [Duplex.run, List.append_nil]
    exact ⟨introducing, rfl⟩
  | cons action actions ih =>
    have first := act_mute host serving introducing.underway introducing.identity action
    have next := introducing.act asking serving (only action List.mem_cons_self)
    obtain ⟨last, same⟩ := ih next fun other member => only other (List.mem_cons_of_mem _ member)
    refine ⟨?_, ?_⟩
    · rw [Duplex.run, ← List.append_assoc]
      exact last
    · rw [Duplex.run, Duplex.run, ← first, ← same]

theorem Introducing.runRounds (asking : host.role = .host) (serving : me.role = .client)
    (introducing : Introducing me requests link) (rounds : Nat) :
    Introducing me requests (link.runRounds host me rounds).1 ∧
      (link.runRounds host me rounds).1 = (link.runRounds host me.mute rounds).1 := by
  induction rounds generalizing link with
  | zero => exact ⟨introducing, rfl⟩
  | succ rounds ih =>
    -- Nothing is asked in a round, so the requests remain those of before.
    let turned := (link.act host me .pollHost).1
    have hostPolls : Action.pollHost.asksOnlyIdentity := rfl
    have clientPolls : Action.pollClient.asksOnlyIdentity := rfl
    have between : Introducing me (requests ++ []) turned := introducing.act asking serving hostPolls
    rw [List.append_nil] at between
    have after : Introducing me (requests ++ []) (turned.act host me .pollClient).1 :=
      between.act asking serving clientPolls
    rw [List.append_nil] at after
    have same : (link.round host me).1 = (link.round host me.mute).1 := by
      rw [round_eq_act, round_eq_act]
      exact congrArg Prod.fst (act_mute host serving between.underway between.identity .pollClient)
    obtain ⟨last, rest⟩ := ih after
    rw [Duplex.runRounds, Duplex.runRounds, ← same]
    exact ⟨last, rest⟩

theorem Introducing.peer_eq (fits : me.encoding.size ≤ C) (introducing : Introducing me requests link)
    (asked : requests ≠ []) (quiet : link.Quiet) : link.host.peer = some me.identity := by
  obtain ⟨underway, identity, informed⟩ := introducing
  have calls := underway.complete quiet
  have told (peer : Option Identity) : Notice.learned peer (.answered
      ⟨Frame.identityRequest, Frame.successResponse, me.identity.encode me.encoding⟩) = some me.identity := by
    rw [Notice.learned, if_pos ⟨rfl, rfl⟩, Identity.ofPayload?_encode]
    rfl
  obtain ⟨earlier, last, rfl⟩ := (List.eq_nil_or_concat requests).resolve_left asked
  rw [List.concat_eq_append] at calls identity
  have replied := Profile.replyTo_mute fits (identity last (by simp))
  rw [informed.peer, calls, List.map_append, List.map_append, ← List.append_assoc, List.foldl_append, List.map_singleton,
    List.map_singleton, replied]
  exact told _

theorem run_askIdentity_ne_nil (host me : Profile C) (actions : List Action) :
    ((idle : Duplex C C n).run host me (.askIdentity :: actions)).2 ≠ [] := by
  have taken : ((idle : Duplex C C n).act host me .askIdentity).2 =
      [⟨Frame.identityRequest, Frame.pendingResponse, []⟩] := by
    have composed := Packet.compose_of_fits (default : Packet C)
      (show (⟨Frame.identityRequest, Frame.pendingResponse, []⟩ : Frame).payload.length ≤ C from Nat.zero_le _)
    have sent : (((idle : Duplex C C n).sessionAt .host).sendIdentityRequest).2 = .ok () := by
      have free : ((idle : Duplex C C n).sessionAt .host).endpoint.sending = false := rfl
      have draft : ((idle : Duplex C C n).sessionAt .host).endpoint.outgoing = default := rfl
      rw [Session.sendIdentityRequest, Session.send, free, draft, Packet.composeRequest, composed]
      rfl
    rw [Duplex.act, atHost_eq]
    simp only [sent, takenOn]
  rw [Duplex.run, taken]
  exact List.cons_ne_nil _ _

/-- Settings make an endpoint just when the name fits its field, the configured size fits a packet and the identity
fits one in its encoding. A client that was made so never finds a reply too large, whatever it reads and however its
handler answers, and it finds each frame of the announced size whole where no other is underway. A host that asks it
for its identity, and for nothing else, knows this identity once nothing is on its way, and it comes to that; the
identity has the version, the size and the name of the settings. -/
theorem ofSettings_admits_identity_exchange (C : Capacity) (settings : Settings) :
    (∀ role handler, (∃ me : Profile C, Profile.ofSettings settings role handler = .ok me) ↔
      settings.name.length ≤ Identity.nameSize ∧ settings.maxPacketSize.toNat ≤ C ∧ settings.encoding.size ≤ C) ∧
    ∀ handler (me : Profile C), Profile.ofSettings settings .client handler = .ok me →
      (∀ {τ : Type} [Channel τ] (handlers : Nat → Packet C → Packet C → Packet C × Bool) (port : τ)
          (moves : List (Move τ)),
        let run := (Session.opening port).run (me.withHandler handlers) moves
        run.1.log.any Notice.tellsTooLarge = false ∧
          ∀ before frame after, run.1.port.read = before ++ frame.wire ++ after →
            (Receiver.takeAll ({} : Receiver C) before).1.packet.cursor = 0 →
            frame.payload.length ≤ me.identity.maxPacketSize.toNat →
            Finding.conclusions (Receiver.takeAll ({} : Receiver C) before).2 ++ [.ok frame] <+:
              Finding.conclusions (run.2.filterMap Occasion.finding?)) ∧
      (∀ hostSettings hostHandler (host : Profile C), Profile.ofSettings hostSettings .host hostHandler = .ok host →
        ∀ (n : Nat) (actions : List Action), (∀ action ∈ actions, action.asksOnlyIdentity) →
          let link := ((idle : Duplex C C n).run host me (.askIdentity :: actions)).1
          (link.Quiet → link.host.peer = some me.identity) ∧
            (0 < n → ∃ rounds, (link.runRounds host me rounds).1.Quiet ∧
              (link.runRounds host me rounds).1.host.peer = some me.identity)) ∧
      me.identity.version = settings.version ∧
      me.identity.maxPacketSize.toNat = (if settings.maxPacketSize = 0 then C.val else settings.maxPacketSize.toNat) ∧
      (0 ∉ settings.name → me.identity.shownName = settings.name) := by
  refine ⟨?_, ?_⟩
  · intro role handler
    simp only [Profile.ofSettings_eq_ok_iff, exists_and_left, exists_eq, and_true]
  · intro handler me created
    obtain ⟨version, size, announced, name⟩ := Profile.identity_of_ofSettings created
    obtain ⟨⟨-, -, fits⟩, made⟩ := Profile.ofSettings_eq_ok_iff.mp created
    have serving : me.role = .client := by rw [made]
    replace fits : me.encoding.size ≤ C := by rw [made]; exact fits
    refine ⟨?_, ?_, version, size, name⟩
    · intro τ _ handlers port moves run
      have opened : Session.Hears (me.withHandler handlers) (Session.opening port : Session C (Tapped τ)) [] :=
        ⟨rfl, rfl, rfl, rfl⟩
      have hears : Session.Hears (me.withHandler handlers) run.1 run.2 := opened.run rfl moves
      refine ⟨hears.any_tellsTooLarge fits, ?_⟩
      intro before frame after read between small
      rw [hears.findings, read]
      exact Receiver.conclusions_of_frame between (by omega) after
    · intro hostSettings hostHandler host hostCreated n actions only link
      have asking : host.role = .host := by rw [(Profile.ofSettings_eq_ok_iff.mp hostCreated).2]
      have mute : me.mute.role = .client := serving
      have all : ∀ action ∈ Action.askIdentity :: actions, action.asksOnlyIdentity := by
        intro action member
        rcases List.mem_cons.mp member with rfl | later
        · rfl
        · exact only action later
      obtain ⟨introducing, same⟩ := (introducing_idle (n := n) me).run asking serving all
      have asked := run_askIdentity_ne_nil (n := n) host me actions
      rw [List.nil_append] at introducing
      refine ⟨introducing.peer_eq fits asked, ?_⟩
      intro room
      obtain ⟨-, -, drains⟩ :=
        runRounds_drains asking mute me.answersBy_mute room atRest_idle (.askIdentity :: actions)
      obtain ⟨quiet, -⟩ := drains _ (Nat.le_refl _)
      -- What drains the link with a mute client drains it with this one, whose handler is not called either.
      rw [← same] at quiet
      obtain ⟨last, alike⟩ := introducing.runRounds asking serving _
      rw [← alike] at quiet
      exact ⟨_, quiet, last.peer_eq fits asked quiet⟩

private theorem image_size_lt : Identity.Encoding.image.size < 65535 := by decide

private def room : Capacity :=
  ⟨Identity.Encoding.image.size, image_size_lt⟩

private def described : Settings where
  name := Bytes.ofText "Example Project 25 chars."
  version := ⟨0, 1, 0⟩
  encoding := .image

private def introduced : Profile room where
  role := .client
  identity := ⟨⟨0, 1, 0⟩, 32, Identity.field described.name⟩
  encoding := .image
  handler := fun _ reply => (reply, false)

private def curious : Profile room where
  role := .host
  identity := ⟨{}, 32, Identity.field []⟩
  encoding := .text
  handler := fun _ reply => (reply, false)

private def fullFrame : Frame :=
  ⟨7, 0, List.replicate 32 0x55⟩

private def listening : List (Move (Port 63)) :=
  [.elapse ⟨(Ring.empty.pushAll ([0x55, 0] ++ fullFrame.wire ++ [0x55])).1, .empty⟩, .call .poll]

private def heard : Session room (Tapped (Port 63)) × List (Occasion room) :=
  (Session.opening ⟨.empty, .empty⟩).run (introduced.withHandler fun _ => introduced.handler) listening

private def exchanged : Duplex room room 63 :=
  ((idle : Duplex room room 63).run curious introduced [.askIdentity, .pollClient, .pollHost]).1

theorem identity_exchange_of_full_name :
    Profile.ofSettings described .client introduced.handler = .ok introduced ∧
      Profile.ofSettings { name := [] } .host curious.handler = .ok curious ∧
      heard.1.port.read = [0x55, 0] ++ fullFrame.wire ++ [0x55] ∧
      heard.1.log.any Notice.tellsTooLarge = false ∧
      [.ok fullFrame] <+: Finding.conclusions (heard.2.filterMap Occasion.finding?) ∧
      exchanged.Quiet ∧ exchanged.host.peer = some introduced.identity ∧
      (∃ rounds, (((idle : Duplex room room 1).run curious introduced [.askIdentity]).1.runRounds curious introduced
        rounds).1.host.peer = some introduced.identity) ∧
      introduced.identity.shownName = described.name := by
  have size (settings : Settings) (unset : settings.maxPacketSize = 0) :
      UInt16.ofNat (Endpoint.announcedSize room settings) = 32 := by
    rw [Endpoint.announcedSize, if_pos unset]
    decide +kernel
  have client : Profile.ofSettings described .client introduced.handler = .ok introduced := by
    rw [Profile.ofSettings_eq_ok_iff, size described rfl]
    exact ⟨by decide +kernel, rfl⟩
  have host : Profile.ofSettings { name := [] } .host curious.handler = .ok curious := by
    rw [Profile.ofSettings_eq_ok_iff, size _ rfl]
    exact ⟨by decide +kernel, rfl⟩
  obtain ⟨runs, links, -, -, name⟩ :=
    (ofSettings_admits_identity_exchange room described).2 introduced.handler introduced client
  have ran : (Session.opening ⟨.empty, .empty⟩).run (introduced.withHandler fun _ => introduced.handler) listening =
      heard := by rw [heard]
  have told := runs (fun _ => introduced.handler) (⟨.empty, .empty⟩ : Port 63) listening
  rw [ran] at told
  obtain ⟨never, finds⟩ := told
  have read : heard.1.port.read = [0x55, 0] ++ fullFrame.wire ++ [0x55] := by decide +kernel
  have whole := finds [0x55, 0] fullFrame [0x55] read (by decide +kernel) (by decide +kernel)
  have wide := links _ _ curious host 63 [.pollClient, .pollHost] (by decide)
  have narrow := links _ _ curious host 1 [] (by decide)
  have quiet : exchanged.Quiet := by
    have still : exchanged.wires.toHost.toList = [] ∧ exchanged.wires.toClient.toList = [] ∧
        exchanged.host.sending = false ∧ exchanged.client.sending = false := by decide +kernel
    exact ⟨still.1, still.2.1, still.2.2.1, still.2.2.2⟩
  obtain ⟨rounds, -, known⟩ := narrow.2 Nat.zero_lt_one
  exact ⟨client, host, read, never, whole, quiet, wide.1 quiet, ⟨rounds, known⟩, name (by decide +kernel)⟩

end Duplex

end FramedLink
