import FramedLink.Endpoint.Watch
import FramedLink.Proofs.Endpoint.Draining

/-! A host with nothing to send that is polled time and again. Main statement: poll by poll it takes the bytes that are
waiting, reports one event for each thing that its receiver finds in them, and tells how many of these are frames. -/

namespace FramedLink

open Endpoint (Profile)

namespace Channel

variable {τ : Type} [Channel τ] {port rest : τ} {byte : UInt8}

/-- The bytes that can be read before anything arrives. -/
def waiting (port : τ) : Bytes :=
  match _found : read port with
  | none => []
  | some (byte, rest) => byte :: waiting rest
termination_by backlog port
decreasing_by exact backlog_read _found

theorem waiting_of_none (empty : read port = none) : waiting port = [] := by
  rw [waiting]
  split
  · rfl
  · rename_i found
    rw [empty] at found
    cases found

theorem waiting_of_read (found : read port = some (byte, rest)) : waiting port = byte :: waiting rest := by
  rw [waiting]
  split
  · rename_i none
    rw [found] at none
    cases none
  · rename_i other
    rw [found] at other
    cases other
    rfl

end Channel

theorem Port.waiting_eq {n : Nat} (port : Port n) : Channel.waiting port = port.incoming.toList := by
  rcases found : Channel.read port with _ | ⟨byte, rest⟩
  · rw [Channel.waiting_of_none found, Port.read_eq_none_iff.mp found]
  · have fewer : Channel.backlog rest < Channel.backlog port := Channel.backlog_read found
    rw [Channel.waiting_of_read found, (Port.of_read found).1, Port.waiting_eq rest]
termination_by Channel.backlog port

namespace Finding

variable {C : Capacity}

def packet : Finding C → Packet C
  | gap packet | frame packet | fault _ packet => packet

def kind : Finding C → Event.Kind
  | gap _ => .resync
  | frame _ => .frameReceived
  | fault .badChecksum _ => .badChecksum
  | fault .badLength _ => .badLength
  | fault _ _ => .overflow

def event (found : Finding C) : Event :=
  ⟨found.kind, found.packet.header.request, found.packet.header.response, found.packet.header.length⟩

end Finding

theorem events_react_of_host {C : Capacity} {me : Profile C} (host : me.role = .host) (draft : Packet C)
    (found : Finding C) : Notice.events (me.react draft found).notices = [found.event] := by
  unfold Profile.react
  rw [host]
  cases found with
  | fault status packet => cases status <;> rfl
  | _ => rfl

namespace Event

def isFrame (event : Event) : Bool :=
  event.kind == .frameReceived

def isFault (event : Event) : Bool :=
  event.kind == .badChecksum || event.kind == .badLength

end Event

namespace Session

variable {C : Capacity} {τ : Type} [Channel τ] {me : Profile C} {before between after session : Session C τ}
  {bytes more : Bytes} {count others : Nat}

/-- The endpoint took the bytes, had nothing to send for them, and reported what it found in them. -/
structure Hearing (before after : Session C τ) (bytes : Bytes) (count : Nat) : Prop where
  idle : after.endpoint.sending = before.endpoint.sending
  receiver : after.endpoint.receiver = (before.endpoint.receiver.takeAll bytes).1
  events : Notice.events after.log =
    Notice.events before.log ++ (before.endpoint.receiver.takeAll bytes).2.map Finding.event
  count : count = ((before.endpoint.receiver.takeAll bytes).2.map Finding.event).countP Event.isFrame

omit [Channel τ] in
theorem hearing_nothing (session : Session C τ) : session.Hearing session [] 0 :=
  ⟨rfl, rfl, (List.append_nil _).symm, rfl⟩

omit [Channel τ] in
theorem Hearing.trans (first : before.Hearing between bytes count) (second : between.Hearing after more others) :
    before.Hearing after (bytes ++ more) (count + others) := by
  have events := second.events
  have counted := second.count
  rw [first.receiver] at events counted
  refine ⟨second.idle.trans first.idle, ?_, ?_, ?_⟩
  · rw [second.receiver, first.receiver, Receiver.takeAll_append]
  · rw [events, first.events, Receiver.takeAll_append, List.map_append, List.append_assoc]
  · rw [counted, first.count, Receiver.takeAll_append, List.map_append, List.countP_append]

omit [Channel τ] in
theorem Hearing.of_port {port : τ} (heard : ({ before with port := port } : Session C τ).Hearing after bytes count) :
    before.Hearing after bytes count :=
  ⟨heard.idle, heard.receiver, heard.events, heard.count⟩

theorem accept_snd (me : Profile C) (session : Session C τ) (byte : UInt8) : (session.accept me byte).2 =
    ((session.endpoint.receiver.takeAll [byte]).2.map Finding.event).countP Event.isFrame := by
  unfold accept Receiver.takeAll
  simp only
  rcases session.endpoint.receiver.take byte with ⟨receiver, _ | found⟩
  · rfl
  · cases found with
    | fault status packet => cases status <;> rfl
    | _ => rfl

theorem hearing_accept (host : me.role = .host) (session : Session C τ) (byte : UInt8) :
    session.Hearing (session.accept me byte).1 [byte] (session.accept me byte).2 := by
  have told := accept_snd me session byte
  rcases accept_cases me session byte with ⟨receiver, taken, -, accepted⟩ | ⟨receiver, found, taken, -, accepted⟩
  · refine ⟨?_, ?_, ?_, told⟩
    · rw [accepted]
    · rw [accepted, Receiver.takeAll, taken]
      rfl
    · rw [accepted, Receiver.takeAll, taken]
      exact (List.append_nil _).symm
  · have silent := (react_of_host host host session.endpoint.outgoing session.endpoint.outgoing found).1
    have reported := events_react_of_host host session.endpoint.outgoing found
    rw [perform, silent] at accepted
    refine ⟨?_, ?_, ?_, told⟩
    · rw [accepted]
      rfl
    · rw [accepted, Receiver.takeAll, taken]
      rfl
    · rw [accepted, Receiver.takeAll, taken]
      change Notice.events (session.log ++ _) = _
      rw [Notice.events, List.filterMap_append, ← Notice.events, ← Notice.events, reported]
      rfl

theorem hearing_readUpTo (host : me.role = .host) {budget : Nat} (enough : Channel.backlog session.port ≤ budget) :
    session.Hearing (session.readUpTo me budget).1 (Channel.waiting session.port) (session.readUpTo me budget).2 := by
  induction budget generalizing session with
  | zero =>
    rw [Channel.waiting_of_none (read_eq_none_of_backlog (Nat.le_zero.mp enough))]
    exact hearing_nothing session
  | succ budget ih =>
    rw [readUpTo, if_pos (canRead_of_host host session)]
    rcases found : Channel.read session.port with _ | ⟨byte, port⟩
    · rw [Channel.waiting_of_none found]
      exact hearing_nothing session
    · let moved : Session C τ := { session with port := port }
      have fewer := Channel.backlog_read found
      have first : session.Hearing (moved.accept me byte).1 [byte] (moved.accept me byte).2 :=
        (hearing_accept host moved byte).of_port
      -- A host writes nothing when it accepts a byte, so that the port is as the reading left it.
      have same : (moved.accept me byte).1.port = port := by
        obtain ⟨receiver, peer, log, accepted⟩ := accept_of_host host moved byte
        rw [accepted]
      have rest := @ih (moved.accept me byte).1 (by rw [same]; omega)
      rw [same] at rest
      rw [Channel.waiting_of_read found]
      exact first.trans rest

theorem hearing_poll (host : me.role = .host) (idle : session.endpoint.sending = false) :
    session.Hearing (session.poll me).1 (Channel.waiting session.port) (session.poll me).2 := by
  have heard : session.Hearing (session.readAll me).1 (Channel.waiting session.port) (session.readAll me).2 :=
    hearing_readUpTo host (Nat.le_refl _)
  rw [poll, flush_of_idle idle]
  simp only
  rw [flush_of_idle (heard.idle.trans idle)]
  exact heard

/-- Polls once with each port, which is what the endpoint finds by then. Tells how many frames the polls completed. -/
def pollEach (me : Profile C) (session : Session C τ) : List τ → Session C τ × Nat
  | [] => (session, 0)
  | port :: ports =>
    let first := ({ session with port := port } : Session C τ).poll me
    let rest := first.1.pollEach me ports
    (rest.1, first.2 + rest.2)

theorem hearing_pollEach (host : me.role = .host) (idle : session.endpoint.sending = false) (ports : List τ) :
    session.Hearing (session.pollEach me ports).1 (ports.flatMap Channel.waiting) (session.pollEach me ports).2 := by
  induction ports generalizing session with
  | nil => exact hearing_nothing session
  | cons port ports ih =>
    let moved : Session C τ := { session with port := port }
    have heard : moved.Hearing (moved.poll me).1 (Channel.waiting port) (moved.poll me).2 := hearing_poll host idle
    have first : session.Hearing (moved.poll me).1 (Channel.waiting port) (moved.poll me).2 := heard.of_port
    have rest := @ih (moved.poll me).1 (first.idle.trans idle)
    rw [pollEach, List.flatMap_cons]
    exact first.trans rest

end Session

end FramedLink
