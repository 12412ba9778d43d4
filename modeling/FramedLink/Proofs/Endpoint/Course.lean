import FramedLink.Proofs.Endpoint.Outflow
import FramedLink.Proofs.Endpoint.Reaction

/-! The calls of an endpoint whose handler need not answer alike each time, and what each call gave it to send. Main
statements: what writing, reading and a request preserve, every call preserves; with a handler that does answer alike a
call is the operation itself. -/

namespace FramedLink

namespace Endpoint

/-- The fixed part of an endpoint whose handler also goes by how often it was called before. -/
structure Service (C : Capacity) where
  role : Role
  identity : Identity
  encoding : Identity.Encoding
  handler : Nat → Packet C → Packet C → Packet C × Bool

variable {C : Capacity}

def Service.profile (me : Service C) (calls : Nat) : Profile C :=
  ⟨me.role, me.identity, me.encoding, me.handler calls⟩

def Profile.steady (me : Profile C) : Service C :=
  ⟨me.role, me.identity, me.encoding, fun _ => me.handler⟩

end Endpoint

open Endpoint (Profile Service)

inductive Call where
  | send (request : UInt16) (payload : Bytes)
  | askIdentity
  | flush
  | poll
  deriving DecidableEq, Repr

def Call.isRequest : Call → Bool
  | send _ _ | askIdentity => true
  | flush | poll => false

/-- What an endpoint may have to send something for: a request that it took on, or a finding, met after so many calls of
the handler and when the outgoing packet stood as given. -/
inductive Occasion (C : Capacity) where
  | request (packet : Packet C)
  | finding (calls : Nat) (finding : Finding C) (draft : Packet C)

namespace Occasion

variable {C : Capacity}

def finding? : Occasion C → Option (Finding C)
  | request _ => none
  | finding _ found _ => some found

def begun (me : Service C) : Occasion C → Option (Packet C)
  | request packet => some packet
  | finding calls found draft => ((me.profile calls).react draft found).reply

def notices (me : Service C) : Occasion C → List Notice
  | request _ => []
  | finding calls found draft => ((me.profile calls).react draft found).notices

def shown (me : Service C) : Occasion C → Option (Packet C × Packet C)
  | finding _ (.frame packet) draft =>
    if me.role = .client ∧ packet.header.request ≠ Frame.identityRequest then some (packet, draft) else none
  | _ => none

end Occasion

namespace Session

variable {C : Capacity} {τ : Type} [Channel τ]

def callCount (session : Session C τ) : Nat :=
  (Notice.calls session.log).length

def faces (session : Session C τ) (byte : UInt8) : List (Occasion C) :=
  ((session.endpoint.receiver.take byte).2.map fun found =>
    .finding session.callCount found session.endpoint.outgoing).toList

def readNext (me : Service C) (session : Session C τ) : Session C τ × List (Occasion C) :=
  let now := me.profile session.callCount
  ((session.readUpTo now 1).1,
    if session.canRead now then
      match Channel.read session.port with
      | none => []
      | some (byte, port) => ({ session with port := port } : Session C τ).faces byte
    else [])

def readEach (me : Service C) (session : Session C τ) : Nat → Session C τ × List (Occasion C)
  | 0 => (session, [])
  | budget + 1 =>
    let first := session.readNext me
    let rest := first.1.readEach me budget
    (rest.1, first.2 ++ rest.2)

def asks (session : Session C τ) (request : UInt16) (payload : Bytes) : List (Occasion C) :=
  match (session.send request payload).2 with
  | .ok _ => [.request (session.endpoint.outgoing.composeRequest request payload).1]
  | .error _ => []

def call (me : Service C) (session : Session C τ) : Call → Session C τ × List (Occasion C)
  | .send request payload => ((session.send request payload).1, session.asks request payload)
  | .askIdentity => (session.sendIdentityRequest.1, session.asks Frame.identityRequest [])
  | .flush => (session.flush.1, [])
  | .poll =>
    let read := session.flush.1.readEach me (Channel.backlog session.flush.1.port)
    (read.1.flush.1, read.2)

variable {session : Session C τ} {occasions : List (Occasion C)}

theorem accept_cases (me : Profile C) (session : Session C τ) (byte : UInt8) :
    (∃ receiver, session.endpoint.receiver.take byte = (receiver, none) ∧ session.faces byte = [] ∧
        (session.accept me byte).1 = { session with endpoint.receiver := receiver }) ∨
      ∃ receiver found, session.endpoint.receiver.take byte = (receiver, some found) ∧
        session.faces byte = [.finding session.callCount found session.endpoint.outgoing] ∧
        (session.accept me byte).1 =
          (session.finding me receiver found).perform (me.react session.endpoint.outgoing found) := by
  rw [accept_fst, faces]
  rcases session.endpoint.receiver.take byte with ⟨receiver, _ | found⟩
  · exact .inl ⟨receiver, rfl, rfl, rfl⟩
  · exact .inr ⟨receiver, found, rfl, rfl, rfl⟩

structure Leaves (before after : Session C τ) : Prop where
  took : ∃ bytes, Channel.Took before.port bytes after.port
  held : before.endpoint.refused.isSome = before.endpoint.sending →
    after.endpoint.refused.isSome = after.endpoint.sending

theorem leaves_dispatch (session : Session C τ) (packet : Packet C) : session.Leaves (session.dispatch packet) := by
  have writes := writes_dispatch session packet
  obtain ⟨bytes, took, -⟩ := writes.flow
  exact ⟨⟨bytes, took⟩, fun _ => writes.held⟩

theorem leaves_accept (me : Profile C) (session : Session C τ) (byte : UInt8) :
    session.Leaves (session.accept me byte).1 := by
  rcases accept_cases me session byte with ⟨receiver, -, -, accepted⟩ | ⟨receiver, finding, -, -, accepted⟩
  · rw [accepted]
    exact ⟨⟨[], .nothing _⟩, id⟩
  · rw [accepted, perform]
    split
    · exact ⟨⟨[], .nothing _⟩, id⟩
    · rename_i packet _
      obtain ⟨took, held⟩ := leaves_dispatch ((session.finding me receiver finding).noteAll
        (me.react session.endpoint.outgoing finding).notices) packet
      exact ⟨took, held⟩

theorem leaves_send (session : Session C τ) (request : UInt16) (payload : Bytes) :
    session.Leaves (session.send request payload).1 := by
  rw [Session.send]
  split
  · exact ⟨⟨[], .nothing _⟩, id⟩
  · split
    · exact ⟨⟨[], .nothing _⟩, id⟩
    · exact leaves_dispatch session _

variable {me : Service C}

theorem readNext_of_read {byte : UInt8} {port : τ} (free : me.role = .client → session.endpoint.sending = false)
    (found : Channel.read session.port = some (byte, port)) :
    let moved : Session C τ := { session with port := port }
    session.readNext me = ((moved.accept (me.profile session.callCount) byte).1, moved.faces byte) := by
  have may : session.canRead (me.profile session.callCount) = true := by
    cases role : me.role with
    | host => simp [canRead, Service.profile, role]
    | client => simp [canRead, Service.profile, role, free role]
  rw [readNext, readUpTo, if_pos may, if_pos may, found]
  rfl

theorem readNext_cases (me : Service C) (session : Session C τ) :
    session.readNext me = (session, []) ∨
      ∃ byte port, (me.role = .client → session.endpoint.sending = false) ∧
        Channel.read session.port = some (byte, port) ∧
        let moved : Session C τ := { session with port := port }
        session.readNext me = ((moved.accept (me.profile session.callCount) byte).1, moved.faces byte) := by
  rw [readNext, readUpTo]
  by_cases free : session.canRead (me.profile session.callCount) = true
  · simp only [if_pos free]
    rcases found : Channel.read session.port with _ | ⟨byte, port⟩
    · exact .inl rfl
    · refine .inr ⟨byte, port, ?_, rfl, rfl⟩
      intro client
      simpa [canRead, Service.profile, client] using free
  · rw [if_neg free, if_neg free]
    exact .inl rfl

theorem readEach_induction {motive : Session C τ → List (Occasion C) → Prop}
    (read : ∀ (session : Session C τ) (occasions : List (Occasion C)) (byte : UInt8) (port : τ),
      (me.role = .client → session.endpoint.sending = false) → Channel.read session.port = some (byte, port) →
      motive session occasions →
      let moved : Session C τ := { session with port := port }
      motive (moved.accept (me.profile session.callCount) byte).1 (occasions ++ moved.faces byte))
    (start : motive session occasions) (budget : Nat) :
    motive (session.readEach me budget).1 (occasions ++ (session.readEach me budget).2) := by
  induction budget generalizing session occasions with
  | zero =>
    rw [readEach, List.append_nil]
    exact start
  | succ budget ih =>
    rw [readEach, ← List.append_assoc]
    apply ih
    rcases readNext_cases me session with stopped | ⟨byte, port, free, found, reached⟩
    · rw [stopped, List.append_nil]
      exact start
    · rw [reached]
      exact read session occasions byte port free found start

/-- What writing, reading and a request preserve, every call preserves. -/
theorem call_induction {motive : Session C τ → List (Occasion C) → Prop} {call : Call}
    (write : ∀ (session : Session C τ) (occasions : List (Occasion C)),
      motive session occasions → motive session.flush.1 occasions)
    (read : ∀ (session : Session C τ) (occasions : List (Occasion C)) (byte : UInt8) (port : τ),
      (me.role = .client → session.endpoint.sending = false) → Channel.read session.port = some (byte, port) →
      motive session occasions →
      let moved : Session C τ := { session with port := port }
      motive (moved.accept (me.profile session.callCount) byte).1 (occasions ++ moved.faces byte))
    (ask : call.isRequest = true → ∀ (session : Session C τ) (occasions : List (Occasion C)) (request : UInt16)
      (payload : Bytes), motive session occasions →
      motive (session.send request payload).1 (occasions ++ session.asks request payload))
    (start : motive session occasions) : motive (session.call me call).1 (occasions ++ (session.call me call).2) := by
  cases call with
  | send request payload => exact ask rfl session occasions request payload start
  | askIdentity => exact ask rfl session occasions Frame.identityRequest [] start
  | flush =>
    rw [Session.call, List.append_nil]
    exact write session occasions start
  | poll => exact write _ _ (readEach_induction read (write session occasions start) _)

theorem readUpTo_succ (me : Profile C) (session : Session C τ) (budget : Nat) :
    (session.readUpTo me (budget + 1)).1 = ((session.readUpTo me 1).1.readUpTo me budget).1 := by
  by_cases free : session.canRead me = true
  · rcases found : Channel.read session.port with _ | ⟨byte, port⟩
    · cases budget <;> simp [readUpTo, free, found]
    · simp only [readUpTo, if_pos free, found]
  · cases budget <;> simp [readUpTo, free]

theorem readEach_steady (me : Profile C) (session : Session C τ) (budget : Nat) :
    (session.readEach me.steady budget).1 = (session.readUpTo me budget).1 := by
  induction budget generalizing session with
  | zero => rfl
  | succ budget ih =>
    rw [readEach, ih, readUpTo_succ]
    rfl

/-- With a handler that answers alike each time, a call is the operation of the endpoint. -/
theorem call_steady (me : Profile C) (session : Session C τ) (call : Call) :
    (session.call me.steady call).1 =
      match call with
      | .send request payload => (session.send request payload).1
      | .askIdentity => session.sendIdentityRequest.1
      | .flush => session.flush.1
      | .poll => (session.poll me).1 := by
  cases call with
  | send _ _ | askIdentity | flush => rfl
  | poll =>
    rw [Session.call, poll, readAll, readEach_steady]

end Session

end FramedLink
