import FramedLink.Proofs.Endpoint.Course

/-! A channel that keeps a record of its traffic, and an endpoint in use on it. Main statement: with the record or
without it an endpoint does the same, call by call. -/

namespace FramedLink

open Endpoint (Profile Service)

/-- A channel, the bytes that were read from it, and those that it took. -/
structure Tapped (τ : Type) where
  port : τ
  read : Bytes := []
  written : Bytes := []

namespace Tapped

variable {τ : Type} [Channel τ]

def readByte (tapped : Tapped τ) : Option (UInt8 × Tapped τ) :=
  (Channel.read tapped.port).map fun (byte, port) => (byte, { tapped with port := port, read := tapped.read ++ [byte] })

def writeByte (tapped : Tapped τ) (byte : UInt8) : Tapped τ × Bool :=
  match Channel.write tapped.port byte with
  | (port, true) => ({ tapped with port := port, written := tapped.written ++ [byte] }, true)
  | (port, false) => ({ tapped with port := port }, false)

instance : Channel (Tapped τ) where
  read := readByte
  write := writeByte
  backlog tapped := Channel.backlog tapped.port
  backlog_read found := by
    simp only [readByte, Option.map_eq_some_iff, Prod.exists, Prod.mk.injEq] at found
    obtain ⟨byte, port, read, -, rfl⟩ := found
    exact Channel.backlog_read read
  backlog_write tapped byte := by
    have kept := Channel.backlog_write tapped.port byte
    unfold writeByte
    split <;> rename_i written <;> rwa [written] at kept

theorem of_read {tapped rest : Tapped τ} {byte : UInt8} (found : Channel.read tapped = some (byte, rest)) :
    rest.read = tapped.read ++ [byte] ∧ rest.written = tapped.written ∧
      Channel.read tapped.port = some (byte, rest.port) := by
  change tapped.readByte = _ at found
  simp only [readByte, Option.map_eq_some_iff, Prod.exists, Prod.mk.injEq] at found
  obtain ⟨byte, port, read, rfl, rfl⟩ := found
  exact ⟨rfl, rfl, read⟩

theorem read_of_read {tapped : Tapped τ} {byte : UInt8} {port : τ}
    (found : Channel.read tapped.port = some (byte, port)) :
    Channel.read tapped = some (byte, { tapped with port := port, read := tapped.read ++ [byte] }) := by
  change tapped.readByte = _
  rw [readByte, found]
  rfl

theorem of_took {before after : Tapped τ} {bytes : Bytes} (took : Channel.Took before bytes after) :
    after.written = before.written ++ bytes ∧ after.read = before.read ∧
      Channel.Took before.port bytes after.port := by
  induction took with
  | nothing => exact ⟨(List.append_nil _).symm, rfl, .nothing _⟩
  | @taken before between after byte bytes written _ ih =>
    obtain ⟨joined, read, took⟩ := ih
    change before.writeByte byte = _ at written
    unfold writeByte at written
    split at written <;> rename_i accepted <;> cases written
    exact ⟨by rw [joined, List.append_assoc]; rfl, read, .taken accepted took⟩
  | @refused before between after byte bytes written _ ih =>
    obtain ⟨joined, read, took⟩ := ih
    change before.writeByte byte = _ at written
    unfold writeByte at written
    split at written <;> rename_i refused <;> cases written
    exact ⟨joined, read, .refused refused took⟩

end Tapped

namespace Session

variable {C : Capacity} {τ : Type} [Channel τ] {me : Service C}

def untapped (session : Session C (Tapped τ)) : Session C τ :=
  { endpoint := session.endpoint, port := session.port.port, log := session.log }

theorem write_tapped (tapped : Tapped τ) (byte : UInt8) :
    ∃ (record : Tapped τ) (accepted : Bool), Channel.write tapped byte = (record, accepted) ∧
      Channel.write tapped.port byte = (record.port, accepted) := by
  change ∃ (record : Tapped τ) (accepted : Bool), tapped.writeByte byte = _ ∧ _
  unfold Tapped.writeByte
  rcases Channel.write tapped.port byte with ⟨port, _ | _⟩ <;> exact ⟨_, _, rfl, rfl⟩

theorem writeOut_untapped (session : Session C (Tapped τ)) (steps : Nat) :
    session.untapped.writeOut steps = ((session.writeOut steps).1.untapped, (session.writeOut steps).2) := by
  induction steps generalizing session with
  | zero => rfl
  | succ steps ih =>
    have same : session.untapped.endpoint = session.endpoint := rfl
    rw [writeOut, writeOut, same]
    rcases session.endpoint.outgoing.emit with ⟨packet, _ | byte⟩
    · rfl
    · obtain ⟨record, accepted, written, inner⟩ := write_tapped session.port byte
      have wrote : Channel.write session.untapped.port byte = (record.port, accepted) := inner
      simp only [wrote, written]
      cases accepted with
      | true => exact ih { session with endpoint.outgoing := packet, port := record }
      | false => rfl

theorem flush_untapped (session : Session C (Tapped τ)) :
    session.untapped.flush = (session.flush.1.untapped, session.flush.2) := by
  have same : session.untapped.endpoint = session.endpoint := rfl
  rw [flush, flush, same]
  split
  · rcases session.endpoint.refused with _ | byte
    · exact writeOut_untapped session _
    · obtain ⟨record, accepted, written, inner⟩ := write_tapped session.port byte
      have wrote : Channel.write session.untapped.port byte = (record.port, accepted) := inner
      simp only [wrote, written]
      cases accepted with
      | true => exact writeOut_untapped { session with endpoint.refused := none, port := record } _
      | false => rfl
  · rfl

theorem dispatch_untapped (session : Session C (Tapped τ)) (packet : Packet C) :
    session.untapped.dispatch packet = (session.dispatch packet).untapped :=
  congrArg Prod.fst (flush_untapped (session.starting packet))

theorem accept_untapped (me : Profile C) (session : Session C (Tapped τ)) (byte : UInt8) :
    (session.untapped.accept me byte).1 = (session.accept me byte).1.untapped := by
  have same : session.untapped.endpoint = session.endpoint := rfl
  rw [accept_fst, accept_fst, same]
  rcases session.endpoint.receiver.take byte with ⟨receiver, _ | finding⟩
  · rfl
  · simp only [perform]
    rcases (me.react session.endpoint.outgoing finding).reply with _ | packet
    · rfl
    · exact dispatch_untapped ((session.finding me receiver finding).noteAll _) packet

theorem readNext_untapped (me : Service C) (session : Session C (Tapped τ)) :
    session.untapped.readNext me = ((session.readNext me).1.untapped, (session.readNext me).2) := by
  let now := me.profile session.callCount
  have count : session.untapped.callCount = session.callCount := rfl
  have free : session.untapped.canRead now = session.canRead now := rfl
  have read : Channel.read session.port = session.port.readByte := rfl
  rw [readNext, readNext, count, readUpTo, readUpTo, free, read, Tapped.readByte]
  simp only [untapped]
  split
  · rcases Channel.read session.port.port with _ | ⟨byte, port⟩
    · rfl
    · let moved : Session C (Tapped τ) :=
        { session with port := { session.port with port := port, read := session.port.read ++ [byte] } }
      exact congrArg (·, moved.faces byte) (accept_untapped now moved byte)
  · rfl

theorem readEach_untapped (me : Service C) (session : Session C (Tapped τ)) (budget : Nat) :
    session.untapped.readEach me budget =
      ((session.readEach me budget).1.untapped, (session.readEach me budget).2) := by
  induction budget generalizing session with
  | zero => rfl
  | succ budget ih =>
    rw [readEach, readEach, readNext_untapped]
    simp only [ih]

theorem send_untapped (session : Session C (Tapped τ)) (request : UInt16) (payload : Bytes) :
    session.untapped.send request payload =
      ((session.send request payload).1.untapped, (session.send request payload).2) := by
  have same : session.untapped.endpoint = session.endpoint := rfl
  rw [send, send, same]
  split
  · rfl
  · rcases session.endpoint.outgoing.composeRequest request payload with ⟨packet, _ | _⟩
    · rfl
    · exact congrArg (·, _) (dispatch_untapped session packet)

theorem call_untapped (session : Session C (Tapped τ)) (call : Call) :
    session.untapped.call me call = ((session.call me call).1.untapped, (session.call me call).2) := by
  have asked (request : UInt16) (payload : Bytes) :
      ((session.untapped.send request payload).1, session.untapped.asks request payload) =
        ((session.send request payload).1.untapped, session.asks request payload) := by
    rw [asks, asks, send_untapped]
    rfl
  cases call with
  | send request payload => exact asked request payload
  | askIdentity => exact asked Frame.identityRequest []
  | flush =>
    rw [Session.call, flush_untapped]
    rfl
  | poll =>
    have ready : session.untapped.flush.1 = session.flush.1.untapped := by rw [flush_untapped]
    have same : Channel.backlog session.flush.1.untapped.port = Channel.backlog session.flush.1.port := rfl
    rw [Session.call, Session.call, ready, same, readEach_untapped]
    simp only [flush_untapped]

section

variable {session before after : Session C (Tapped τ)}

theorem Writes.read_eq (writes : before.Writes after) : after.port.read = before.port.read := by
  obtain ⟨bytes, took, -⟩ := writes.flow
  exact (Tapped.of_took took).2.1

theorem Writes.written_grows (writes : before.Writes after) : before.port.written <+: after.port.written := by
  obtain ⟨bytes, took, -⟩ := writes.flow
  exact ⟨bytes, (Tapped.of_took took).1.symm⟩

theorem Writes.outflow (writes : before.Writes after) :
    after.port.written ++ after.endpoint.pending = before.port.written ++ before.endpoint.pending := by
  obtain ⟨bytes, took, split⟩ := writes.flow
  rw [(Tapped.of_took took).1, split, List.append_assoc]

theorem readEach_extends (me : Service C) (held : session.endpoint.refused.isSome = session.endpoint.sending)
    (budget : Nat) :
    let done := (session.readEach me budget).1
    done.endpoint.refused.isSome = done.endpoint.sending ∧ session.port.read <+: done.port.read := by
  let motive (later : Session C (Tapped τ)) (_ : List (Occasion C)) : Prop :=
    later.endpoint.refused.isSome = later.endpoint.sending ∧ session.port.read <+: later.port.read
  have start : motive session [] := ⟨held, List.prefix_refl _⟩
  have done : motive (session.readEach me budget).1 ([] ++ (session.readEach me budget).2) := by
    refine readEach_induction ?_ start budget
    rintro later occasions byte port - found ⟨kept, extended⟩
    let moved : Session C (Tapped τ) := { later with port := port }
    have leaves := leaves_accept (me.profile later.callCount) moved byte
    obtain ⟨bytes, took⟩ := leaves.took
    have still : moved.endpoint.refused.isSome = moved.endpoint.sending := kept
    refine ⟨leaves.held still, ?_⟩
    rw [(Tapped.of_took took).2.1, show moved.port.read = _ from (Tapped.of_read found).1]
    exact extended.trans (List.prefix_append _ _)
  exact done

theorem read_poll_lt {byte : UInt8} {port : Tapped τ} (idle : session.endpoint.sending = false)
    (held : session.endpoint.refused.isSome = session.endpoint.sending)
    (found : Channel.read session.port = some (byte, port)) :
    session.port.read.length < (session.call me .poll).1.port.read.length := by
  have still : session.flush.1 = session := by rw [flush_of_idle idle]
  have fewer := Channel.backlog_read found
  obtain ⟨budget, enough⟩ : ∃ budget, Channel.backlog session.port = budget + 1 := ⟨_, (Nat.succ_pred (by omega)).symm⟩
  let moved : Session C (Tapped τ) := { session with port := port }
  let first := (moved.accept (me.profile session.callCount) byte).1
  have leaves : moved.Leaves first := leaves_accept _ moved byte
  obtain ⟨bytes, took⟩ := leaves.took
  have kept : moved.endpoint.refused.isSome = moved.endpoint.sending := held
  have read : first.port.read = session.port.read ++ [byte] :=
    (Tapped.of_took took).2.1.trans (Tapped.of_read found).1
  obtain ⟨later, extended⟩ := readEach_extends me (leaves.held kept) budget
  have last := (writes_flush later).read_eq
  rw [Session.call, still, enough, readEach, readNext_of_read (fun _ => idle) found]
  rw [last]
  have longer := extended.length_le
  rw [read, List.length_append, List.length_singleton] at longer
  exact longer

end

end Session

/-- A call, or something that happens to the channel in the meantime. -/
inductive Move (τ : Type) where
  | call (call : Call)
  | elapse (port : τ)

def Move.isRequest {τ : Type} : Move τ → Bool
  | call made => made.isRequest
  | elapse _ => false

namespace Session

variable {C : Capacity} {τ : Type} [Channel τ]

def move (me : Service C) (session : Session C (Tapped τ)) : Move τ → Session C (Tapped τ) × List (Occasion C)
  | .call call => session.call me call
  | .elapse port => ({ session with port.port := port }, [])

def run (me : Service C) (session : Session C (Tapped τ)) : List (Move τ) → Session C (Tapped τ) × List (Occasion C)
  | [] => (session, [])
  | move :: moves =>
    let first := session.move me move
    let rest := first.1.run me moves
    (rest.1, first.2 ++ rest.2)

def opening (port : τ) : Session C (Tapped τ) :=
  { endpoint := {}, port := { port := port } }

end Session

end FramedLink
