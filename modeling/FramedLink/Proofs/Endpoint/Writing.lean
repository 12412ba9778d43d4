import FramedLink.Endpoint.Sending
import FramedLink.Proofs.Packet.Emission

/-! How an endpoint writes, whatever packet it was told to send. Main statement: the bytes that are still to go are
those that the channel takes and those that are still to go afterwards, and nothing else of the packet changes. -/

namespace FramedLink

namespace Channel

variable {τ : Type} [Channel τ]

/-- The channel took the bytes, in order. It may have refused others. -/
inductive Took : τ → Bytes → τ → Prop
  | nothing (port : τ) : Took port [] port
  | taken {before between after : τ} {byte : UInt8} {bytes : Bytes} :
      write before byte = (between, true) → Took between bytes after → Took before (byte :: bytes) after
  | refused {before between after : τ} {byte : UInt8} {bytes : Bytes} :
      write before byte = (between, false) → Took between bytes after → Took before bytes after

theorem Took.append {before between after : τ} {one two : Bytes} (first : Took before one between)
    (second : Took between two after) : Took before (one ++ two) after := by
  induction first with
  | nothing => exact second
  | taken written _ ih => exact .taken written (ih second)
  | refused written _ ih => exact .refused written (ih second)

end Channel

namespace Endpoint

variable {C : Capacity} {endpoint : Endpoint C}

def pending (endpoint : Endpoint C) : Bytes :=
  if endpoint.sending then endpoint.refused.toList ++ endpoint.outgoing.rest else []

/-- The outgoing packet as it will be once nothing is on its way. -/
def draft (endpoint : Endpoint C) : Packet C :=
  if endpoint.sending then endpoint.outgoing.spent else endpoint.outgoing

theorem pending_of_idle (idle : endpoint.sending = false) : endpoint.pending = [] := by
  rw [pending, idle]
  rfl

theorem pending_ne_nil (held : endpoint.refused.isSome = endpoint.sending) (sending : endpoint.sending = true) :
    endpoint.pending ≠ [] := by
  rw [sending, Option.isSome_iff_exists] at held
  obtain ⟨byte, kept⟩ := held
  rw [pending, if_pos sending, kept]
  exact List.cons_ne_nil _ _

theorem draft_of_idle (idle : endpoint.sending = false) : endpoint.draft = endpoint.outgoing := by
  rw [draft, idle]
  rfl

end Endpoint

def Notice.about {C : Capacity} (kind : Event.Kind) (packet : Packet C) : Notice :=
  .event ⟨kind, packet.header.request, packet.header.response, packet.header.length⟩

namespace Session

variable {C : Capacity} {τ : Type} [Channel τ] {before after session : Session C τ}

/-- The endpoint wrote what it could of what it was told to send before. -/
structure Writes (before after : Session C τ) : Prop where
  flow : ∃ bytes, Channel.Took before.port bytes after.port ∧
    before.endpoint.pending = bytes ++ after.endpoint.pending
  held : after.endpoint.refused.isSome = after.endpoint.sending
  draft : after.endpoint.draft = before.endpoint.draft
  header : after.endpoint.outgoing.header = before.endpoint.outgoing.header
  buffer : after.endpoint.outgoing.buffer = before.endpoint.outgoing.buffer
  receiver : after.endpoint.receiver = before.endpoint.receiver
  peer : after.endpoint.peer = before.endpoint.peer
  log : after.log = before.log ++
    if before.endpoint.sending && !after.endpoint.sending then [.about .frameSent before.endpoint.outgoing] else []

theorem writes_writeOut {steps : Nat} (sending : session.endpoint.sending = true)
    (clear : session.endpoint.refused = none) (enough : session.endpoint.outgoing.remaining < steps) :
    session.Writes (session.writeOut steps).1 := by
  induction steps generalizing session with
  | zero =>
    -- There is one step more than bytes, so steps do not run out.
    omega
  | succ steps ih =>
    have pending : session.endpoint.pending = session.endpoint.outgoing.rest := by
      rw [Endpoint.pending, sending, clear]
      rfl
    have draft : session.endpoint.draft = session.endpoint.outgoing.spent := by
      rw [Endpoint.draft, sending]
      rfl
    rw [writeOut]
    split
    · rename_i packet taken
      obtain ⟨nothing, rfl⟩ := Packet.rest_of_exhausted taken
      refine ⟨⟨[], .nothing _, by rw [pending, nothing]; rfl⟩, ?_, draft.symm, rfl, rfl, rfl, rfl, ?_⟩
      · simp [noteEvent, note, clear]
      · simp [noteEvent, note, Notice.about, sending, Packet.spent]
    · rename_i packet byte taken
      have rest := Packet.rest_of_emit taken
      have fewer := Packet.remaining_emit taken
      have spent := Packet.spent_emit session.endpoint.outgoing
      obtain ⟨header, buffer⟩ := Packet.emit_contents session.endpoint.outgoing
      rw [taken] at spent header buffer
      split
      · rename_i port written
        let next : Session C τ := { session with endpoint.outgoing := packet, port := port }
        have more : next.Writes (next.writeOut steps).1 := ih sending clear (Nat.lt_of_lt_of_le fewer (by omega))
        obtain ⟨bytes, took, split⟩ := more.flow
        have same : packet.header = session.endpoint.outgoing.header := header
        have event : Notice.about .frameSent packet = Notice.about .frameSent session.endpoint.outgoing := by
          rw [Notice.about, Notice.about, same]
        refine ⟨⟨byte :: bytes, .taken written took, ?_⟩, more.held, ?_, more.header.trans header,
          more.buffer.trans buffer, more.receiver, more.peer, ?_⟩
        · rw [List.cons_append, ← split, pending, rest]
          simp [Endpoint.pending, next, sending, clear]
        · rw [more.draft, draft]
          simp only [Endpoint.draft, next, sending, if_true]
          exact spent
        · rw [← event]
          exact more.log
      · rename_i port written
        refine ⟨⟨[], .refused written (.nothing _), ?_⟩, sending.symm, ?_, header, buffer, rfl, rfl, ?_⟩
        · rw [pending, rest]
          simp [Endpoint.pending, sending]
        · rw [draft, Endpoint.draft, if_pos sending]
          exact spent
        · simp [sending]

theorem writes_writeRest (sending : session.endpoint.sending = true) (clear : session.endpoint.refused = none) :
    session.Writes session.writeRest.1 :=
  writes_writeOut sending clear (Nat.lt_succ_self _)

theorem flush_of_idle (idle : session.endpoint.sending = false) : session.flush = (session, true) := by
  rw [flush, idle]
  rfl

theorem Writes.refl (held : session.endpoint.refused.isSome = session.endpoint.sending) : session.Writes session :=
  ⟨⟨[], .nothing _, rfl⟩, held, rfl, rfl, rfl, rfl, rfl, by simp⟩

theorem writes_flush (held : session.endpoint.refused.isSome = session.endpoint.sending) :
    session.Writes session.flush.1 := by
  unfold flush
  split
  · rename_i sending
    split
    · rename_i clear
      rw [clear, sending] at held
      cases held
    · rename_i byte kept
      split
      · rename_i port written
        let next : Session C τ := { session with endpoint.refused := none, port := port }
        have more : next.Writes next.writeRest.1 := writes_writeRest sending rfl
        obtain ⟨bytes, took, split⟩ := more.flow
        refine ⟨⟨byte :: bytes, .taken written took, ?_⟩, more.held, more.draft, more.header, more.buffer,
          more.receiver, more.peer, more.log⟩
        rw [List.cons_append, ← split]
        simp [Endpoint.pending, next, sending, kept]
      · rename_i port written
        exact ⟨⟨[], .refused written (.nothing _), rfl⟩, held, rfl, rfl, rfl, rfl, rfl, by simp⟩
  · exact Writes.refl held

theorem pending_flush_lt {byte : UInt8} {port : τ} (sending : session.endpoint.sending = true)
    (kept : session.endpoint.refused = some byte) (written : Channel.write session.port byte = (port, true)) :
    session.flush.1.endpoint.pending.length < session.endpoint.pending.length := by
  let next : Session C τ := { session with endpoint.refused := none, port := port }
  have flushed : session.flush.1 = next.writeRest.1 := by
    rw [flush, if_pos sending, kept]
    simp only [written, next]
  have pending : session.endpoint.pending = byte :: next.endpoint.pending := by
    simp [Endpoint.pending, next, sending, kept]
  have more : next.Writes next.writeRest.1 := writes_writeRest sending rfl
  obtain ⟨bytes, -, split⟩ := more.flow
  rw [flushed, pending, split, List.length_cons, List.length_append]
  omega

theorem Writes.was_sending (writes : before.Writes after) (sending : after.endpoint.sending = true) :
    before.endpoint.sending = true := by
  obtain ⟨bytes, -, split⟩ := writes.flow
  cases earlier : before.endpoint.sending with
  | true => rfl
  | false =>
    rw [Endpoint.pending_of_idle earlier, eq_comm, List.append_eq_nil_iff] at split
    exact absurd split.2 (Endpoint.pending_ne_nil writes.held sending)

def starting (session : Session C τ) (packet : Packet C) : Session C τ :=
  { session with endpoint.outgoing := packet, endpoint.sending := true, endpoint.refused := none }

theorem writes_dispatch (session : Session C τ) (packet : Packet C) :
    (session.starting packet).Writes (session.dispatch packet) :=
  writes_writeRest rfl rfl

end Session

end FramedLink
