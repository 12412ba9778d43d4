import FramedLink.Proofs.Duplex.Exchange
import FramedLink.Proofs.Endpoint.Record

/-! What one poll gets done. Main statements: a host reads all that has arrived, an endpoint that is still sending
afterwards was refused a byte, and what an endpoint reads and writes in all never falls back. -/

namespace FramedLink

open Endpoint (Profile)

namespace Port

variable {n : Nat} {port after : Port n}

theorem read_eq_none_iff : Channel.read port = none ↔ port.incoming.toList = [] := by
  change port.read = none ↔ _
  rw [read, Option.map_eq_none_iff, Ring.pop_eq_none_iff]

theorem isFull_of_refused {byte : UInt8} (refused : Channel.write port byte = (after, false)) :
    after.outgoing.isFull = true := by
  rw [write_eq] at refused
  obtain ⟨rfl, refused⟩ := Prod.mk.injEq .. ▸ refused
  cases full : port.outgoing.isFull with
  | true =>
    rw [Ring.push_of_isFull full]
    exact full
  | false => simp [Ring.push_of_not_isFull full] at refused

theorem write_of_empty (room : 0 < n) (empty : port.outgoing.toList = []) (byte : UInt8) :
    (Channel.write port byte).2 = true := by
  have vacant : port.outgoing.isFull = false := by
    rw [Bool.eq_false_iff, Ne, Ring.isFull_iff, ← Ring.length_toList, empty]
    exact Nat.ne_of_lt room
  rw [write_eq, Ring.push_of_not_isFull vacant]

end Port

namespace Session

variable {C : Capacity} {τ : Type} [Channel τ] {me : Profile C} {session : Session C τ}

theorem poll_untapped (me : Profile C) (session : Session C (Tapped τ)) :
    (session.untapped.poll me).1 = (session.poll me).1.untapped := by
  have called : (session.untapped.call me.steady .poll).1 = (session.call me.steady .poll).1.untapped :=
    congrArg Prod.fst (call_untapped session .poll)
  rwa [call_steady, call_steady] at called

theorem read_eq_none_of_backlog (empty : Channel.backlog session.port = 0) : Channel.read session.port = none := by
  rcases found : Channel.read session.port with _ | ⟨byte, port⟩
  · rfl
  · have fewer := Channel.backlog_read found
    omega

theorem poll_of_quiet (idle : session.endpoint.sending = false) (empty : Channel.read session.port = none) :
    (session.poll me).1 = session := by
  have still : session.flush.1 = session := by rw [flush_of_idle idle]
  have nothing (budget : Nat) : (session.readUpTo me budget).1 = session := by
    cases budget with
    | zero => rfl
    | succ budget =>
      rw [readUpTo, empty]
      split <;> rfl
  rw [poll, readAll]
  simp only [still, nothing]

omit [Channel τ] in
theorem canRead_of_host (host : me.role = .host) (session : Session C τ) : session.canRead me = true := by
  rw [canRead, host]
  rfl

theorem read_readUpTo_of_host (host : me.role = .host) {budget : Nat} (enough : Channel.backlog session.port ≤ budget) :
    Channel.read (session.readUpTo me budget).1.port = none := by
  induction budget generalizing session with
  | zero => exact read_eq_none_of_backlog (Nat.le_zero.mp enough)
  | succ budget ih =>
    rw [readUpTo, if_pos (canRead_of_host host session)]
    rcases found : Channel.read session.port with _ | ⟨byte, port⟩
    · exact found
    · have fewer := Channel.backlog_read found
      have kept : Channel.backlog (({ session with port := port } : Session C τ).accept me byte).1.port ≤
          Channel.backlog port := backlog_accept ..
      exact ih (by omega)

theorem accept_of_host (host : me.role = .host) (session : Session C τ) (byte : UInt8) :
    ∃ receiver peer log, (session.accept me byte).1 =
      { session with endpoint.receiver := receiver, endpoint.peer := peer, log := log } := by
  rcases accept_cases me session byte with ⟨receiver, -, -, accepted⟩ | ⟨receiver, found, -, -, accepted⟩
  · exact ⟨receiver, _, _, accepted⟩
  · have silent := (react_of_host host host session.endpoint.outgoing session.endpoint.outgoing found).1
    rw [perform, silent] at accepted
    exact ⟨receiver, _, _, accepted⟩

theorem refused_of_writeOut {steps : Nat} (enough : session.endpoint.outgoing.remaining < steps)
    (sending : (session.writeOut steps).1.endpoint.sending = true) :
    ∃ before byte, Channel.write before byte = ((session.writeOut steps).1.port, false) := by
  induction steps generalizing session with
  | zero => omega
  | succ steps ih =>
    rw [writeOut] at sending ⊢
    split at sending
    · cases sending
    · rename_i packet byte taken
      have fewer := Packet.remaining_emit taken
      split at sending
      · rename_i port written
        exact ih (Nat.lt_of_lt_of_le fewer (by omega)) sending
      · rename_i port written
        exact ⟨session.port, byte, written⟩

theorem refused_of_flush (sending : session.flush.1.endpoint.sending = true) :
    ∃ before byte, Channel.write before byte = (session.flush.1.port, false) := by
  revert sending
  unfold flush
  split
  · split
    · exact refused_of_writeOut (Nat.lt_succ_self _)
    · split
      · exact refused_of_writeOut (Nat.lt_succ_self _)
      · rename_i byte _ _ port written
        exact fun _ => ⟨session.port, byte, written⟩
  · rename_i idle
    exact fun sending => absurd sending idle

theorem held_readUpTo (held : session.endpoint.refused.isSome = session.endpoint.sending) (budget : Nat) :
    (session.readUpTo me budget).1.endpoint.refused.isSome = (session.readUpTo me budget).1.endpoint.sending := by
  let motive (later : Session C τ) : Prop := later.endpoint.refused.isSome = later.endpoint.sending
  have done : motive (session.readUpTo me budget).1 := by
    refine readUpTo_induction ?_ held budget
    intro later byte port _ _ kept
    exact (leaves_accept me { later with port := port } byte).held kept
  exact done

structure Extends (before after : Session C (Tapped τ)) : Prop where
  read : before.port.read <+: after.port.read
  written : before.port.written <+: after.port.written

variable {before between after : Session C (Tapped τ)}

omit [Channel τ] in
theorem Extends.trans (first : Extends before between) (second : Extends between after) : Extends before after :=
  ⟨first.read.trans second.read, first.written.trans second.written⟩

theorem Writes.extends (writes : before.Writes after) : Extends before after :=
  ⟨writes.read_eq ▸ List.prefix_refl _, writes.written_grows⟩

theorem extends_readUpTo (me : Profile C) (before : Session C (Tapped τ)) (budget : Nat) :
    Extends before (before.readUpTo me budget).1 := by
  refine readUpTo_induction ?_ ⟨List.prefix_refl _, List.prefix_refl _⟩ budget
  intro session byte port _ found extended
  let moved : Session C (Tapped τ) := { session with port := port }
  have leaves : moved.Leaves (moved.accept me byte).1 := leaves_accept me moved byte
  obtain ⟨bytes, took⟩ := leaves.took
  obtain ⟨written, read, -⟩ := Tapped.of_took took
  obtain ⟨more, same, -⟩ := Tapped.of_read found
  refine extended.trans ⟨?_, ?_⟩
  · rw [read]
    exact ⟨[byte], more.symm⟩
  · rw [written]
    exact ⟨bytes, by rw [show moved.port.written = session.port.written from same]⟩

theorem extends_poll (me : Profile C) (held : before.endpoint.refused.isSome = before.endpoint.sending) :
    Extends before before.flush.1 ∧ Extends before.flush.1 (before.poll me).1 := by
  have writes := writes_flush held
  exact ⟨writes.extends,
    (extends_readUpTo me before.flush.1 _).trans (writes_flush (held_readUpTo writes.held _)).extends⟩

theorem written_poll_lt (me : Profile C) {byte : UInt8} {port : Tapped τ}
    (held : before.endpoint.refused.isSome = before.endpoint.sending) (sending : before.endpoint.sending = true)
    (kept : before.endpoint.refused = some byte) (taken : Channel.write before.port byte = (port, true)) :
    before.port.written.length < (before.poll me).1.port.written.length := by
  have later := (extends_poll me held).2.written.length_le
  have fewer := pending_flush_lt sending kept taken
  have flow := congrArg List.length (writes_flush held).outflow
  rw [List.length_append, List.length_append] at flow
  omega

theorem poll_of_host {n : Nat} {session : Session C (Port n)} (host : me.role = .host)
    (held : session.endpoint.refused.isSome = session.endpoint.sending) :
    (session.poll me).1.port.incoming.toList = [] ∧
      ((session.poll me).1.endpoint.sending = true → (session.poll me).1.port.outgoing.isFull = true) := by
  let read : Session C (Port n) := (session.flush.1.readAll me).1
  have kept : read.endpoint.refused.isSome = read.endpoint.sending := held_readUpTo (writes_flush held).held _
  constructor
  · obtain ⟨bytes, took, -⟩ := (writes_flush kept).flow
    have nothing : Channel.read read.port = none := read_readUpTo_of_host host (Nat.le_refl _)
    change read.flush.1.port.incoming.toList = []
    rw [(Port.of_took took).1]
    exact Port.read_eq_none_iff.mp nothing
  · intro sending
    obtain ⟨before, byte, refused⟩ := refused_of_flush sending
    exact Port.isFull_of_refused refused

end Session

end FramedLink
