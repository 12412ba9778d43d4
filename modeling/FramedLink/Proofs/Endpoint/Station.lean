import FramedLink.Proofs.Duplex.Exchange
import FramedLink.Proofs.Endpoint.Record

/-! An endpoint between two rings, to which the other side brings the bytes of a stream while it fetches what the
endpoint writes. Main statement: from wherever a run of it stands, some further turns bring it to its end. -/

namespace FramedLink

open Endpoint (Service)

theorem Ring.toList_pushAll {α : Type} {n : Nat} (ring : Ring α n) (elements : List α) :
    (ring.pushAll elements).1.toList = ring.toList ++ elements.take (ring.pushAll elements).2 ∧
      (ring.pushAll elements).2 ≤ elements.length := by
  induction elements generalizing ring with
  | nil => simp [pushAll]
  | cons element elements ih =>
    rw [pushAll]
    cases full : ring.isFull with
    | true =>
      rw [push_of_isFull full]
      simp
    | false =>
      obtain ⟨pushed, few⟩ := ih (ring.store element)
      have stored := toList_push full element
      rw [push_of_not_isFull full] at stored ⊢
      refine ⟨?_, Nat.succ_le_succ few⟩
      rw [show (ring.store element).toList = _ from stored, List.append_assoc] at pushed
      exact pushed

theorem Ring.toList_pushAll_ne_nil {α : Type} {n : Nat} (ring : Ring α n) (room : 0 < n) (element : α)
    (elements : List α) : (ring.pushAll (element :: elements)).1.toList ≠ [] := by
  rw [pushAll]
  cases full : ring.isFull with
  | true =>
    rw [push_of_isFull full, ← List.length_pos_iff, length_toList, (isFull_iff ring).mp full]
    exact room
  | false =>
    have stored := toList_push full element
    rw [push_of_not_isFull full] at stored ⊢
    rw [(toList_pushAll _ elements).1, stored]
    simp

theorem Ring.isFull_popUpTo {α : Type} {n : Nat} (ring : Ring α n) (room : 0 < n) :
    (ring.popUpTo 1).2.isFull = false := by
  rw [Bool.eq_false_iff, Ne, isFull_iff, popUpTo]
  rcases popped : ring.pop with _ | ⟨element, rest⟩
  · rw [pop_eq_none_iff] at popped
    rw [← length_toList, popped]
    exact Nat.ne_of_lt room
  · have fewer := size_pop popped
    have few := ring.size_le
    simp only [popUpTo]
    omega

/-- An endpoint on a port, and the bytes that have yet to arrive there. -/
structure Station (C : Capacity) (n : Nat) where
  session : Session C (Tapped (Port n))
  coming : Bytes

/-- What happens at a station: a call, or that the other side brings bytes, or that it fetches some. -/
inductive Turn where
  | call (call : Call)
  | arrive (count : Nat)
  | drain (count : Nat)
  deriving DecidableEq, Repr

def Turn.isRequest : Turn → Bool
  | call made => made.isRequest
  | arrive _ | drain _ => false

namespace Station

variable {C : Capacity} {n : Nat} {me : Service C} {station : Station C n} {stream : Bytes}

def opening (stream : Bytes) : Station C n where
  session := .opening ⟨.empty, .empty⟩
  coming := stream

def arrive (station : Station C n) (count : Nat) : Station C n :=
  let pushed := station.session.port.port.incoming.pushAll (station.coming.take count)
  { session := { station.session with port.port.incoming := pushed.1 }, coming := station.coming.drop pushed.2 }

def drain (station : Station C n) (count : Nat) : Station C n :=
  { station with session.port.port.outgoing := (station.session.port.port.outgoing.popUpTo count).2 }

def turn (me : Service C) (station : Station C n) : Turn → Station C n × List (Occasion C)
  | .call made =>
    let done := station.session.call me made
    ({ station with session := done.1 }, done.2)
  | .arrive count => (station.arrive count, [])
  | .drain count => (station.drain count, [])

def run (me : Service C) (station : Station C n) : List Turn → Station C n × List (Occasion C)
  | [] => (station, [])
  | turn :: turns =>
    let first := station.turn me turn
    let rest := first.1.run me turns
    (rest.1, first.2 ++ rest.2)

/-- The bytes of the stream are where they should be, and the call before left the endpoint in order. -/
structure Brings (stream : Bytes) (station : Station C n) : Prop where
  held : station.session.endpoint.refused.isSome = station.session.endpoint.sending
  split : station.session.port.read ++ station.session.port.port.incoming.toList ++ station.coming = stream

theorem brings_opening (stream : Bytes) : Brings stream (opening stream : Station C n) :=
  ⟨rfl, rfl⟩

theorem Brings.read_le_stream (brings : Brings stream station) : station.session.port.read <+: stream := by
  rw [← brings.split, List.append_assoc]
  exact List.prefix_append _ _

theorem Brings.call (brings : Brings stream station) (made : Call) :
    Brings stream { station with session := (station.session.call me made).1 } := by
  let motive (session : Session C (Tapped (Port n))) (_ : List (Occasion C)) : Prop :=
    Brings stream { station with session := session }
  have start : motive station.session [] := brings
  have same {before after : Session C (Tapped (Port n))} (took : ∃ bytes, Channel.Took before.port bytes after.port) :
      after.port.read ++ after.port.port.incoming.toList = before.port.read ++ before.port.port.incoming.toList := by
    obtain ⟨bytes, took⟩ := took
    obtain ⟨-, read, inner⟩ := Tapped.of_took took
    rw [read, (Port.of_took inner).1]
  have done : motive (station.session.call me made).1 ([] ++ (station.session.call me made).2) := by
    refine Session.call_induction ?_ ?_ ?_ start
    · rintro session occasions ⟨held, split⟩
      have writes := Session.writes_flush held
      obtain ⟨bytes, took, -⟩ := writes.flow
      refine ⟨writes.held, ?_⟩
      rw [same ⟨bytes, took⟩]
      exact split
    · rintro session occasions byte port - found ⟨held, split⟩
      obtain ⟨read, -, inner⟩ := Tapped.of_read found
      let moved : Session C (Tapped (Port n)) := { session with port := port }
      have kept : moved.endpoint.refused.isSome = moved.endpoint.sending := held
      have leaves := Session.leaves_accept (me.profile session.callCount) moved byte
      refine ⟨leaves.held kept, ?_⟩
      rw [same leaves.took]
      rw [(Port.of_read inner).1] at split
      rw [show moved.port = port from rfl, read]
      simpa using split
    · rintro - session occasions request payload ⟨held, split⟩
      have leaves := Session.leaves_send session request payload
      refine ⟨leaves.held held, ?_⟩
      rw [same leaves.took]
      exact split
  exact done

theorem Brings.arrive (brings : Brings stream station) (count : Nat) : Brings stream (station.arrive count) := by
  obtain ⟨pushed, few⟩ := station.session.port.port.incoming.toList_pushAll (station.coming.take count)
  refine ⟨brings.held, ?_⟩
  rw [List.length_take] at few
  rw [List.take_take, Nat.min_eq_left (by omega)] at pushed
  simp only [Station.arrive]
  rw [pushed, ← brings.split]
  simp

theorem Brings.turn (brings : Brings stream station) (turn : Turn) : Brings stream (station.turn me turn).1 := by
  cases turn with
  | call made => exact brings.call made
  | arrive count => exact brings.arrive count
  | drain count => exact ⟨brings.held, brings.split⟩

theorem Brings.run (brings : Brings stream station) (turns : List Turn) :
    Brings stream (station.run me turns).1 := by
  induction turns generalizing station with
  | nil => exact brings
  | cons turn turns ih => exact ih (brings.turn turn)

/-- All of the stream has been read, and nothing is on its way. -/
structure Finished (stream : Bytes) (station : Station C n) : Prop where
  read : station.session.port.read = stream
  idle : station.session.endpoint.sending = false

theorem run_append (me : Service C) (station : Station C n) (one two : List Turn) :
    (station.run me (one ++ two)).1 = ((station.run me one).1.run me two).1 := by
  induction one generalizing station with
  | nil => rfl
  | cons turn one ih => exact ih _

theorem exists_idle (me : Service C) (room : 0 < n) (station : Station C n)
    (held : station.session.endpoint.refused.isSome = station.session.endpoint.sending) :
    ∃ more : List Turn, (∀ turn ∈ more, turn.isRequest = false) ∧
      (station.run me more).1.session.endpoint.sending = false ∧
      (station.run me more).1.session.port.read = station.session.port.read := by
  cases sending : station.session.endpoint.sending with
  | false => exact ⟨[], by simp, sending, rfl⟩
  | true =>
    let drained := station.drain 1
    let next := (station.run me [.drain 1, .call .flush]).1
    have writes : drained.session.Writes next.session := Session.writes_flush held
    obtain ⟨byte, kept⟩ := Option.isSome_iff_exists.mp (held.trans sending)
    have free := station.session.port.port.outgoing.isFull_popUpTo room
    obtain ⟨port, accepted, written, inner⟩ := Session.write_tapped drained.session.port byte
    rw [Port.write_eq, show drained.session.port.port.outgoing.push byte = _ from Ring.push_of_not_isFull free byte]
      at inner
    obtain ⟨-, rfl⟩ := Prod.mk.injEq .. ▸ inner
    have fewer : drained.session.flush.1.endpoint.pending.length < drained.session.endpoint.pending.length :=
      Session.pending_flush_lt sending kept written
    obtain ⟨more, unasked, idle, read⟩ := exists_idle me room next writes.held
    refine ⟨[.drain 1, .call .flush] ++ more, ?_, ?_, ?_⟩
    · simpa [Turn.isRequest, Call.isRequest] using unasked
    · rw [run_append]
      exact idle
    · rw [run_append]
      exact read.trans writes.read_eq
termination_by station.session.endpoint.pending.length

theorem Brings.reads_next (brings : Brings stream station) (room : 0 < n)
    (idle : station.session.endpoint.sending = false) (unread : station.session.port.read ≠ stream) :
    station.session.port.read.length <
      (station.run me [.arrive 1, .call .poll]).1.session.port.read.length := by
  let ready := station.arrive 1
  have waiting : ready.session.port.port.incoming.toList ≠ [] := by
    have split := brings.split
    simp only [ready, Station.arrive]
    cases coming : station.coming with
    | nil =>
      rw [coming, List.append_nil] at split
      intro none
      rw [show station.session.port.port.incoming.toList = [] from none, List.append_nil] at split
      exact unread split
    | cons byte coming => exact Ring.toList_pushAll_ne_nil _ room byte _
  rcases popped : ready.session.port.port.incoming.pop with _ | ⟨byte, rest⟩
  · exact absurd ((Ring.pop_eq_none_iff _).mp popped) waiting
  · have inner : Channel.read ready.session.port.port =
        some (byte, { ready.session.port.port with incoming := rest }) := by
      change ready.session.port.port.read = _
      rw [Port.read, popped]
      rfl
    have grown : ready.session.port.read.length < (ready.session.call me .poll).1.port.read.length :=
      Session.read_poll_lt idle brings.held (Tapped.read_of_read inner)
    exact grown

theorem exists_finished (me : Service C) (room : 0 < n) (station : Station C n) (brings : Brings stream station) :
    ∃ more : List Turn, (∀ turn ∈ more, turn.isRequest = false) ∧ (station.run me more).1.Finished stream := by
  obtain ⟨first, unasked, idle, same⟩ := station.exists_idle me room brings.held
  have brought : Brings stream (station.run me first).1 := brings.run first
  by_cases done : (station.run me first).1.session.port.read = stream
  · exact ⟨first, unasked, done, idle⟩
  · let next := ((station.run me first).1.run me [.arrive 1, .call .poll]).1
    have again : Brings stream next := brought.run _
    have more : station.session.port.read.length < next.session.port.read.length :=
      same ▸ brought.reads_next room idle done
    have within := again.read_le_stream.length_le
    obtain ⟨others, besides, finished⟩ := exists_finished me room next again
    refine ⟨first ++ ([.arrive 1, .call .poll] ++ others), ?_, ?_⟩
    · simpa [or_imp, forall_and, Turn.isRequest, Call.isRequest] using ⟨unasked, besides⟩
    · rw [run_append, run_append]
      exact finished
termination_by stream.length - station.session.port.read.length
decreasing_by exact Nat.sub_lt_sub_left (Nat.lt_of_lt_of_le more within) more

end Station

end FramedLink
