import FramedLink.Duplex.Wires
import FramedLink.Proofs.Ring.Refinement
import Mathlib.Data.List.Basic

/-! Reading and writing at the two ends of a pair of wires, in any order. Main statement: each way is a
first-in-first-out queue of its own, which only writes at the one end and reads at the other concern. -/

namespace FramedLink.Wires

variable {n : Nat}

inductive Action where
  | write (side : Side) (byte : UInt8)
  | read (side : Side)
  deriving DecidableEq

def act (wires : Wires n) : Action → Wires n × Ring.Answer UInt8
  | .write side byte =>
    let written := (wires.port side).write byte
    (ofPort side written.1, .pushed written.2)
  | .read side =>
    match (wires.port side).read with
    | none => (wires, .popped none)
    | some (byte, port) => (ofPort side port, .popped (some byte))

def actAll (wires : Wires n) : List Action → Wires n × List (Action × Ring.Answer UInt8)
  | [] => (wires, [])
  | action :: actions =>
    let next := wires.act action
    let last := next.1.actAll actions
    (last.1, (action, next.2) :: last.2)

/-- What an action asks of the ring that leads to a side, if it concerns that ring. -/
def Action.towards (side : Side) : Action → Option (Ring.Operation UInt8)
  | .write writer byte => if writer = side then none else some (.push byte)
  | .read reader => if reader = side then some .pop else none

def answersTowards (side : Side) (trace : List (Action × Ring.Answer UInt8)) : List (Ring.Answer UInt8) :=
  trace.filterMap fun event => (event.1.towards side).map fun _ => event.2

def sentTo (side : Side) (event : Action × Ring.Answer UInt8) : Option UInt8 :=
  match event.1.towards side, event.2 with
  | some (.push byte), .pushed true => some byte
  | _, _ => none

def receivedAt (side : Side) (event : Action × Ring.Answer UInt8) : Option UInt8 :=
  match event.1.towards side, event.2 with
  | some .pop, .popped byte => byte
  | _, _ => none

theorem incoming_ofPort (one two : Side) (port : Port n) :
    ((ofPort one port).port two).incoming = if one = two then port.incoming else port.outgoing := by
  cases one <;> cases two <;> rfl

theorem incoming_port (one two : Side) (wires : Wires n) :
    (wires.port two).incoming = if one = two then (wires.port one).incoming else (wires.port one).outgoing := by
  cases one <;> cases two <;> rfl

theorem act_unconcerned {action : Action} {side : Side} (unconcerned : action.towards side = none) (wires : Wires n) :
    ((wires.act action).1.port side).incoming = (wires.port side).incoming := by
  cases action with
  | write writer byte =>
    have own : writer = side := by simpa [Action.towards] using unconcerned
    rw [act, incoming_ofPort, if_pos own, incoming_port writer side, if_pos own]
    rfl
  | read reader =>
    have other : reader ≠ side := by simpa [Action.towards] using unconcerned
    rw [act]
    cases taken : (wires.port reader).read with
    | none => rfl
    | some popped =>
      obtain ⟨_, -, rfl⟩ := Option.map_eq_some_iff.mp taken
      rw [incoming_ofPort, if_neg other, incoming_port reader side, if_neg other]

theorem act_concerned {action : Action} {side : Side} {operation : Ring.Operation UInt8}
    (concerned : action.towards side = some operation) (wires : Wires n) :
    ((wires.act action).1.port side).incoming = ((wires.port side).incoming.perform operation).1 ∧
      (wires.act action).2 = ((wires.port side).incoming.perform operation).2 := by
  cases action with
  | write writer byte =>
    simp only [Action.towards, Option.ite_none_left_eq_some, Option.some.injEq] at concerned
    obtain ⟨other, rfl⟩ := concerned
    rw [act, incoming_ofPort, if_neg other, incoming_port writer side, if_neg other]
    exact ⟨rfl, rfl⟩
  | read reader =>
    simp only [Action.towards, Option.ite_none_right_eq_some, Option.some.injEq] at concerned
    obtain ⟨rfl, rfl⟩ := concerned
    rw [act, Ring.perform, Port.read]
    cases (wires.port reader).incoming.pop with
    | none => exact ⟨rfl, rfl⟩
    | some popped => simp only [Option.map_some, port_ofPort, and_self]

theorem actAll_towards (wires : Wires n) (actions : List Action) (side : Side) :
    (((wires.actAll actions).1.port side).incoming, answersTowards side (wires.actAll actions).2) =
      (wires.port side).incoming.performAll (actions.filterMap (Action.towards side)) := by
  induction actions generalizing wires with
  | nil => rfl
  | cons action actions ih =>
    have rest := ih (wires.act action).1
    rw [actAll, List.filterMap_cons, answersTowards, List.filterMap_cons]
    cases concerned : action.towards side with
    | none =>
      -- The ring is left alone, and the sequence it sees does not have this action.
      rw [act_unconcerned concerned] at rest
      exact rest
    | some operation =>
      obtain ⟨left, answer⟩ := act_concerned concerned wires
      rw [Ring.performAll, ← left, ← rest, ← answer]
      rfl

theorem toList_act (wires : Wires n) (action : Action) (side : Side) :
    (wires.port side).incoming.toList ++ (sentTo side (action, (wires.act action).2)).toList =
      (receivedAt side (action, (wires.act action).2)).toList ++
        ((wires.act action).1.port side).incoming.toList := by
  unfold sentTo receivedAt
  cases concerned : action.towards side with
  | none =>
    rw [act_unconcerned concerned]
    exact List.append_nil _
  | some operation =>
    obtain ⟨left, answer⟩ := act_concerned concerned wires
    rw [left, answer]
    cases operation with
    | push byte =>
      simp only [Ring.perform]
      cases room : (wires.port side).incoming.isFull with
      | true =>
        rw [Ring.push_of_isFull room]
        exact List.append_nil _
      | false =>
        rw [Ring.toList_push room, Ring.push_of_not_isFull room]
        rfl
    | pop =>
      simp only [Ring.perform]
      cases taken : (wires.port side).incoming.pop with
      | none => exact List.append_nil _
      | some popped =>
        rw [Ring.toList_pop taken]
        exact List.append_nil _

theorem toList_actAll (wires : Wires n) (actions : List Action) (side : Side) :
    (wires.port side).incoming.toList ++ (wires.actAll actions).2.filterMap (sentTo side) =
      (wires.actAll actions).2.filterMap (receivedAt side) ++
        ((wires.actAll actions).1.port side).incoming.toList := by
  induction actions generalizing wires with
  | nil => exact List.append_nil _
  | cons action actions ih =>
    have step := toList_act wires action side
    have rest := ih (wires.act action).1
    simp only [List.filterMap_eq_flatMap_toList, actAll, List.flatMap_cons] at rest ⊢
    rw [← List.append_assoc, step, List.append_assoc, rest, List.append_assoc]

theorem incoming_idle (side : Side) : ((idle : Wires n).port side).incoming = .empty := by
  cases side <;> rfl

/-- Whatever is pushed and popped, a ring answers as the queue does that has as much room, and holds what that queue
holds, however often its marks went round; what it refuses leaves it alone. Of two idle wires each is such a ring, of
which the other one knows nothing: the bytes written at its one end and taken are, in order, those read at its other
end and those that still wait there. -/
theorem rings_refine_queues {α : Type} [Inhabited α] (n : Nat) :
    (∀ operations : List (Ring.Operation α),
      let ring := (Ring.empty : Ring α n).performAll operations
      let queue := Ring.Queue.performAll n [] operations
      ring.2 = queue.2 ∧ ring.1.toList = queue.1 ∧ ring.1.size = queue.1.length ∧
        (ring.1.isEmpty = true ↔ queue.1.length = 0) ∧ (ring.1.isFull = true ↔ queue.1.length = n) ∧
        ∀ operation, (ring.1.perform operation).2.failed = true → (ring.1.perform operation).1 = ring.1) ∧
    (∀ k, (∀ slot : Fin (2 ^ k - 1 + 1), (Ring.following slot).val = slot.val + 1 &&& (2 ^ k - 1)) ∧
      ∀ ring : Ring α (2 ^ k - 1), ring.size = ring.tail.val + 2 ^ k - ring.head.val &&& (2 ^ k - 1)) ∧
    ∀ (actions : List Action) (side : Side),
      let run := (idle : Wires n).actAll actions
      ((run.1.port side).incoming, answersTowards side run.2) =
          (Ring.empty : Ring UInt8 n).performAll (actions.filterMap (Action.towards side)) ∧
        run.2.filterMap (sentTo side) =
          run.2.filterMap (receivedAt side) ++ (run.1.port side).incoming.toList := by
  refine ⟨fun operations => ?_, fun k => ⟨Ring.val_following_masked, Ring.size_masked⟩, fun actions side => ?_⟩
  · have refined := Ring.performAll_refines (Ring.empty : Ring α n) operations
    rw [Ring.toList_empty] at refined
    have elements := congrArg Prod.fst refined
    have size := congrArg List.length elements
    rw [Prod.map_fst, Ring.length_toList] at size
    dsimp only
    rw [← size, Ring.isEmpty_iff, Ring.isFull_iff]
    exact ⟨congrArg Prod.snd refined, elements, rfl, Iff.rfl, Iff.rfl, fun _ => Ring.perform_of_failed⟩
  · have carried := toList_actAll (idle : Wires n) actions side
    have same := actAll_towards (idle : Wires n) actions side
    rw [incoming_idle, Ring.toList_empty, List.nil_append] at carried
    rw [incoming_idle] at same
    exact ⟨same, carried⟩

theorem full_ring_refuses :
    (((Ring.empty : Ring UInt8 1).performAll [.push 7, .pop, .push 8]).1.perform (.push 9)).2.failed = true ∧
      (((Ring.empty : Ring UInt8 1).performAll [.push 7, .pop, .push 8]).1.perform (.push 9)).1 =
        ((Ring.empty : Ring UInt8 1).performAll [.push 7, .pop, .push 8]).1 :=
  ⟨rfl, ((rings_refine_queues 1).1 [.push 7, .pop, .push 8]).2.2.2.2.2 (.push 9) rfl⟩

end FramedLink.Wires
