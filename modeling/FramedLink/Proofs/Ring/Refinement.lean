import FramedLink.Ring.Queue
import Mathlib.Algebra.Group.Nat.Defs

/-! Runs of a ring beside runs of the queue it stands for. Main statement: over any pushing and popping the ring gives the
answers of a first-in-first-out queue with that much room, and its elements remain those of the queue. -/

namespace FramedLink.Ring

variable {α : Type} {n : Nat}

section Masked

variable {k : Nat}

private theorem masked (number : Nat) : number &&& (2 ^ k - 1) = number % (2 ^ k - 1 + 1) := by
  rw [Nat.and_two_pow_sub_one_eq_mod, Nat.sub_add_cancel Nat.one_le_two_pow]

/-- With a power of two as the number of slots, the lower bits of the successor are the slot that follows. -/
theorem val_following_masked (slot : Fin (2 ^ k - 1 + 1)) : (following slot).val = slot.val + 1 &&& (2 ^ k - 1) := by
  have bound := slot.isLt
  rw [val_following, masked]
  split
  · rename_i last
    rw [last, Nat.mod_self]
  · rename_i inner
    exact (Nat.mod_eq_of_lt (by omega)).symm

theorem size_masked (ring : Ring α (2 ^ k - 1)) :
    ring.size = ring.tail.val + 2 ^ k - ring.head.val &&& (2 ^ k - 1) := by
  have one := ring.head.isLt
  have two := ring.tail.isLt
  have whole : 2 ^ k = 2 ^ k - 1 + 1 := (Nat.sub_add_cancel Nat.one_le_two_pow).symm
  rw [masked, size]
  split
  · rename_i ordered
    have apart : ring.tail.val + 2 ^ k - ring.head.val = ring.tail.val - ring.head.val + (2 ^ k - 1 + 1) := by omega
    rw [apart, Nat.add_mod_right, Nat.mod_eq_of_lt (by omega)]
  · rename_i wrapped
    have apart : ring.tail.val + 2 ^ k - ring.head.val = 2 ^ k - 1 + 1 + ring.tail.val - ring.head.val := by omega
    rw [apart, Nat.mod_eq_of_lt (by omega)]

end Masked

inductive Operation (α : Type) where
  | push (element : α)
  | pop

inductive Answer (α : Type) where
  | pushed (taken : Bool)
  | popped (element : Option α)
  deriving DecidableEq, Repr

def Answer.failed : Answer α → Bool
  | .pushed taken => !taken
  | .popped element => element.isNone

def perform (ring : Ring α n) : Operation α → Ring α n × Answer α
  | .push element => ((ring.push element).1, .pushed (ring.push element).2)
  | .pop =>
    match ring.pop with
    | none => (ring, .popped none)
    | some (element, rest) => (rest, .popped (some element))

def performAll (ring : Ring α n) : List (Operation α) → Ring α n × List (Answer α)
  | [] => (ring, [])
  | operation :: operations =>
    let next := ring.perform operation
    let last := next.1.performAll operations
    (last.1, next.2 :: last.2)

namespace Queue

/-- What an operation makes of a first-in-first-out queue with room for a number of elements, the oldest first. -/
def perform (room : Nat) (queue : List α) : Operation α → List α × Answer α
  | .push element => if queue.length < room then (queue ++ [element], .pushed true) else (queue, .pushed false)
  | .pop => (queue.tail, .popped queue.head?)

def performAll (room : Nat) (queue : List α) : List (Operation α) → List α × List (Answer α)
  | [] => (queue, [])
  | operation :: operations =>
    let next := perform room queue operation
    let last := performAll room next.1 operations
    (last.1, next.2 :: last.2)

end Queue

theorem perform_refines (ring : Ring α n) (operation : Operation α) :
    (ring.perform operation).map toList id = Queue.perform n ring.toList operation := by
  cases operation with
  | push element =>
    simp only [perform, Queue.perform, length_toList, Prod.map, id]
    cases room : ring.isFull with
    | true =>
      have full := (isFull_iff ring).mp room
      rw [push_of_isFull room, if_neg (by omega)]
    | false =>
      have size := size_le ring
      have short : ring.size ≠ n := fun full => by simp [(isFull_iff ring).mpr full] at room
      rw [if_pos (by omega), toList_push room, push_of_not_isFull room]
  | pop =>
    rw [perform, Queue.perform]
    cases taken : ring.pop with
    | none =>
      have nothing := (pop_eq_none_iff ring).mp taken
      simp [nothing]
    | some popped =>
      obtain ⟨element, rest⟩ := popped
      simp [toList_pop taken]

theorem performAll_refines (ring : Ring α n) (operations : List (Operation α)) :
    (ring.performAll operations).map toList id = Queue.performAll n ring.toList operations := by
  induction operations generalizing ring with
  | nil => rfl
  | cons operation operations ih =>
    have step := perform_refines ring operation
    have rest := ih (ring.perform operation).1
    rw [Queue.performAll, ← step]
    simp only [Prod.map, id, performAll] at rest ⊢
    rw [← rest]

theorem perform_of_failed {ring : Ring α n} {operation : Operation α}
    (failed : (ring.perform operation).2.failed = true) : (ring.perform operation).1 = ring := by
  cases operation with
  | push element =>
    cases room : ring.isFull with
    | true => rw [perform, push_of_isFull room]
    | false => simp [perform, push_of_not_isFull room, Answer.failed] at failed
  | pop =>
    simp only [perform] at failed ⊢
    cases taken : ring.pop with
    | none => rfl
    | some popped => simp [taken, Answer.failed] at failed

end FramedLink.Ring
