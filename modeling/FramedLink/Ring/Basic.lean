/-! A bounded queue in a ring of slots, one more than there is room for elements: the slot that stays
empty tells a full ring from an empty one. -/

namespace FramedLink

/-- A ring with room for `n` elements. `head` is the slot of the oldest element and `tail` the slot for
the next one. -/
structure Ring (α : Type) (n : Nat) where
  slots : Vector α (n + 1)
  head : Fin (n + 1)
  tail : Fin (n + 1)

namespace Ring

variable {α : Type} {n : Nat}

def following (slot : Fin (n + 1)) : Fin (n + 1) :=
  if last : slot.val = n then ⟨0, Nat.succ_pos n⟩
  else ⟨slot.val + 1, by have bound := slot.isLt; omega⟩

def empty [Inhabited α] : Ring α n where
  slots := Vector.replicate (n + 1) default
  head := ⟨0, Nat.succ_pos n⟩
  tail := ⟨0, Nat.succ_pos n⟩

instance [Inhabited α] : Inhabited (Ring α n) := ⟨empty⟩

def isEmpty (ring : Ring α n) : Bool :=
  ring.head == ring.tail

def isFull (ring : Ring α n) : Bool :=
  following ring.tail == ring.head

def size (ring : Ring α n) : Nat :=
  if ring.head.val ≤ ring.tail.val then ring.tail.val - ring.head.val
  else n + 1 + ring.tail.val - ring.head.val

def store (ring : Ring α n) (element : α) : Ring α n where
  slots := ring.slots.set ring.tail.val element ring.tail.isLt
  head := ring.head
  tail := following ring.tail

/-- Puts an element behind the others; a full ring refuses it and stays as it is. -/
def push (ring : Ring α n) (element : α) : Ring α n × Bool :=
  if ring.isFull then (ring, false)
  else (ring.store element, true)

def pop (ring : Ring α n) : Option (α × Ring α n) :=
  if ring.isEmpty then none
  else some (ring.slots[ring.head.val], { ring with head := following ring.head })

def pushAll (ring : Ring α n) : List α → Ring α n × Nat
  | [] => (ring, 0)
  | element :: elements =>
    match ring.push element with
    | (_, false) => (ring, 0)
    | (grown, true) =>
      let (last, count) := grown.pushAll elements
      (last, count + 1)

def popUpTo (ring : Ring α n) : Nat → List α × Ring α n
  | 0 => ([], ring)
  | count + 1 =>
    match ring.pop with
    | none => ([], ring)
    | some (element, rest) =>
      let (elements, last) := rest.popUpTo count
      (element :: elements, last)

def elementsFrom (slots : Vector α (n + 1)) (slot : Fin (n + 1)) : Nat → List α
  | 0 => []
  | count + 1 => slots[slot.val] :: elementsFrom slots (following slot) count

def toList (ring : Ring α n) : List α :=
  elementsFrom ring.slots ring.head ring.size

theorem val_following (slot : Fin (n + 1)) :
    (following slot).val = if slot.val = n then 0 else slot.val + 1 := by
  unfold following
  split <;> rfl

theorem size_pop {ring rest : Ring α n} {element : α} (taken : ring.pop = some (element, rest)) :
    rest.size + 1 = ring.size := by
  simp only [pop, isEmpty, beq_iff_eq, Option.ite_none_left_eq_some, Option.some.injEq,
    Prod.mk.injEq] at taken
  obtain ⟨apart, -, rfl⟩ := taken
  have different : ring.head.val ≠ ring.tail.val := fun same => apart (Fin.ext same)
  have one := ring.head.isLt
  have two := ring.tail.isLt
  simp only [size, val_following]
  split <;> split <;> split <;> omega

end Ring

end FramedLink
