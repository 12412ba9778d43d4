import FramedLink.Ring.Basic

/-! A ring as the queue of its elements. Main statements: pushing puts an element behind the others unless
there are already as many as there is room for, and popping takes the first one. -/

namespace FramedLink.Ring

variable {α : Type} {n : Nat}

private theorem length_elementsFrom (slots : Vector α (n + 1)) (slot : Fin (n + 1)) (count : Nat) :
    (elementsFrom slots slot count).length = count := by
  induction count generalizing slot with
  | zero => rfl
  | succ count ih => rw [elementsFrom, List.length_cons, ih]

@[simp] theorem length_toList (ring : Ring α n) : ring.toList.length = ring.size :=
  length_elementsFrom ..

theorem size_le (ring : Ring α n) : ring.size ≤ n := by
  have one := ring.head.isLt
  have two := ring.tail.isLt
  unfold size
  split <;> omega

theorem isEmpty_iff (ring : Ring α n) : ring.isEmpty = true ↔ ring.size = 0 := by
  have one := ring.head.isLt
  have two := ring.tail.isLt
  simp only [isEmpty, beq_iff_eq, Fin.ext_iff, size]
  split <;> omega

theorem isFull_iff (ring : Ring α n) : ring.isFull = true ↔ ring.size = n := by
  have one := ring.head.isLt
  have two := ring.tail.isLt
  simp only [isFull, beq_iff_eq, Fin.ext_iff, val_following, size]
  split <;> split <;> omega

@[simp] theorem toList_empty [Inhabited α] : (empty : Ring α n).toList = [] := rfl

theorem toList_pop {ring rest : Ring α n} {element : α} (taken : ring.pop = some (element, rest)) :
    ring.toList = element :: rest.toList := by
  have smaller := size_pop taken
  simp only [pop, Option.ite_none_left_eq_some, Option.some.injEq, Prod.mk.injEq] at taken
  obtain ⟨-, rfl, rfl⟩ := taken
  rw [toList, ← smaller, elementsFrom, toList]

theorem pop_eq_none_iff (ring : Ring α n) : ring.pop = none ↔ ring.toList = [] := by
  rw [← List.length_eq_zero_iff, length_toList, ← isEmpty_iff]
  simp [pop]

private theorem elementsFrom_set (slots : Vector α (n + 1)) (slot written : Fin (n + 1)) (element : α)
    (count : Nat)
    (outside : count ≤ if slot.val ≤ written.val then written.val - slot.val
      else n + 1 + written.val - slot.val) :
    elementsFrom (slots.set written element) slot count = elementsFrom slots slot count := by
  induction count generalizing slot with
  | zero => rfl
  | succ count ih =>
    have one := slot.isLt
    have two := written.isLt
    have different : written.val ≠ slot.val := by split at outside <;> omega
    rw [elementsFrom, elementsFrom, ih, Vector.getElem_set_ne _ _ different]
    rw [val_following]
    split at outside <;> split <;> split <;> omega

private theorem elementsFrom_succ (slots : Vector α (n + 1)) (slot last : Fin (n + 1)) (count : Nat)
    (few : count ≤ n)
    (there : last.val = if slot.val + count ≤ n then slot.val + count
      else slot.val + count - (n + 1)) :
    elementsFrom slots slot (count + 1) = elementsFrom slots slot count ++ [slots[last.val]] := by
  induction count generalizing slot with
  | zero =>
    have one := slot.isLt
    have same : last = slot := Fin.ext (by split at there <;> omega)
    subst same
    rfl
  | succ count ih =>
    have one := slot.isLt
    have next : last.val = if (following slot).val + count ≤ n then (following slot).val + count
        else (following slot).val + count - (n + 1) := by
      rw [val_following]
      split at there <;> split <;> split <;> omega
    rw [elementsFrom, ih _ (by omega) next]
    rfl

theorem push_of_isFull {ring : Ring α n} (full : ring.isFull = true) (element : α) :
    ring.push element = (ring, false) := by
  simp [push, full]

theorem push_of_not_isFull {ring : Ring α n} (room : ring.isFull = false) (element : α) :
    ring.push element = (ring.store element, true) := by
  simp [push, room]

theorem size_push {ring : Ring α n} (room : ring.isFull = false) (element : α) :
    (ring.push element).1.size = ring.size + 1 := by
  have one := ring.head.isLt
  have two := ring.tail.isLt
  have notFull : ring.size ≠ n := fun full => by simp [(isFull_iff ring).mpr full] at room
  rw [push_of_not_isFull room]
  simp only [size, store, val_following] at notFull ⊢
  split at notFull <;> split <;> split <;> omega

theorem toList_push {ring : Ring α n} (room : ring.isFull = false) (element : α) :
    (ring.push element).1.toList = ring.toList ++ [element] := by
  have one := ring.head.isLt
  have two := ring.tail.isLt
  rw [toList, size_push room, push_of_not_isFull room]
  have last : ring.tail.val = if ring.head.val + ring.size ≤ n then ring.head.val + ring.size
      else ring.head.val + ring.size - (n + 1) := by
    unfold size
    split <;> split <;> omega
  show elementsFrom (ring.store element).slots ring.head (ring.size + 1) = _
  rw [elementsFrom_succ _ _ ring.tail _ (size_le ring) last, store, elementsFrom_set,
    Vector.getElem_set_self]
  · rfl
  · exact Nat.le_refl _

end FramedLink.Ring
