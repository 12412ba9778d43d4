import FramedLink.Proofs.Packet.Renewal
import Mathlib.Data.List.Induction

/-! A frame that is put together piece by piece. Main statement: a packet that starts with nothing takes the pieces that
fit, is left as it was by one that does not, and once committed it sends what composing the whole frame sends. -/

namespace FramedLink.Packet

variable {C : Capacity} {packet : Packet C} {bytes : Bytes}

def Operation.isDrafting : Operation → Bool
  | .append _ | .setRequest _ | .setResponse _ | .commit => true
  | _ => false

def Operation.request? : Operation → Option UInt16
  | .setRequest code => some code
  | _ => none

def Operation.response? : Operation → Option UInt16
  | .setResponse code => some code
  | _ => none

def piece? : Operation × Answer → Option Bytes
  | (.append bytes, .accepted true) => some bytes
  | _ => none

def pieces (operations : List Operation) (answers : List Answer) : List Bytes :=
  (operations.zip answers).filterMap piece?

/-- The frame that the operations put together: the codes that were set last and the pieces that were accepted. -/
def draft (operations : List Operation) (answers : List Answer) : Frame where
  request := (operations.filterMap Operation.request?).getLast?.getD 0
  response := (operations.filterMap Operation.response?).getLast?.getD 0
  payload := (pieces operations answers).flatten

theorem pieces_concat {operations : List Operation} {answers : List Answer} (size : operations.length = answers.length)
    (operation : Operation) (answer : Answer) :
    pieces (operations ++ [operation]) (answers ++ [answer]) =
      pieces operations answers ++ (piece? (operation, answer)).toList := by
  rw [pieces, List.zip_append size, List.filterMap_append, ← pieces]
  cases taken : piece? (operation, answer) <;> simp [taken]

def amend (frame : Frame) : Operation → Answer → Frame
  | .append bytes, .accepted true => { frame with payload := frame.payload ++ bytes }
  | .setRequest code, _ => { frame with request := code }
  | .setResponse code, _ => { frame with response := code }
  | _, _ => frame

private theorem getLast?_filterMap_concat {α : Type} (operations : List Operation) (operation : Operation)
    (given : Operation → Option α) (otherwise : α) :
    ((operations ++ [operation]).filterMap given).getLast?.getD otherwise =
      (given operation).getD ((operations.filterMap given).getLast?.getD otherwise) := by
  rw [List.filterMap_append]
  cases gives : given operation with
  | none => simp [gives]
  | some code => simp [gives]

theorem draft_concat {operations : List Operation} {answers : List Answer} (size : operations.length = answers.length)
    (operation : Operation) (answer : Answer) :
    draft (operations ++ [operation]) (answers ++ [answer]) = amend (draft operations answers) operation answer := by
  rw [draft, getLast?_filterMap_concat, getLast?_filterMap_concat, pieces_concat size, List.flatten_append]
  unfold amend
  split <;> simp_all [draft, Operation.request?, Operation.response?, piece?]

theorem length_performAll (packet : Packet C) (operations : List Operation) :
    (packet.performAll operations).2.length = operations.length := by
  induction operations generalizing packet with
  | nil => rfl
  | cons operation operations ih => rw [performAll, List.length_cons, List.length_cons, ih]

theorem append_of_fits (fits : bytes.length + packet.length ≤ C) :
    packet.append bytes =
      ({ packet with
          buffer := overwrite packet.buffer packet.length bytes
          header.length := UInt16.ofNat (bytes.length + packet.length)
          status := .ok }, true) :=
  if_pos fits

theorem payload_append (fits : bytes.length + packet.length ≤ C) :
    (packet.append bytes).1.payload = packet.payload ++ bytes := by
  have small := C.isLt
  have length : (UInt16.ofNat (bytes.length + packet.length)).toNat = packet.length + bytes.length := by
    rw [UInt16.toNat_ofNat', Nat.mod_eq_of_lt (by omega), Nat.add_comm]
  rw [append_of_fits fits]
  change ((overwrite packet.buffer packet.length bytes).take
    (UInt16.ofNat (bytes.length + packet.length)).toNat).toList = _
  rw [length, Vector.toList_take, take_overwrite _ _ _ (by omega), payload, Vector.toList_take]

theorem append_of_excess (excess : C < bytes.length + packet.length) :
    packet.append bytes = ({ packet with status := .overflow }, false) := by
  rw [append, if_neg (Nat.not_le_of_lt excess)]

structure Drafted (packet : Packet C) (frame : Frame) : Prop where
  contained : packet.Contained
  frame : packet.frame = frame

theorem Ready.drafted (ready : packet.Ready) : packet.Drafted (draft [] []) := by
  have header : packet.header = {} := by cases ready <;> rfl
  have empty : packet.length = 0 := by rw [length, header]; rfl
  refine ⟨by rw [Contained, empty]; exact Nat.zero_le _, ?_⟩
  rw [Packet.frame, payload, header, Vector.toList_take, empty]
  rfl

theorem Drafted.length_payload {frame : Frame} (drafted : packet.Drafted frame) :
    frame.payload.length = packet.length := by
  rw [← drafted.frame]
  exact Packet.length_payload drafted.contained

theorem Drafted.perform {frame : Frame} (drafted : packet.Drafted frame) {operation : Operation}
    (drafting : operation.isDrafting) :
    (packet.perform operation).1.Drafted (amend frame operation (packet.perform operation).2) := by
  obtain ⟨contained, rfl⟩ := drafted
  cases operation with
  | append bytes =>
    by_cases fits : bytes.length + packet.length ≤ C
    · have payload := payload_append fits
      have taken := append_of_fits fits
      rw [taken] at payload
      rw [Packet.perform, taken]
      exact ⟨contained_append taken, congrArg (Frame.mk packet.header.request packet.header.response) payload⟩
    · rw [Packet.perform, append_of_excess (Nat.lt_of_not_le fits)]
      exact ⟨contained, rfl⟩
  | setRequest _ | setResponse _ | commit => exact ⟨contained, rfl⟩
  | _ => cases drafting

theorem Ready.performAll_drafted (ready : packet.Ready) {operations : List Operation}
    (drafting : ∀ operation ∈ operations, operation.isDrafting) :
    (packet.performAll operations).1.Drafted (draft operations (packet.performAll operations).2) := by
  -- From the end: a draft goes by all answers so far, and the last operation amends it.
  induction operations using List.reverseRecOn with
  | nil => exact ready.drafted
  | append_singleton operations operation ih =>
    have earlier := ih fun other member => drafting other (List.mem_append_left _ member)
    have next := earlier.perform (drafting operation (List.mem_append_right _ (.head _)))
    rw [performAll_concat, draft_concat (length_performAll packet operations).symm]
    exact next

/-- A packet that is ready and drafts a frame accepts a piece just when it fits beside those it accepted before, and one
that it refuses shows in its status alone. Its payload is at any time what the accepted pieces make together, and if it
is committed it is valid and sends what any packet sends that composes the codes set last with that payload. -/
theorem drafted_as_composed (ready : packet.Ready) {operations : List Operation}
    (drafting : ∀ operation ∈ operations, operation.isDrafting) :
    let after := (packet.performAll operations).1
    let accepted := (pieces operations (packet.performAll operations).2).flatten
    let request := (operations.filterMap Operation.request?).getLast?.getD 0
    let response := (operations.filterMap Operation.response?).getLast?.getD 0
    (∀ bytes, ((after.append bytes).2 = true ↔ accepted.length + bytes.length ≤ C) ∧
        ((after.append bytes).2 = false → (after.append bytes).1 = { after with status := .overflow })) ∧
      after.payload = accepted ∧ after.commit.isValid = true ∧
      ∀ other : Packet C, (other.compose ⟨request, response, accepted⟩).2 = true ∧
        after.commit.wire = (other.compose ⟨request, response, accepted⟩).1.wire := by
  intro after accepted request response
  have drafted : after.Drafted ⟨request, response, accepted⟩ := ready.performAll_drafted drafting
  have size : accepted.length = after.length := drafted.length_payload
  have contained := drafted.contained
  have fits : accepted.length ≤ C := by rw [size]; exact contained
  have carries := carries_commit contained
  rw [drafted.frame] at carries
  refine ⟨?_, congrArg Frame.payload drafted.frame, ?_, ?_⟩
  · intro bytes
    rw [size]
    by_cases whole : bytes.length + after.length ≤ C
    · rw [append_of_fits whole]
      exact ⟨iff_of_true rfl (by omega), Bool.noConfusion⟩
    · rw [append_of_excess (Nat.lt_of_not_le whole)]
      exact ⟨iff_of_false Bool.false_ne_true (by omega), fun _ => rfl⟩
  · rw [isValid_iff carries.contained, carries.wire]
    exact Frame.intact_wire _
  · intro other
    have composed : (other.compose ⟨request, response, accepted⟩).1.Carries ⟨request, response, accepted⟩ :=
      carries_compose other fits
    exact ⟨by rw [compose_snd, decide_eq_true fits], carries.wire.trans composed.wire.symm⟩

theorem drafted_as_composed_of_three_pieces :
    let packet := ((fresh : Packet ⟨4, by decide⟩).compose ⟨9, 9, [9, 9, 9, 9]⟩).1.restart
    let operations : List Operation :=
      [.append [1, 2], .setRequest 5, .append [3, 4, 5], .commit, .append [6], .setResponse 7, .setRequest 8]
    let after := (packet.performAll operations).1
    packet.Ready ∧ (∀ operation ∈ operations, operation.isDrafting) ∧
      (after.append [7]).2 = true ∧ (after.append [7, 8]).2 = false ∧ after.payload = [1, 2, 6] ∧
      after.commit.isValid = true ∧
      after.commit.wire = ((fresh : Packet ⟨4, by decide⟩).compose ⟨8, 7, [1, 2, 6]⟩).1.wire := by
  intro packet operations after
  have ready : packet.Ready := .restart _
  have drafting : ∀ operation ∈ operations, operation.isDrafting := by decide
  obtain ⟨appended, payload, valid, composed⟩ := drafted_as_composed ready drafting
  have more := (appended [7]).1.mpr (by decide +kernel)
  have excess := Bool.eq_false_iff.mpr fun taken => absurd ((appended [7, 8]).1.mp taken) (by decide +kernel)
  exact ⟨ready, drafting, more, excess, payload.trans (by decide +kernel), valid,
    (composed fresh).2.trans (by decide +kernel)⟩

end FramedLink.Packet
