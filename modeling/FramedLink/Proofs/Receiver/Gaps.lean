import FramedLink.Proofs.Receiver.Account
import FramedLink.Proofs.Receiver.Arrival
import Mathlib.Data.List.Forall2

/-! Where a receiver loses the framing. Main statement: in noise it tells so at the first byte of each run of bytes
other than the marker, since a marker byte could begin a frame, and so once more often than the noise has marker bytes
behind its first byte; and the frame after the noise it finds at its place. -/

namespace FramedLink

namespace Frame

variable {noise : Bytes} {byte : UInt8}

def startsRun (noise : Bytes) (index : Nat) : Bool :=
  noise[index]?.any (· != markerByte) && (index == 0 || noise[index - 1]? == some markerByte)

/-- The indices of the bytes that start a run of bytes other than the marker. -/
def runStarts (noise : Bytes) : List Nat :=
  (List.range noise.length).filter (startsRun noise)

theorem startsRun_append_left {more : Bytes} {index : Nat} (inside : index < noise.length) :
    startsRun (noise ++ more) index = startsRun noise index := by
  rw [startsRun, startsRun, List.getElem?_append_left inside, List.getElem?_append_left (by omega)]

theorem startsRun_last (noise : Bytes) (byte : UInt8) :
    startsRun (noise ++ [byte]) noise.length =
      decide (byte ≠ markerByte ∧ (noise = [] ∨ noise.getLast? = some markerByte)) := by
  rw [startsRun, List.getElem?_concat_length]
  rcases List.eq_nil_or_concat noise with rfl | ⟨before, last, rfl⟩
  · by_cases other : byte = markerByte <;> simp [other]
  · have previous : (before ++ [last] ++ [byte])[before.length]? = some last := by
      rw [List.getElem?_append_left (by simp), List.getElem?_concat_length]
    have size : (before ++ [last]).length - 1 = before.length := by simp
    rw [List.concat_eq_append, size, previous, List.getLast?_concat]
    by_cases other : byte = markerByte <;> by_cases same : last = markerByte <;> simp [other, same]

theorem runStarts_concat (noise : Bytes) (byte : UInt8) :
    runStarts (noise ++ [byte]) = runStarts noise ++
      if byte ≠ markerByte ∧ (noise = [] ∨ noise.getLast? = some markerByte) then [noise.length] else [] := by
  have earlier : (List.range noise.length).filter (startsRun (noise ++ [byte])) = runStarts noise := by
    apply List.filter_congr
    intro index member
    exact startsRun_append_left (List.mem_range.mp member)
  rw [runStarts, List.length_append, List.length_singleton, List.range_succ, List.filter_append, earlier,
    List.filter_cons, List.filter_nil, startsRun_last]
  simp only [decide_eq_true_eq]

theorem lt_of_mem_runStarts {index : Nat} (member : index ∈ runStarts noise) : index < noise.length :=
  List.mem_range.mp (List.mem_filter.mp member).1

theorem markerStart?_of_concat (apart : markerStart? (noise ++ [byte]) = none) :
    markerStart? noise = none ∧ (noise.getLast? = some markerByte → byte ≠ markerByte) := by
  rw [markerStart?_concat, Option.or_eq_none_iff] at apart
  refine ⟨apart.1, ?_⟩
  intro last same
  rw [if_pos ⟨last, same⟩] at apart
  cases apart.2

theorem length_runStarts (apart : markerStart? noise = none) :
    (runStarts noise).length = noise.tail.count markerByte +
      if noise = [] ∨ noise.getLast? = some markerByte then 0 else 1 := by
  induction noise using List.reverseRecOn with
  | nil => rfl
  | append_singleton noise byte ih =>
    obtain ⟨before, alone⟩ := markerStart?_of_concat apart
    rw [runStarts_concat, List.length_append, ih before, List.getLast?_concat]
    by_cases empty : noise = []
    · rw [empty]
      by_cases marker : byte = markerByte <;> simp [marker]
    · rw [List.tail_append_of_ne_nil empty, List.count_append]
      by_cases marker : byte = markerByte
      · have other : noise.getLast? ≠ some markerByte := fun last => alone last marker
        simp [marker, other, empty]
      · by_cases last : noise.getLast? = some markerByte <;> simp [marker, last, empty]

end Frame

namespace Receiver

variable {C : Capacity} {receiver : Receiver C} {before bytes noise : Bytes} {byte : UInt8}

/-- What the receiver finds in the bytes, each with the index of the byte that shows it. -/
def locate (receiver : Receiver C) (offset : Nat) : Bytes → List (Nat × Finding C)
  | [] => []
  | byte :: bytes =>
    let next := receiver.take byte
    (next.2.map fun found => (offset, found)).toList ++ next.1.locate (offset + 1) bytes

theorem map_snd_locate (receiver : Receiver C) (offset : Nat) (bytes : Bytes) :
    (receiver.locate offset bytes).map Prod.snd = (receiver.takeAll bytes).2 := by
  induction bytes generalizing receiver offset with
  | nil => rfl
  | cons byte bytes ih =>
    simp only [locate, takeAll, List.map_append, ih]
    cases (receiver.take byte).2 <;> rfl

theorem locate_append (receiver : Receiver C) (offset : Nat) (one two : Bytes) :
    receiver.locate offset (one ++ two) =
      receiver.locate offset one ++ (receiver.takeAll one).1.locate (offset + one.length) two := by
  induction one generalizing receiver offset with
  | nil => rfl
  | cons byte one ih =>
    simp only [List.cons_append, locate, takeAll, ih, List.append_assoc, List.length_cons]
    rw [Nat.add_right_comm, Nat.add_assoc]

structure Hunts (receiver : Receiver C) (noise : Bytes) : Prop where
  holding : receiver.Holding (if noise.getLast? = some Frame.markerByte then [Frame.markerByte] else [])
  inGap : receiver.inGap = decide (noise ≠ [] ∧ noise.getLast? ≠ some Frame.markerByte)

theorem hunts_fresh : Hunts ({} : Receiver C) [] :=
  ⟨holding_nil Packet.Ready.fresh.holds, rfl⟩

theorem hunts_restart (packet : Packet C) : Hunts ⟨packet.restart, false⟩ [] :=
  ⟨holding_restart packet, rfl⟩

inductive Lost : Nat × Finding C → Nat → Prop
  | gap (index : Nat) (packet : Packet C) : Lost (index, .gap packet) index

theorem Hunts.take_marker (hunts : receiver.Hunts noise) (alone : noise.getLast? ≠ some Frame.markerByte) :
    (receiver.take Frame.markerByte).1.Hunts (noise ++ [Frame.markerByte]) ∧
      (receiver.take Frame.markerByte).2 = none := by
  have holding := hunts.holding
  rw [if_neg alone] at holding
  have taken := holding.taken Frame.markerByte
  generalize (receiver.packet.receive Frame.markerByte).2 = outcome at taken
  generalize receiver.take Frame.markerByte = next at taken
  -- One byte is too short for anything but the beginning of a frame.
  have short : ([] ++ [Frame.markerByte]).length < Frame.headerSize := by decide
  cases taken with
  | kept holding =>
    refine ⟨⟨?_, ?_⟩, rfl⟩
    · rw [List.getLast?_concat, if_pos rfl]
      exact holding
    · simp
  | skipped _ other => exact absurd rfl other
  | completed _ whole => exact absurd whole.size (by omega)
  | damaged _ size => exact absurd size (by omega)
  | oversized size => exact absurd size (by omega)

theorem Hunts.take_other (hunts : receiver.Hunts noise) (other : byte ≠ Frame.markerByte) :
    (receiver.take byte).1.Hunts (noise ++ [byte]) ∧
      ((receiver.take byte).2 = none ∧ ¬ (noise = [] ∨ noise.getLast? = some Frame.markerByte) ∨
        (noise = [] ∨ noise.getLast? = some Frame.markerByte) ∧
          ∃ packet, (receiver.take byte).2 = some (.gap packet)) := by
  have short : (if noise.getLast? = some Frame.markerByte then [Frame.markerByte] else []).length < 2 := by
    split <;> decide
  obtain ⟨answer, rests⟩ := hunts.holding.holds.receive_noise short other
  rw [take_of_noMarker answer]
  dsimp only
  refine ⟨⟨?_, ?_⟩, ?_⟩
  · rw [List.getLast?_concat, if_neg (by simpa using other)]
    exact holding_nil rests
  · simp [other]
  · rw [hunts.inGap]
    by_cases start : noise = [] ∨ noise.getLast? = some Frame.markerByte
    · refine .inr ⟨start, _, if_neg ?_⟩
      rw [decide_eq_true_iff, not_and_or, not_not, not_not]
      exact start
    · refine .inl ⟨if_pos ?_, start⟩
      rw [decide_eq_true_iff, ← not_or]
      exact start

theorem hunts_noise (hunts : receiver.Hunts []) (offset : Nat) (apart : Frame.markerStart? noise = none) :
    (receiver.takeAll noise).1.Hunts noise ∧
      List.Forall₂ Lost (receiver.locate offset noise) ((Frame.runStarts noise).map (offset + ·)) := by
  induction noise using List.reverseRecOn with
  | nil => exact ⟨hunts, .nil⟩
  | append_singleton noise byte ih =>
    obtain ⟨before, alone⟩ := Frame.markerStart?_of_concat apart
    obtain ⟨still, lost⟩ := ih before
    rw [takeAll_append, locate_append, Frame.runStarts_concat, List.map_append, takeAll, locate, takeAll, locate,
      List.append_nil]
    by_cases marker : byte = Frame.markerByte
    · rw [marker] at alone ⊢
      obtain ⟨next, silent⟩ := still.take_marker fun last => alone last rfl
      refine ⟨next, List.rel_append lost ?_⟩
      rw [silent, if_neg (by simp)]
      exact .nil
    · obtain ⟨next, ⟨silent, within⟩ | ⟨start, packet, found⟩⟩ := still.take_other marker
      · refine ⟨next, List.rel_append lost ?_⟩
        rw [silent, if_neg (fun starts => within starts.2)]
        exact .nil
      · refine ⟨next, List.rel_append lost ?_⟩
        rw [found, if_pos ⟨marker, start⟩]
        exact .cons (.gap _ packet) .nil

theorem locate_of_awaits {frame : Frame} (awaits : receiver.packet.Awaits bytes [frame]) (offset : Nat) :
    ∃ packet : Packet C, packet.wire = frame.wire ∧ (receiver.takeAll bytes).1 = ⟨packet.restart, false⟩ ∧
      receiver.locate offset bytes = [(offset + bytes.length - 1, .frame packet)] := by
  induction bytes generalizing receiver offset with
  | nil => cases awaits.eq_nil
  | cons byte bytes ih =>
    rcases take_of_awaits awaits with ⟨packet, taken, still⟩ | ⟨found, rest, packet, frames, taken, wire, done⟩
    · obtain ⟨last, wire, after, located⟩ := @ih ⟨packet, false⟩ still (offset + 1)
      refine ⟨last, wire, ?_, ?_⟩
      · rw [takeAll, taken]
        exact after
      · rw [locate, taken, List.length_cons, ← Nat.add_assoc, Nat.add_right_comm]
        exact located
    · obtain ⟨rfl, rfl⟩ : found = frame ∧ rest = [] := by simpa using frames.symm
      obtain ⟨-, arrived, -, -, split⟩ := done
      obtain ⟨-, rfl⟩ := List.append_eq_nil_iff.mp split
      refine ⟨packet, wire, ?_, ?_⟩
      · rw [takeAll, taken]
        rfl
      · rw [locate, taken]
        rfl

end Receiver

end FramedLink
