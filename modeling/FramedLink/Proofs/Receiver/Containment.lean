import FramedLink.Proofs.Packet.Composition
import FramedLink.Proofs.Packet.Grammar
import FramedLink.Receiver

/-! Faults stay where they are. Main statement: in a stream of frames, damaged frames, refused headers and noise a
receiver finds just what each of them is, whatever comes before and after it. -/

namespace FramedLink

namespace Finding

variable {C : Capacity}

def conclusion? : Finding C → Option (Except Status Frame)
  | gap _ => none
  | frame packet => some (.ok packet.frame)
  | fault status _ => some (.error status)

def conclusions (findings : List (Finding C)) : List (Except Status Frame) :=
  findings.filterMap conclusion?

/-- Whether the header of a frame that was found is the one that its frame is sent with. -/
def Genuine : Finding C → Prop
  | frame packet => packet.wire = packet.frame.wire
  | _ => True

end Finding

private theorem Packet.exists_last {C : Capacity} {packet : Packet C} {bytes : Bytes} {count : Nat} {outcome : Outcome}
    (answers : (packet.receiveAll bytes).2 = List.replicate count .inProgress ++ [outcome]) :
    ∃ before last, bytes = before ++ [last] ∧ (packet.receiveAll before).2 = List.replicate count .inProgress ∧
      (packet.receiveAll before).1.receive last = ((packet.receiveAll bytes).1, outcome) := by
  rcases List.eq_nil_or_concat bytes with rfl | ⟨before, last, rfl⟩
  · simp [Packet.receiveAll] at answers
  · rw [List.concat_eq_append] at answers ⊢
    rw [Packet.receiveAll_concat] at answers ⊢
    obtain ⟨earlier, answer⟩ := List.append_inj' answers rfl
    simp only [List.cons.injEq, and_true] at answer
    exact ⟨before, last, rfl, earlier, by rw [← answer]⟩

namespace Receiver

variable {C : Capacity} {receiver : Receiver C} {bytes : Bytes} {byte : UInt8}

theorem takeAll_append (receiver : Receiver C) (one two : Bytes) :
    receiver.takeAll (one ++ two) =
      (((receiver.takeAll one).1.takeAll two).1,
        (receiver.takeAll one).2 ++ ((receiver.takeAll one).1.takeAll two).2) := by
  induction one generalizing receiver with
  | nil => rfl
  | cons byte one ih => simp only [List.cons_append, takeAll, ih, List.append_assoc]

theorem take_of_inProgress (answer : (receiver.packet.receive byte).2 = .inProgress) :
    receiver.take byte = (⟨(receiver.packet.receive byte).1, false⟩, none) := by
  unfold take
  split <;> simp_all

theorem take_of_noMarker (answer : (receiver.packet.receive byte).2 = .error .noMarker) :
    receiver.take byte = (⟨(receiver.packet.receive byte).1, true⟩,
      if receiver.inGap then none else some (.gap (receiver.packet.receive byte).1)) := by
  unfold take
  split <;> simp_all

theorem take_of_completed (answer : (receiver.packet.receive byte).2 = .completed) :
    receiver.take byte = (⟨(receiver.packet.receive byte).1.restart, false⟩,
      some (.frame (receiver.packet.receive byte).1)) := by
  unfold take
  split <;> simp_all

theorem take_of_fault {status : Status} (answer : (receiver.packet.receive byte).2 = .error status)
    (fault : status ≠ .noMarker) :
    receiver.take byte = (⟨(receiver.packet.receive byte).1.restart, false⟩,
      some (.fault status (receiver.packet.receive byte).1)) := by
  unfold take
  split <;> simp_all

/-- After the bytes the receiver has this packet, and this is what it came to. -/
structure Concludes (receiver : Receiver C) (bytes : Bytes) (packet : Packet C)
    (conclusions : List (Except Status Frame)) : Prop where
  packet : (receiver.takeAll bytes).1.packet = packet
  conclusions : Finding.conclusions (receiver.takeAll bytes).2 = conclusions
  genuine : ∀ finding ∈ (receiver.takeAll bytes).2, finding.Genuine

theorem Concludes.append {packet last : Packet C} {earlier later : List (Except Status Frame)} {more : Bytes}
    (first : receiver.Concludes bytes packet earlier)
    (rest : (receiver.takeAll bytes).1.Concludes more last later) :
    receiver.Concludes (bytes ++ more) last (earlier ++ later) := by
  refine ⟨?_, ?_, ?_⟩ <;> rw [takeAll_append]
  · exact rest.packet
  · rw [Finding.conclusions, List.filterMap_append]
    exact congrArg₂ _ first.conclusions rest.conclusions
  · intro finding member
    rcases List.mem_append.mp member with before | after
    · exact first.genuine finding before
    · exact rest.genuine finding after

theorem concludes_of_undecided
    (undecided : ∀ outcome ∈ (receiver.packet.receiveAll bytes).2,
      outcome = .inProgress ∨ outcome = .error .noMarker) :
    receiver.Concludes bytes (receiver.packet.receiveAll bytes).1 [] := by
  induction bytes generalizing receiver with
  | nil => exact ⟨rfl, rfl, by simp [takeAll]⟩
  | cons byte bytes ih =>
    have first : receiver.Concludes [byte] (receiver.packet.receive byte).1 [] := by
      rcases undecided _ (.head _) with more | noise
      · refine ⟨?_, ?_, ?_⟩ <;> simp [takeAll, take_of_inProgress more, Finding.conclusions]
      · -- The first skipped byte of a gap is a finding, but nothing is concluded from it.
        cases gap : receiver.inGap <;> refine ⟨?_, ?_, ?_⟩ <;>
          simp [takeAll, take_of_noMarker noise, gap, Finding.conclusions, Finding.conclusion?, Finding.Genuine]
    have later : ∀ outcome ∈ ((receiver.takeAll [byte]).1.packet.receiveAll bytes).2,
        outcome = .inProgress ∨ outcome = .error .noMarker := by
      rw [first.packet]
      intro outcome member
      exact undecided outcome (.tail _ member)
    have concluded := ih later
    rw [first.packet] at concluded
    exact first.append concluded

theorem concludes_of_frame {packet : Packet C} {frame : Frame}
    (answer : receiver.packet.receive byte = (packet, .completed)) (wire : packet.wire = frame.wire) :
    receiver.Concludes [byte] packet.restart [.ok frame] := by
  have contents := (Packet.parts_of_wire_eq wire).2
  have taken := take_of_completed (congrArg Prod.snd answer)
  rw [answer] at taken
  refine ⟨?_, ?_, ?_⟩ <;>
    simp [takeAll, taken, Finding.conclusions, Finding.conclusion?, Finding.Genuine, contents, wire]

theorem concludes_of_fault {packet : Packet C} {status : Status}
    (answer : receiver.packet.receive byte = (packet, .error status)) (fault : status ≠ .noMarker) :
    receiver.Concludes [byte] packet.restart [.error status] := by
  have taken := take_of_fault (congrArg Prod.snd answer) fault
  rw [answer] at taken
  refine ⟨?_, ?_, ?_⟩ <;>
    simp [takeAll, taken, Finding.conclusions, Finding.conclusion?, Finding.Genuine]

theorem concludes_of_last {count : Nat} {outcome : Outcome} {conclusion : Except Status Frame}
    (answers : (receiver.packet.receiveAll bytes).2 = List.replicate count .inProgress ++ [outcome])
    (decides : ∀ (next : Receiver C) (last : UInt8),
      next.packet.receive last = ((receiver.packet.receiveAll bytes).1, outcome) →
      next.Concludes [last] (receiver.packet.receiveAll bytes).1.restart [conclusion]) :
    receiver.Concludes bytes (receiver.packet.receiveAll bytes).1.restart [conclusion] := by
  obtain ⟨before, last, rfl, earlier, answer⟩ := Packet.exists_last answers
  have undecided : ∀ outcome ∈ (receiver.packet.receiveAll before).2,
      outcome = .inProgress ∨ outcome = .error .noMarker := by
    intro outcome member
    rw [earlier] at member
    exact .inl (List.eq_of_mem_replicate member)
  have started := concludes_of_undecided undecided
  exact started.append (decides _ last (by rw [started.packet, answer]))

end Receiver

/-- A part of a stream, of one of four kinds. -/
inductive Segment (C : Capacity) where
  | frame (contents : Frame) (fits : contents.payload.length ≤ C)
  /-- A frame of which only marker and length are sure to be as they were, and whose checksum is wrong. -/
  | damaged (contents : Frame) (fits : contents.payload.length ≤ C) (bytes : Bytes)
      (size : bytes.length = contents.wire.length) (marker : bytes.take 2 = contents.wire.take 2)
      (length : (bytes.drop 8).take 2 = (contents.wire.drop 8).take 2)
      (mismatch : Checksum.ofBytes (bytes.drop 4) ≠ Frame.wordAt bytes 2)
  /-- No two marker bytes side by side, and none at the end. -/
  | noise (bytes : Bytes) (apart : Frame.markerStart? bytes = none)
      (last : bytes.getLast? ≠ some Frame.markerByte)
  /-- A header that declares too long a payload, and noise. -/
  | oversized (header noise : Bytes) (size : header.length = 10)
      (marker : header.take 2 = [Frame.markerByte, Frame.markerByte])
      (large : C < (Frame.wordAt header 8).toNat) (apart : Frame.markerStart? noise = none)
      (last : noise.getLast? ≠ some Frame.markerByte)

namespace Segment

variable {C : Capacity}

def bytes : Segment C → Bytes
  | .frame contents _ => contents.wire
  | .damaged _ _ bytes .. => bytes
  | .noise bytes .. => bytes
  | .oversized header rest .. => header ++ rest

def conclusion? : Segment C → Option (Except Status Frame)
  | .frame contents _ => some (.ok contents)
  | .damaged .. => some (.error .badChecksum)
  | .noise .. => none
  | .oversized .. => some (.error .badLength)

end Segment

namespace Receiver

variable {C : Capacity} {receiver : Receiver C}

theorem concludes_whole_frame (rests : receiver.packet.Holds []) {frame : Frame} (fits : frame.payload.length ≤ C) :
    ∃ packet : Packet C, packet.Holds [] ∧ receiver.Concludes frame.wire packet [.ok frame] := by
  obtain ⟨answers, wire⟩ := rests.receiveAll_wire fits
  refine ⟨_, (Packet.Ready.restart _).holds, concludes_of_last answers ?_⟩
  intro next last answer
  exact concludes_of_frame answer wire

private theorem wordAt_congr {one two : Bytes} {offset : Nat}
    (same : (one.drop offset).take 2 = (two.drop offset).take 2) :
    Frame.wordAt one offset = Frame.wordAt two offset := by
  have first := congrArg (·[0]?) same
  have second := congrArg (·[1]?) same
  simp at first second
  simp only [Frame.wordAt, List.getD_eq_getElem?_getD, first, second]

theorem concludes_damaged_frame (rests : receiver.packet.Holds []) {frame : Frame}
    (fits : frame.payload.length ≤ C) {bytes : Bytes} (size : bytes.length = frame.wire.length)
    (marker : bytes.take 2 = frame.wire.take 2) (length : (bytes.drop 8).take 2 = (frame.wire.drop 8).take 2)
    (mismatch : Checksum.ofBytes (bytes.drop 4) ≠ Frame.wordAt bytes 2) :
    ∃ packet : Packet C, packet.Holds [] ∧ receiver.Concludes bytes packet [.error .badChecksum] := by
  have opens : Frame.Opens bytes := by
    rw [Frame.Opens, marker]
    exact Frame.opens_wire frame
  have declared : Frame.declared bytes = frame.payload.length := by
    rw [← Frame.declared_wire (Frame.small_of_fits fits), Frame.declared, Frame.declared, Frame.lengthOffset,
      wordAt_congr length]
  obtain ⟨answers, -⟩ := rests.receiveAll_whole opens (by rw [size, Frame.length_wire, declared])
    (by rw [declared]; exact fits)
  have damaged : ¬ Frame.Intact bytes := mismatch
  rw [if_neg damaged] at answers
  refine ⟨_, (Packet.Ready.restart _).holds, concludes_of_last answers ?_⟩
  intro next last answer
  exact concludes_of_fault answer (by simp)

theorem concludes_noise (rests : receiver.packet.Holds []) {noise : Bytes} (apart : Frame.markerStart? noise = none)
    (last : noise.getLast? ≠ some Frame.markerByte) :
    ∃ packet : Packet C, packet.Holds [] ∧ receiver.Concludes noise packet [] := by
  refine ⟨(receiver.packet.receiveAll noise).1, ?_, concludes_of_undecided ?_⟩
  · have follows := rests.follows noise
    rw [Packet.Follows, Frame.underway_of_search apart, if_neg last] at follows
    exact follows
  · intro outcome member
    rw [rests.outcomes_eq, List.mem_map] at member
    obtain ⟨index, -, rfl⟩ := member
    simp only [Frame.outcomeAt, apart, Frame.searchOutcome]
    split
    · exact .inl rfl
    · exact .inr rfl

theorem concludes_oversized_header (rests : receiver.packet.Holds []) {header : Bytes} (size : header.length = 10)
    (marker : header.take 2 = [Frame.markerByte, Frame.markerByte]) (large : C < (Frame.wordAt header 8).toNat) :
    ∃ packet : Packet C, packet.Holds [] ∧ receiver.Concludes header packet [.error .badLength] := by
  have opens : Frame.Opens header := by
    rw [Frame.Opens, marker]
    simp
  obtain ⟨answers, -⟩ := rests.receiveAll_oversized opens size large
  refine ⟨_, (Packet.Ready.restart _).holds, concludes_of_last answers ?_⟩
  intro next last answer
  exact concludes_of_fault answer (by simp)

theorem concludes_segment (rests : receiver.packet.Holds []) (segment : Segment C) :
    ∃ packet : Packet C, packet.Holds [] ∧ receiver.Concludes segment.bytes packet segment.conclusion?.toList := by
  cases segment with
  | frame contents fits => exact concludes_whole_frame rests fits
  | damaged contents fits bytes size marker length mismatch =>
    exact concludes_damaged_frame rests fits size marker length mismatch
  | noise bytes apart last => exact concludes_noise rests apart last
  | oversized header noise size marker large apart last =>
    obtain ⟨between, rested, refused⟩ := concludes_oversized_header rests size marker large
    obtain ⟨packet, final, quiet⟩ := concludes_noise (refused.packet ▸ rested) apart last
    exact ⟨packet, final, refused.append quiet⟩

theorem concludes_segments (rests : receiver.packet.Holds []) (segments : List (Segment C)) :
    ∃ packet : Packet C, packet.Holds [] ∧
      receiver.Concludes (segments.flatMap Segment.bytes) packet (segments.filterMap Segment.conclusion?) := by
  induction segments generalizing receiver with
  | nil => exact ⟨receiver.packet, rests, rfl, rfl, by simp [takeAll]⟩
  | cons segment segments ih =>
    obtain ⟨between, rested, first⟩ := concludes_segment rests segment
    obtain ⟨packet, final, rest⟩ := ih (first.packet ▸ rested)
    have conclusions : (segment :: segments).filterMap Segment.conclusion? =
        segment.conclusion?.toList ++ segments.filterMap Segment.conclusion? := by
      cases found : segment.conclusion? <;> simp [found]
    rw [conclusions, List.flatMap_cons]
    exact ⟨packet, final, first.append rest⟩

/-- In a stream of segments a receiver finds exactly what each of them is, in order, and is at rest in the end. -/
theorem takeAll_segments (rests : receiver.packet.Holds []) (segments : List (Segment C)) :
    Finding.conclusions (receiver.takeAll (segments.flatMap Segment.bytes)).2 =
        segments.filterMap Segment.conclusion? ∧
      (∀ finding ∈ (receiver.takeAll (segments.flatMap Segment.bytes)).2, finding.Genuine) ∧
      (receiver.takeAll (segments.flatMap Segment.bytes)).1.packet.cursor = 0 := by
  obtain ⟨packet, final, found⟩ := concludes_segments rests segments
  refine ⟨found.conclusions, found.genuine, ?_⟩
  rw [found.packet]
  exact final.cursor

theorem takeAll_segments_of_each_kind :
    ({} : Receiver ⟨2, by decide⟩).packet.Holds [] ∧
      Finding.conclusions (({} : Receiver ⟨2, by decide⟩).takeAll
        ([7, 0x55, 9] ++ [0x55, 0x55, 0, 0, 5, 0, 6, 0, 1, 0, 9] ++ ([0x55, 0x55, 1, 1, 1, 1, 1, 1, 3, 0] ++ [8]) ++
          Frame.wire ⟨5, 6, [9]⟩)).2 = [.error .badChecksum, .error .badLength, .ok ⟨5, 6, [9]⟩] := by
  have rests : ({} : Receiver ⟨2, by decide⟩).packet.Holds [] := Packet.Ready.fresh.holds
  have found := takeAll_segments rests
    [.noise [7, 0x55, 9] (by decide) (by decide),
      .damaged ⟨5, 6, [9]⟩ (by decide) [0x55, 0x55, 0, 0, 5, 0, 6, 0, 1, 0, 9] (by decide +kernel) (by decide +kernel)
        (by decide +kernel) (by decide +kernel),
      .oversized [0x55, 0x55, 1, 1, 1, 1, 1, 1, 3, 0] [8] (by decide) (by decide) (by decide) (by decide) (by decide),
      .frame ⟨5, 6, [9]⟩ (by decide)]
  exact ⟨rests, found.1⟩

end Receiver

end FramedLink
