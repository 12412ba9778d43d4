import FramedLink.Proofs.Packet.Assembly
import Mathlib.Data.List.Induction

/-! The grammar of frames in a byte stream, by positions in the whole stream. Main statement: a packet that
is ready takes every stream just as the grammar says. -/

namespace FramedLink

namespace Frame

def markerStart? (stream : Bytes) : Option Nat :=
  (stream.zip stream.tail).findIdx? fun pair => pair.1 == markerByte && pair.2 == markerByte

def searchOutcome (byte : UInt8) : Outcome :=
  if byte = markerByte then .inProgress else .error .noMarker

/-- What byte `index` of a stream leads to where there is room for `C` payload bytes. -/
def outcomeAt (C : Capacity) (stream : Bytes) (index : Nat) : Outcome :=
  match markerStart? stream with
  | none => searchOutcome (stream.getD index 0)
  | some start =>
    let size := (wordAt stream (start + 8)).toNat
    if index < start + 2 then searchOutcome (stream.getD index 0)
    else if index < start + 9 then .inProgress
    else if C < size then
      if index = start + 9 then .error .badLength else .error .overflow
    else if index < start + 9 + size then .inProgress
    else if index = start + 9 + size then
      if Checksum.ofBytes ((stream.drop (start + 4)).take (6 + size)) = wordAt stream (start + 2) then .completed
      else .error .badChecksum
    else .error .overflow

/-- What a stream has shown of the frame that it is in at its end. -/
def underway (stream : Bytes) : Bytes :=
  match markerStart? stream with
  | some start => stream.drop start
  | none => if stream.getLast? = some markerByte then [markerByte] else []

theorem underway_of_found {stream : Bytes} {start : Nat} (found : markerStart? stream = some start) :
    underway stream = stream.drop start := by
  simp only [underway, found]

theorem underway_of_search {stream : Bytes} (search : markerStart? stream = none) :
    underway stream = if stream.getLast? = some markerByte then [markerByte] else [] := by
  simp only [underway, search]

theorem length_underway_of_search {stream : Bytes} (search : markerStart? stream = none) :
    (underway stream).length < 2 := by
  rw [underway_of_search search]
  split <;> simp

private theorem zip_tail_concat (stream : Bytes) (byte : UInt8) :
    (stream ++ [byte]).zip (stream ++ [byte]).tail =
      stream.zip stream.tail ++ (stream.getLast?.map fun last => (last, byte)).toList := by
  induction stream with
  | nil => rfl
  | cons first stream ih =>
    cases stream with
    | nil => rfl
    | cons second stream =>
      simp only [List.cons_append, List.tail_cons, List.zip_cons_cons, List.getLast?_cons_cons] at ih ⊢
      rw [ih]

theorem markerStart?_concat (stream : Bytes) (byte : UInt8) :
    markerStart? (stream ++ [byte]) = (markerStart? stream).or
      (if stream.getLast? = some markerByte ∧ byte = markerByte then some (stream.length - 1) else none) := by
  have count : (stream.zip stream.tail).length = stream.length - 1 := by simp
  rw [markerStart?, zip_tail_concat, List.findIdx?_append, count, markerStart?]
  congr 1
  cases stream.getLast? with
  | none => simp
  | some last => by_cases one : last = markerByte <;> by_cases two : byte = markerByte <;> simp [one, two]

theorem start_add_two_le {stream : Bytes} {start : Nat} (found : markerStart? stream = some start) :
    start + 2 ≤ stream.length := by
  have inside := (List.findIdx?_eq_some_iff_getElem.mp found).1
  simp only [List.length_zip, List.length_tail] at inside
  omega

theorem underway_concat (stream : Bytes) (byte : UInt8) :
    underway (stream ++ [byte]) =
      if (underway stream).length < 2 ∧ byte ≠ markerByte then [] else underway stream ++ [byte] := by
  cases found : markerStart? stream with
  | some start =>
    have later := start_add_two_le found
    have next : markerStart? (stream ++ [byte]) = some start := by rw [markerStart?_concat, found, Option.some_or]
    rw [underway_of_found found, underway_of_found next, List.length_drop, if_neg (by omega),
      List.drop_append_of_le_length (by omega)]
  | none =>
    have before := underway_of_search found
    have next := markerStart?_concat stream byte
    rw [found, Option.none_or] at next
    by_cases marker : byte = markerByte
    · by_cases second : stream.getLast? = some markerByte
      · obtain ⟨earlier, rfl⟩ := List.getLast?_eq_some_iff.mp second
        rw [if_pos ⟨second, marker⟩] at next
        rw [if_neg (by simp [marker]), before, if_pos second, underway_of_found next]
        simp
      · rw [if_neg (by simp [second])] at next
        rw [if_neg (by simp [marker]), before, if_neg second, underway_of_search next]
        simp [marker]
    · rw [if_neg (by simp [marker])] at next
      rw [if_pos ⟨length_underway_of_search found, marker⟩, underway_of_search next]
      simp [marker]

private theorem zip_tail_take (stream : Bytes) (count : Nat) :
    (stream.take count).zip (stream.take count).tail = (stream.zip stream.tail).take (count - 1) := by
  induction stream generalizing count with
  | nil => simp
  | cons first stream ih =>
    match stream, count with
    | [], count => cases count <;> simp
    | _ :: _, 0 => rfl
    | _ :: _, 1 => rfl
    | second :: stream, count + 2 =>
      have rest := ih (count + 1)
      simp only [List.take_succ_cons, List.tail_cons, List.zip_cons_cons, Nat.add_sub_cancel] at rest ⊢
      rw [rest]
      rfl

theorem markerStart?_take (stream : Bytes) (count : Nat) :
    markerStart? (stream.take count) = (markerStart? stream).filter (fun start => start + 2 ≤ count) := by
  rw [markerStart?, zip_tail_take, List.findIdx?_take, ← markerStart?]
  cases found : markerStart? stream with
  | none => rfl
  | some start =>
    have same : start < count - 1 ↔ start + 2 ≤ count := by omega
    simp [Option.guard, Option.filter, same]

theorem opens_concat {bytes : Bytes} {byte : UInt8} (opens : Opens bytes)
    (marker : bytes.length < 2 → byte = markerByte) : Opens (bytes ++ [byte]) := by
  intro one member
  rw [List.take_append, List.mem_append] at member
  rcases member with earlier | last
  · exact opens one earlier
  · have here := List.mem_of_mem_take last
    rw [List.mem_singleton] at here
    rw [here]
    apply marker
    by_contra far
    rw [Nat.sub_eq_zero_of_le (by omega), List.take_zero] at last
    cases last

theorem opens_underway (stream : Bytes) : Opens (underway stream) := by
  induction stream using List.reverseRecOn with
  | nil => simp [underway, markerStart?, Opens]
  | append_singleton stream byte ih =>
    rw [underway_concat]
    split
    · simp [Opens]
    · rename_i added
      exact opens_concat ih (fun short => by_contra fun other => added ⟨short, other⟩)

theorem underway_of_opens {bytes : Bytes} (opens : Opens bytes) : underway bytes = bytes := by
  induction bytes using List.reverseRecOn with
  | nil => rfl
  | append_singleton bytes byte ih =>
    have before := ih (opens_of_append opens)
    have marker : ¬ (bytes.length < 2 ∧ byte ≠ markerByte) := by
      rintro ⟨short, other⟩
      apply other
      apply opens
      rw [List.take_of_length_le (by simp only [List.length_append, List.length_singleton]; omega)]
      exact List.mem_append_right _ (List.mem_singleton_self byte)
    rw [underway_concat, before, if_neg marker]

def nextOutcome (C : Capacity) (stream : Bytes) (byte : UInt8) : Outcome :=
  if verdict C (underway stream) = .inProgress then
    if (underway stream).length < 2 ∧ byte ≠ markerByte then .error .noMarker
    else verdict C (underway stream ++ [byte])
  else .error .overflow

theorem underway_take_of_found {stream : Bytes} {start index : Nat} (found : markerStart? stream = some start)
    (later : start + 2 ≤ index) : underway (stream.take index) = (stream.drop start).take (index - start) := by
  have there : markerStart? (stream.take index) = some start := by
    rw [markerStart?_take, found]
    simp [later]
  rw [underway_of_found there, List.drop_take]

theorem underway_take_of_search {stream : Bytes} {index : Nat}
    (search : ∀ start, markerStart? stream = some start → index < start + 2) :
    (underway (stream.take index)).length < 2 := by
  apply length_underway_of_search
  rw [markerStart?_take]
  cases found : markerStart? stream with
  | none => rfl
  | some start => simp [search start found]

private theorem nextOutcome_of_search {C : Capacity} {stream : Bytes} {byte : UInt8}
    (short : (underway stream).length < 2) : nextOutcome C stream byte = searchOutcome byte := by
  have before : verdict C (underway stream) = .inProgress :=
    verdict_eq_inProgress_iff.mpr (.inl (by simp only [headerSize]; omega))
  have after : verdict C (underway stream ++ [byte]) = .inProgress :=
    verdict_eq_inProgress_iff.mpr (.inl (by simp only [headerSize, List.length_append, List.length_singleton]; omega))
  rw [nextOutcome, if_pos before, searchOutcome]
  by_cases marker : byte = markerByte
  · rw [if_neg (by simp [marker]), if_pos marker, after]
  · rw [if_pos ⟨short, marker⟩, if_neg marker]

theorem wordAt_slice {stream : Bytes} {start count offset : Nat} (inside : offset + 1 < count) :
    wordAt ((stream.drop start).take count) offset = wordAt stream (start + offset) := by
  rw [wordAt_take inside]
  simp [wordAt, List.getD_eq_getElem?_getD, Nat.add_assoc]

private theorem verdict_slice {C : Capacity} {stream : Bytes} {start count : Nat}
    (inside : start + count ≤ stream.length) :
    verdict C ((stream.drop start).take count) =
      if count < 10 then .inProgress
      else if C < (wordAt stream (start + 8)).toNat then .error .badLength
      else if count < 10 + (wordAt stream (start + 8)).toNat then .inProgress
      else if Checksum.ofBytes ((stream.drop (start + 4)).take (count - 4)) = wordAt stream (start + 2) then .completed
      else .error .badChecksum := by
  have length : ((stream.drop start).take count).length = count := by
    rw [List.length_take, List.length_drop]
    omega
  by_cases short : count < 10
  · rw [if_pos short, verdict_eq_inProgress_iff, length]
    exact .inl short
  · have size : declared ((stream.drop start).take count) = (wordAt stream (start + 8)).toNat := by
      rw [declared, wordAt_slice (by simp only [lengthOffset]; omega)]
      rfl
    have intact : Intact ((stream.drop start).take count) ↔
        Checksum.ofBytes ((stream.drop (start + 4)).take (count - 4)) = wordAt stream (start + 2) := by
      rw [Intact, wordAt_slice (by simp only [checksumOffset]; omega), List.drop_take, List.drop_drop]
      rfl
    rw [verdict, length, size]
    simp only [intact]
    rfl

theorem nextOutcome_eq_outcomeAt {C : Capacity} {stream : Bytes} {index : Nat} (inside : index < stream.length) :
    nextOutcome C (stream.take index) stream[index] = outcomeAt C stream index := by
  have here : stream.getD index 0 = stream[index] := by
    rw [List.getD_eq_getElem?_getD, List.getElem?_eq_getElem inside, Option.getD_some]
  cases found : markerStart? stream with
  | none =>
    rw [nextOutcome_of_search (underway_take_of_search (by simp [found])), outcomeAt, found]
    simp only [here]
  | some start =>
    by_cases search : index < start + 2
    · have short : (underway (stream.take index)).length < 2 :=
        underway_take_of_search (by rw [found]; rintro _ ⟨⟩; exact search)
      rw [nextOutcome_of_search short, outcomeAt, found]
      simp only [here, search, if_true]
    · have later : start + 2 ≤ index := by omega
      have before := underway_take_of_found found later
      have after : (stream.drop start).take (index - start) ++ [stream[index]] =
          (stream.drop start).take (index + 1 - start) := by
        have inRest : index - start < (stream.drop start).length := by rw [List.length_drop]; omega
        have same : stream[index] = (stream.drop start)[index - start] := by
          rw [List.getElem_drop]
          congr 1
          omega
        rw [same, List.take_append_getElem inRest]
        congr 1
        omega
      have long : ¬ ((stream.drop start).take (index - start)).length < 2 := by
        rw [List.length_take, List.length_drop]
        omega
      have step : nextOutcome C (stream.take index) stream[index] =
          if verdict C ((stream.drop start).take (index - start)) = .inProgress then
            verdict C ((stream.drop start).take (index + 1 - start))
          else .error .overflow := by
        simp only [nextOutcome, before, after, long, false_and, if_false]
      rw [step, verdict_slice (by omega), verdict_slice (by omega), outcomeAt, found]
      simp only [search, if_false]
      generalize (wordAt stream (start + 8)).toNat = size
      by_cases decided : index = start + 9 + size
      · have covered : index + 1 - start - 4 = 6 + size := by omega
        rw [covered]
        grind
      · grind

theorem outcomeAt_eq_completed_iff {C : Capacity} {stream : Bytes} {start index : Nat}
    (found : markerStart? stream = some start) :
    let size := (wordAt stream (start + 8)).toNat
    outcomeAt C stream index = .completed ↔ size ≤ C ∧ index = start + 9 + size ∧
      Checksum.ofBytes ((stream.drop (start + 4)).take (6 + size)) = wordAt stream (start + 2) := by
  simp only [outcomeAt, found, searchOutcome]
  grind

private theorem size_of_completed {C : Capacity} {stream : Bytes} {start last : Nat}
    (found : markerStart? stream = some start) (completed : outcomeAt C stream last = .completed) :
    last = start + 9 + (wordAt stream (start + 8)).toNat :=
  ((outcomeAt_eq_completed_iff found).mp completed).2.1

private theorem outcomeAt_not_terminal {C : Capacity} {stream : Bytes} {index : Nat} (inside : index < stream.length)
    (undecided : ∀ start, markerStart? stream = some start →
      let size := (wordAt stream (start + 8)).toNat
      stream.length ≤ start + 9 + if C < size then 0 else size) :
    (outcomeAt C stream index).status.isTerminal = false := by
  have search (byte : UInt8) : (searchOutcome byte).status.isTerminal = false := by
    unfold searchOutcome
    split <;> rfl
  unfold outcomeAt
  split
  · exact search _
  · rename_i start found
    have bound := undecided start found
    simp only at bound ⊢
    split
    · exact search _
    · split
      · rfl
      · split
        · rename_i large
          rw [if_pos large] at bound
          omega
        · rename_i large
          rw [if_neg large] at bound
          rw [if_pos (by omega)]
          rfl

end Frame

namespace Packet

variable {C : Capacity} {packet : Packet C} {stream : Bytes}

/-- The packet after a stream: it holds what is underway until that comes to an end. -/
def Follows (packet : Packet C) (stream : Bytes) : Prop :=
  if Frame.verdict C (Frame.underway stream) = .inProgress then packet.Holds (Frame.underway stream)
  else packet.Ended

theorem Follows.receive (follows : packet.Follows stream) (byte : UInt8) :
    (packet.receive byte).2 = Frame.nextOutcome C stream byte ∧
      (packet.receive byte).1.Follows (stream ++ [byte]) := by
  unfold Follows at follows
  unfold Frame.nextOutcome
  split at follows
  · rename_i unfinished
    rw [if_pos unfinished]
    by_cases noise : (Frame.underway stream).length < 2 ∧ byte ≠ Frame.markerByte
    · obtain ⟨answer, held⟩ := follows.receive_noise noise.1 noise.2
      rw [if_pos noise, Follows, Frame.underway_concat, if_pos noise]
      exact ⟨answer, by rw [if_pos (by rfl)]; exact held⟩
    · have opens := Frame.opens_underway (stream ++ [byte])
      rw [Frame.underway_concat, if_neg noise] at opens
      obtain ⟨answer, advanced⟩ := follows.receive opens unfinished
      rw [if_neg noise, Follows, Frame.underway_concat, if_neg noise]
      refine ⟨answer, ?_⟩
      split
      · rename_i more
        exact advanced.holds (by rw [more]; simp)
      · rename_i finished
        exact advanced.ended finished
  · -- A frame that came to its end stays underway: nothing but a restart ends it.
    rename_i finished
    obtain ⟨refused, ended⟩ := follows.receive byte
    rw [if_neg finished]
    refine ⟨by rw [refused]; rfl, ?_⟩
    have short : ¬ ((Frame.underway stream).length < 2 ∧ byte ≠ Frame.markerByte) := fun noise =>
      finished (Frame.verdict_eq_inProgress_iff.mpr (.inl (by simp only [Frame.headerSize]; omega)))
    rw [Follows, Frame.underway_concat, if_neg short, if_neg (fun more => finished (Frame.verdict_of_append more))]
    exact ended

theorem Follows.receive_completed (follows : packet.Follows stream) {byte : UInt8}
    (completed : (packet.receive byte).2 = .completed) :
    Frame.Whole C (Frame.underway (stream ++ [byte])) ∧
      (packet.receive byte).1.Holds (Frame.underway (stream ++ [byte])) := by
  rw [(follows.receive byte).1] at completed
  unfold Follows at follows
  unfold Frame.nextOutcome at completed
  split at completed
  · rename_i unfinished
    rw [if_pos unfinished] at follows
    split at completed
    · cases completed
    · rename_i added
      have opens := Frame.opens_underway (stream ++ [byte])
      rw [Frame.underway_concat, if_neg added] at opens ⊢
      exact ⟨Frame.whole_of_completed opens unfinished completed,
        (follows.receive opens unfinished).2.holds (by rw [completed]; simp)⟩
  · cases completed

theorem Holds.follows (holds : packet.Holds []) (stream : Bytes) : (packet.receiveAll stream).1.Follows stream := by
  induction stream using List.reverseRecOn with
  | nil => exact holds
  | append_singleton stream byte ih =>
    rw [Packet.receiveAll_concat]
    exact (ih.receive byte).2

@[simp] theorem length_receiveAll (packet : Packet C) (stream : Bytes) :
    (packet.receiveAll stream).2.length = stream.length := by
  induction stream generalizing packet with
  | nil => rfl
  | cons byte stream ih => simp only [receiveAll, List.length_cons, ih]

theorem getElem_receiveAll (packet : Packet C) {index : Nat} (inside : index < stream.length) :
    (packet.receiveAll stream).2[index]? =
      some ((packet.receiveAll (stream.take index)).1.receive stream[index]).2 := by
  have split : stream = stream.take index ++ stream[index] :: stream.drop (index + 1) := by simp
  conv => lhs; rw [split]
  have before : (packet.receiveAll (stream.take index)).2.length = index := by
    rw [length_receiveAll, List.length_take]
    omega
  rw [receiveAll_append, List.getElem?_append_right (by omega), before, Nat.sub_self]
  rfl

theorem Holds.outcomes_eq (holds : packet.Holds []) (stream : Bytes) :
    (packet.receiveAll stream).2 = (List.range stream.length).map (Frame.outcomeAt C stream) := by
  apply List.ext_getElem?
  intro index
  by_cases inside : index < stream.length
  · have answer := ((holds.follows (stream.take index)).receive stream[index]).1
    rw [getElem_receiveAll packet inside, answer, Frame.nextOutcome_eq_outcomeAt inside, List.getElem?_map,
      List.getElem?_range inside, Option.map_some]
  · rw [List.getElem?_eq_none (by rw [length_receiveAll]; omega), List.getElem?_eq_none (by simp; omega)]

private theorem holds_of_completed (holds : packet.Holds []) {start last : Nat}
    (found : Frame.markerStart? stream = some start) (inside : last < stream.length)
    (completed : Frame.outcomeAt C stream last = .completed) :
    (packet.receiveAll (stream.take (last + 1))).1.Holds
      ((stream.drop start).take (10 + (Frame.wordAt stream (start + 8)).toNat)) := by
  have place := Frame.size_of_completed found completed
  have follows := holds.follows (stream.take last)
  rw [← Frame.nextOutcome_eq_outcomeAt inside, ← (follows.receive _).1] at completed
  have held := (follows.receive_completed completed).2
  rw [List.take_append_getElem inside, Frame.underway_take_of_found found (by omega)] at held
  rw [← List.take_append_getElem inside, receiveAll_concat]
  have size : last + 1 - start = 10 + (Frame.wordAt stream (start + 8)).toNat := by omega
  rwa [size] at held

private theorem fields_of_completed (holds : packet.Holds []) {start last : Nat}
    (found : Frame.markerStart? stream = some start) (inside : last < stream.length)
    (completed : Frame.outcomeAt C stream last = .completed) :
    let after := (packet.receiveAll (stream.take (last + 1))).1
    last + 1 = start + 10 + after.length ∧
      after.header.request = Frame.wordAt stream (start + 4) ∧
      after.header.response = Frame.wordAt stream (start + 6) ∧
      after.header.length = Frame.wordAt stream (start + 8) ∧
      after.payload = (stream.drop (start + 10)).take after.length := by
  have place := Frame.size_of_completed found completed
  have held := holds_of_completed holds found inside completed
  simp only
  generalize (packet.receiveAll (stream.take (last + 1))).1 = after at held ⊢
  have count : ((stream.drop start).take (10 + (Frame.wordAt stream (start + 8)).toNat)).length =
      10 + (Frame.wordAt stream (start + 8)).toNat := by
    rw [List.length_take, List.length_drop]
    omega
  have whole : Frame.headerSize ≤ 10 + (Frame.wordAt stream (start + 8)).toNat := by
    simp only [Frame.headerSize]
    omega
  have word (offset : Nat) (early : offset + 1 < Frame.headerSize) :
      Frame.wordAt after.header.bytes offset = Frame.wordAt stream (start + offset) := by
    rw [held.wordAt_header (by omega) early, Frame.wordAt_slice (by omega)]
  have size : after.header.length = Frame.wordAt stream (start + 8) := by
    rw [Frame.Header.length_eq, word _ (by decide), Frame.lengthOffset]
  have length : after.length = (Frame.wordAt stream (start + 8)).toNat := by rw [length, size]
  refine ⟨by omega, ?_, ?_, size, ?_⟩
  · rw [Frame.Header.request_eq, word _ (by decide), Frame.requestOffset]
  · rw [Frame.Header.response_eq, word _ (by decide), Frame.responseOffset]
  · have declared := held.length_eq (by omega)
    rw [held.payload_eq (by rw [count, ← declared, length, Frame.headerSize]), List.drop_take, List.drop_drop, length]
    simp only [Frame.headerSize, Nat.add_sub_cancel_left]

/-- A packet that is ready takes every stream as the grammar says. When a frame is complete the packet has
its fields, and where the stream ends before the byte that decides about a frame, nothing has come to an end. -/
theorem receiveAll_eq_grammar (ready : packet.Ready) (stream : Bytes) :
    (packet.receiveAll stream).2 = (List.range stream.length).map (Frame.outcomeAt C stream) ∧
      (∀ start last, Frame.markerStart? stream = some start → last < stream.length →
        Frame.outcomeAt C stream last = .completed →
        let after := (packet.receiveAll (stream.take (last + 1))).1
        last + 1 = start + 10 + after.length ∧
          after.header.request = Frame.wordAt stream (start + 4) ∧
          after.header.response = Frame.wordAt stream (start + 6) ∧
          after.header.length = Frame.wordAt stream (start + 8) ∧
          after.payload = (stream.drop (start + 10)).take after.length) ∧
      ((∀ start, Frame.markerStart? stream = some start →
          let size := (Frame.wordAt stream (start + 8)).toNat
          stream.length ≤ start + 9 + if C < size then 0 else size) →
        ∀ outcome ∈ (packet.receiveAll stream).2, outcome.status.isTerminal = false) := by
  refine ⟨ready.holds.outcomes_eq stream, fun start last => fields_of_completed ready.holds, ?_⟩
  intro undecided outcome member
  rw [ready.holds.outcomes_eq, List.mem_map] at member
  obtain ⟨index, inside, rfl⟩ := member
  exact Frame.outcomeAt_not_terminal (List.mem_range.mp inside) undecided

theorem receiveAll_eq_grammar_noise_and_frame :
    Ready (restart { buffer := Vector.replicate _ 7 } : Packet .standard) ∧
      ((restart { buffer := Vector.replicate _ 7 } : Packet .standard).receiveAll
          ([7, 0x55, 7] ++ Frame.wire ⟨5, 6, [9]⟩ ++ [1])).2 =
        [.error .noMarker, .inProgress, .error .noMarker] ++ List.replicate 10 .inProgress ++
          [.completed, .error .overflow] ∧
      ((restart { buffer := Vector.replicate _ 7 } : Packet .standard).receiveAll
          (([7, 0x55, 7] ++ Frame.wire ⟨5, 6, [9]⟩ ++ [1]).take (13 + 1))).1.header.request = 5 := by
  have ready : Ready (restart { buffer := Vector.replicate _ 7 } : Packet .standard) := .restart _
  have grammar := receiveAll_eq_grammar ready ([7, 0x55, 7] ++ Frame.wire ⟨5, 6, [9]⟩ ++ [1])
  have fields := grammar.2.1 3 13 (by decide +kernel) (by decide +kernel) (by decide +kernel)
  exact ⟨ready, grammar.1.trans (by decide +kernel), fields.2.1.trans (by decide +kernel)⟩

end Packet

end FramedLink
