import FramedLink.Proofs.Dump.Grammar
import FramedLink.Proofs.Packet.Composition

/-! The places that a dump tells. Main statement: the bytes taken so far are those of what was told, those that were
skipped and those that are held, and each frame stands in the stream where its line says. -/

namespace FramedLink.Dump

namespace Line

def range? : Line → Option (Nat × Nat)
  | frame place _ found => some (place, place + Frame.headerSize + found.payload.length)
  | _ => none

end Line

namespace Progress

def Reports (line : Line) (finding : Finding .largest) : Prop :=
  ∃ offset, line = lineOf offset finding

theorem lines_takeAll (progress : Progress) (bytes : Bytes) :
    ∃ told, (progress.takeAll bytes).lines.toList = progress.lines.toList ++ told ∧
      List.Forall₂ Reports told (progress.receiver.takeAll bytes).2 := by
  induction bytes generalizing progress with
  | nil => exact ⟨[], (List.append_nil _).symm, .nil⟩
  | cons byte bytes ih =>
    obtain ⟨told, lines, reports⟩ := ih (progress.take byte)
    rw [lines_take, List.append_assoc] at lines
    rw [receiver_take] at reports
    refine ⟨_, lines, ?_⟩
    change List.Forall₂ Reports _ ((progress.receiver.take byte).2.toList ++ _)
    cases (progress.receiver.take byte).2 with
    | none => exact reports
    | some finding => exact .cons ⟨_, rfl⟩ reports

end Progress

/-- The frames that were told stand in the stream where their lines say, one behind the other. -/
structure Placed (lines : List Line) (stream : Bytes) : Prop where
  within : ∀ place checksum frame, .frame place checksum frame ∈ lines →
    checksum = frame.checksum ∧ ∃ before, before.length = place ∧ before ++ frame.wire <+: stream
  apart : (lines.filterMap Line.range?).Pairwise fun one two => one.2 ≤ two.1

namespace Placed

variable {lines : List Line} {stream : Bytes}

theorem nil (stream : Bytes) : Placed [] stream := by
  refine ⟨?_, .nil⟩
  intro place checksum frame member
  cases member

theorem mono (placed : Placed lines stream) {more : Bytes} (longer : stream <+: more) : Placed lines more := by
  refine ⟨?_, placed.apart⟩
  intro place checksum frame member
  obtain ⟨same, before, size, inside⟩ := placed.within place checksum frame member
  exact ⟨same, before, size, inside.trans longer⟩

theorem append_others (placed : Placed lines stream) {others : List Line}
    (bare : ∀ line ∈ others, line.range? = none) : Placed (lines ++ others) stream := by
  have none : others.filterMap Line.range? = [] := List.filterMap_eq_nil_iff.mpr bare
  refine ⟨?_, ?_⟩
  · intro place checksum frame member
    rcases List.mem_append.mp member with earlier | later
    · exact placed.within place checksum frame earlier
    · cases bare _ later
  · rw [List.filterMap_append, none, List.append_nil]
    exact placed.apart

theorem range_le (placed : Placed lines stream) {range : Nat × Nat} (member : range ∈ lines.filterMap Line.range?) :
    range.2 ≤ stream.length := by
  obtain ⟨line, told, ranged⟩ := List.mem_filterMap.mp member
  cases line with
  | frame place checksum frame =>
    cases ranged
    obtain ⟨-, before, size, inside⟩ := placed.within place checksum frame told
    have length := inside.length_le
    rw [List.length_append, Frame.length_wire] at length
    change place + Frame.headerSize + frame.payload.length ≤ stream.length
    omega
  | _ => cases ranged

theorem append_frame (placed : Placed lines stream) (frame : Frame) :
    Placed (lines ++ [.frame stream.length frame.checksum frame]) (stream ++ frame.wire) := by
  have earlier := placed.mono (List.prefix_append stream frame.wire)
  refine ⟨?_, ?_⟩
  · intro place checksum other member
    rcases List.mem_append.mp member with before | last
    · exact earlier.within place checksum other before
    · cases List.mem_singleton.mp last
      exact ⟨rfl, stream, rfl, List.prefix_refl _⟩
  · rw [List.filterMap_append, List.pairwise_append]
    refine ⟨placed.apart, List.pairwise_singleton _ _, ?_⟩
    intro one first two second
    cases List.mem_singleton.mp second
    exact placed.range_le first

end Placed

/-- What a dump has taken: bytes about which all is told, and the bytes that its receiver holds. -/
structure Settles (progress : Progress) (settled held : Bytes) : Prop where
  holding : progress.receiver.Holding held
  offset : progress.offset = settled.length + held.length
  placed : Placed progress.lines.toList settled

namespace Settles

open Receiver (Taken)

variable {progress : Progress} {settled held : Bytes}

theorem fresh : Settles {} [] [] :=
  ⟨Receiver.holding_nil Packet.Ready.fresh.holds, rfl, .nil _⟩

theorem placed_of_taken (settles : Settles progress settled held) {byte : UInt8} {outcome : Outcome}
    {next : Receiver .largest × Option (Finding .largest)}
    (taken : Taken progress.receiver.inGap held byte outcome next) :
    ∃ before rest, before ++ rest = settled ++ held ++ [byte] ∧ next.1.Holding rest ∧
      Placed (progress.lines.toList ++ (next.2.map (Progress.lineOf progress.offset)).toList) before := by
  have placed := settles.placed
  have all : settled ++ (held ++ [byte]) = settled ++ held ++ [byte] := (List.append_assoc _ _ _).symm
  have ended : settled ++ (held ++ [byte]) ++ [] = settled ++ held ++ [byte] := by rw [List.append_nil, all]
  cases taken with
  | kept holding => exact ⟨settled, held ++ [byte], all, holding, placed.append_others (by simp)⟩
  | skipped short noise rests =>
    refine ⟨_, [], ended, Receiver.holding_nil rests, (placed.mono (List.prefix_append _ _)).append_others ?_⟩
    cases progress.receiver.inGap <;> simp [Progress.lineOf, Line.range?]
  | completed holds whole =>
    rename_i packet
    have wire := holds.frame_wire_eq whole
    have size := whole.size
    have length := holds.length_eq (by omega)
    have place : progress.offset + 1 - packet.frameSize = settled.length := by
      rw [List.length_append, List.length_singleton] at size
      rw [settles.offset, Packet.frameSize]
      omega
    have header := (Packet.parts_of_wire_eq ((holds.wire_eq size).trans wire.symm)).1
    have checksum : packet.header.checksum = packet.frame.checksum := congrArg Frame.Header.checksum header
    refine ⟨_, [], ended, Receiver.holding_restart packet, ?_⟩
    rw [← wire]
    change Placed (_ ++ [.frame (progress.offset + 1 - packet.frameSize) packet.header.checksum packet.frame]) _
    rw [place, checksum]
    exact placed.append_frame packet.frame
  | damaged =>
    refine ⟨_, [], ended, Receiver.holding_restart _, (placed.mono (List.prefix_append _ _)).append_others ?_⟩
    simp [Progress.lineOf, Line.range?]
  | oversized =>
    refine ⟨_, [], ended, Receiver.holding_restart _, (placed.mono (List.prefix_append _ _)).append_others ?_⟩
    simp [Progress.lineOf, Line.range?]

theorem take (settles : Settles progress settled held) (byte : UInt8) :
    ∃ before rest, before ++ rest = settled ++ held ++ [byte] ∧ Settles (progress.take byte) before rest := by
  obtain ⟨before, rest, split, holding, placed⟩ := settles.placed_of_taken (settles.holding.taken byte)
  refine ⟨before, rest, split, ?_, ?_, ?_⟩
  · rw [Progress.receiver_take]
    exact holding
  · have length := congrArg List.length split
    simp only [List.length_append, List.length_singleton] at length
    rw [Progress.offset_take, settles.offset, length]
  · rw [Progress.lines_take]
    exact placed

theorem takeAll (settles : Settles progress settled held) (bytes : Bytes) :
    ∃ before rest, before ++ rest = settled ++ held ++ bytes ∧ Settles (progress.takeAll bytes) before rest := by
  induction bytes generalizing progress settled held with
  | nil => exact ⟨settled, held, (List.append_nil _).symm, settles⟩
  | cons byte bytes ih =>
    obtain ⟨before, rest, split, next⟩ := settles.take byte
    obtain ⟨settled, held, whole, last⟩ := ih next
    refine ⟨settled, held, ?_, last⟩
    rw [whole, split, List.append_assoc]
    rfl

end Settles

namespace Progress

theorem mem_closing (progress : Progress) (place received : Nat) :
    .truncated place received ∈ progress.closing ↔
      received ≠ 0 ∧ place = progress.offset ∧ received = progress.receiver.packet.cursor := by
  unfold closing
  by_cases rests : progress.receiver.packet.cursor = 0
  · simp only [rests, if_true, List.nil_append, List.mem_singleton, reduceCtorEq, false_iff]
    rintro ⟨some, -, none⟩
    exact some none
  · simp only [rests, if_false, List.mem_append, List.mem_singleton, reduceCtorEq, or_false, Line.truncated.injEq]
    constructor
    · rintro ⟨rfl, rfl⟩
      exact ⟨rests, rfl, rfl⟩
    · exact And.right

/-- In a dump each byte of the stream is part of a frame or fault that was told, or was skipped, or is part of the frame
that the stream ends in; and each frame stands where its line says, behind those before it. This is what is printed,
however the stream is given. -/
theorem takeAll_accounts (stream : Bytes) :
    let progress := takeAll {} stream
    let found := (Receiver.takeAll ({} : Receiver .largest) stream).2
    List.Forall₂ Reports progress.lines.toList found ∧
      progress.offset = stream.length ∧
      progress.offset = Finding.spans found + Receiver.skipped ({} : Receiver .largest) stream +
        progress.receiver.packet.cursor ∧
      (∀ place received, .truncated place received ∈ progress.closing ↔
        received ≠ 0 ∧ place = progress.offset ∧ received = progress.receiver.packet.cursor) ∧
      (∀ place checksum frame, .frame place checksum frame ∈ progress.lines.toList →
        stream[place]? = some Frame.markerByte ∧
          (stream.drop place).take (Frame.headerSize + frame.payload.length) = frame.wire ∧
          checksum = frame.checksum) ∧
      (progress.lines.toList.filterMap Line.range?).Pairwise (fun one two => one.2 ≤ two.1) ∧
      ∀ arguments input, Supplied arguments input stream →
        Prints (progress.lines.toList ++ Dump.closing stream) (command arguments input).output := by
  intro progress found
  obtain ⟨told, lines, reports⟩ := lines_takeAll {} stream
  obtain ⟨settled, held, split, settles⟩ := Settles.fresh.takeAll stream
  have offset := offset_takeAll {} stream
  rw [Nat.zero_add] at offset
  refine ⟨?_, offset, ?_, fun place received => mem_closing progress place received, ?_, settles.placed.apart, ?_⟩
  · rw [lines]
    exact reports
  · have account := Settles.fresh.holding.account stream
    rw [List.length_nil, Nat.zero_add] at account
    rw [offset, account, receiver_takeAll]
  · intro place checksum frame told
    obtain ⟨same, before, size, inside⟩ := settles.placed.within place checksum frame told
    obtain ⟨after, whole⟩ := inside.trans (List.prefix_append settled held)
    rw [List.nil_append, List.nil_append] at split
    rw [← split, ← whole, ← size, ← Frame.length_wire, List.append_assoc, List.drop_left, List.take_left]
    refine ⟨?_, rfl, same⟩
    rw [List.getElem?_append_right (Nat.le_refl _), Nat.sub_self]
    rfl
  · intro arguments input supplied
    rw [command_of_supplied supplied]
    exact prints_report stream

theorem takeAll_accounts_of_frame :
    let stream := [7] ++ Frame.wire ⟨5, 6, []⟩ ++ [Frame.markerByte]
    let words := [Bytes.ofText "07 555500DD", Bytes.ofText "5,0 6 000000 0x55"]
    let lines := [.gap 0, .frame 1 (Frame.checksum ⟨5, 6, []⟩) ⟨5, 6, []⟩]
    (takeAll {} stream).lines.toList = lines ∧ (stream.drop 1).take 10 = Frame.wire ⟨5, 6, []⟩ ∧
      Supplied words [] stream ∧ Prints (lines ++ Dump.closing stream) (command words []).output := by
  intro stream words lines
  have told : (takeAll {} stream).lines.toList = lines := by decide +kernel
  have supplied : Supplied words [] stream :=
    .arguments (by simp [words]) (denoted_of_wellFormed (by decide +kernel) (by decide +kernel))
  obtain ⟨-, -, -, -, framed, -, printed⟩ := takeAll_accounts stream
  have place := (framed 1 (Frame.checksum ⟨5, 6, []⟩) ⟨5, 6, []⟩ (by rw [told]; simp [lines])).2.1
  have prints := printed words [] supplied
  rw [told] at prints
  exact ⟨told, place, supplied, prints⟩

end Progress

end FramedLink.Dump
