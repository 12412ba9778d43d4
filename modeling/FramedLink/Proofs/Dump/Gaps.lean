import FramedLink.Proofs.Dump.Agreement
import FramedLink.Proofs.Dump.Faults
import FramedLink.Proofs.Receiver.Gaps

/-! Frames with noise before them. Main statement: a dump and an endpoint of either role tell of each frame, and before
it of one loss of the framing for each run of bytes other than the marker in the noise, at the first byte of the run. -/

namespace FramedLink

open Endpoint (Profile Reaction Service)
open Dump (Line Progress)

variable {C : Capacity}

/-- A frame and the noise before it, if there is any: no two marker bytes side by side, and none at the end. -/
structure Passage (C : Capacity) where
  noise : Bytes
  apart : Frame.markerStart? noise = none
  last : noise.getLast? ≠ some Frame.markerByte
  frame : Frame
  fits : frame.payload.length ≤ C

namespace Passage

def bytes (passage : Passage C) : Bytes :=
  passage.noise ++ passage.frame.wire

/-- What is to be told of the passages, the first of which begins at the offset. -/
def lines (offset : Nat) : List (Passage C) → List Line
  | [] => []
  | passage :: passages =>
    (Frame.runStarts passage.noise).map (fun index => .gap (offset + index)) ++
      .frame (offset + passage.noise.length) passage.frame.checksum passage.frame ::
        lines (offset + passage.bytes.length) passages

theorem length_runStarts (passage : Passage C) (something : passage.noise ≠ []) :
    (Frame.runStarts passage.noise).length = passage.noise.tail.count Frame.markerByte + 1 := by
  have last := passage.last
  rw [Frame.length_runStarts passage.apart, if_neg (by simp [something, last])]

theorem countP_lines (passages : List (Passage C)) (offset : Nat) :
    (lines offset passages).countP Line.isFrame = passages.length ∧
      (lines offset passages).countP Line.isFault = 0 := by
  induction passages generalizing offset with
  | nil => exact ⟨rfl, rfl⟩
  | cons passage passages ih =>
    obtain ⟨frames, faults⟩ := ih (offset + passage.bytes.length)
    have gaps (p : Line → Bool) (none : ∀ place, p (.gap place) = false) :
        ((Frame.runStarts passage.noise).map fun index => Line.gap (offset + index)).countP p = 0 := by
      rw [List.countP_eq_zero]
      intro line member
      obtain ⟨index, -, rfl⟩ := List.mem_map.mp member
      simp [none]
    rw [lines, List.countP_append, List.countP_append, gaps _ fun _ => rfl, gaps _ fun _ => rfl, List.countP_cons,
      List.countP_cons, frames, faults]
    simp [Line.isFrame, Line.isFault]

end Passage

theorem Packet.toNat_length_of_wire_eq {packet : Packet C} {contents : Frame} (wire : packet.wire = contents.wire) :
    packet.header.length.toNat = contents.payload.length := by
  obtain ⟨header, frame⟩ := parts_of_wire_eq wire
  have fits : contents.payload.length ≤ C := by
    rw [← frame, Packet.frame, Packet.payload, Vector.length_toList]
    exact Nat.min_le_right _ _
  rw [header]
  exact UInt16.toNat_ofNat_of_lt (Frame.small_of_fits fits)

inductive Shows : Nat × Finding C → Line → Prop
  | gap (place : Nat) (packet : Packet C) : Shows (place, .gap packet) (.gap place)
  | frame {place start : Nat} {packet : Packet C} {contents : Frame} (wire : packet.wire = contents.wire)
    (size : start + contents.wire.length = place + 1) :
    Shows (place, .frame packet) (.frame start contents.checksum contents)

namespace Receiver

variable {receiver : Receiver C}

theorem shows_passage (hunts : receiver.Hunts []) (offset : Nat) (passage : Passage C) :
    (receiver.takeAll passage.bytes).1.Hunts [] ∧
      List.Forall₂ Shows (receiver.locate offset passage.bytes)
        ((Frame.runStarts passage.noise).map (fun index => .gap (offset + index)) ++
          [.frame (offset + passage.noise.length) passage.frame.checksum passage.frame]) := by
  obtain ⟨still, lost⟩ := hunts_noise hunts offset passage.apart
  have rests : (receiver.takeAll passage.noise).1.packet.Holds [] := by
    have holds := still.holding.holds
    rwa [if_neg passage.last] at holds
  have fits : ∀ frame ∈ [passage.frame], frame.payload.length ≤ C := by simpa using passage.fits
  have awaits := rests.awaits.append fits
  rw [List.flatMap_singleton, List.nil_append, List.nil_append] at awaits
  obtain ⟨packet, wire, after, located⟩ := locate_of_awaits awaits (offset + passage.noise.length)
  rw [Passage.bytes, takeAll_append, locate_append, located]
  refine ⟨?_, List.rel_append ?_ ?_⟩
  · rw [after]
    exact hunts_restart packet
  · rw [List.forall₂_map_right_iff] at lost ⊢
    refine lost.imp ?_
    rintro found index lost
    cases lost
    exact .gap _ _
  · have size : 0 < passage.frame.wire.length := by
      rw [Frame.length_wire, Frame.headerSize]
      omega
    exact .cons (.frame wire (by omega)) .nil

theorem shows_passages (hunts : receiver.Hunts []) (offset : Nat) (passages : List (Passage C)) :
    (receiver.takeAll (passages.flatMap Passage.bytes)).1.Hunts [] ∧
      List.Forall₂ Shows (receiver.locate offset (passages.flatMap Passage.bytes)) (Passage.lines offset passages) := by
  induction passages generalizing receiver offset with
  | nil => exact ⟨hunts, .nil⟩
  | cons passage passages ih =>
    obtain ⟨next, first⟩ := shows_passage hunts offset passage
    obtain ⟨last, rest⟩ := ih next (offset + passage.bytes.length)
    rw [List.flatMap_cons, takeAll_append, locate_append, Passage.lines, ← List.singleton_append, ← List.append_assoc]
    exact ⟨last, List.rel_append first rest⟩

end Receiver

namespace Dump.Progress

theorem lineOf_of_shows {located : Nat × Finding .largest} {line : Line} (shows : Shows located line) :
    lineOf located.1 located.2 = line := by
  cases shows with
  | gap place packet => rfl
  | @frame place start packet contents wire size =>
    obtain ⟨header, frame⟩ := Packet.parts_of_wire_eq wire
    have length : packet.frameSize = contents.wire.length := by
      rw [Packet.frameSize, Packet.length, Packet.toNat_length_of_wire_eq wire, Frame.length_wire]
    have begins : place + 1 - packet.frameSize = start := by omega
    show Line.frame (place + 1 - packet.frameSize) packet.header.checksum packet.frame = _
    rw [begins, header, frame]
    rfl

theorem lines_of_passages (passages : List (Passage .largest)) :
    (takeAll {} (passages.flatMap Passage.bytes)).lines.toList = Passage.lines 0 passages := by
  obtain ⟨-, shows⟩ := Receiver.shows_passages Receiver.hunts_fresh 0 passages
  have told : List.Forall₂ (· = ·)
      ((Receiver.locate {} 0 (passages.flatMap Passage.bytes)).map fun located => lineOf located.1 located.2)
      (Passage.lines 0 passages) :=
    List.forall₂_map_left_iff.mpr (shows.imp fun _ _ => lineOf_of_shows)
  rw [List.forall₂_eq_eq_eq] at told
  rw [lines_locate, ← told]
  rfl

theorem counts_of_passages (passages : List (Passage .largest)) :
    (takeAll {} (passages.flatMap Passage.bytes)).frames = passages.length ∧
      (takeAll {} (passages.flatMap Passage.bytes)).faults = 0 := by
  rw [frames_eq, faults_eq, lines_of_passages]
  exact Passage.countP_lines passages 0

end Dump.Progress

namespace Dump

theorem closing_passages (passages : List (Passage .largest)) :
    closing (passages.flatMap Passage.bytes) = [.summary passages.length 0] := by
  have rests := (Receiver.shows_passages Receiver.hunts_fresh 0 passages).1.holding.holds.cursor
  have nothing : remainder (passages.flatMap Passage.bytes) = [] := if_pos rests
  obtain ⟨frames, faults⟩ := Progress.counts_of_passages passages
  rw [closing_eq, nothing, frames, faults]
  rfl

theorem report_passages (passages : List (Passage .largest)) :
    let done := report (passages.flatMap Passage.bytes)
    done.exitCode = 0 ∧ done.errors = [] ∧
      Prints (Passage.lines 0 passages ++ [.summary passages.length 0]) done.output := by
  intro done
  have prints := prints_report (passages.flatMap Passage.bytes)
  rw [Progress.lines_of_passages, closing_passages] at prints
  exact ⟨if_pos (Progress.counts_of_passages passages).2, rfl, prints⟩

end Dump

namespace Event

def isHeard (event : Event) : Bool :=
  match event.kind with
  | .frameReceived | .badChecksum | .resync | .overflow | .badLength => true
  | _ => false

end Event

namespace Notice

def heard (log : List Notice) : List Event :=
  (events log).filter Event.isHeard

theorem heard_append (one two : List Notice) : heard (one ++ two) = heard one ++ heard two := by
  rw [heard, events, List.filterMap_append, List.filter_append]
  rfl

theorem heard_received (log : List Notice) : heard (received log) = heard log := by
  induction log with
  | nil => rfl
  | cons notice log ih =>
    have joined : notice :: log = [notice] ++ log := rfl
    rw [joined, received, List.filter_append, heard_append, heard_append]
    refine congrArg₂ _ ?_ ih
    cases notice with
    | asked _ _ | answered _ => rfl
    | event event =>
      obtain ⟨kind, request, response, length⟩ := event
      cases kind <;> rfl

end Notice

section

variable {me : Profile C}

theorem heard_replying (request : Packet C) (composed : Packet C × Bool) :
    Notice.heard (Reaction.replying request composed).notices = [] := by
  rcases composed with ⟨packet, _ | _⟩ <;> rfl

theorem heard_after (reaction : Reaction C) (notices : List Notice) :
    Notice.heard (reaction.after notices).notices = Notice.heard notices ++ Notice.heard reaction.notices :=
  Notice.heard_append _ _

theorem heard_serving (me : Profile C) (draft request : Packet C) :
    Notice.heard (me.serving draft request).notices = [] := by
  unfold Profile.serving
  split
  · rfl
  · rw [heard_after, heard_replying]
    rfl

theorem heard_react (me : Profile C) (draft : Packet C) (found : Finding C) :
    Notice.heard (me.react draft found).notices = [found.event] := by
  unfold Profile.react
  cases found with
  | gap packet => rfl
  | frame packet =>
    cases me.role with
    | host => rfl
    | client =>
      rw [heard_after]
      split
      · rw [heard_replying]
        rfl
      · rw [heard_serving]
        rfl
  | fault status packet =>
    cases status with
    | badChecksum =>
      cases me.role with
      | host => rfl
      | client =>
        rw [heard_after, heard_replying]
        rfl
    | _ => rfl

end

namespace Session

variable {τ : Type} [Channel τ] {me : Service C} {session : Session C (Tapped τ)} {occasions : List (Occasion C)}

omit [Channel τ] in
theorem Hears.heard (hears : Hears me session occasions) : Notice.heard session.log =
    (Receiver.takeAll ({} : Receiver C) session.port.read).2.map Finding.event := by
  rw [← Notice.heard_received, hears.received, ← hears.findings]
  clear hears
  induction occasions with
  | nil => rfl
  | cons occasion occasions ih =>
    rw [List.flatMap_cons, Notice.heard_append, ih]
    cases occasion with
    | request packet => rfl
    | finding calls found draft => exact congrArg (· ++ _) (heard_react (me.profile calls) draft found)

end Session

theorem Shows.matches {located : Nat × Finding C} {line : Line} (shows : Shows located line) :
    line.Matches located.2.event := by
  cases shows with
  | gap place packet => exact .gap rfl
  | @frame place start packet contents wire size =>
    have frame := (Packet.parts_of_wire_eq wire).2
    exact .frame rfl (congrArg Frame.request frame) (congrArg Frame.response frame)
      (Packet.toNat_length_of_wire_eq wire)

theorem matches_of_read {passages : List (Passage C)} {read : Bytes} (part : read <+: passages.flatMap Passage.bytes) :
    ∃ told, told <+: Passage.lines 0 passages ∧
      List.Forall₂ Line.Matches told ((Receiver.takeAll ({} : Receiver C) read).2.map Finding.event) ∧
      (read = passages.flatMap Passage.bytes → told = Passage.lines 0 passages) := by
  obtain ⟨-, shows⟩ := Receiver.shows_passages (Receiver.hunts_fresh (C := C)) 0 passages
  obtain ⟨rest, whole⟩ := part
  rw [← whole, Receiver.locate_append] at shows
  let here := Receiver.locate ({} : Receiver C) 0 read
  have first := List.forall₂_take here.length shows
  rw [List.take_left' rfl] at first
  refine ⟨(Passage.lines 0 passages).take here.length, List.take_prefix _ _, ?_, ?_⟩
  · rw [← Receiver.map_snd_locate _ 0, List.map_map, List.forall₂_map_right_iff]
    exact first.flip.imp fun _ _ => Shows.matches
  · intro all
    rw [all] at whole
    have nothing : rest = [] := List.append_cancel_left (whole.trans (List.append_nil _).symm)
    have size := shows.length_eq
    rw [nothing] at size
    apply List.take_of_length_le
    rw [← size]
    simp [Receiver.locate, here]

namespace Dump

/-- Of passages a dump tells just the frames and the losses of the framing, and an endpoint of either role, whatever it
does besides, reports those among what it has read. A gap has one loss of the framing at the first byte of each run of
bytes other than the marker, which is one more than it has marker bytes behind its first byte. -/
theorem resyncs_tell_runs {τ : Type} [Channel τ] (me : Service C) (port : τ) (moves : List (Move τ))
    (passages : List (Passage C)) (dumped : List (Passage .largest)) (arguments : List Bytes) (input : Bytes) :
    let done := ((Session.opening port : Session C (Tapped τ)).run me moves).1
    let printed := command arguments input
    (Supplied arguments input (dumped.flatMap Passage.bytes) →
      printed.exitCode = 0 ∧ printed.errors = [] ∧
        Prints (Passage.lines 0 dumped ++ [.summary dumped.length 0]) printed.output) ∧
    (done.port.read <+: passages.flatMap Passage.bytes →
      ∃ told, told <+: Passage.lines 0 passages ∧ List.Forall₂ Line.Matches told (Notice.heard done.log) ∧
        (done.port.read = passages.flatMap Passage.bytes → told = Passage.lines 0 passages)) ∧
    (∀ passage : Passage C,
      (∀ index ∈ Frame.runStarts passage.noise, index < passage.noise.length) ∧
      (passage.noise ≠ [] →
        (Frame.runStarts passage.noise).length = passage.noise.tail.count Frame.markerByte + 1 ∧
          ((Frame.runStarts passage.noise).length = 1 ↔ Frame.markerByte ∉ passage.noise.tail))) := by
  intro done printed
  refine ⟨?_, ?_, ?_⟩
  · intro supplied
    rw [show printed = _ from command_of_supplied supplied]
    exact report_passages dumped
  · intro part
    have start : Session.Hears me (Session.opening port : Session C (Tapped τ)) [] :=
      (Session.heeds_opening port).toHears
    rw [(start.run rfl moves).heard]
    exact matches_of_read part
  · intro passage
    refine ⟨fun _ => Frame.lt_of_mem_runStarts, ?_⟩
    intro something
    have count := passage.length_runStarts something
    refine ⟨count, ?_⟩
    rw [count, Nat.add_eq_right, List.count_eq_zero]

private def parted : Passage ⟨2, Capacity.two_lt⟩ :=
  ⟨[0, 0x55, 0], by decide, by decide, ⟨10, 1, []⟩, by decide⟩

private def partedForDump : Passage .largest :=
  ⟨[0, 0x55, 0], by decide, by decide, ⟨10, 1, []⟩, by decide⟩

private def overhearing : Service ⟨2, Capacity.two_lt⟩ where
  role := .host
  identity := ⟨⟨1, 2, 3⟩, 2, Vector.replicate _ 0⟩
  encoding := .text
  handler := fun _ _ reply => (reply, false)

private def overheard : Session ⟨2, Capacity.two_lt⟩ (Tapped (Port 15)) :=
  ((Session.opening ⟨.empty, .empty⟩).run overhearing
    [.elapse ⟨(Ring.empty.pushAll parted.bytes).1, .empty⟩, .call .poll]).1

theorem resyncs_tell_runs_of_parted :
    let words := [partedForDump.bytes.flatMap Numeral.hexByte]
    Supplied words [] ([partedForDump].flatMap Passage.bytes) ∧
      Prints [.gap 0, .gap 2, .frame 3 (Frame.checksum ⟨10, 1, []⟩) ⟨10, 1, []⟩, .summary 1 0]
        (command words []).output ∧
      overheard.port.read = parted.bytes ∧ (Notice.heard overheard.log).length = 3 := by
  intro words
  have supplied : Supplied words [] ([partedForDump].flatMap Passage.bytes) :=
    .arguments (by simp [words]) (denoted_of_wellFormed (by decide +kernel) (by decide +kernel))
  have heard : overheard.port.read = parted.bytes := by decide +kernel
  have told := resyncs_tell_runs overhearing (⟨.empty, .empty⟩ : Port 15)
    [.elapse ⟨(Ring.empty.pushAll parted.bytes).1, .empty⟩, .call .poll] [parted] [partedForDump] words []
  have ran : ((Session.opening ⟨.empty, .empty⟩).run overhearing
      [.elapse ⟨(Ring.empty.pushAll parted.bytes).1, .empty⟩, .call .poll]).1 = overheard := by rw [overheard]
  rw [ran] at told
  obtain ⟨dump, reports, -⟩ := told
  rw [List.flatMap_singleton, heard] at reports
  obtain ⟨lines, -, same, all⟩ := reports (List.prefix_refl _)
  refine ⟨supplied, (dump supplied).2.2, heard, ?_⟩
  rw [← same.length_eq, all rfl]
  rfl

def Line.isGap : Line → Bool
  | gap _ => true
  | _ => false

/-- A marker byte alone in a gap has the framing lost once more, and so there is not one loss for each gap. -/
theorem lone_marker_parts_gap :
    (¬ ∀ passages : List (Passage .largest),
      (Progress.takeAll {} (passages.flatMap Passage.bytes)).lines.toList.countP Line.isGap =
        passages.countP fun passage => passage.noise ≠ []) ∧
      (command [Bytes.ofText "00 55 00", Bytes.ofText "55 55 01 56 0a 00 01 00 00 00"] []).output =
        Bytes.ofText "@0 resync\n@2 resync\n@3 frame request=10 response=0x1 crc=0x5601 length=0\n" ++
          Bytes.ofText "1 frame(s), 0 error(s)\n" ∧
      overheard.port.read = parted.bytes ∧ (Notice.heard overheard.log).countP (·.kind = .resync) = 2 := by
  refine ⟨?_, by decide +kernel, by decide +kernel, by decide +kernel⟩
  intro each
  have once := each [partedForDump]
  rw [Progress.lines_of_passages] at once
  revert once
  decide +kernel

end Dump

end FramedLink
