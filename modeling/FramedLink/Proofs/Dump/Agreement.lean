import FramedLink.Proofs.Dump.Places
import FramedLink.Proofs.Endpoint.Polling
import FramedLink.Proofs.Endpoint.Replies

/-! A dump against an endpoint that reads the same stream. Main statement: the lines of the dump are the events of a
host with nothing to send, one for one, however the host is polled while the stream arrives. -/

namespace FramedLink.Dump

open Endpoint (Profile)

/-- The event reports what the line tells, but for its place. -/
inductive Line.Matches : Line → Event → Prop
  | gap {place : Nat} {event : Event} (kind : event.kind = .resync) : Matches (.gap place) event
  | badChecksum {place : Nat} {event : Event} (kind : event.kind = .badChecksum) :
    Matches (.fault place .badChecksum event.request) event
  | badLength {place : Nat} {event : Event} (kind : event.kind = .badLength) :
    Matches (.fault place .badLength event.request) event
  | frame {place : Nat} {checksum : UInt16} {frame : Frame} {event : Event} (kind : event.kind = .frameReceived)
    (request : event.request = frame.request) (response : event.response = frame.response)
    (length : event.length.toNat = frame.payload.length) : Matches (.frame place checksum frame) event

theorem matches_of_regular {found : Finding .largest} (regular : found.Regular) (offset : Nat) :
    (Progress.lineOf offset found).Matches found.event := by
  cases found with
  | gap packet => exact .gap rfl
  | frame packet =>
    have header := (Packet.parts_of_wire_eq regular).1
    have fits : packet.frame.payload.length ≤ Capacity.largest := by
      rw [Packet.frame, Packet.payload, Vector.length_toList]
      exact Nat.min_le_right _ _
    refine .frame rfl rfl rfl ?_
    change packet.header.length.toNat = _
    rw [header]
    exact UInt16.toNat_ofNat_of_lt (Frame.small_of_fits fits)
  | fault status packet =>
    rcases regular with rfl | rfl
    · have kind : (Finding.fault .badChecksum packet).event.kind = .badChecksum := rfl
      exact .badChecksum kind
    · have kind : (Finding.fault .badLength packet).event.kind = .badLength := rfl
      exact .badLength kind

theorem matches_of_reports {lines : List Line} {found : List (Finding .largest)}
    (reports : List.Forall₂ Progress.Reports lines found) (regular : ∀ one ∈ found, one.Regular) :
    List.Forall₂ Line.Matches lines (found.map Finding.event) := by
  induction reports with
  | nil => exact .nil
  | @cons line finding lines found report _ ih =>
    obtain ⟨offset, rfl⟩ := report
    have first := matches_of_regular (regular finding List.mem_cons_self) offset
    exact .cons first (ih fun other member => regular other (List.mem_cons_of_mem _ member))

theorem Line.Matches.isFrame_eq {line : Line} {event : Event} (same : line.Matches event) :
    line.isFrame = event.isFrame := by
  cases same <;> simp [Line.isFrame, Event.isFrame, *]

theorem Line.Matches.isFault_eq {line : Line} {event : Event} (same : line.Matches event) :
    line.isFault = event.isFault := by
  cases same <;> simp [Line.isFault, Event.isFault, *]

theorem countP_of_matches {lines : List Line} {events : List Event} (all : List.Forall₂ Line.Matches lines events) :
    lines.countP Line.isFrame = events.countP Event.isFrame ∧
      lines.countP Line.isFault = events.countP Event.isFault :=
  ⟨countP_of_forall₂ all fun _ _ same => same.isFrame_eq, countP_of_forall₂ all fun _ _ same => same.isFault_eq⟩

/-- Whatever part of the stream has arrived before each poll of a host, its events are what a dump of the stream tells
line by line, and its polls count the frames of the dump. The dump prints these lines, and at last the counts of the
host. -/
theorem takeAll_matches_host {τ : Type} [Channel τ] (me : Profile .largest) (host : me.role = .host) (port : τ)
    {stream : Bytes} {arrivals : List τ} (whole : arrivals.flatMap Channel.waiting = stream) :
    let progress := Progress.takeAll {} stream
    let polled := ({ endpoint := {}, port := port } : Session .largest τ).pollEach me arrivals
    List.Forall₂ Line.Matches progress.lines.toList (Notice.events polled.1.log) ∧
      progress.frames = polled.2 ∧
      progress.faults = (Notice.events polled.1.log).countP Event.isFault ∧
      ∀ arguments input, Supplied arguments input stream →
        Prints (progress.lines.toList ++
            (remainder stream ++ [.summary polled.2 ((Notice.events polled.1.log).countP Event.isFault)]))
          (command arguments input).output := by
  intro progress polled
  have heard : Session.Hearing _ polled.1 _ polled.2 := Session.hearing_pollEach host rfl arrivals
  have events := heard.events
  have count := heard.count
  rw [whole] at events count
  have fresh : ({} : Receiver .largest).Expects := Receiver.expects_of_holds Packet.Ready.fresh.holds
  obtain ⟨told, lines, reports⟩ := Progress.lines_takeAll {} stream
  have all := matches_of_reports reports fun _ member => fresh.regular member
  obtain ⟨frames, faults⟩ := countP_of_matches all
  have logged : Notice.events polled.1.log = (Receiver.takeAll ({} : Receiver .largest) stream).2.map Finding.event :=
    events
  have shown : progress.lines.toList = told := lines
  have framed : progress.frames = polled.2 := by
    rw [Progress.frames_eq, shown, frames]
    exact count.symm
  have faulty : progress.faults = (Notice.events polled.1.log).countP Event.isFault := by
    rw [Progress.faults_eq, shown, logged]
    exact faults
  refine ⟨?_, framed, faulty, ?_⟩
  · rw [logged, shown]
    exact all
  · intro arguments input supplied
    rw [← framed, ← faulty, ← closing_eq, command_of_supplied supplied]
    exact prints_report stream

private def listener : Profile .largest where
  role := .host
  identity := ⟨⟨1, 2, 3⟩, 2, Vector.replicate _ 0⟩
  encoding := .text
  handler := fun _ reply => (reply, false)

private def arriving (bytes : Bytes) : Port 31 :=
  ⟨(Ring.empty.pushAll bytes).1, .empty⟩

theorem takeAll_matches_host_in_two_polls :
    let stream := [7] ++ Frame.wire ⟨5, 1, []⟩ ++ [0x55, 0x55, 0, 0, 9, 0, 0, 0, 0xFF, 0xFF]
    let arrivals := [arriving (stream.take 6), arriving (stream.drop 6)]
    let polled := ({ endpoint := {}, port := arriving [] } : Session .largest (Port 31)).pollEach listener arrivals
    let words := [Bytes.ofText "07", Bytes.ofText "555501A905000100 0000", Bytes.ofText "0x55,0X55",
      Bytes.ofText "0 0 9 000000 FFFF"]
    listener.role = .host ∧ arrivals.flatMap Channel.waiting = stream ∧ polled.2 = 1 ∧
      (Notice.events polled.1.log).countP Event.isFault = 1 ∧ Supplied words [] stream ∧
      Prints ([.gap 0, .frame 1 (Frame.checksum ⟨5, 1, []⟩) ⟨5, 1, []⟩, .fault 20 .badLength 9] ++
        (remainder stream ++ [.summary 1 1])) (command words []).output := by
  intro stream arrivals polled words
  have whole : arrivals.flatMap Channel.waiting = stream := by
    rw [List.flatMap_cons, List.flatMap_singleton, Port.waiting_eq, Port.waiting_eq]
    decide +kernel
  have lines : (Progress.takeAll {} stream).lines =
      #[.gap 0, .frame 1 (Frame.checksum ⟨5, 1, []⟩) ⟨5, 1, []⟩, .fault 20 .badLength 9] := by decide +kernel
  have supplied : Supplied words [] stream :=
    .arguments (by simp [words]) (denoted_of_wellFormed (by decide +kernel) (by decide +kernel))
  obtain ⟨-, frames, faults, printed⟩ := takeAll_matches_host listener rfl (arriving []) whole
  have prints := printed words [] supplied
  rw [Progress.frames, lines] at frames
  rw [Progress.faults, lines] at faults
  rw [lines, ← frames, ← faults] at prints
  exact ⟨rfl, whole, frames.symm, faults.symm, supplied, prints⟩

end FramedLink.Dump
