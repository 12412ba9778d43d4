import FramedLink.Proofs.Dump.Text
import FramedLink.Proofs.Receiver.Gaps

/-! What a dump tells of a stream. Main statement: a dump that was fed a stream has one line for each thing that a
receiver finds in it, in their order, and closes with what the receiver still holds and with the counts. -/

namespace FramedLink

namespace Finding

variable {C : Capacity}

def isFrame : Finding C → Bool
  | frame _ => true
  | _ => false

def isFault : Finding C → Bool
  | fault _ _ => true
  | _ => false

end Finding

namespace Dump

namespace Progress

variable {progress : Progress} {byte : UInt8}

theorem frames_eq (progress : Progress) : progress.frames = progress.lines.toList.countP Line.isFrame :=
  Array.countP_toList.symm

theorem faults_eq (progress : Progress) : progress.faults = progress.lines.toList.countP Line.isFault :=
  Array.countP_toList.symm

theorem receiver_take (progress : Progress) (byte : UInt8) :
    (progress.take byte).receiver = (progress.receiver.take byte).1 := by
  obtain ⟨receiver, offset, lines⟩ := progress
  simp only [take]
  rcases receiver.take byte with ⟨next, _ | finding⟩ <;> rfl

theorem offset_take (progress : Progress) (byte : UInt8) : (progress.take byte).offset = progress.offset + 1 := by
  obtain ⟨receiver, offset, lines⟩ := progress
  simp only [take]
  rcases receiver.take byte with ⟨next, _ | finding⟩ <;> rfl

theorem lines_take (progress : Progress) (byte : UInt8) :
    (progress.take byte).lines.toList =
      progress.lines.toList ++ ((progress.receiver.take byte).2.map (lineOf progress.offset)).toList := by
  obtain ⟨receiver, offset, lines⟩ := progress
  simp only [take]
  rcases receiver.take byte with ⟨next, _ | finding⟩
  · exact (List.append_nil _).symm
  · exact Array.toList_push

theorem receiver_takeAll (progress : Progress) (bytes : Bytes) :
    (progress.takeAll bytes).receiver = (progress.receiver.takeAll bytes).1 := by
  induction bytes generalizing progress with
  | nil => rfl
  | cons byte bytes ih =>
    change ((progress.take byte).takeAll bytes).receiver = _
    rw [ih, receiver_take]
    rfl

theorem offset_takeAll (progress : Progress) (bytes : Bytes) :
    (progress.takeAll bytes).offset = progress.offset + bytes.length := by
  induction bytes generalizing progress with
  | nil => rfl
  | cons byte bytes ih =>
    change ((progress.take byte).takeAll bytes).offset = _
    rw [ih, offset_take, List.length_cons]
    omega

theorem lines_locate (progress : Progress) (bytes : Bytes) :
    (progress.takeAll bytes).lines.toList = progress.lines.toList ++
      (progress.receiver.locate progress.offset bytes).map fun located => lineOf located.1 located.2 := by
  induction bytes generalizing progress with
  | nil => exact (List.append_nil _).symm
  | cons byte bytes ih =>
    change ((progress.take byte).takeAll bytes).lines.toList = _
    rw [ih, lines_take, receiver_take, offset_take, Receiver.locate, List.map_append, List.append_assoc]
    cases (progress.receiver.take byte).2 <;> rfl

end Progress

/-- The line tells what was found with the byte of that index. -/
inductive Line.Tells : Line → Nat × Finding .largest → Prop
  | gap {index : Nat} {packet : Packet .largest} : Tells (.gap index) (index, .gap packet)
  | frame {index : Nat} {packet : Packet .largest} :
    Tells (.frame (index + 1 - packet.frameSize) packet.header.checksum packet.frame) (index, .frame packet)
  | fault {index : Nat} {status : Status} {packet : Packet .largest} :
    Tells (.fault index status packet.header.request) (index, .fault status packet)

/-- A dump that was fed the stream has told the lines, which are of what its receiver finds there. -/
structure Recounts (stream : Bytes) (lines : List Line) : Prop where
  fed : (stream.foldl Progress.take {}).lines.toList = lines
  told : List.Forall₂ Line.Tells lines (Receiver.locate {} 0 stream)

def remainder (stream : Bytes) : List Line :=
  let held := (Receiver.takeAll ({} : Receiver .largest) stream).1.packet.cursor
  if held = 0 then [] else [.truncated stream.length held]

/-- What is told at the end of the stream, with the counts of what was found in it. -/
def closing (stream : Bytes) : List Line :=
  let found := (Receiver.takeAll ({} : Receiver .largest) stream).2
  remainder stream ++ [.summary (found.countP Finding.isFrame) (found.countP Finding.isFault)]

section

variable {stream : Bytes} {lines : List Line} {located : Nat × Finding .largest} {line : Line}

theorem tells_lineOf (located : Nat × Finding .largest) : (Progress.lineOf located.1 located.2).Tells located := by
  obtain ⟨index, finding⟩ := located
  cases finding with
  | gap packet => exact .gap
  | frame packet => exact .frame
  | fault status packet => exact .fault

theorem Line.Tells.isFrame_eq (tells : line.Tells located) : line.isFrame = located.2.isFrame := by
  cases tells <;> rfl

theorem Line.Tells.isFault_eq (tells : line.Tells located) : line.isFault = located.2.isFault := by
  cases tells <;> rfl

theorem Line.Tells.regular (tells : line.Tells located) (regular : located.2.Regular) : line.Regular := by
  cases tells with
  | gap | frame => trivial
  | fault => exact regular

theorem countP_of_forall₂ {α β : Type} {R : α → β → Prop} {p : α → Bool} {q : β → Bool} {ones : List α} {twos : List β}
    (all : List.Forall₂ R ones twos) (same : ∀ one two, R one two → p one = q two) : ones.countP p = twos.countP q := by
  induction all with
  | nil => rfl
  | cons related _ ih => rw [List.countP_cons, List.countP_cons, ih, same _ _ related]

theorem recounts_takeAll (stream : Bytes) : Recounts stream (Progress.takeAll {} stream).lines.toList := by
  have lines := Progress.lines_locate {} stream
  refine ⟨rfl, ?_⟩
  rw [lines]
  change List.Forall₂ Line.Tells (List.map _ _) _
  rw [List.forall₂_map_left_iff, List.forall₂_same]
  exact fun located _ => tells_lineOf located

theorem Recounts.counts (recounts : Recounts stream lines) :
    let found := (Receiver.takeAll ({} : Receiver .largest) stream).2
    lines.countP Line.isFrame = found.countP Finding.isFrame ∧
      lines.countP Line.isFault = found.countP Finding.isFault := by
  intro found
  have located : (Receiver.locate {} 0 stream).map Prod.snd = found := Receiver.map_snd_locate _ 0 stream
  rw [← located, List.countP_map, List.countP_map]
  exact ⟨countP_of_forall₂ recounts.told fun _ _ tells => tells.isFrame_eq,
    countP_of_forall₂ recounts.told fun _ _ tells => tells.isFault_eq⟩

theorem regular_of_tells {found : List (Nat × Finding .largest)} (told : List.Forall₂ Line.Tells lines found)
    (regular : ∀ located ∈ found, located.2.Regular) : ∀ line ∈ lines, line.Regular := by
  induction told with
  | nil => nofun
  | cons tells _ ih =>
    intro line member
    rcases List.mem_cons.mp member with rfl | later
    · exact tells.regular (regular _ (.head _))
    · exact ih (fun located among => regular located (.tail _ among)) line later

theorem Recounts.regular (recounts : Recounts stream lines) : ∀ line ∈ lines, line.Regular := by
  have fresh : ({} : Receiver .largest).Expects := Receiver.expects_of_holds Packet.Ready.fresh.holds
  refine regular_of_tells recounts.told fun located among => ?_
  have found : located.2 ∈ (Receiver.locate {} 0 stream).map Prod.snd := List.mem_map_of_mem among
  rw [Receiver.map_snd_locate] at found
  exact fresh.regular found

theorem closing_eq (stream : Bytes) :
    let progress := Progress.takeAll {} stream
    closing stream = remainder stream ++ [.summary progress.frames progress.faults] := by
  intro progress
  obtain ⟨frames, faults⟩ := (recounts_takeAll stream).counts
  rw [Progress.frames_eq, Progress.faults_eq, frames, faults]
  rfl

theorem closing_takeAll (stream : Bytes) : (Progress.takeAll {} stream).closing = closing stream := by
  have offset := Progress.offset_takeAll {} stream
  rw [Nat.zero_add] at offset
  rw [closing_eq, Progress.closing, offset, Progress.receiver_takeAll]
  rfl

theorem regular_closing (stream : Bytes) : ∀ line ∈ closing stream, line.Regular := by
  rw [closing, List.forall_mem_append, List.forall_mem_singleton, remainder]
  refine ⟨?_, trivial⟩
  split
  · exact nofun
  · exact List.forall_mem_singleton.mpr trivial

end

end Dump

end FramedLink
