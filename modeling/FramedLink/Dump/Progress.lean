import FramedLink.Dump.Line
import FramedLink.Dump.Piece
import FramedLink.Receiver

/-! A dump on its way through a byte stream: a line for each frame, fault and gap, with its place. -/

namespace FramedLink.Dump

structure Progress where
  receiver : Receiver .largest := {}
  offset : Nat := 0
  lines : Array Line := #[]

namespace Progress

def lineOf (offset : Nat) : Finding .largest → Line
  | .gap _ => .gap offset
  | .frame packet => .frame (offset + 1 - packet.frameSize) packet.header.checksum packet.frame
  | .fault status packet => .fault offset status packet.header.request

def take (progress : Progress) (byte : UInt8) : Progress :=
  let { receiver, offset, lines } := progress
  match receiver.take byte with
  | (receiver, none) => ⟨receiver, offset + 1, lines⟩
  | (receiver, some finding) => ⟨receiver, offset + 1, lines.push (lineOf offset finding)⟩

def takeAll (progress : Progress) (bytes : Bytes) : Progress :=
  bytes.foldl take progress

/-- Takes the bytes of pieces up to the first malformed one, which is told. -/
def takePieces (progress : Progress) : List Bytes → Progress × Option Bytes
  | [] => (progress, none)
  | piece :: pieces =>
    let reading := read piece
    let next := progress.takeAll reading.bytes
    if reading.wellFormed then next.takePieces pieces else (next, some piece)

def frames (progress : Progress) : Nat :=
  progress.lines.countP Line.isFrame

def faults (progress : Progress) : Nat :=
  progress.lines.countP Line.isFault

def closing (progress : Progress) : List Line :=
  let received := progress.receiver.packet.cursor
  (if received = 0 then [] else [.truncated progress.offset received]) ++
    [.summary progress.frames progress.faults]

end Progress

end FramedLink.Dump
