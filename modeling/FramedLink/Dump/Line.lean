import FramedLink.Frame.Basic
import FramedLink.Numeral
import FramedLink.Packet.Status

/-! The lines of a dump and their text. -/

namespace FramedLink.Dump

/-- A line of a dump. Places count bytes from the start of the stream: a frame is placed at its first
byte, a gap and a fault at the byte that showed them. -/
inductive Line where
  | gap (place : Nat)
  | fault (place : Nat) (status : Status) (request : UInt16)
  | frame (place : Nat) (checksum : UInt16) (frame : Frame)
  | truncated (place : Nat) (received : Nat)
  | summary (frames : Nat) (faults : Nat)
  deriving DecidableEq, Repr

namespace Line

def isFrame : Line → Bool
  | frame _ _ _ => true
  | _ => false

def isFault : Line → Bool
  | fault _ _ _ => true
  | _ => false

def placeText (place : Nat) : Bytes :=
  Bytes.ofText "@" ++ Numeral.decimal place

def payloadText (payload : Bytes) : Bytes :=
  if payload = [] then [] else Bytes.ofText " data=" ++ payload.flatMap Numeral.hexByte

def text : Line → Bytes
  | gap place => placeText place ++ Bytes.ofText " resync\n"
  | fault place status request =>
    placeText place ++ Bytes.ofText " error " ++ Bytes.ofText status.label ++
      Bytes.ofText " request=" ++ Numeral.decimal request.toNat ++ Bytes.ofText "\n"
  | frame place checksum found =>
    placeText place ++ Bytes.ofText " frame request=" ++ Numeral.decimal found.request.toNat ++
      Bytes.ofText " response=0x" ++ Numeral.hexadecimal found.response.toNat ++
      Bytes.ofText " crc=0x" ++ Numeral.hexadecimal checksum.toNat ++
      Bytes.ofText " length=" ++ Numeral.decimal found.payload.length ++
      payloadText found.payload ++ Bytes.ofText "\n"
  | truncated place received =>
    placeText place ++ Bytes.ofText " truncated frame (" ++ Numeral.decimal received ++
      Bytes.ofText " bytes)\n"
  | summary frames faults =>
    Numeral.decimal frames ++ Bytes.ofText " frame(s), " ++ Numeral.decimal faults ++
      Bytes.ofText " error(s)\n"

end Line

end FramedLink.Dump
