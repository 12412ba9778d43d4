import FramedLink.Word
import FramedLink.Checksum.Basic

/-! Frames and their image on the wire: two marker bytes, then checksum, request, response and length
as words, then the payload. The checksum covers all that follows it. -/

namespace FramedLink

structure Frame where
  request : UInt16
  response : UInt16
  payload : Bytes := []
  deriving DecidableEq, Repr, Inhabited

namespace Frame

def markerByte : UInt8 := 0x55

def marker : UInt16 := 0x5555

/-! Offsets of the fields from the first marker byte. -/

def markerOffset : Nat := 0
def checksumOffset : Nat := 2
def requestOffset : Nat := 4
def responseOffset : Nat := 6
def lengthOffset : Nat := 8
def payloadOffset : Nat := 10

/-- The checksum covers the bytes from here to the end of the frame. -/
def coveredOffset : Nat := requestOffset

def headerSize : Nat := 10

/-! Reserved request codes. -/

def eventRequest : UInt16 := 0x0000

def identityRequest : UInt16 := 0x0001

def idleRequest : UInt16 := 0xFFFF

/-! Reserved response codes. -/

def pendingResponse : UInt16 := 0x0000

def successResponse : UInt16 := 0x0001

def failureResponse : UInt16 := 0xFFFD

def unknownResponse : UInt16 := 0xFFFE

def damagedResponse : UInt16 := 0xFFFF

def length (frame : Frame) : UInt16 :=
  UInt16.ofNat frame.payload.length

def covered (frame : Frame) : Bytes :=
  Word.bytes frame.request ++ Word.bytes frame.response ++ Word.bytes frame.length ++ frame.payload

def checksum (frame : Frame) : UInt16 :=
  Checksum.ofBytes frame.covered

def wire (frame : Frame) : Bytes :=
  Word.bytes marker ++ Word.bytes frame.checksum ++ frame.covered

theorem length_wire (frame : Frame) : frame.wire.length = headerSize + frame.payload.length := by
  simp only [wire, covered, Word.bytes, headerSize, List.length_append, List.length_cons, List.length_nil]
  omega

end Frame

end FramedLink
