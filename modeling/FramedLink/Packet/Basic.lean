import FramedLink.Capacity
import FramedLink.Frame.Header
import FramedLink.Packet.Status

/-! Packets: a frame's header and a payload buffer of fixed capacity, with the position that sending or
receiving has reached. -/

namespace FramedLink

/-- A packet with room for `C` payload bytes. One packet serves both directions: `cursor` is the next
position to send or to receive, `stored` counts the payload bytes received. -/
structure Packet (C : Capacity) where
  header : Frame.Header := {}
  buffer : Vector UInt8 C := Vector.replicate C 0
  cursor : Nat := 0
  stored : Nat := 0
  status : Status := .ok
  deriving DecidableEq

namespace Packet

variable {C : Capacity}

def fresh : Packet C := {}

instance : Inhabited (Packet C) := ⟨fresh⟩

def length (packet : Packet C) : Nat :=
  packet.header.length.toNat

def frameSize (packet : Packet C) : Nat :=
  Frame.headerSize + packet.length

def payload (packet : Packet C) : Bytes :=
  (packet.buffer.take packet.length).toList

def frame (packet : Packet C) : Frame where
  request := packet.header.request
  response := packet.header.response
  payload := packet.payload

def wire (packet : Packet C) : Bytes :=
  packet.header.bytes ++ packet.payload

def byteAt (packet : Packet C) (position : Nat) : UInt8 :=
  if position < Frame.headerSize then packet.header.bytes.getD position 0
  else packet.buffer[position - Frame.headerSize]?.getD 0

def contentChecksum (packet : Packet C) : UInt16 :=
  packet.frame.checksum

def isValid (packet : Packet C) : Bool :=
  packet.contentChecksum == packet.header.checksum

/-- Whether the declared payload lies within the buffer. While a length is arriving it need not. -/
def Contained (packet : Packet C) : Prop :=
  packet.length ≤ C

instance (packet : Packet C) : Decidable packet.Contained :=
  inferInstanceAs (Decidable (_ ≤ _))

def setRequest (packet : Packet C) (request : UInt16) : Packet C :=
  { packet with header.request := request }

def setResponse (packet : Packet C) (response : UInt16) : Packet C :=
  { packet with header.response := response }

def clear (_packet : Packet C) : Packet C :=
  fresh

/-- Makes the packet ready for the next frame; the buffer keeps its bytes, none of which counts. -/
def restart (packet : Packet C) : Packet C :=
  { buffer := packet.buffer }

theorem length_payload {packet : Packet C} (contained : packet.Contained) :
    packet.payload.length = packet.length := by
  rw [payload, Vector.length_toList, Nat.min_eq_left contained]

end Packet

end FramedLink
