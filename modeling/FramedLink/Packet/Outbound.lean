import FramedLink.Packet.Basic
import FramedLink.Identity.Encoding

/-! Sending with a packet: append payload, commit it with checksum and marker, then take the bytes one at a
time. Refusals are told by the second component of a result and by the packet's status. -/

namespace FramedLink.Packet

variable {C : Capacity}

def overwrite {n : Nat} (buffer : Vector UInt8 n) (position : Nat) : Bytes → Vector UInt8 n
  | [] => buffer
  | byte :: bytes => overwrite (buffer.setIfInBounds position byte) (position + 1) bytes

/-- Puts bytes after the payload. Bytes that do not all fit are refused, and only the status shows it. -/
def append (packet : Packet C) (bytes : Bytes) : Packet C × Bool :=
  let total := bytes.length + packet.length
  if total ≤ C.val then
    ({ packet with
        buffer := overwrite packet.buffer packet.length bytes
        header.length := UInt16.ofNat total
        status := .ok }, true)
  else ({ packet with status := .overflow }, false)

def commit (packet : Packet C) : Packet C :=
  let checksum := packet.contentChecksum
  { packet with header.checksum := checksum, header.marker := Frame.marker, cursor := 0 }

/-- Makes the packet hold a frame, committed. A payload that does not fit leaves it uncommitted and without
payload. -/
def compose (packet : Packet C) (frame : Frame) : Packet C × Bool :=
  match ((packet.restart.setRequest frame.request).setResponse frame.response).append frame.payload with
  | (filled, true) => (filled.commit, true)
  | (refused, false) => (refused, false)

def composeRequest (packet : Packet C) (request : UInt16) (payload : Bytes) : Packet C × Bool :=
  packet.compose ⟨request, Frame.pendingResponse, payload⟩

def composeReply (packet : Packet C) (request : UInt16) (payload : Bytes) : Packet C × Bool :=
  packet.compose ⟨request, Frame.successResponse, payload⟩

def composeIdentity (packet : Packet C) (identity : Identity) (encoding : Identity.Encoding) :
    Packet C × Bool :=
  packet.composeReply Frame.identityRequest (identity.encode encoding)

/-- Takes the next byte of the frame. After the last one the answer is once `none`, and the cursor is on
the first byte again. -/
def emit (packet : Packet C) : Packet C × Option UInt8 :=
  if packet.cursor < packet.frameSize then
    let byte := packet.byteAt packet.cursor
    ({ packet with cursor := packet.cursor + 1, status := .ok }, some byte)
  else ({ packet with cursor := 0, status := .exhausted }, none)

def CanEmit (packet : Packet C) : Prop :=
  packet.cursor < packet.frameSize → packet.cursor < Frame.headerSize + C

instance (packet : Packet C) : Decidable packet.CanEmit :=
  inferInstanceAs (Decidable (_ → _))

end FramedLink.Packet
