import FramedLink.Packet.Basic

/-! Receiving with a packet, one byte at a time. The two marker bytes come first and anything else is
skipped; a length beyond the capacity ends the frame before its payload; after the end of a frame
every byte is refused until the packet is cleared or restarted. -/

namespace FramedLink.Packet

variable {C : Capacity}

def putHeader (packet : Packet C) (byte : UInt8) : Packet C :=
  { packet with header := packet.header.set packet.cursor byte, cursor := packet.cursor + 1 }

def putPayload (packet : Packet C) (byte : UInt8) : Packet C :=
  { packet with
    buffer := packet.buffer.setIfInBounds packet.stored byte
    cursor := packet.cursor + 1
    stored := packet.stored + 1 }

def proceed (packet : Packet C) : Packet C × Outcome :=
  ({ packet with status := .building }, .inProgress)

def fail (packet : Packet C) (status : Status) : Packet C × Outcome :=
  ({ packet with status := status }, .error status)

def settle (packet : Packet C) : Packet C × Outcome :=
  if packet.stored < packet.length then packet.proceed
  else if packet.isValid then ({ packet with status := .received }, .completed)
  else packet.fail .badChecksum

def receive (packet : Packet C) (byte : UInt8) : Packet C × Outcome :=
  if packet.cursor < 2 then
    if byte = Frame.markerByte then (packet.putHeader byte).proceed
    else fail { packet with cursor := 0 } .noMarker
  else if packet.cursor < 9 then (packet.putHeader byte).proceed
  else if packet.cursor = 9 then
    let declared := packet.putHeader byte
    if declared.length ≤ C.val then settle { declared with stored := 0 }
    else fail { declared with header.length := 0, stored := 0 } .badLength
  else if packet.stored < packet.length then (packet.putPayload byte).settle
  else packet.fail .overflow

def receiveAll (packet : Packet C) : Bytes → Packet C × List Outcome
  | [] => (packet, [])
  | byte :: bytes =>
    let next := packet.receive byte
    let last := next.1.receiveAll bytes
    (last.1, next.2 :: last.2)

def CanReceive (packet : Packet C) : Prop :=
  Frame.headerSize ≤ packet.cursor → packet.stored < packet.length → packet.stored < C

instance (packet : Packet C) : Decidable packet.CanReceive :=
  inferInstanceAs (Decidable (_ → _ → _))

end FramedLink.Packet
