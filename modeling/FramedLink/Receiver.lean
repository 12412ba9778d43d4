import FramedLink.Packet.Inbound

/-! A receiver of a byte stream: a packet that is restarted after each frame, and the memory of being in
a gap between frames, so that a run of skipped bytes is told once. -/

namespace FramedLink

/-- What a receiver finds in a stream, each with the packet as it stood then. -/
inductive Finding (C : Capacity) where
  | gap (packet : Packet C)
  | frame (packet : Packet C)
  | fault (status : Status) (packet : Packet C)
  deriving DecidableEq

structure Receiver (C : Capacity) where
  packet : Packet C := {}
  inGap : Bool := false
  deriving DecidableEq

namespace Receiver

variable {C : Capacity}

instance : Inhabited (Receiver C) := ⟨{}⟩

def take (receiver : Receiver C) (byte : UInt8) : Receiver C × Option (Finding C) :=
  match receiver.packet.receive byte with
  | (packet, .inProgress) => (⟨packet, false⟩, none)
  | (packet, .completed) => (⟨packet.restart, false⟩, some (.frame packet))
  | (packet, .error .noMarker) =>
    (⟨packet, true⟩, if receiver.inGap then none else some (.gap packet))
  | (packet, .error status) => (⟨packet.restart, false⟩, some (.fault status packet))

def takeAll (receiver : Receiver C) : Bytes → Receiver C × List (Finding C)
  | [] => (receiver, [])
  | byte :: bytes =>
    let next := receiver.take byte
    let last := next.1.takeAll bytes
    (last.1, next.2.toList ++ last.2)

end Receiver

end FramedLink
