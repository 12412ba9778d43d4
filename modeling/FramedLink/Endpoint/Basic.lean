import FramedLink.Endpoint.Profile
import FramedLink.Endpoint.Channel
import FramedLink.Event.Basic
import FramedLink.Receiver

/-! The state of an endpoint, and the endpoint at work on a channel. Nothing that it reports goes anywhere
by itself: it is noted in a log. -/

namespace FramedLink

structure Endpoint (C : Capacity) where
  receiver : Receiver C := {}
  outgoing : Packet C := {}
  sending : Bool := false
  /-- The byte of the outgoing packet that the channel refused. -/
  refused : Option UInt8 := none
  peer : Option Identity := none
  deriving DecidableEq

instance {C : Capacity} : Inhabited (Endpoint C) := ⟨{}⟩

inductive Notice where
  | event (event : Event)
  | asked (request : Frame) (known : Bool)
  | answered (response : Frame)
  deriving DecidableEq, Repr

def Notice.event? : Notice → Option Event
  | .event reported => some reported
  | _ => none

structure Session (C : Capacity) (τ : Type) where
  endpoint : Endpoint C
  port : τ
  log : List Notice := []

namespace Session

variable {C : Capacity} {τ : Type}

def note (session : Session C τ) (notice : Notice) : Session C τ :=
  { session with log := session.log ++ [notice] }

def noteEvent (session : Session C τ) (kind : Event.Kind) (packet : Packet C) : Session C τ :=
  session.note (.event ⟨kind, packet.header.request, packet.header.response, packet.header.length⟩)

theorem port_note (session : Session C τ) (notice : Notice) :
    (session.note notice).port = session.port := rfl

end Session

end FramedLink
