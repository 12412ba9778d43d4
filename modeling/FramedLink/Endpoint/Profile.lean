import FramedLink.Packet.Outbound
import FramedLink.Settings.Basic

/-! What stays fixed while an endpoint works, and the settings that make a working endpoint. -/

namespace FramedLink

/-- A host asks, a client answers. -/
inductive Role where
  | host
  | client
  deriving DecidableEq, Repr, Inhabited

namespace Role

def ofCode? : UInt8 → Option Role
  | 0 => some host
  | 1 => some client
  | _ => none

def label : Role → String
  | host => "host"
  | client => "client"

def labelOfCode (code : UInt8) : String :=
  (ofCode? code).elim "unknown" label

end Role

namespace Endpoint

inductive Fault where
  | busy
  | payloadTooLarge
  | invalidSettings
  deriving DecidableEq, Repr

namespace Fault

def ofCode? : UInt8 → Option Fault
  | 1 => some busy
  | 2 => some payloadTooLarge
  | 3 => some invalidSettings
  | _ => none

def label : Fault → String
  | busy => "tx_busy"
  | payloadTooLarge => "payload_overflow"
  | invalidSettings => "invalid_config"

def labelOfCode (code : UInt8) : String :=
  (ofCode? code).elim "unknown" label

end Fault

/-- The fixed part of an endpoint. The handler sees an arriving request and the packet for the reply, and
answers with that packet as it leaves it and whether it knows the request. -/
structure Profile (C : Capacity) where
  role : Role
  identity : Identity
  encoding : Identity.Encoding
  handler : Packet C → Packet C → Packet C × Bool

def announcedSize (C : Capacity) (settings : Settings) : Nat :=
  if settings.maxPacketSize = 0 then C else settings.maxPacketSize.toNat

/-- The profile of an endpoint set up as asked. Its packets must have room for the announced payload and
for its own identity, and its name must fit. -/
def Profile.ofSettings {C : Capacity} (settings : Settings) (role : Role)
    (handler : Packet C → Packet C → Packet C × Bool) : Except Fault (Profile C) :=
  let size := announcedSize C settings
  if size ≤ C.val ∧ settings.encoding.size ≤ C.val then
    match Identity.ofName settings.name settings.version (UInt16.ofNat size) with
    | .error _ => .error .invalidSettings
    | .ok identity => .ok ⟨role, identity, settings.encoding, handler⟩
  else .error .invalidSettings

end Endpoint

end FramedLink
