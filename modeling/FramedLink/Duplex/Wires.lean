import FramedLink.Bytes
import FramedLink.Endpoint.Channel
import FramedLink.Ring.Basic

/-! Two rings that carry bytes between a host and a client, one each way. Each side reads from the one and
writes to the other. -/

namespace FramedLink

inductive Side where
  | host
  | client
  deriving DecidableEq, Repr, Inhabited

structure Port (n : Nat) where
  incoming : Ring UInt8 n
  outgoing : Ring UInt8 n

structure Wires (n : Nat) where
  toHost : Ring UInt8 n
  toClient : Ring UInt8 n

variable {n : Nat}

namespace Port

def read (port : Port n) : Option (UInt8 × Port n) :=
  port.incoming.pop.map fun (byte, incoming) => (byte, { port with incoming := incoming })

def write (port : Port n) (byte : UInt8) : Port n × Bool :=
  let pushed := port.outgoing.push byte
  ({ port with outgoing := pushed.1 }, pushed.2)

instance : Channel (Port n) where
  read := read
  write := write
  backlog port := port.incoming.size
  backlog_read taken := by
    simp only [read, Option.map_eq_some_iff, Prod.exists, Prod.mk.injEq] at taken
    obtain ⟨byte, incoming, popped, -, rfl⟩ := taken
    exact Nat.le_of_eq (Ring.size_pop popped)
  backlog_write _ _ := Nat.le_refl _

def writeAll (port : Port n) (bytes : Bytes) : Port n × Nat :=
  let pushed := port.outgoing.pushAll bytes
  ({ port with outgoing := pushed.1 }, pushed.2)

def readUpTo (port : Port n) (count : Nat) : Bytes × Port n :=
  let popped := port.incoming.popUpTo count
  (popped.1, { port with incoming := popped.2 })

end Port

namespace Wires

def standardRoom : Nat := 511

def idle : Wires n := ⟨.empty, .empty⟩

def port (wires : Wires n) : Side → Port n
  | .host => ⟨wires.toHost, wires.toClient⟩
  | .client => ⟨wires.toClient, wires.toHost⟩

def ofPort : Side → Port n → Wires n
  | .host, port => ⟨port.incoming, port.outgoing⟩
  | .client, port => ⟨port.outgoing, port.incoming⟩

def waiting (wires : Wires n) (side : Side) : Nat :=
  (wires.port side).incoming.size

@[simp] theorem ofPort_port (side : Side) (wires : Wires n) : ofPort side (wires.port side) = wires := by
  cases side <;> rfl

@[simp] theorem port_ofPort (side : Side) (port : Port n) : (ofPort side port).port side = port := by
  cases side <;> rfl

end Wires

end FramedLink
