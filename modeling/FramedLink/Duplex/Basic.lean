import FramedLink.Endpoint.Receiving
import FramedLink.Duplex.Wires

/-! A host and a client on the two ends of a pair of rings, with one log for both. -/

namespace FramedLink

open Endpoint (Profile)

structure Duplex (Ch Cc : Capacity) (n : Nat) where
  host : Endpoint Ch := {}
  client : Endpoint Cc := {}
  wires : Wires n
  log : List (Side × Notice) := []

namespace Duplex

variable {Ch Cc : Capacity} {n : Nat} {α : Type}

def idle : Duplex Ch Cc n := { wires := .idle }

def atHost (link : Duplex Ch Cc n) (work : Session Ch (Port n) → Session Ch (Port n) × α) :
    Duplex Ch Cc n × α :=
  let done := work { endpoint := link.host, port := link.wires.port .host }
  ({ host := done.1.endpoint
     client := link.client
     wires := .ofPort .host done.1.port
     log := link.log ++ done.1.log.map fun notice => (.host, notice) }, done.2)

def atClient (link : Duplex Ch Cc n) (work : Session Cc (Port n) → Session Cc (Port n) × α) :
    Duplex Ch Cc n × α :=
  let done := work { endpoint := link.client, port := link.wires.port .client }
  ({ host := link.host
     client := done.1.endpoint
     wires := .ofPort .client done.1.port
     log := link.log ++ done.1.log.map fun notice => (.client, notice) }, done.2)

/-- Writes bytes at a side's port behind the back of its endpoint. -/
def inject (link : Duplex Ch Cc n) (side : Side) (bytes : Bytes) : Duplex Ch Cc n × Nat :=
  let written := (link.wires.port side).writeAll bytes
  ({ link with wires := .ofPort side written.1 }, written.2)

def tap (link : Duplex Ch Cc n) (side : Side) (count : Nat) : Duplex Ch Cc n × Bytes :=
  let read := (link.wires.port side).readUpTo count
  ({ link with wires := .ofPort side read.2 }, read.1)

/-- One round: the host polls, then the client. Tells how many frames each completed. -/
def round (host : Profile Ch) (client : Profile Cc) (link : Duplex Ch Cc n) :
    Duplex Ch Cc n × Nat × Nat :=
  let first := link.atHost (·.poll host)
  let second := first.1.atClient (·.poll client)
  (second.1, first.2, second.2)

def runRounds (host : Profile Ch) (client : Profile Cc) (link : Duplex Ch Cc n) :
    Nat → Duplex Ch Cc n × List (Nat × Nat)
  | 0 => (link, [])
  | rounds + 1 =>
    let first := link.round host client
    let rest := first.1.runRounds host client rounds
    (rest.1, first.2 :: rest.2)

end Duplex

end FramedLink
