import FramedLink.ReservedCode

/-! What a packet says of the last operation on it, and what a receiving packet says of one byte. -/

namespace FramedLink

inductive Status where
  | ok
  | received
  | building
  | exhausted
  | overflow
  | noMarker
  | badChecksum
  | badLength
  | reserved (code : ReservedCode)
  deriving DecidableEq, Repr, Inhabited

namespace Status

def ofCode (code : UInt8) : Status :=
  match code.toNat with
  | 0 => ok
  | 1 => received
  | 2 => building
  | 3 => exhausted
  | 4 => overflow
  | 5 => noMarker
  | 6 => badChecksum
  | 7 => badLength
  | number => reserved (.ofNumber number)

def code : Status → UInt8
  | ok => 0
  | received => 1
  | building => 2
  | exhausted => 3
  | overflow => 4
  | noMarker => 5
  | badChecksum => 6
  | badLength => 7
  | reserved code => code.toByte

def label : Status → String
  | ok => "ok"
  | received => "packet_received"
  | building => "packet_building"
  | exhausted => "get_byte_finished"
  | overflow => "packet_overflow"
  | noMarker => "header_bytes_not_found"
  | badChecksum => "checksum_error"
  | badLength => "invalid_data_length"
  | reserved _ => "unknown"

/-- Whether the frame that was arriving has come to its end, for good or ill. -/
def isTerminal : Status → Bool
  | received | badChecksum | overflow | badLength => true
  | _ => false

@[simp] theorem ofCode_code (status : Status) : ofCode status.code = status := by
  cases status with
  | reserved code =>
    revert code
    decide +kernel
  | _ => rfl

@[simp] theorem code_ofCode (code : UInt8) : (ofCode code).code = code := by
  have all : ∀ index : Fin 256, (ofCode (UInt8.ofFin index)).code = UInt8.ofFin index := by
    decide +kernel
  exact all code.toFin

end Status

inductive Outcome where
  | inProgress
  | completed
  | error (status : Status)
  deriving DecidableEq, Repr, Inhabited

namespace Outcome

def status : Outcome → Status
  | inProgress => .building
  | completed => .received
  | error status => status

def isInProgress : Outcome → Bool
  | inProgress => true
  | _ => false

def isCompleted : Outcome → Bool
  | completed => true
  | _ => false

def isError : Outcome → Bool
  | error _ => true
  | _ => false

/-- An error after which the packet waits for the next frame by itself. -/
def isRecoverable : Outcome → Bool
  | error .noMarker => true
  | _ => false

end Outcome

end FramedLink
