import FramedLink.Numeral
import FramedLink.ReservedCode

/-! What an endpoint reports of its traffic, and the line that a printed report has. -/

namespace FramedLink

inductive Event.Kind where
  | frameReceived
  | frameSent
  | badChecksum
  | resync
  | overflow
  | badLength
  | unknownRequest
  | replyTooLarge
  | reserved (code : ReservedCode)
  deriving DecidableEq, Repr, Inhabited

structure Event where
  kind : Event.Kind
  request : UInt16
  response : UInt16
  length : UInt16
  deriving DecidableEq, Repr, Inhabited

namespace Event

namespace Kind

def ofCode (code : UInt8) : Kind :=
  match code.toNat with
  | 0 => frameReceived
  | 1 => frameSent
  | 2 => badChecksum
  | 3 => resync
  | 4 => overflow
  | 5 => badLength
  | 6 => unknownRequest
  | 7 => replyTooLarge
  | number => reserved (.ofNumber number)

def label : Kind → String
  | frameReceived => "frame_received"
  | frameSent => "frame_sent"
  | badChecksum => "checksum_error"
  | resync => "resync"
  | overflow => "overflow"
  | badLength => "invalid_length"
  | unknownRequest => "unknown_request"
  | replyTooLarge => "reply_too_large"
  | reserved _ => "unknown"

end Kind

/-- The line for an event at the endpoint of the given name. The name ends at its first zero byte and
is not escaped. -/
def line (event : Event) (endpoint : Bytes) : Bytes :=
  Bytes.ofText "\x7b\"endpoint\":\"" ++ Bytes.untilZero endpoint ++
    Bytes.ofText "\",\"event\":\"" ++ Bytes.ofText event.kind.label ++
    Bytes.ofText "\",\"request\":" ++ Numeral.decimal event.request.toNat ++
    Bytes.ofText ",\"response\":" ++ Numeral.decimal event.response.toNat ++
    Bytes.ofText ",\"length\":" ++ Numeral.decimal event.length.toNat ++
    Bytes.ofText "\x7d\n"

end Event

end FramedLink
