import FramedLink.Event.Basic

/-! Counts of events by kind. -/

namespace FramedLink

/-- The counts are kept in 64 bits. Each is at most the number of events that were told, one at a time, and no run gets
to 2^64 of them, so that the natural numbers stand for them here. -/
structure Counters where
  framesReceived : Nat := 0
  framesSent : Nat := 0
  badChecksums : Nat := 0
  resyncs : Nat := 0
  overflows : Nat := 0
  badLengths : Nat := 0
  unknownRequests : Nat := 0
  repliesTooLarge : Nat := 0
  deriving DecidableEq, Repr, Inhabited

namespace Counters

def count (counters : Counters) : Event.Kind → Counters
  | .frameReceived => { counters with framesReceived := counters.framesReceived + 1 }
  | .frameSent => { counters with framesSent := counters.framesSent + 1 }
  | .badChecksum => { counters with badChecksums := counters.badChecksums + 1 }
  | .resync => { counters with resyncs := counters.resyncs + 1 }
  | .overflow => { counters with overflows := counters.overflows + 1 }
  | .badLength => { counters with badLengths := counters.badLengths + 1 }
  | .unknownRequest => { counters with unknownRequests := counters.unknownRequests + 1 }
  | .replyTooLarge => { counters with repliesTooLarge := counters.repliesTooLarge + 1 }
  | .reserved _ => counters

def ofEvents (events : List Event) : Counters :=
  events.foldl (fun counters event => counters.count event.kind) {}

end Counters

end FramedLink
