import FramedLink.Endpoint.Basic

/-! Where the events of an endpoint go. -/

namespace FramedLink

inductive Sink where
  | counting
  | printing
  | silent
  deriving DecidableEq, Repr, Inhabited

/-- Verbose settings have events printed that would go nowhere. -/
def Sink.settled (sink : Sink) (verbose : Bool) : Sink :=
  match sink with
  | .silent => if verbose then .printing else .silent
  | _ => sink

structure Watch where
  name : Bytes
  sink : Sink
  deriving DecidableEq, Repr

def Watch.output (watch : Watch) (notice : Notice) : Bytes :=
  match watch.sink, notice with
  | .printing, .event event => event.line watch.name
  | _, _ => []

def Notice.events (log : List Notice) : List Event :=
  log.filterMap event?

end FramedLink
