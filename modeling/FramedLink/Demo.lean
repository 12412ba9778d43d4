import FramedLink.CommandResult
import FramedLink.Endpoint.Watch
import FramedLink.Event.Counters
import FramedLink.Duplex.Basic
import FramedLink.Settings.Parser

/-! A demonstration: a host asks a client for its identity, for data, for something unknown, and is told
of a request that was damaged on its way. -/

namespace FramedLink.Demo

open Endpoint (Profile)

abbrev capacity : Capacity := .standard

abbrev Link := Duplex capacity capacity Wires.standardRoom

def dataRequest : UInt16 := 10

def strangeRequest : UInt16 := 0x0BAD

def sample : Bytes :=
  (List.range 40).map fun index => UInt8.ofNat (index * 3)

def serveData (request reply : Packet capacity) : Packet capacity × Bool :=
  if request.header.request = dataRequest then reply.composeReply request.header.request sample
  else (reply, false)

def serveNothing (_request reply : Packet capacity) : Packet capacity × Bool :=
  (reply, false)

def clientSettings : Settings :=
  { name := Bytes.ofText "Example Project 25 chars.", version := ⟨0, 1, 0⟩ }

def hostSettings : Settings :=
  { name := Bytes.ofText "demo host" }

def noticeText (side : Side) : Notice → Bytes
  | .event event => event.line (Bytes.ofText (match side with | .host => "host" | .client => "client"))
  | .asked _ _ => []
  | .answered response =>
    Bytes.ofText "host: response request=" ++ Numeral.decimal response.request.toNat ++
      Bytes.ofText " response=0x" ++ Numeral.hexadecimal response.response.toNat ++
      Bytes.ofText " length=" ++ Numeral.decimal response.payload.length ++ Bytes.ofText "\n"

def logText (log : List (Side × Notice)) : Bytes :=
  log.flatMap fun (side, notice) => noticeText side notice

def peerText (peer : Identity) : Bytes :=
  Bytes.ofText "host: peer \"" ++ peer.shownName ++ Bytes.ofText "\" v" ++ peer.version.text ++
    Bytes.ofText " max packet " ++ Numeral.decimal peer.maxPacketSize.toNat ++ Bytes.ofText "\n"

def countersText (counters : Counters) : Bytes :=
  Bytes.ofText "link: received=" ++ Numeral.decimal counters.framesReceived ++
    Bytes.ofText " sent=" ++ Numeral.decimal counters.framesSent ++
    Bytes.ofText " checksum_errors=" ++ Numeral.decimal counters.badChecksums ++
    Bytes.ofText " resyncs=" ++ Numeral.decimal counters.resyncs ++
    Bytes.ofText " unknown=" ++ Numeral.decimal counters.unknownRequests ++ Bytes.ofText "\n"

/-- What the client's handler says of a request for data, which it refuses only if the reply does not fit. -/
def complaintText : Side × Notice → Bytes
  | (.client, .asked request false) =>
    if request.request = dataRequest then Bytes.ofText "client: GET_DATA reply does not fit the packet\n" else []
  | _ => []

def rounds : Nat := 8

/-- The host sends a request and both sides get their rounds. A request that is refused ends the demonstration, with the
link as it is then. -/
def exchange (host client : Profile capacity) (request : UInt16) (link : Link) : Except Link Link :=
  match link.atHost (·.send request []) with
  | (sent, .ok ()) => .ok (sent.runRounds host client rounds).1
  | (left, .error _) => .error left

def damage (wire : Bytes) : Bytes :=
  wire.modify (wire.length - 1) (· ^^^ 1)

/-- A request for data with four payload bytes, of which one bit is damaged, is put on the wire, and both sides get
their rounds. A request that cannot be composed ends the demonstration, and so does a full wire. -/
def damagedExchange (host client : Profile capacity) (link : Link) : Except Link Link :=
  match ({} : Packet capacity).composeReply dataRequest [0xDE, 0xAD, 0xBE, 0xEF] with
  | (_, false) => .error link
  | (packet, true) =>
    let damaged := damage packet.wire
    let written := link.inject .host damaged
    if written.2 = damaged.length then .ok (written.1.runRounds host client rounds).1 else .error written.1

def identityExchange (host client : Profile capacity) : Except Link Link :=
  exchange host client Frame.identityRequest .idle

def laterExchanges (host client : Profile capacity) (link : Link) : Except Link Link := do
  let known ← exchange host client dataRequest { link with log := [] }
  let strange ← exchange host client strangeRequest known
  damagedExchange host client strange

def banner : Bytes :=
  Bytes.ofText "flem_demo " ++ release.text ++ Bytes.ofText "\n"

def setupText (fault : Endpoint.Fault) : Bytes :=
  Bytes.ofText "endpoint setup failed: " ++ Bytes.ofText fault.label ++ Bytes.ofText "\n"

def settingsText (fault : Settings.Fault) : Bytes :=
  Bytes.ofText "config error: " ++ Bytes.ofText fault.cause.label ++ Bytes.ofText " line=" ++
    Numeral.decimal fault.line ++ Bytes.ofText " key=" ++ fault.key ++ Bytes.ofText "\n"

/-- The demonstration between two endpoints. It fails with the first step that is refused. -/
def converse (host client : Profile capacity) : CommandResult :=
  match identityExchange host client with
  | .error left => { exitCode := 1, output := banner ++ logText left.log, errors := left.log.flatMap complaintText }
  | .ok introduced =>
    let before := banner ++ logText introduced.log ++ introduced.host.peer.elim [] peerText
    match laterExchanges host client introduced with
    | .error left =>
      { exitCode := 1
        output := before ++ logText left.log
        errors := (introduced.log ++ left.log).flatMap complaintText }
    | .ok finished =>
      let log := introduced.log ++ finished.log
      { exitCode := 0
        output := before ++ logText finished.log ++ countersText (Counters.ofEvents (Notice.events (log.map Prod.snd)))
        errors := log.flatMap complaintText }

def ofSettings (settings : Settings) : CommandResult :=
  match Profile.ofSettings hostSettings .host serveNothing,
    Profile.ofSettings settings .client serveData with
  | .ok host, .ok client => converse host client
  | .error fault, _ => { exitCode := 1, output := banner, errors := setupText fault }
  | _, .error fault => { exitCode := 1, output := banner, errors := setupText fault }

/-- The demonstration with the client's settings from a file, if its path, which ends at its first zero
byte, is not empty. -/
def command (argument : Bytes) (contents : Option Bytes) : CommandResult :=
  let path := Bytes.untilZero argument
  if path = [] then ofSettings clientSettings
  else match Settings.ofFile path contents with
    | .error fault => { exitCode := 1, output := banner, errors := settingsText fault }
    | .ok settings => ofSettings settings

end FramedLink.Demo
