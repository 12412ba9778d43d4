import FramedLink.Proofs.Demo.Conversation
import FramedLink.Proofs.Endpoint.Setup
import FramedLink.Proofs.Numerals
import FramedLink.Proofs.Settings.RoundTrip

/-! What the demonstration prints. Main statement: with a file that can be read it succeeds just if the text is accepted
and announces no more than a packet holds, and then it tells who the client is, shows the same four responses and ends
with the same counts, whatever the settings are. -/

namespace FramedLink

namespace Demo

open Endpoint (Profile announcedSize)
open Numeral (IsNumeral isNumeral_decimal isNumeral_hexadecimal)

/-- Whether a line is one of those in which the host tells of the client. -/
def fromHost (line : Bytes) : Bool :=
  (Bytes.ofText "host: ").isPrefixOf line

/-- The text is of whole lines, of which those from the host are the given ones. -/
def Tells (text : Bytes) (told : List Bytes) : Prop :=
  ∃ lines, text = Settings.ended lines ∧ (∀ line ∈ lines, 10 ∉ line) ∧ lines.filter fromHost = told

theorem tells_nil : Tells [] [] :=
  ⟨[], rfl, nofun, rfl⟩

theorem Tells.append {one two : Bytes} {first second : List Bytes} (left : Tells one first) (right : Tells two second) :
    Tells (one ++ two) (first ++ second) := by
  obtain ⟨earlier, rfl, whole, rfl⟩ := left
  obtain ⟨later, rfl, others, rfl⟩ := right
  refine ⟨earlier ++ later, (List.flatMap_append ..).symm, ?_, List.filter_append ..⟩
  intro line member
  rcases List.mem_append.mp member with inside | inside
  · exact whole line inside
  · exact others line inside

theorem tells_line {line : Bytes} (single : 10 ∉ line) (host : fromHost line = true) : Tells (line ++ [10]) [line] :=
  ⟨[line], (List.flatMap_singleton ..).symm, by simpa using single, by simp [host]⟩

theorem tells_other_line {line : Bytes} (single : 10 ∉ line) (other : fromHost line = false) :
    Tells (line ++ [10]) [] :=
  ⟨[line], (List.flatMap_singleton ..).symm, by simpa using single, by simp [other]⟩

private theorem newline_not_mem_label (kind : Event.Kind) : 10 ∉ Bytes.ofText kind.label := by
  cases kind with
  | reserved code =>
    change 10 ∉ Bytes.ofText "unknown"
    decide
  | _ => decide

theorem tells_event (event : Event) {endpoint : Bytes} (plain : 10 ∉ Bytes.untilZero endpoint) :
    Tells (event.line endpoint) [] := by
  have label := newline_not_mem_label event.kind
  unfold Event.line
  rw [show Bytes.ofText "\x7d\n" = Bytes.ofText "\x7d" ++ [10] from rfl, ← List.append_assoc]
  refine tells_other_line ?_ rfl
  simp only [List.mem_append, not_or, plain, label, (isNumeral_decimal _).newline_not_mem, not_false_eq_true, and_true]
  decide

def responseLine (request response length : Nat) : Bytes :=
  Bytes.ofText "host: response request=" ++ Numeral.decimal request ++ Bytes.ofText " response=0x" ++
    Numeral.hexadecimal response ++ Bytes.ofText " length=" ++ Numeral.decimal length

/-- The line that shows who a client of the given settings is. -/
inductive PeerLine (settings : Settings) : Bytes → Prop
  | shown {major minor patch size : Bytes} (first : IsNumeral 10 settings.version.major.toNat major)
    (second : IsNumeral 10 settings.version.minor.toNat minor)
    (third : IsNumeral 10 settings.version.patch.toNat patch)
    (announced : IsNumeral 10 (if settings.maxPacketSize = 0 then 100 else settings.maxPacketSize.toNat) size) :
    PeerLine settings
      (Bytes.ofText "host: peer \"" ++ Bytes.untilZero settings.name ++ Bytes.ofText "\" v" ++ major ++
        Bytes.ofText "." ++ minor ++ Bytes.ofText "." ++ patch ++ Bytes.ofText " max packet " ++ size)

/-- The lines in which the host tells of a client of the given settings, with that of who it is. -/
def hostLines (settings : Settings) (peer : Bytes) : List Bytes :=
  [match settings.encoding with
    | .text => Bytes.ofText "host: response request=1 response=0x1 length=30"
    | .image => Bytes.ofText "host: response request=1 response=0x1 length=32",
    peer,
    Bytes.ofText "host: response request=10 response=0x1 length=40",
    Bytes.ofText "host: response request=2989 response=0xfffe length=0",
    Bytes.ofText "host: response request=10 response=0xffff length=0"]

def closingLine : Bytes :=
  Bytes.ofText "link: received=7 sent=7 checksum_errors=1 resyncs=0 unknown=1"

def toldBy : Notice → List Bytes
  | .answered response =>
    [responseLine response.request.toNat response.response.toNat response.payload.length]
  | _ => []

theorem newline_not_mem_responseLine (request response length : Nat) : 10 ∉ responseLine request response length := by
  unfold responseLine
  simp only [List.mem_append, not_or, (isNumeral_decimal _).newline_not_mem, (isNumeral_hexadecimal _).newline_not_mem,
    not_false_eq_true, and_true]
  decide

theorem tells_noticeText (side : Side) (notice : Notice) : Tells (noticeText side notice) (toldBy notice) := by
  cases notice with
  | event event =>
    apply tells_event
    cases side <;> decide
  | asked request known => exact tells_nil
  | answered response => exact tells_line (newline_not_mem_responseLine _ _ _) rfl

theorem tells_logText (log : List (Side × Notice)) : Tells (logText log) (log.flatMap fun entry => toldBy entry.2) := by
  induction log with
  | nil => exact tells_nil
  | cons entry log ih => exact (tells_noticeText entry.1 entry.2).append ih

def asker : Profile capacity where
  role := .host
  identity := ⟨hostSettings.version, UInt16.ofNat (announcedSize capacity hostSettings), Identity.field hostSettings.name⟩
  encoding := hostSettings.encoding
  handler := serveNothing

def server (settings : Settings) : Profile capacity where
  role := .client
  identity := ⟨settings.version, UInt16.ofNat (announcedSize capacity settings), Identity.field settings.name⟩
  encoding := settings.encoding
  handler := serveData

variable {settings : Settings}

theorem created_asker : Profile.ofSettings hostSettings .host serveNothing = .ok asker :=
  Profile.ofSettings_eq_ok_iff.mpr ⟨by decide, rfl⟩

theorem created_server (named : settings.name.length ≤ Identity.nameSize)
    (small : settings.maxPacketSize.toNat ≤ capacity) :
    Profile.ofSettings settings .client serveData = .ok (server settings) :=
  Profile.ofSettings_eq_ok_iff.mpr ⟨⟨named, small, size_le_capacity settings.encoding⟩, rfl⟩

theorem ofSettings_of_small (named : settings.name.length ≤ Identity.nameSize)
    (small : settings.maxPacketSize.toNat ≤ capacity) : ofSettings settings = converse asker (server settings) := by
  unfold ofSettings
  rw [created_asker, created_server named small]

theorem exitCode_of_large (large : ¬ settings.maxPacketSize.toNat ≤ capacity) : (ofSettings settings).exitCode = 1 := by
  have refused := Profile.ofSettings_eq (C := capacity) settings .client serveData
  rw [if_neg fun suits => large suits.2.1] at refused
  unfold ofSettings
  rw [created_asker, refused]

/-- No step is refused, and the client's handler has nothing to complain of. -/
theorem converse_eq (settings : Settings) :
    converse asker (server settings) =
      { exitCode := 0
        output := banner ++ logText (introducing (server settings)) ++ peerText (server settings).identity ++
          logText conversing ++ (closingLine ++ [10]) } := by
  have asking : asker.role = .host := rfl
  have serving : (server settings).role = .client := rfl
  obtain ⟨introduced, first, knows⟩ := reaches_identityExchange asking serving
  obtain ⟨finished, later, ends⟩ := reaches_laterExchanges asking serving rfl knows
  have events : Counters.ofEvents (Notice.events ((introducing (server settings) ++ conversing).map Prod.snd)) =
      { framesReceived := 7, framesSent := 7, badChecksums := 1, unknownRequests := 1 } := rfl
  have counts : countersText { framesReceived := 7, framesSent := 7, badChecksums := 1, unknownRequests := 1 } =
      closingLine ++ [10] := by decide
  have silent : (introducing (server settings) ++ conversing).flatMap complaintText = [] := rfl
  unfold converse
  simp only [first, later, knows.log, ends.log, knows.peer, events, counts, silent]
  rfl

def peerLine (settings : Settings) : Bytes :=
  Bytes.ofText "host: peer \"" ++ Bytes.untilZero settings.name ++ Bytes.ofText "\" v" ++ settings.version.text ++
    Bytes.ofText " max packet " ++
    Numeral.decimal (if settings.maxPacketSize = 0 then 100 else settings.maxPacketSize.toNat)

theorem peerLine_shown (settings : Settings) : PeerLine settings (peerLine settings) := by
  have shown : PeerLine settings _ :=
    .shown (isNumeral_decimal _) (isNumeral_decimal _) (isNumeral_decimal _) (isNumeral_decimal _)
  rw [peerLine, Version.text]
  simp only [List.append_assoc] at shown ⊢
  exact shown

theorem PeerLine.eq_peerLine {line : Bytes} (shown : PeerLine settings line) : line = peerLine settings := by
  obtain ⟨major, minor, patch, size⟩ := shown
  rw [peerLine, Version.text, major.unique (isNumeral_decimal _), minor.unique (isNumeral_decimal _),
    patch.unique (isNumeral_decimal _), size.unique (isNumeral_decimal _)]
  simp only [List.append_assoc]

theorem PeerLine.newline_not_mem {line : Bytes} (shown : PeerLine settings line) (plain : 10 ∉ settings.name) :
    10 ∉ line := by
  have name : 10 ∉ Bytes.untilZero settings.name := fun member => plain (List.takeWhile_subset _ member)
  obtain ⟨first, second, third, announced⟩ := shown
  simp only [List.mem_append, not_or, name, first.newline_not_mem, second.newline_not_mem, third.newline_not_mem,
    announced.newline_not_mem, not_false_eq_true, and_true]
  decide

theorem tells_peerText (writable : Setting.Writable settings.name) (small : settings.maxPacketSize.toNat ≤ capacity) :
    Tells (peerText (server settings).identity) [peerLine settings] := by
  have shown : (server settings).identity.shownName = Bytes.untilZero settings.name :=
    Identity.untilZero_toList_field writable.fits
  obtain ⟨-, announced, -⟩ := Profile.identity_of_ofSettings (created_server writable.fits small)
  have text : peerText (server settings).identity = peerLine settings ++ [10] := by
    rw [peerText, shown, announced]
    rfl
  rw [text]
  exact tells_line ((peerLine_shown settings).newline_not_mem writable.single) rfl

theorem told_introducing (settings : Settings) :
    ((introducing (server settings)).flatMap fun entry => toldBy entry.2) =
      [match settings.encoding with
        | .text => Bytes.ofText "host: response request=1 response=0x1 length=30"
        | .image => Bytes.ofText "host: response request=1 response=0x1 length=32"] := by
  have size := Identity.length_encode (server settings).identity settings.encoding
  have told : ((introducing (server settings)).flatMap fun entry => toldBy entry.2) = [responseLine 1 0x1 _] :=
    congrArg (fun length => [responseLine 1 0x1 length]) size
  rw [told]
  cases settings.encoding <;> decide

theorem told_conversing : (conversing.flatMap fun entry => toldBy entry.2) =
    [Bytes.ofText "host: response request=10 response=0x1 length=40",
      Bytes.ofText "host: response request=2989 response=0xfffe length=0",
      Bytes.ofText "host: response request=10 response=0xffff length=0"] := by
  have told : (conversing.flatMap fun entry => toldBy entry.2) =
      [responseLine 10 0x1 40, responseLine 2989 0xFFFE 0, responseLine 10 0xFFFF 0] := rfl
  rw [told]
  decide

theorem output_of_small (writable : Setting.Writable settings.name) (small : settings.maxPacketSize.toNat ≤ capacity) :
    ∃ lines, (converse asker (server settings)).output = Settings.ended (lines ++ [closingLine]) ∧
      (∀ line ∈ lines, 10 ∉ line) ∧ lines.filter fromHost = hostLines settings (peerLine settings) := by
  have title : banner = Bytes.ofText "flem_demo 0.6.2" ++ [10] := rfl
  have before : Tells banner [] := by
    rw [title]
    exact tells_other_line (by decide) rfl
  have introduced := tells_logText (introducing (server settings))
  have known := tells_peerText writable small
  have conversed := tells_logText conversing
  rw [told_introducing] at introduced
  rw [told_conversing] at conversed
  obtain ⟨lines, text, whole, told⟩ := ((before.append introduced).append known).append conversed
  refine ⟨lines, ?_, whole, told⟩
  rw [converse_eq, text, Settings.ended, Settings.ended, List.flatMap_append, List.flatMap_singleton]

section

variable {argument text : Bytes}

theorem command_of_refused (named : Bytes.untilZero argument ≠ []) {fault : Settings.Fault}
    (refused : Settings.parse text = .error fault) :
    command argument (some text) = { exitCode := 1, output := banner, errors := settingsText fault } := by
  simp only [command, if_neg named, Settings.ofFile, refused]

theorem command_of_parsed (named : Bytes.untilZero argument ≠ []) (parsed : Settings.parse text = .ok settings) :
    command argument (some text) = ofSettings settings := by
  simp only [command, if_neg named, Settings.ofFile, parsed]

end

/-- With a file that can be read the demonstration succeeds just if the text is accepted and announces no more than 100
bytes. Then no step is refused: the host tells who the client is, gets the same four responses and the same is counted,
whatever the settings are. -/
theorem command_of_readable_file (argument text : Bytes) (named : Bytes.untilZero argument ≠ []) :
    let done := command argument (some text)
    (done.exitCode = 0 ↔ ∃ settings, Settings.parse text = .ok settings ∧ settings.maxPacketSize.toNat ≤ 100) ∧
      (done.exitCode ≠ 0 → done.exitCode = 1) ∧
      (done.exitCode = 0 → ∃ settings lines peer, Settings.parse text = .ok settings ∧
        done.output = Settings.ended lines ∧ (∀ line ∈ lines, 10 ∉ line) ∧
        lines.filter fromHost = hostLines settings peer ∧ PeerLine settings peer ∧
        lines.getLast? = some closingLine ∧ done.errors = []) := by
  intro done
  cases parsed : Settings.parse text with
  | error fault =>
    rw [show done = _ from command_of_refused named parsed]
    exact ⟨⟨nofun, nofun⟩, fun _ => rfl, nofun⟩
  | ok settings =>
    have reached : done = ofSettings settings := command_of_parsed named parsed
    have writable := Settings.writable_of_parse parsed
    by_cases small : settings.maxPacketSize.toNat ≤ 100
    · obtain ⟨lines, text, whole, told⟩ := output_of_small writable small
      have succeeds : (converse asker (server settings)).exitCode = 0 := by rw [converse_eq]
      rw [reached, ofSettings_of_small writable.fits small]
      refine ⟨⟨fun _ => ⟨settings, rfl, small⟩, fun _ => succeeds⟩, fun failed => absurd succeeds failed, fun _ => ?_⟩
      refine ⟨settings, lines ++ [closingLine], peerLine settings, rfl, text, ?_, ?_, peerLine_shown settings,
        List.getLast?_concat .., by rw [converse_eq]⟩
      · intro line member
        rcases List.mem_append.mp member with inside | last
        · exact whole line inside
        · rw [List.mem_singleton.mp last]
          decide
      · rw [List.filter_append, told]
        rfl
    · have failed := exitCode_of_large small
      rw [reached, failed]
      refine ⟨⟨nofun, ?_⟩, fun _ => rfl, nofun⟩
      rintro ⟨others, same, fits⟩
      cases same
      exact absurd fits small

private def pump : Bytes :=
  Bytes.ofText "name = pump\x00house\nversion = 1.2.3\nid_ascii = no\nmax_packet_size = 0\nverbose = yes\n"

private def oversize : Bytes :=
  Bytes.ofText "max_packet_size = 101"

theorem command_of_readable_file_pump :
    Bytes.untilZero (Bytes.ofText "pump.conf") ≠ [] ∧
      (command (Bytes.ofText "pump.conf") (some oversize)).exitCode = 1 ∧
      (command (Bytes.ofText "pump.conf") (some pump)).exitCode = 0 ∧
      ∃ lines, (command (Bytes.ofText "pump.conf") (some pump)).output = Settings.ended lines ∧
        lines.getLast? = some (Bytes.ofText "link: received=7 sent=7 checksum_errors=1 resyncs=0 unknown=1") ∧
        lines.filter fromHost =
          [Bytes.ofText "host: response request=1 response=0x1 length=32",
            Bytes.ofText "host: peer \"pump\" v1.2.3 max packet 100",
            Bytes.ofText "host: response request=10 response=0x1 length=40",
            Bytes.ofText "host: response request=2989 response=0xfffe length=0",
            Bytes.ofText "host: response request=10 response=0xffff length=0"] := by
  have named : Bytes.untilZero (Bytes.ofText "pump.conf") ≠ [] := by decide
  have parsed : Settings.parse pump = .ok ⟨Bytes.ofText "pump\x00house", ⟨1, 2, 3⟩, 0, .image, true⟩ := rfl
  have large : Settings.parse oversize = .ok { maxPacketSize := 101 } := rfl
  obtain ⟨fails, one, -⟩ := command_of_readable_file (Bytes.ofText "pump.conf") oversize named
  obtain ⟨succeeds, -, tells⟩ := command_of_readable_file (Bytes.ofText "pump.conf") pump named
  have exits := succeeds.mpr ⟨_, parsed, by decide⟩
  obtain ⟨settings, lines, peer, same, text, -, told, shown, last, -⟩ := tells exits
  rw [parsed, Except.ok.injEq] at same
  subst same
  rw [shown.eq_peerLine] at told
  refine ⟨named, one fun exits => ?_, exits, lines, text, last, told.trans (by decide +kernel)⟩
  obtain ⟨settings, same, small⟩ := fails.mp exits
  rw [large, Except.ok.injEq] at same
  subst same
  exact absurd small (by decide)

end Demo

end FramedLink
