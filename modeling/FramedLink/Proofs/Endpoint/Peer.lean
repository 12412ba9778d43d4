import FramedLink.Proofs.Endpoint.Setup
import FramedLink.Proofs.Receiver.Account

/-! Whose identity a host goes by. Main statement: at every moment it is the one in the last frame that came whole, said
of itself to be the answer to a request for the identity, and had the size of an identity; the handler is shown such a
frame when this holds already, and nothing else that comes makes a difference. -/

namespace FramedLink

open Endpoint (Profile Service)

namespace Frame

variable {frame : Frame} {told : Identity}

/-- Whether a frame answers the request for the identity with success and with as many bytes as an identity has. -/
def TellsIdentity (frame : Frame) : Prop :=
  frame.request = identityRequest ∧ frame.response = successResponse ∧
    (frame.payload.length = 30 ∨ frame.payload.length = 32)

instance (frame : Frame) : Decidable frame.TellsIdentity :=
  inferInstanceAs (Decidable (_ ∧ _ ∧ _))

/-- The identity that a frame tells, in the form that its size stands for. -/
structure Tells (frame : Frame) (told : Identity) : Prop where
  tells : frame.TellsIdentity
  text : frame.payload.length = 30 → Identity.decodeText frame.payload = .ok told
  image : frame.payload.length = 32 → Identity.decodeImage frame.payload = .ok told

/-- What the frames tell of an identity: what the last one tells that tells any. -/
inductive LastTold : List Frame → Option Identity → Prop
  | nothing {frames : List Frame} (silent : ∀ frame ∈ frames, ¬ frame.TellsIdentity) : LastTold frames none
  | told {before after : List Frame} {frame : Frame} {told : Identity} (tells : frame.Tells told)
    (silent : ∀ later ∈ after, ¬ later.TellsIdentity) : LastTold (before ++ frame :: after) (some told)

theorem LastTold.append_silent {frames : List Frame} {peer : Option Identity} (last : LastTold frames peer)
    (silent : ¬ frame.TellsIdentity) : LastTold (frames ++ [frame]) peer := by
  cases last with
  | nothing earlier =>
    refine .nothing ?_
    intro other member
    rcases List.mem_append.mp member with before | new
    · exact earlier other before
    · rwa [List.mem_singleton.mp new]
  | @told before after last told tells earlier =>
    rw [List.append_assoc, List.cons_append]
    refine .told tells ?_
    intro other member
    rcases List.mem_append.mp member with between | new
    · exact earlier other between
    · rwa [List.mem_singleton.mp new]

theorem TellsIdentity.exists_tells (tells : frame.TellsIdentity) :
    ∃ told, frame.Tells told ∧ Identity.ofPayload? frame.payload = some told := by
  obtain ⟨-, -, size | size⟩ := id tells
  · obtain ⟨told, decoded, -⟩ := Identity.exists_decode_of_long .text (Nat.le_of_eq size.symm)
    refine ⟨told, ⟨tells, fun _ => decoded, fun other => by omega⟩, ?_⟩
    rw [Identity.ofPayload?, size]
    exact congrArg Except.toOption decoded
  · obtain ⟨told, decoded, -⟩ := Identity.exists_decode_of_long .image (Nat.le_of_eq size.symm)
    refine ⟨told, ⟨tells, fun other => by omega, fun _ => decoded⟩, ?_⟩
    rw [Identity.ofPayload?, size]
    exact congrArg Except.toOption decoded

theorem ofPayload?_of_size (text : frame.payload.length ≠ 30) (image : frame.payload.length ≠ 32) :
    Identity.ofPayload? frame.payload = none := by
  have unknown : Identity.Encoding.ofSize? frame.payload.length = none := (if_neg text).trans (if_neg image)
  rw [Identity.ofPayload?, unknown]
  rfl

end Frame

namespace Finding

variable {C : Capacity}

def frame? : Finding C → Option Frame
  | frame packet => some packet.frame
  | _ => none

def frames (findings : List (Finding C)) : List Frame :=
  findings.filterMap frame?

theorem frames_concat (findings : List (Finding C)) (found : Finding C) :
    frames (findings ++ [found]) = frames findings ++ found.frame?.toList := by
  rw [frames, List.filterMap_append]
  cases found <;> rfl

end Finding

section

variable {C : Capacity} {peer : Option Identity}

theorem learned_frame (peer : Option Identity) (packet : Packet C) :
    Role.host.learned peer (.frame packet) =
      if packet.frame.request = Frame.identityRequest ∧ packet.frame.response = Frame.successResponse then
        (Identity.ofPayload? packet.frame.payload).or peer
      else peer := rfl

theorem learned_of_silent {found : Finding C} (silent : ∀ frame, found.frame? = some frame → ¬ frame.TellsIdentity) :
    Role.host.learned peer found = peer := by
  cases found with
  | gap _ | fault _ _ => rfl
  | frame packet =>
    have untold : ¬ packet.frame.TellsIdentity := silent packet.frame rfl
    rw [learned_frame]
    split
    · rename_i answers
      -- It is an answer to the request, so that its size is wrong.
      have text : packet.frame.payload.length ≠ 30 := fun size => untold ⟨answers.1, answers.2, .inl size⟩
      have image : packet.frame.payload.length ≠ 32 := fun size => untold ⟨answers.1, answers.2, .inr size⟩
      rw [Frame.ofPayload?_of_size text image]
      rfl
    · rfl

theorem lastTold_learned {frames : List Frame} (last : Frame.LastTold frames peer) (found : Finding C) :
    Frame.LastTold (frames ++ found.frame?.toList) (Role.host.learned peer found) := by
  cases found with
  | gap _ | fault _ _ =>
    show Frame.LastTold (frames ++ []) peer
    rw [List.append_nil]
    exact last
  | frame packet =>
    show Frame.LastTold (frames ++ [packet.frame]) _
    by_cases tells : packet.frame.TellsIdentity
    · obtain ⟨told, tells, understood⟩ := tells.exists_tells
      rw [learned_frame, if_pos ⟨tells.tells.1, tells.tells.2.1⟩, understood]
      exact .told tells (by simp)
    · have same : Role.host.learned peer (.frame packet) = peer := by
        apply learned_of_silent
        intro frame found
        cases found
        exact tells
      rw [same]
      exact last.append_silent tells

theorem lastTold_of_findings (findings : List (Finding C)) :
    Frame.LastTold (Finding.frames findings) (findings.foldl Role.host.learned none) := by
  induction findings using List.reverseRecOn with
  | nil => exact .nothing (by simp [Finding.frames])
  | append_singleton findings found ih =>
    rw [Finding.frames_concat, List.foldl_append]
    exact lastTold_learned ih found

theorem learned_of_client (found : Finding C) : Role.client.learned peer found = peer := by
  cases found <;> rfl

theorem foldl_learned_of_client (findings : List (Finding C)) : findings.foldl Role.client.learned peer = peer := by
  induction findings with
  | nil => rfl
  | cons found findings ih => rw [List.foldl_cons, learned_of_client, ih]

end

namespace Receiver

variable {C : Capacity} {receiver : Receiver C} {held : Bytes} {byte : UInt8}

theorem Holding.frame_wire (holding : receiver.Holding held) {next : Receiver C} {packet : Packet C}
    (taken : receiver.take byte = (next, some (.frame packet))) : packet.frame.wire = held ++ [byte] := by
  have kind := holding.taken byte
  rw [taken] at kind
  generalize (receiver.packet.receive byte).2 = outcome at kind
  generalize answer : (some (.frame packet) : Option (Finding C)) = found at kind
  cases kind with
  | completed holds whole =>
    cases answer
    exact holds.frame_wire_eq whole
  | skipped => split at answer <;> cases answer
  | _ => cases answer

theorem frames_stand_in_stream (bytes : Bytes) :
    (∃ held, (takeAll ({} : Receiver C) bytes).1.Holding held ∧ held <:+ bytes) ∧
      ∀ frame ∈ Finding.frames (takeAll ({} : Receiver C) bytes).2, frame.wire <:+: bytes := by
  induction bytes using List.reverseRecOn with
  | nil => exact ⟨⟨[], holding_nil Packet.Ready.fresh.holds, List.suffix_refl _⟩, by simp [takeAll, Finding.frames]⟩
  | append_singleton bytes byte ih =>
    obtain ⟨⟨held, holding, ends⟩, stand⟩ := ih
    obtain ⟨rest, still, shorter⟩ := (holding.taken byte).holding
    have longer : held ++ [byte] <:+ bytes ++ [byte] := by
      obtain ⟨before, rfl⟩ := ends
      exact ⟨before, (List.append_assoc _ _ _).symm⟩
    rw [takeAll_concat]
    refine ⟨⟨rest, still, shorter.trans longer⟩, ?_⟩
    intro frame member
    rw [Finding.frames, List.filterMap_append, List.mem_append] at member
    rcases member with earlier | new
    · exact (stand frame earlier).trans (List.prefix_append _ _).isInfix
    · obtain ⟨found, among, framed⟩ := List.mem_filterMap.mp new
      rcases taken : (takeAll ({} : Receiver C) bytes).1.take byte with ⟨next, _ | other⟩
      · rw [taken] at among
        cases among
      · rw [taken] at among
        obtain rfl : found = other := List.mem_singleton.mp among
        cases found with
        | frame packet =>
          cases framed
          rw [holding.frame_wire taken]
          exact longer.isInfix
        | _ => cases framed

end Receiver

namespace Session

variable {C : Capacity} {τ : Type} [Channel τ]

def presenting (session : Session C τ) (receiver : Receiver C) (response : Packet C) : Session C τ :=
  (({ session with endpoint.receiver := receiver } : Session C τ).noteEvent .frameReceived response).learnPeer response

omit [Channel τ] in
theorem peer_presenting (session : Session C τ) (receiver : Receiver C) (response : Packet C) :
    (session.presenting receiver response).endpoint.peer =
      Role.host.learned session.endpoint.peer (.frame response) := by
  unfold presenting learnPeer Role.learned
  simp only
  split
  · cases Identity.ofPayload? response.payload <;> rfl
  · rfl

theorem accept_eq_presenting {me : Profile C} (host : me.role = .host) {session : Session C τ} {byte : UInt8}
    {receiver : Receiver C} {response : Packet C}
    (taken : session.endpoint.receiver.take byte = (receiver, some (.frame response))) :
    (session.accept me byte).1 = (session.presenting receiver response).note (.answered response.frame) := by
  unfold accept acceptFrame
  rw [taken, host]
  rfl

theorem peer_dispatch (session : Session C τ) (packet : Packet C) :
    (session.dispatch packet).endpoint.peer = session.endpoint.peer :=
  (writes_dispatch session packet).peer

theorem peer_accept (me : Profile C) (session : Session C τ) (byte : UInt8) :
    (session.accept me byte).1.endpoint.peer =
      (session.endpoint.receiver.take byte).2.elim session.endpoint.peer (me.role.learned session.endpoint.peer) := by
  rcases accept_cases me session byte with ⟨receiver, taken, -, accepted⟩ | ⟨receiver, found, taken, -, accepted⟩
  · rw [accepted, taken]
    rfl
  · rw [accepted, taken, perform]
    split
    · rfl
    · exact peer_dispatch _ _

variable {me : Service C} {session : Session C (Tapped τ)} {occasions : List (Occasion C)}

/-- A host goes by the identity that was told last, before and while it shows a frame to its handler. -/
structure Acquainted (me : Service C) (session : Session C (Tapped τ)) : Prop where
  genuine : ∀ frame ∈ Finding.frames (Receiver.takeAll ({} : Receiver C) session.port.read).2,
    frame.wire <:+: session.port.read
  unacquainted : me.role = .client → session.endpoint.peer = none
  lastTold : me.role = .host →
    Frame.LastTold (Finding.frames (Receiver.takeAll ({} : Receiver C) session.port.read).2) session.endpoint.peer
  shown : me.role = .host → ∀ (byte : UInt8) (port : Tapped τ) (receiver : Receiver C) (response : Packet C),
    Channel.read session.port = some (byte, port) →
    session.endpoint.receiver.take byte = (receiver, some (.frame response)) →
    let shown := ({ session with port := port } : Session C (Tapped τ)).presenting receiver response
    (({ session with port := port } : Session C (Tapped τ)).accept (me.profile session.callCount) byte).1 =
        shown.note (.answered response.frame) ∧
      Frame.LastTold (Finding.frames (Receiver.takeAll ({} : Receiver C) port.read).2) shown.endpoint.peer
  unmoved : ∀ (byte : UInt8) (port : Tapped τ),
    (∀ receiver response, session.endpoint.receiver.take byte = (receiver, some (.frame response)) →
      ¬ response.frame.TellsIdentity) →
    (({ session with port := port } : Session C (Tapped τ)).accept (me.profile session.callCount) byte).1.endpoint.peer =
      session.endpoint.peer

theorem Hears.acquainted (hears : Hears me session occasions) : Acquainted me session := by
  have known (host : me.role = .host) : Frame.LastTold
      (Finding.frames (Receiver.takeAll ({} : Receiver C) session.port.read).2) session.endpoint.peer := by
    rw [hears.peer, host]
    exact lastTold_of_findings _
  refine ⟨(Receiver.frames_stand_in_stream _).2, ?_, known, ?_, ?_⟩
  · intro client
    rw [hears.peer, client]
    exact foldl_learned_of_client _
  · intro host byte port receiver response found taken shown
    refine ⟨accept_eq_presenting host taken, ?_⟩
    have heard := Receiver.takeAll_concat ({} : Receiver C) session.port.read byte
    rw [← hears.receiver, taken] at heard
    rw [(Tapped.of_read found).1, heard, Option.toList_some, Finding.frames_concat, peer_presenting]
    exact lastTold_learned (known host) _
  · intro byte port silent
    rw [peer_accept]
    change (session.endpoint.receiver.take byte).2.elim _ _ = _
    rcases taken : session.endpoint.receiver.take byte with ⟨receiver, _ | found⟩
    · rfl
    · show me.role.learned session.endpoint.peer found = _
      cases role : me.role with
      | client => exact learned_of_client found
      | host =>
        apply learned_of_silent
        intro frame framed
        cases found with
        | frame response =>
          cases framed
          exact silent receiver response taken
        | _ => cases framed

theorem Hears.readEach (hears : Hears me session occasions) (budget : Nat) :
    Hears me (session.readEach me budget).1 (occasions ++ (session.readEach me budget).2) := by
  refine readEach_induction ?_ hears budget
  intro session occasions byte port _ found hears
  exact hears.read found

/-- After every run, and wherever a poll stands that comes then, a host goes by the identity that was told last, and a
client by none. -/
theorem run_knows_last_told (me : Service C) (port : τ) (moves : List (Move τ)) (budget : Nat) :
    let done := ((opening port : Session C (Tapped τ)).run me moves).1
    Acquainted me done ∧ Acquainted me (done.flush.1.readEach me budget).1 := by
  intro done
  have start : Hears me (opening port : Session C (Tapped τ)) [] := (heeds_opening port).toHears
  have heard := start.run rfl moves
  have written := heard.writes (writes_flush (held_run rfl moves))
  exact ⟨heard.acquainted, (written.readEach budget).acquainted⟩

private def named (name : String) : Identity :=
  ⟨⟨1, 2, 3⟩, 32, Identity.field (Bytes.ofText name)⟩

private def variousAnswers : Bytes :=
  Frame.wire ⟨1, 1, (named "first").encodeText⟩ ++ Frame.wire ⟨1, 0xFFFD, (named "second").encodeImage⟩ ++
    Frame.wire ⟨1, 1, List.replicate 31 7⟩ ++ (Frame.wire ⟨1, 1, (named "third").encodeImage⟩).set 20 9

example : (Receiver.takeAll ({} : Receiver ⟨32, by decide⟩) variousAnswers).2.foldl Role.host.learned none =
    some (named "first") := by
  decide +kernel

end Session

end FramedLink
