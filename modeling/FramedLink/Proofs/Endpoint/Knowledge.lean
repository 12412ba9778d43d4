import FramedLink.Proofs.Endpoint.Answers
import FramedLink.Proofs.Endpoint.Course

/-! What a host knows of the other side. Main statement: it is what the responses told it that its handler was shown, of
which the last that told an identity counts. -/

namespace FramedLink

open Endpoint (Profile)

variable {C : Capacity}

/-- The identity of the other side as it is known after the handler was called. -/
def Notice.learned (peer : Option Identity) : Notice → Option Identity
  | .answered response =>
    if response.request = Frame.identityRequest ∧ response.response = Frame.successResponse then
      (Identity.ofPayload? response.payload).or peer
    else peer
  | _ => peer

theorem learned_of_host {me : Profile C} (host : me.role = .host) (draft : Packet C) (peer : Option Identity)
    (found : Finding C) :
    me.role.learned peer found = (Notice.calls (me.react draft found).notices).foldl Notice.learned peer := by
  rw [host]
  cases found with
  | gap packet => rfl
  | frame packet =>
    simp only [Profile.react, host]
    rfl
  | fault status packet =>
    cases status with
    | badChecksum =>
      simp only [Profile.react, host]
      rfl
    | _ => rfl

namespace Session

variable {τ : Type} [Channel τ] {me : Profile C} {session before after : Session C τ} {peer : Option Identity}

/-- What the endpoint knows of the other side comes from the given identity and from what its handler was shown. -/
structure Informed (peer : Option Identity) (session : Session C τ) : Prop where
  held : session.endpoint.refused.isSome = session.endpoint.sending
  peer : session.endpoint.peer = (Notice.calls session.log).foldl Notice.learned peer

theorem Writes.calls (writes : before.Writes after) : Notice.calls after.log = Notice.calls before.log := by
  rw [writes.log, Notice.calls, List.filter_append]
  split <;> simp [Notice.calls, Notice.about, Notice.event?]

theorem informed_of_writes (told : before.endpoint.peer = (Notice.calls before.log).foldl Notice.learned peer)
    (writes : before.Writes after) : Informed peer after := by
  refine ⟨writes.held, ?_⟩
  rw [writes.peer, writes.calls]
  exact told

theorem Informed.flush (informed : Informed peer session) : Informed peer session.flush.1 :=
  informed_of_writes informed.peer (writes_flush informed.held)

theorem Informed.send (informed : Informed peer session) (request : UInt16) (payload : Bytes) :
    Informed peer (session.send request payload).1 := by
  have told : ∀ packet, (session.starting packet).endpoint.peer =
      (Notice.calls (session.starting packet).log).foldl Notice.learned peer := fun _ => informed.peer
  rw [Session.send]
  split
  · exact informed
  · split
    · exact ⟨informed.held, informed.peer⟩
    · exact informed_of_writes (told _) (writes_dispatch session _)

theorem Informed.read (host : me.role = .host) (informed : Informed peer session) (port : τ) (byte : UInt8) :
    Informed peer (({ session with port := port } : Session C τ).accept me byte).1 := by
  rcases accept_cases me { session with port := port } byte with
    ⟨receiver, -, -, accepted⟩ | ⟨receiver, found, -, -, accepted⟩
  · rw [accepted]
    exact ⟨informed.held, informed.peer⟩
  · -- A host has nothing to write here, so that only the notices of the finding are new.
    let draft := session.endpoint.outgoing
    have silent := (react_of_host host host draft draft found).1
    rw [perform, silent] at accepted
    rw [accepted]
    refine ⟨informed.held, ?_⟩
    show me.role.learned session.endpoint.peer found = _
    rw [learned_of_host host draft, informed.peer]
    show _ = (Notice.calls (session.log ++ (me.react draft found).notices)).foldl Notice.learned peer
    rw [Notice.calls, Notice.calls, Notice.calls, List.filter_append, List.foldl_append]

theorem Informed.poll (host : me.role = .host) (informed : Informed peer session) :
    Informed peer (session.poll me).1 := by
  refine poll_induction ?_ ?_ informed
  · intro session held
    exact held.flush
  · intro session byte port _ _ held
    exact held.read host port byte

end Session

end FramedLink
