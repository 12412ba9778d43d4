import FramedLink.Proofs.Endpoint.Replies
import FramedLink.Proofs.Identity.Forms

/-! Endpoints made from settings. Main statements: just those settings are accepted whose name fits its field, whose
announced size fits a packet and whose identity fits one in its encoding; and whatever a client made from them reads,
its replies fit and it finds each frame of the announced size whole. -/

namespace FramedLink

open Endpoint (Profile Reaction Service announcedSize)

namespace Endpoint

variable {C : Capacity} {settings : Settings} {role : Role} {handler : Packet C → Packet C → Packet C × Bool}

theorem announcedSize_le_iff : announcedSize C settings ≤ C ↔ settings.maxPacketSize.toNat ≤ C := by
  unfold announcedSize
  split
  · rename_i zero
    simp [zero]
  · exact Iff.rfl

theorem Profile.ofSettings_eq (settings : Settings) (role : Role)
    (handler : Packet C → Packet C → Packet C × Bool) :
    Profile.ofSettings settings role handler =
      if settings.name.length ≤ Identity.nameSize ∧ settings.maxPacketSize.toNat ≤ C ∧ settings.encoding.size ≤ C then
        .ok ⟨role, ⟨settings.version, UInt16.ofNat (announcedSize C settings), Identity.field settings.name⟩,
          settings.encoding, handler⟩
      else .error .invalidSettings := by
  unfold Profile.ofSettings Identity.ofName
  simp only [announcedSize_le_iff]
  by_cases named : settings.name.length ≤ Identity.nameSize
  · simp only [named, true_and, if_true]
  · simp only [named, false_and, if_false, ite_self]

theorem Profile.ofSettings_eq_ok_iff {me : Profile C} :
    Profile.ofSettings settings role handler = .ok me ↔
      (settings.name.length ≤ Identity.nameSize ∧ settings.maxPacketSize.toNat ≤ C ∧ settings.encoding.size ≤ C) ∧
        me = ⟨role, ⟨settings.version, UInt16.ofNat (announcedSize C settings), Identity.field settings.name⟩,
          settings.encoding, handler⟩ := by
  rw [Profile.ofSettings_eq]
  split
  · rename_i suits
    simp only [Except.ok.injEq, suits, true_and]
    exact eq_comm
  · rename_i unsuited
    simp [unsuited]

theorem Profile.identity_of_ofSettings {me : Profile C} (created : Profile.ofSettings settings role handler = .ok me) :
    me.identity.version = settings.version ∧ me.identity.maxPacketSize.toNat = announcedSize C settings ∧
      announcedSize C settings ≤ C ∧ (0 ∉ settings.name → me.identity.shownName = settings.name) := by
  obtain ⟨⟨named, size, -⟩, rfl⟩ := Profile.ofSettings_eq_ok_iff.mp created
  have announced := announcedSize_le_iff.mpr size
  have bound := C.isLt
  refine ⟨rfl, ?_, announced, Identity.untilZero_field named⟩
  show (UInt16.ofNat (announcedSize C settings)).toNat = announcedSize C settings
  rw [UInt16.toNat_ofNat', Nat.mod_eq_of_lt (by omega)]

def Profile.withHandler (me : Profile C) (handler : Nat → Packet C → Packet C → Packet C × Bool) : Service C :=
  ⟨me.role, me.identity, me.encoding, handler⟩

theorem Reaction.notices_replying (request packet : Packet C) {frame : Frame} (fits : frame.payload.length ≤ C) :
    (Reaction.replying request (packet.compose frame)).notices = [] := by
  rw [Packet.compose_of_fits packet fits]
  rfl

end Endpoint

def Notice.tellsTooLarge : Notice → Bool
  | event reported => reported.kind == .replyTooLarge
  | _ => false

/-- With an identity that fits a packet, no reply is too large: what the handler packed is sent as it is, and all other
replies are bare. -/
theorem any_tellsTooLarge_react {C : Capacity} {me : Profile C} (fits : me.encoding.size ≤ C) (draft : Packet C)
    (found : Finding C) : (me.react draft found).notices.any Notice.tellsTooLarge = false := by
  have bare (request packet : Packet C) (code response : UInt16) :
      (Reaction.replying request (packet.compose ⟨code, response, []⟩)).notices = [] :=
    Reaction.notices_replying request packet (Nat.zero_le _)
  have whole (request packet : Packet C) :
      (Reaction.replying request (packet.composeIdentity me.identity me.encoding)).notices = [] :=
    Reaction.notices_replying request packet (by rw [Identity.length_encode]; exact fits)
  unfold Profile.react
  split
  · rfl
  · split
    · rfl
    · split
      · rw [Reaction.after, whole]
        rfl
      · unfold Profile.serving
        split
        · rfl
        · rw [Reaction.after, Reaction.after, bare]
          rfl
  · split
    · rfl
    · rw [Reaction.after, bare]
      rfl
  · rfl
  · rfl

namespace Receiver

variable {C : Capacity}

theorem Expects.takeAll {receiver : Receiver C} (expects : receiver.Expects) (bytes : Bytes) :
    (receiver.takeAll bytes).1.Expects := by
  induction bytes generalizing receiver with
  | nil => exact expects
  | cons byte bytes ih => exact ih (expects.take byte).1

theorem Expects.holds_of_cursor {receiver : Receiver C} (expects : receiver.Expects)
    (between : receiver.packet.cursor = 0) : receiver.packet.Holds [] := by
  obtain ⟨held, holding⟩ := expects.holding
  have nothing : held = [] := List.length_eq_zero_iff.mp (holding.holds.cursor.symm.trans between)
  rw [← nothing]
  exact holding.holds

theorem conclusions_of_frame {before : Bytes} (between : (takeAll ({} : Receiver C) before).1.packet.cursor = 0)
    {frame : Frame} (fits : frame.payload.length ≤ C) (after : Bytes) :
    Finding.conclusions (takeAll ({} : Receiver C) before).2 ++ [.ok frame] <+:
      Finding.conclusions (takeAll ({} : Receiver C) (before ++ frame.wire ++ after)).2 := by
  have fresh : ({} : Receiver C).Expects := expects_of_holds Packet.Ready.fresh.holds
  have rests := (fresh.takeAll before).holds_of_cursor between
  obtain ⟨packet, -, found⟩ := concludes_whole_frame rests fits
  rw [takeAll_append, takeAll_append, Finding.conclusions, Finding.conclusions, List.filterMap_append,
    List.filterMap_append, ← found.conclusions]
  exact List.prefix_append _ _

end Receiver

namespace Session

variable {C : Capacity} {τ : Type} [Channel τ] {me : Service C} {session : Session C (Tapped τ)}
  {occasions : List (Occasion C)}

theorem held_call (held : session.endpoint.refused.isSome = session.endpoint.sending) (call : Call) :
    (session.call me call).1.endpoint.refused.isSome = (session.call me call).1.endpoint.sending := by
  let motive (session : Session C (Tapped τ)) (_ : List (Occasion C)) : Prop :=
    session.endpoint.refused.isSome = session.endpoint.sending
  have start : motive session [] := held
  have done : motive (session.call me call).1 ([] ++ (session.call me call).2) := by
    refine call_induction ?_ ?_ ?_ start
    · intro session _ held
      exact (writes_flush held).held
    · intro session _ byte port _ _ held
      exact (leaves_accept (me.profile session.callCount) { session with port := port } byte).held held
    · intro _ session _ request payload held
      exact (leaves_send session request payload).held held
  exact done

theorem held_run (held : session.endpoint.refused.isSome = session.endpoint.sending) (moves : List (Move τ)) :
    (session.run me moves).1.endpoint.refused.isSome = (session.run me moves).1.endpoint.sending := by
  induction moves generalizing session with
  | nil => exact held
  | cons move moves ih =>
    cases move with
    | call made => exact ih (held_call held made)
    | elapse port => exact @ih { session with port.port := port } held

theorem Hears.run (held : session.endpoint.refused.isSome = session.endpoint.sending)
    (hears : Hears me session occasions) (moves : List (Move τ)) :
    Hears me (session.run me moves).1 (occasions ++ (session.run me moves).2) := by
  induction moves generalizing session occasions with
  | nil =>
    rw [Session.run, List.append_nil]
    exact hears
  | cons move moves ih =>
    rw [Session.run, ← List.append_assoc]
    cases move with
    | call made =>
      obtain ⟨still, heard⟩ := hears.call held made
      exact ih still heard
    | elapse port =>
      rw [Session.move, List.append_nil]
      exact ih held (hears.elapse port)

omit [Channel τ] in
theorem Hears.any_tellsTooLarge (hears : Hears me session occasions) (fits : me.encoding.size ≤ C) :
    session.log.any Notice.tellsTooLarge = false := by
  rw [List.any_eq_false]
  intro notice member told
  have unsent : notice.isSent = false := by
    cases notice with
    | event reported =>
      have kind : reported.kind = .replyTooLarge := beq_iff_eq.mp told
      simp [Notice.isSent, kind]
    | asked _ _ | answered _ => rfl
  -- A notice of this kind stems from what was read, and then a reaction made it.
  have received : notice ∈ Notice.received session.log := List.mem_filter.mpr ⟨member, by simp [unsent]⟩
  rw [hears.received, List.mem_flatMap] at received
  obtain ⟨occasion, -, noted⟩ := received
  cases occasion with
  | request packet => cases noted
  | finding calls found draft =>
    have never : ((me.profile calls).react draft found).notices.any Notice.tellsTooLarge = false :=
      any_tellsTooLarge_react fits draft found
    exact List.any_eq_false.mp never notice noted told

end Session

end FramedLink
