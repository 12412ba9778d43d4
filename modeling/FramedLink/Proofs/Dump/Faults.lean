import FramedLink.Proofs.Dump.Grammar
import FramedLink.Proofs.Dump.Places
import FramedLink.Proofs.Endpoint.Balance

/-! The faults that there are. Main statement: neither an endpoint, whatever it is called for, nor a dump is ever told
that a packet overflows; all that can be at fault is the checksum or the length of a frame, and the exit code of a dump
tells whether one of them was. -/

namespace FramedLink

open Endpoint (Profile Reaction Service)

namespace Outcome

def isFault (outcome : Outcome) : Bool :=
  outcome.isError && !outcome.isRecoverable

/-- The faults that a frame itself can have. -/
def FromFrame (outcome : Outcome) : Prop :=
  outcome = .error .badChecksum ∨ outcome = .error .badLength

theorem FromFrame.isFault {outcome : Outcome} (fromFrame : outcome.FromFrame) : outcome.isFault = true := by
  rcases fromFrame with rfl | rfl <;> rfl

end Outcome

namespace Receiver

variable {C : Capacity} {receiver : Receiver C} {held : Bytes}

def answers (receiver : Receiver C) : Bytes → List Outcome
  | [] => []
  | byte :: bytes => (receiver.packet.receive byte).2 :: (receiver.take byte).1.answers bytes

theorem Taken.fromFrame {inGap : Bool} {byte : UInt8} {outcome : Outcome} {next : Receiver C × Option (Finding C)}
    (taken : Taken inGap held byte outcome next) (fault : outcome.isFault = true) : outcome.FromFrame := by
  cases taken with
  | kept | skipped | completed => cases fault
  | damaged => exact .inl rfl
  | oversized => exact .inr rfl

theorem Expects.fromFrame (expects : receiver.Expects) (byte : UInt8)
    (fault : (receiver.packet.receive byte).2.isFault = true) : (receiver.packet.receive byte).2.FromFrame := by
  obtain ⟨held, holding⟩ := expects.holding
  exact (holding.taken byte).fromFrame fault

theorem Expects.fromFrame_answers (expects : receiver.Expects) {bytes : Bytes} :
    ∀ outcome ∈ receiver.answers bytes, outcome.isFault = true → outcome.FromFrame := by
  induction bytes generalizing receiver with
  | nil => nofun
  | cons byte bytes ih =>
    intro outcome member fault
    rcases List.mem_cons.mp member with rfl | later
    · exact expects.fromFrame byte fault
    · exact ih (expects.take byte).1 outcome later fault

end Receiver

theorem countP_overflow_react {C : Capacity} (me : Profile C) (draft : Packet C) {found : Finding C}
    (regular : found.Regular) : (me.react draft found).notices.countP (Notice.tells .overflow) = 0 := by
  cases found with
  | gap packet => rfl
  | frame packet =>
    unfold Profile.react
    cases me.role with
    | host => rfl
    | client =>
      rw [Reaction.countP_after]
      split
      · rw [(Reaction.tally_replying packet _).2 _ rfl]
        rfl
      · rw [(me.tally_serving draft packet).2.1 .overflow nofun nofun]
        rfl
  | fault status packet =>
    rcases regular with rfl | rfl
    · unfold Profile.react
      cases me.role with
      | host => rfl
      | client =>
        rw [Reaction.countP_after, (Reaction.tally_replying packet _).2 _ rfl]
        rfl
    · rfl

namespace Session

variable {C : Capacity} {τ : Type} [Channel τ] {me : Service C} {session : Session C (Tapped τ)}
  {occasions : List (Occasion C)}

def answerNext (me : Service C) (session : Session C τ) : Option Outcome :=
  if session.canRead (me.profile session.callCount) then
    (Channel.read session.port).map fun (byte, _) => (session.endpoint.receiver.packet.receive byte).2
  else none

def answersEach (me : Service C) (session : Session C τ) : Nat → List Outcome
  | 0 => []
  | budget + 1 => (session.answerNext me).toList ++ (session.readNext me).1.answersEach me budget

def answersIn (me : Service C) (session : Session C τ) : Call → List Outcome
  | .poll => session.flush.1.answersEach me (Channel.backlog session.flush.1.port)
  | _ => []

/-- What the packet answers in the calls of a run. -/
def heardAnswers (me : Service C) (session : Session C (Tapped τ)) : List (Move τ) → List Outcome
  | [] => []
  | .call made :: moves => session.answersIn me made ++ (session.call me made).1.heardAnswers me moves
  | .elapse port :: moves => ({ session with port.port := port } : Session C (Tapped τ)).heardAnswers me moves

omit [Channel τ] in
theorem Hears.expects (hears : Hears me session occasions) : session.endpoint.receiver.Expects := by
  have fresh : ({} : Receiver C).Expects := Receiver.expects_of_holds Packet.Ready.fresh.holds
  rw [hears.receiver]
  exact fresh.takeAll _

theorem fromFrame_answersEach (held : session.endpoint.refused.isSome = session.endpoint.sending)
    (hears : Hears me session occasions) (budget : Nat) :
    ∀ outcome ∈ session.answersEach me budget, outcome.isFault = true → outcome.FromFrame := by
  induction budget generalizing session occasions with
  | zero => nofun
  | succ budget ih =>
    intro outcome member fault
    rcases List.mem_append.mp member with first | later
    · rw [Option.mem_toList, answerNext] at first
      split at first
      · obtain ⟨⟨byte, port⟩, -, rfl⟩ := Option.map_eq_some_iff.mp first
        exact hears.expects.fromFrame byte fault
      · cases first
    · rcases readNext_cases me session with stopped | ⟨byte, port, -, found, reached⟩
      · rw [stopped] at later
        exact ih held hears outcome later fault
      · let moved : Session C (Tapped τ) := { session with port := port }
        have still : moved.endpoint.refused.isSome = moved.endpoint.sending := held
        rw [reached] at later
        exact ih ((leaves_accept _ moved byte).held still) (hears.read found) outcome later fault

theorem fromFrame_heardAnswers (held : session.endpoint.refused.isSome = session.endpoint.sending)
    (hears : Hears me session occasions) (moves : List (Move τ)) :
    ∀ outcome ∈ session.heardAnswers me moves, outcome.isFault = true → outcome.FromFrame := by
  induction moves generalizing session occasions with
  | nil => nofun
  | cons move moves ih =>
    cases move with
    | elapse port => exact ih held (hears.elapse port)
    | call made =>
      intro outcome member fault
      rcases List.mem_append.mp member with here | later
      · cases made with
        | poll =>
          have writes := writes_flush held
          exact fromFrame_answersEach writes.held (hears.writes writes) _ outcome here fault
        | send _ _ | askIdentity | flush => cases here
      · obtain ⟨still, heard⟩ := hears.call held made
        exact ih still heard outcome later fault

omit [Channel τ] in
theorem Hears.no_overflow (hears : Hears me session occasions) :
    ∀ event ∈ Notice.events session.log, event.kind ≠ .overflow := by
  have fresh : ({} : Receiver C).Expects := Receiver.expects_of_holds Packet.Ready.fresh.holds
  have none : session.log.countP (Notice.tells .overflow) = 0 := by
    rw [← Notice.total_events session.log .overflow nofun, hears.total .overflow nofun nofun, List.countP_eq_zero]
    intro notice member told
    obtain ⟨occasion, among, noted⟩ := List.mem_flatMap.mp member
    cases occasion with
    | request packet => cases noted
    | finding calls found draft =>
      have regular : found.Regular := by
        apply fresh.regular
        rw [← hears.findings]
        exact List.mem_filterMap.mpr ⟨_, among, rfl⟩
      have silent := countP_overflow_react (me.profile calls) draft regular
      exact List.countP_eq_zero.mp silent notice noted told
  rw [← Notice.countP_events, List.countP_eq_zero] at none
  intro event member kind
  exact none event member (beq_iff_eq.mpr kind)

end Session

namespace Dump

namespace Progress

def answers (progress : Progress) : Bytes → List Outcome
  | [] => []
  | byte :: bytes => (progress.receiver.packet.receive byte).2 :: (progress.take byte).answers bytes

theorem answers_eq (progress : Progress) (bytes : Bytes) : progress.answers bytes = progress.receiver.answers bytes := by
  induction bytes generalizing progress with
  | nil => rfl
  | cons byte bytes ih => rw [answers, ih, receiver_take, Receiver.answers]

theorem faults_take (progress : Progress) (byte : UInt8) :
    (progress.take byte).faults =
      progress.faults + if (progress.receiver.packet.receive byte).2.isFault then 1 else 0 := by
  have told (receiver : Receiver .largest) (offset : Nat) :
      ((receiver.take byte).2.map (lineOf offset)).toList.countP Line.isFault =
        if (receiver.packet.receive byte).2.isFault then 1 else 0 := by
    unfold Receiver.take
    split <;> rename_i answer <;> rw [answer]
    · rfl
    · rfl
    · cases receiver.inGap <;> rfl
    · rename_i status other
      cases status with
      | noMarker => exact (other rfl).elim
      | _ => rfl
  rw [faults_eq, faults_eq, lines_take, List.countP_append, told]

theorem faults_takeAll (progress : Progress) (bytes : Bytes) :
    (progress.takeAll bytes).faults = progress.faults + (progress.answers bytes).countP Outcome.isFault := by
  induction bytes generalizing progress with
  | nil => rfl
  | cons byte bytes ih =>
    change ((progress.take byte).takeAll bytes).faults = _
    rw [ih, faults_take, answers, List.countP_cons]
    omega

end Progress

def given (arguments : List Bytes) (input : Bytes) : List Bytes :=
  if arguments = [] then pieces isInputSeparator input
  else (arguments.map Bytes.untilZero).flatMap (pieces isArgumentSeparator)

theorem command_eq (arguments : List Bytes) (input : Bytes) :
    command arguments input = ofPieces (given arguments input) := by
  rw [command, given]
  split <;> rfl

theorem exitCode_report (stream : Bytes) :
    ((report stream).exitCode = 1 ↔ ∃ outcome ∈ Progress.answers {} stream, outcome.isFault = true) ∧
      ((report stream).exitCode = 0 ∨ (report stream).exitCode = 1) := by
  have faults := Progress.faults_takeAll {} stream
  have none : ({} : Progress).faults = 0 := rfl
  rw [none, Nat.zero_add] at faults
  rw [← List.countP_pos_iff, ← faults, report]
  by_cases zero : (Progress.takeAll {} stream).faults = 0
  · simp [zero]
  · simp [zero, Nat.pos_of_ne_zero zero]

/-- No endpoint, whatever its capacity, its handler, its calls and its channel, is ever answered or ever reports that a
packet overflows, and no dump is answered so. Each fault they are told of is that of a checksum or a length, and the
exit code of a dump with well formed pieces is one just if there was such a fault, and zero otherwise. -/
theorem faults_fromFrame {C : Capacity} {τ : Type} [Channel τ] (me : Service C) (port : τ) (moves : List (Move τ))
    (arguments : List Bytes) (input : Bytes) :
    let opened : Session C (Tapped τ) := Session.opening port
    let answers := Progress.answers {} (fed (given arguments input))
    (∀ outcome ∈ opened.heardAnswers me moves, outcome.isFault = true → outcome.FromFrame) ∧
      (∀ event ∈ Notice.events (opened.run me moves).1.log, event.kind ≠ .overflow) ∧
      (∀ outcome ∈ answers, outcome.isFault = true → outcome.FromFrame) ∧
      ((∀ piece ∈ given arguments input, (read piece).wellFormed = true) →
        ((command arguments input).exitCode = 1 ↔ ∃ outcome ∈ answers, outcome.FromFrame) ∧
          ((command arguments input).exitCode = 0 ∨ (command arguments input).exitCode = 1)) := by
  intro opened answers
  have opening : Session.Hears me opened [] := (Session.heeds_opening port).toHears
  have fresh : ({} : Receiver .largest).Expects := Receiver.expects_of_holds Packet.Ready.fresh.holds
  have fromFrame : ∀ outcome ∈ answers, outcome.isFault = true → outcome.FromFrame := by
    rw [show answers = _ from Progress.answers_eq _ _]
    exact fresh.fromFrame_answers
  refine ⟨Session.fromFrame_heardAnswers rfl opening moves, (opening.run rfl moves).no_overflow, fromFrame, ?_⟩
  intro wellFormed
  have denote := denotes_of_wellFormed wellFormed
  obtain ⟨taken, -⟩ := fed_append denote []
  rw [List.append_nil, fed, List.append_nil] at taken
  obtain ⟨told, codes⟩ := exitCode_report (fed (given arguments input))
  rw [command_eq, ofPieces_of_denotes denote, ← taken]
  refine ⟨told.trans ⟨?_, ?_⟩, codes⟩
  · rintro ⟨outcome, member, fault⟩
    exact ⟨outcome, member, fromFrame outcome member fault⟩
  · rintro ⟨outcome, member, found⟩
    exact ⟨outcome, member, found.isFault⟩

private def oversized : Bytes :=
  [0x55, 0x55, 0, 0, 0, 0, 0, 0, 0xFF, 0xFF]

private def unanswering : Service ⟨2, Capacity.two_lt⟩ where
  role := .host
  identity := ⟨⟨1, 2, 3⟩, 2, Vector.replicate _ 0⟩
  encoding := .text
  handler := fun _ _ reply => (reply, false)

private def delivery : List (Move (Port 31)) :=
  [.elapse ⟨(Ring.empty.pushAll (oversized ++ (Frame.wire ⟨7, 0, []⟩).set 2 0)).1, .empty⟩, .call .poll]

theorem faults_fromFrame_of_oversized :
    (∀ piece ∈ given [Bytes.ofText "5555 000000000000 0xFF 0xFF"] [], (read piece).wellFormed = true) ∧
      (command [Bytes.ofText "5555 000000000000 0xFF 0xFF"] []).exitCode = 1 ∧
      ((Session.opening ⟨.empty, .empty⟩).heardAnswers unanswering delivery).countP Outcome.isFault = 2 ∧
      ∀ outcome ∈ (Session.opening ⟨.empty, .empty⟩).heardAnswers unanswering delivery,
        outcome.isFault = true → outcome.FromFrame := by
  have wellFormed : ∀ piece ∈ given [Bytes.ofText "5555 000000000000 0xFF 0xFF"] [], (read piece).wellFormed = true := by
    decide +kernel
  obtain ⟨heard, -, -, exits⟩ := faults_fromFrame unanswering (⟨.empty, .empty⟩ : Port 31) delivery
    [Bytes.ofText "5555 000000000000 0xFF 0xFF"] []
  refine ⟨wellFormed, (exits wellFormed).1.mpr ⟨.error .badLength, ?_, .inr rfl⟩, by decide +kernel, heard⟩
  decide +kernel

end Dump

end FramedLink
