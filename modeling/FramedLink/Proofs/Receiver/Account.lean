import FramedLink.Proofs.Packet.Grammar
import FramedLink.Proofs.Receiver.Containment

/-! Where the bytes go that a receiver takes. Main statement: each is part of something that was found, or was skipped,
or is held as the beginning of a frame. -/

namespace FramedLink

namespace Frame

variable {C : Capacity} {bytes : Bytes} {byte : UInt8}

theorem verdict_error {status : Status} (error : verdict C bytes = .error status) :
    status = .badChecksum ∨ status = .badLength := by
  unfold verdict at error
  split at error
  · cases error
  · split at error
    · cases error
      exact .inr rfl
    · split at error
      · cases error
      · split at error <;> cases error
        exact .inl rfl

theorem size_of_badLength (unfinished : verdict C bytes = .inProgress)
    (refused : verdict C (bytes ++ [byte]) = .error .badLength) : (bytes ++ [byte]).length = headerSize := by
  obtain ⟨whole, large⟩ := verdict_eq_badLength_iff.mp refused
  rw [verdict_eq_inProgress_iff] at unfinished
  rw [List.length_append, List.length_singleton] at whole ⊢
  by_cases short : bytes.length < headerSize
  · omega
  · rw [declared_append (Nat.le_of_not_lt short)] at large
    omega

theorem not_intact_of_badChecksum (damaged : verdict C bytes = .error .badChecksum) : ¬ Intact bytes := by
  intro intact
  unfold verdict at damaged
  rw [if_pos intact] at damaged
  split at damaged
  · cases damaged
  · split at damaged
    · cases damaged
    · split at damaged <;> cases damaged

end Frame

theorem Packet.Holds.contained {C : Capacity} {packet : Packet C} {bytes : Bytes} (holds : packet.Holds bytes)
    (size : bytes.length = Frame.headerSize + Frame.declared bytes) (fits : Frame.declared bytes ≤ C) :
    packet.Contained := by
  rw [Packet.Contained, holds.length_eq (by omega)]
  exact fits

namespace Finding

variable {C : Capacity}

/-- The number of bytes that a finding takes up in the stream. -/
def span : Finding C → Nat
  | gap _ => 0
  | frame packet => Frame.headerSize + packet.frame.payload.length
  | fault .badLength _ => Frame.headerSize
  | fault _ packet => Frame.headerSize + packet.length

def spans : List (Finding C) → Nat
  | [] => 0
  | found :: more => found.span + spans more

theorem spans_append (one two : List (Finding C)) : spans (one ++ two) = spans one + spans two := by
  induction one with
  | nil => exact (Nat.zero_add _).symm
  | cons found one ih => rw [List.cons_append, spans, spans, ih, Nat.add_assoc]

/-- What a receiver in use can find: no frame but one that arrived whole, and no fault but those of a frame. -/
def Regular : Finding C → Prop
  | gap _ => True
  | frame packet => packet.wire = packet.frame.wire
  | fault status _ => status = .badChecksum ∨ status = .badLength

end Finding

namespace Receiver

variable {C : Capacity} {receiver : Receiver C} {held : Bytes} {byte : UInt8}

/-- What the receiver holds is the beginning of a frame. -/
structure Holding (receiver : Receiver C) (held : Bytes) : Prop where
  holds : receiver.packet.Holds held
  opens : Frame.Opens held
  unfinished : Frame.verdict C held = .inProgress

theorem holding_nil (holds : receiver.packet.Holds []) : receiver.Holding [] := by
  refine ⟨holds, ?_, rfl⟩
  intro byte member
  cases member

theorem holding_restart (packet : Packet C) : Holding ⟨packet.restart, false⟩ [] :=
  holding_nil (Packet.Ready.restart packet).holds

/-- What one more byte can lead to, with what the packet answers. -/
inductive Taken (inGap : Bool) (held : Bytes) (byte : UInt8) : Outcome → Receiver C × Option (Finding C) → Prop
  | kept {packet : Packet C} (holding : Holding ⟨packet, false⟩ (held ++ [byte])) :
    Taken inGap held byte .inProgress (⟨packet, false⟩, none)
  | skipped {packet : Packet C} (short : held.length < 2) (noise : byte ≠ Frame.markerByte)
    (rests : packet.Holds []) :
    Taken inGap held byte (.error .noMarker) (⟨packet, true⟩, if inGap then none else some (.gap packet))
  | completed {packet : Packet C} (holds : packet.Holds (held ++ [byte])) (whole : Frame.Whole C (held ++ [byte])) :
    Taken inGap held byte .completed (⟨packet.restart, false⟩, some (.frame packet))
  | damaged {packet : Packet C} (holds : packet.Holds (held ++ [byte]))
    (size : (held ++ [byte]).length = Frame.headerSize + Frame.declared (held ++ [byte]))
    (fits : Frame.declared (held ++ [byte]) ≤ C) (mismatch : ¬ Frame.Intact (held ++ [byte])) :
    Taken inGap held byte (.error .badChecksum) (⟨packet.restart, false⟩, some (.fault .badChecksum packet))
  | oversized {packet : Packet C} (size : (held ++ [byte]).length = Frame.headerSize)
    (large : C < Frame.declared (held ++ [byte])) :
    Taken inGap held byte (.error .badLength) (⟨packet.restart, false⟩, some (.fault .badLength packet))

theorem Holding.taken_noise (holding : receiver.Holding held) (short : held.length < 2)
    (noise : byte ≠ Frame.markerByte) :
    Taken receiver.inGap held byte (receiver.packet.receive byte).2 (receiver.take byte) := by
  obtain ⟨answer, rests⟩ := holding.holds.receive_noise short noise
  rw [take_of_noMarker answer, answer]
  exact .skipped short noise rests

theorem Holding.taken_of_opens (holding : receiver.Holding held) (opens : Frame.Opens (held ++ [byte])) :
    Taken receiver.inGap held byte (receiver.packet.receive byte).2 (receiver.take byte) := by
  obtain ⟨answer, advanced⟩ := holding.holds.receive opens holding.unfinished
  cases verdict : Frame.verdict C (held ++ [byte]) with
  | inProgress =>
    have holds := advanced.holds (by rw [verdict]; simp)
    rw [verdict] at answer
    rw [take_of_inProgress answer, answer]
    exact .kept ⟨holds, opens, verdict⟩
  | completed =>
    have holds := advanced.holds (by rw [verdict]; simp)
    rw [verdict] at answer
    rw [take_of_completed answer, answer]
    exact .completed holds (Frame.whole_of_completed opens holding.unfinished verdict)
  | error status =>
    rw [verdict] at answer
    rcases Frame.verdict_error verdict with rfl | rfl
    · have holds := advanced.holds (by rw [verdict]; simp)
      obtain ⟨size, fits⟩ := Frame.size_of_finished holding.unfinished (by rw [verdict]; simp) (by rw [verdict]; simp)
      rw [take_of_fault answer (by simp), answer]
      exact .damaged holds size fits (Frame.not_intact_of_badChecksum verdict)
    · rw [take_of_fault answer (by simp), answer]
      exact .oversized (Frame.size_of_badLength holding.unfinished verdict) (Frame.verdict_eq_badLength_iff.mp verdict).2

theorem Holding.taken (holding : receiver.Holding held) (byte : UInt8) :
    Taken receiver.inGap held byte (receiver.packet.receive byte).2 (receiver.take byte) := by
  by_cases noise : held.length < 2 ∧ byte ≠ Frame.markerByte
  · exact holding.taken_noise noise.1 noise.2
  · apply holding.taken_of_opens
    apply Frame.opens_concat holding.opens
    intro short
    exact Decidable.byContradiction fun other => noise ⟨short, other⟩

theorem Taken.holding {inGap : Bool} {outcome : Outcome} {next : Receiver C × Option (Finding C)}
    (taken : Taken inGap held byte outcome next) :
    ∃ rest, next.1.Holding rest ∧ rest <:+ held ++ [byte] := by
  cases taken with
  | kept holding => exact ⟨_, holding, List.suffix_refl _⟩
  | skipped short noise rests => exact ⟨[], holding_nil rests, List.nil_suffix⟩
  | completed => exact ⟨[], holding_restart _, List.nil_suffix⟩
  | damaged => exact ⟨[], holding_restart _, List.nil_suffix⟩
  | oversized => exact ⟨[], holding_restart _, List.nil_suffix⟩

/-- The number of bytes that are skipped with one more byte: that one, and a marker byte before it that stays alone. -/
def skips (receiver : Receiver C) (byte : UInt8) : Nat :=
  match (receiver.packet.receive byte).2 with
  | .error .noMarker => if receiver.packet.cursor = 1 then 2 else 1
  | _ => 0

def skipped (receiver : Receiver C) : Bytes → Nat
  | [] => 0
  | byte :: bytes => receiver.skips byte + (receiver.take byte).1.skipped bytes

theorem Holding.account_take (holding : receiver.Holding held) (byte : UInt8) :
    held.length + 1 = Finding.spans (receiver.take byte).2.toList + receiver.skips byte +
      (receiver.take byte).1.packet.cursor := by
  have cursor := holding.holds.cursor
  have longer : (held ++ [byte]).length = held.length + 1 := List.length_append
  have taken := holding.taken byte
  unfold skips
  generalize (receiver.packet.receive byte).2 = outcome at taken ⊢
  generalize receiver.take byte = next at taken ⊢
  cases taken with
  | kept holding =>
    change _ = 0 + 0 + Packet.cursor _
    rw [Nat.zero_add, ← longer]
    exact holding.holds.cursor.symm
  | skipped short noise rests =>
    have empty := rests.cursor
    -- A gap takes up nothing, whether it is told here or was told before.
    have untold (packet : Packet C) :
        Finding.spans ((if receiver.inGap then none else some (.gap packet)) : Option (Finding C)).toList = 0 := by
      cases receiver.inGap <;> rfl
    rw [untold]
    simp only [List.length_nil] at empty ⊢
    split <;> omega
  | completed holds whole =>
    have length := Packet.length_payload (holds.contained whole.size whole.fits)
    have declared := holds.length_eq (by have := whole.size; omega)
    have size := whole.size
    change _ = Frame.headerSize + (Packet.payload _).length + 0 + 0 + 0
    omega
  | damaged holds size =>
    have declared := holds.length_eq (by omega)
    change _ = Frame.headerSize + Packet.length _ + 0 + 0 + 0
    omega
  | oversized size =>
    change _ = Frame.headerSize + 0 + 0 + 0
    omega

theorem Holding.account (holding : receiver.Holding held) (bytes : Bytes) :
    held.length + bytes.length = Finding.spans (receiver.takeAll bytes).2 + receiver.skipped bytes +
      (receiver.takeAll bytes).1.packet.cursor := by
  induction bytes generalizing receiver held with
  | nil =>
    have cursor := holding.holds.cursor
    change held.length + 0 = 0 + 0 + receiver.packet.cursor
    omega
  | cons byte bytes ih =>
    have first := holding.account_take byte
    obtain ⟨rest, still, -⟩ := (holding.taken byte).holding
    have later := ih still
    have cursor := still.holds.cursor
    simp only [takeAll, skipped, Finding.spans_append, List.length_cons]
    omega

def Expects (receiver : Receiver C) : Prop :=
  ∃ stream, receiver.packet.Follows stream ∧ Frame.verdict C (Frame.underway stream) = .inProgress

theorem expects_of_holds (holds : receiver.packet.Holds []) : receiver.Expects :=
  ⟨[], holds, rfl⟩

theorem Holding.expects (holding : receiver.Holding held) : receiver.Expects := by
  have whole := Frame.underway_of_opens holding.opens
  refine ⟨held, ?_, ?_⟩
  · rw [Packet.Follows, whole, if_pos holding.unfinished]
    exact holding.holds
  · rw [whole]
    exact holding.unfinished

theorem Expects.holding (expects : receiver.Expects) : ∃ held, receiver.Holding held := by
  obtain ⟨stream, follows, unfinished⟩ := expects
  rw [Packet.Follows, if_pos unfinished] at follows
  exact ⟨_, follows, Frame.opens_underway stream, unfinished⟩

theorem Taken.regular {inGap : Bool} {outcome : Outcome}
    {next : Receiver C × Option (Finding C)} (taken : Taken inGap held byte outcome next) {found : Finding C}
    (told : next.2 = some found) : found.Regular := by
  cases taken with
  | kept => cases told
  | skipped =>
    simp only at told
    split at told <;> cases told
    exact trivial
  | completed holds whole =>
    cases told
    exact (holds.wire_eq whole.size).trans (holds.frame_wire_eq whole).symm
  | damaged =>
    cases told
    exact .inl rfl
  | oversized =>
    cases told
    exact .inr rfl

theorem Expects.take (expects : receiver.Expects) (byte : UInt8) :
    (receiver.take byte).1.Expects ∧ ∀ found, (receiver.take byte).2 = some found → found.Regular := by
  obtain ⟨held, holding⟩ := expects.holding
  have taken := holding.taken byte
  obtain ⟨rest, still, -⟩ := taken.holding
  exact ⟨still.expects, fun _ told => taken.regular told⟩

theorem Expects.regular (expects : receiver.Expects) {bytes : Bytes} {found : Finding C}
    (told : found ∈ (receiver.takeAll bytes).2) : found.Regular := by
  induction bytes generalizing receiver with
  | nil => cases told
  | cons byte bytes ih =>
    obtain ⟨still, first⟩ := expects.take byte
    rw [takeAll, List.mem_append, Option.mem_toList] at told
    rcases told with here | later
    · exact first found here
    · exact ih still later

end Receiver

end FramedLink
