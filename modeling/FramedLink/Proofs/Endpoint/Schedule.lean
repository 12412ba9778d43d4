import FramedLink.Proofs.Endpoint.Hearing
import FramedLink.Proofs.Endpoint.Station

/-! When the bytes arrive, when the endpoint is called, and when its own bytes are fetched. Main statement: none of this
makes a difference to what a client does that is told to send nothing, but for how far it has come; nor does it to what
a host hears, whatever the host sends. -/

namespace FramedLink

open Endpoint (Service)

namespace Station

variable {C : Capacity} {n m : Nat} {me : Service C} {station : Station C n} {occasions : List (Occasion C)}
  {stream : Bytes}

theorem hears_run (held : station.session.endpoint.refused.isSome = station.session.endpoint.sending)
    (hears : Session.Hears me station.session occasions) (turns : List Turn) :
    Session.Hears me (station.run me turns).1.session (occasions ++ (station.run me turns).2) := by
  induction turns generalizing station occasions with
  | nil =>
    rw [run, List.append_nil]
    exact hears
  | cons turn turns ih =>
    rw [run, ← List.append_assoc]
    cases turn with
    | call made =>
      obtain ⟨still, heard⟩ := hears.call held made
      exact ih still heard
    | arrive count =>
      rw [Station.turn, List.append_nil]
      exact ih held (hears.elapse _)
    | drain count =>
      rw [Station.turn, List.append_nil]
      exact ih held (hears.elapse _)

theorem heeds_run (client : me.role = .client) (heeds : Session.Heeds me station.session occasions)
    {turns : List Turn} (unasked : ∀ turn ∈ turns, turn.isRequest = false) :
    Session.Heeds me (station.run me turns).1.session (occasions ++ (station.run me turns).2) := by
  induction turns generalizing station occasions with
  | nil =>
    rw [run, List.append_nil]
    exact heeds
  | cons turn turns ih =>
    have first := unasked turn List.mem_cons_self
    have others : ∀ turn ∈ turns, turn.isRequest = false := by
      intro other member
      exact unasked other (List.mem_cons_of_mem _ member)
    rw [run, ← List.append_assoc]
    cases turn with
    | call made => exact ih (heeds.call client first) others
    | arrive count =>
      rw [Station.turn, List.append_nil]
      exact ih (heeds.elapse _) others
    | drain count =>
      rw [Station.turn, List.append_nil]
      exact ih (heeds.elapse _) others

/-- One run has come as far as the other at most: in the calls of the handler, each with both packets that it was given,
in what was noted of receiving, and in the bytes that were written. -/
structure Behind (me : Service C) (one : Station C n × List (Occasion C)) (two : Station C m × List (Occasion C)) :
    Prop where
  calls : one.2.filterMap (Occasion.shown me) <+: two.2.filterMap (Occasion.shown me)
  received : Notice.received one.1.session.log <+: Notice.received two.1.session.log
  written : one.1.session.port.written <+: two.1.session.port.written

variable {one : Station C n × List (Occasion C)} {two : Station C m × List (Occasion C)}

theorem behind_of_heeds (first : Session.Heeds me one.1.session one.2) (second : Session.Heeds me two.1.session two.2)
    (shorter : one.1.session.port.read <+: two.1.session.port.read)
    (written : one.1.session.port.written <+: two.1.session.port.written) : Behind me one two := by
  obtain ⟨more, joined⟩ := me.heeding_mono shorter
  rw [← first.heeding, ← second.heeding] at joined
  refine ⟨?_, ?_, written⟩
  · rw [← joined, List.filterMap_append]
    exact List.prefix_append _ _
  · rw [first.received, second.received, ← joined, List.flatMap_append]
    exact List.prefix_append _ _

theorem behind_or_behind (first : Session.Heeds me one.1.session one.2) (second : Session.Heeds me two.1.session two.2)
    (shorter : one.1.session.port.read <+: two.1.session.port.read) : Behind me one two ∨ Behind me two one := by
  have mine : one.1.session.port.written <+: me.output one.1.session.port.read := ⟨_, first.outflow⟩
  by_cases same : one.1.session.port.read = two.1.session.port.read
  · have others : two.1.session.port.written <+: me.output one.1.session.port.read := ⟨_, same ▸ second.outflow⟩
    rcases List.prefix_or_prefix_of_prefix mine others with fewer | more
    · exact .inl (behind_of_heeds first second shorter fewer)
    · exact .inr (behind_of_heeds second first (same ▸ List.prefix_refl _) more)
  · -- The other run read on, and before that it had to write all that these bytes gave it to send.
    rcases List.eq_nil_or_concat two.1.session.port.read with none | ⟨earlier, byte, last⟩
    · rw [none] at shorter same
      exact absurd (List.prefix_nil.mp shorter) same
    · rw [List.concat_eq_append] at last
      have before : one.1.session.port.read <+: earlier := by
        rw [last, List.prefix_concat_iff, ← last] at shorter
        exact shorter.resolve_left same
      have written := mine.trans ((me.output_mono before).trans (second.ahead earlier byte last))
      exact .inl (behind_of_heeds first second shorter written)

theorem heeds_opening (turns : List Turn) (client : me.role = .client)
    (unasked : ∀ turn ∈ turns, turn.isRequest = false) :
    let done := (opening stream : Station C n).run me turns
    Session.Heeds me done.1.session done.2 := by
  have start : Session.Heeds me (opening stream : Station C n).session [] := Session.heeds_opening _
  exact heeds_run client start unasked

theorem hears_opening (turns : List Turn) :
    let done := (opening stream : Station C n).run me turns
    Session.Hears me done.1.session done.2 := by
  have start : Session.Heeds me (opening stream : Station C n).session [] := Session.heeds_opening _
  exact hears_run start.held start.toHears turns

theorem written_of_finished (heeds : Session.Heeds me one.1.session one.2) (finished : one.1.Finished stream) :
    one.1.session.port.written = me.output stream := by
  have outflow := heeds.outflow
  rw [Endpoint.pending_of_idle finished.idle, List.append_nil, finished.read] at outflow
  exact outflow

theorem received_of_host (host : me.role = .host) (hears : Session.Hears me one.1.session one.2) :
    Notice.received one.1.session.log =
      (Receiver.takeAll {} one.1.session.port.read).2.flatMap fun found =>
        ((me.profile 0).react .fresh found).notices := by
  have each (occasion : Occasion C) : occasion.notices me =
      occasion.finding?.toList.flatMap fun found => ((me.profile 0).react .fresh found).notices := by
    cases occasion with
    | request packet => rfl
    | finding calls found draft =>
      have here : (me.profile calls).role = .host := host
      have first : (me.profile 0).role = .host := host
      rw [Occasion.notices, (react_of_host here first draft .fresh found).2]
      exact (List.append_nil _).symm
  rw [hears.received, ← hears.findings]
  generalize one.2 = occasions
  induction occasions with
  | nil => rfl
  | cons occasion occasions ih =>
    rw [List.flatMap_cons, ih, each]
    cases found : occasion.finding? <;> simp [found]

theorem agree_of_finished (first : Session.Heeds me one.1.session one.2) (second : Session.Heeds me two.1.session two.2)
    (here : one.1.Finished stream) (there : two.1.Finished stream) :
    one.2.filterMap (Occasion.shown me) = two.2.filterMap (Occasion.shown me) ∧
      Notice.received one.1.session.log = Notice.received two.1.session.log ∧
      one.1.session.port.written = two.1.session.port.written := by
  have same : one.2 = two.2 := by rw [first.heeding, second.heeding, here.read, there.read]
  refine ⟨by rw [same], ?_, ?_⟩
  · rw [first.received, second.received, same]
  · rw [written_of_finished first here, written_of_finished second there]

theorem received_le_of_host (host : me.role = .host) (first : Session.Hears me one.1.session one.2)
    (second : Session.Hears me two.1.session two.2) (shorter : one.1.session.port.read <+: two.1.session.port.read) :
    Notice.received one.1.session.log <+: Notice.received two.1.session.log := by
  obtain ⟨more, joined⟩ := shorter
  rw [received_of_host host first, received_of_host host second, ← joined, Receiver.takeAll_append, List.flatMap_append]
  exact List.prefix_append _ _

/-- However the same stream arrives and however the endpoint is called: of two runs of a client that is told to send
nothing, one is as far as the other or behind it, and they have come to the same end once all has been read and all is
out; what a host hears, and whom it takes the other side for, goes by the bytes that it has read; and no run is too far
gone to be brought to its end. -/
theorem run_independent_of_schedule (me : Service C) (stream : Bytes) (turns others : List Turn) :
    let one := (opening stream : Station C n).run me turns
    let two := (opening stream : Station C m).run me others
    (me.role = .client → (∀ turn ∈ turns ++ others, turn.isRequest = false) →
      (Behind me one two ∨ Behind me two one) ∧
        (one.1.Finished stream → two.1.Finished stream →
          one.2.filterMap (Occasion.shown me) = two.2.filterMap (Occasion.shown me) ∧
            Notice.received one.1.session.log = Notice.received two.1.session.log ∧
            one.1.session.port.written = two.1.session.port.written)) ∧
      (me.role = .host → one.1.session.port.read <+: two.1.session.port.read →
        Notice.received one.1.session.log <+: Notice.received two.1.session.log ∧
          (one.1.session.port.read = two.1.session.port.read →
            Notice.received one.1.session.log = Notice.received two.1.session.log ∧
              one.1.session.endpoint.peer = two.1.session.endpoint.peer)) ∧
      (0 < n → ∃ more : List Turn, (∀ turn ∈ more, turn.isRequest = false) ∧
        ((opening stream : Station C n).run me (turns ++ more)).1.Finished stream) := by
  intro one two
  have brought : Brings stream one.1 := (brings_opening stream).run turns
  refine ⟨?_, ?_, ?_⟩
  · intro client unasked
    have first : Session.Heeds me one.1.session one.2 :=
      heeds_opening turns client fun turn member => unasked turn (List.mem_append_left _ member)
    have second : Session.Heeds me two.1.session two.2 :=
      heeds_opening others client fun turn member => unasked turn (List.mem_append_right _ member)
    have theirs : two.1.session.port.read <+: stream := ((brings_opening stream).run others).read_le_stream
    refine ⟨?_, agree_of_finished first second⟩
    rcases List.prefix_or_prefix_of_prefix brought.read_le_stream theirs with shorter | longer
    · exact behind_or_behind first second shorter
    · exact (behind_or_behind second first longer).symm
  · intro host shorter
    have first : Session.Hears me one.1.session one.2 := hears_opening turns
    have second : Session.Hears me two.1.session two.2 := hears_opening others
    refine ⟨received_le_of_host host first second shorter, ?_⟩
    intro same
    have mine := received_of_host host first
    have theirs := received_of_host host second
    refine ⟨by rw [mine, theirs, same], ?_⟩
    rw [first.peer, second.peer, same]
  · intro room
    obtain ⟨more, unasked, finished⟩ := exists_finished me room one.1 brought
    refine ⟨more, unasked, ?_⟩
    rw [run_append]
    exact finished

private def mirror (role : Role) : Service ⟨2, Capacity.two_lt⟩ where
  role := role
  identity := ⟨⟨1, 2, 3⟩, 2, Vector.replicate _ 0⟩
  encoding := .text
  handler := fun _ request reply => reply.composeReply request.header.request request.payload

private def arriving : Bytes :=
  Frame.wire ⟨7, 1, [4]⟩ ++ [0, 0] ++ Frame.wire ⟨8, 1, []⟩

private def hasty : List Turn :=
  [.arrive 23, .call .poll, .call .poll]

private def piecemeal : List Turn :=
  (List.replicate 6 [.arrive 5, .call .poll, .drain 7, .call .flush, .drain 7, .call .flush]).flatten

private def atOnce (role : Role) : Station ⟨2, Capacity.two_lt⟩ 31 × List (Occasion ⟨2, Capacity.two_lt⟩) :=
  (opening arriving).run (mirror role) hasty

private def inPieces (role : Role) (first : List Turn) :
    Station ⟨2, Capacity.two_lt⟩ 7 × List (Occasion ⟨2, Capacity.two_lt⟩) :=
  (opening arriving).run (mirror role) (first ++ piecemeal)

theorem run_independent_of_schedule_in_pieces :
    ((mirror .client).role = .client ∧ (∀ turn ∈ hasty ++ piecemeal, turn.isRequest = false) ∧
        (atOnce .client).1.Finished arriving ∧ (inPieces .client []).1.Finished arriving ∧
        (inPieces .client []).1.session.port.written = Frame.wire ⟨7, 1, [4]⟩ ++ Frame.wire ⟨8, 1, []⟩) ∧
      ((mirror .host).role = .host ∧
        (atOnce .host).1.session.port.read = (inPieces .host [.call (.send 9 [])]).1.session.port.read ∧
        (Notice.received (inPieces .host [.call (.send 9 [])]).1.session.log).filter (·.event?.isNone) =
          [.answered ⟨7, 1, [4]⟩, .answered ⟨8, 1, []⟩]) ∧
      0 < 7 ∧ ∃ more : List Turn, (∀ turn ∈ more, turn.isRequest = false) ∧
        ((opening arriving : Station ⟨2, by decide⟩ 7).run (mirror .client) (piecemeal.take 8 ++ more)).1.Finished
          arriving := by
  have unasked : ∀ turn ∈ hasty ++ piecemeal, turn.isRequest = false := by decide
  have here : (atOnce .client).1.Finished arriving := by
    constructor <;> decide +kernel
  have there : (inPieces .client []).1.Finished arriving := by
    constructor <;> decide +kernel
  have read : (atOnce .host).1.session.port.read = (inPieces .host [.call (.send 9 [])]).1.session.port.read := by
    decide +kernel
  have once (role : Role) : (opening arriving).run (mirror role) hasty = atOnce role := by rw [atOnce]
  have pieces (role : Role) (first : List Turn) :
      (opening arriving).run (mirror role) (first ++ piecemeal) = inPieces role first := by
    rw [inPieces]
  have clients := (run_independent_of_schedule (n := 31) (m := 7) (mirror .client) arriving hasty ([] ++ piecemeal)).1
  have hosts := (run_independent_of_schedule (n := 31) (m := 7) (mirror .host) arriving hasty
    ([.call (.send 9 [])] ++ piecemeal)).2.1
  rw [once, pieces] at clients hosts
  have unfinished :=
    (run_independent_of_schedule (n := 7) (m := 7) (mirror .client) arriving (piecemeal.take 8) []).2.2 (by decide)
  have written := ((clients rfl unasked).2 here there).2.2
  have shorter : (atOnce .host).1.session.port.read <+: (inPieces .host [.call (.send 9 [])]).1.session.port.read :=
    ⟨[], by rw [List.append_nil, read]⟩
  have received := ((hosts rfl shorter).2 read).1
  refine ⟨⟨rfl, unasked, here, there, ?_⟩, ⟨rfl, read, ?_⟩, by decide, unfinished⟩
  · rw [← written]
    decide +kernel
  · rw [← received]
    decide +kernel

end Station

end FramedLink
