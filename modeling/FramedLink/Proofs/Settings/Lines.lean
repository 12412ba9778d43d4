import FramedLink.Proofs.Settings.Text
import FramedLink.Settings.Printer

/-! A settings text as the lines it is made of. Main statement: a text is accepted when each of its lines is on its own,
every field has what the last line that sets it gives, and a text that is refused is refused for its first line that is
refused on its own. -/

namespace FramedLink.Settings

/-- One of the five things to be set: how to read it from settings, and which settings of a line give it. -/
structure Field (α : Type) where
  read : Settings → α
  given : Setting → Option α
  read_apply : ∀ (setting : Setting) (settings : Settings),
    read (setting.apply settings) = (given setting).getD (read settings)
  given_toList : ∀ settings : Settings, settings.toList.filterMap given = [read settings]

namespace Field

def name : Field Bytes where
  read := Settings.name
  given | .name value => some value | _ => none
  read_apply setting _ := by cases setting <;> rfl
  given_toList _ := rfl

def version : Field Version where
  read := Settings.version
  given | .version value => some value | _ => none
  read_apply setting _ := by cases setting <;> rfl
  given_toList _ := rfl

def maxPacketSize : Field UInt16 where
  read := Settings.maxPacketSize
  given | .maxPacketSize value => some value | _ => none
  read_apply setting _ := by cases setting <;> rfl
  given_toList _ := rfl

def encoding : Field Identity.Encoding where
  read := Settings.encoding
  given | .encoding value => some value | _ => none
  read_apply setting _ := by cases setting <;> rfl
  given_toList _ := rfl

def verbose : Field Bool where
  read := Settings.verbose
  given | .verbose value => some value | _ => none
  read_apply setting _ := by cases setting <;> rfl
  given_toList _ := rfl

end Field

def applyAll (given : List Setting) (settings : Settings) : Settings :=
  given.foldl (fun settings setting => setting.apply settings) settings

def Accepted (line : Bytes) : Prop :=
  ∃ given, Setting.ofLine line = .ok given

def given? (line : Bytes) : Option Setting :=
  match Setting.ofLine line with
  | .ok given => given
  | .error _ => none

/-- What the last line that sets the field gives it. -/
def Field.last {α : Type} (field : Field α) (lines : List Bytes) : Option α :=
  ((lines.filterMap given?).filterMap field.given).getLast?

theorem Field.read_applyAll {α : Type} (field : Field α) (given : List Setting) (settings : Settings) :
    field.read (applyAll given settings) = (given.filterMap field.given).getLast?.getD (field.read settings) := by
  induction given generalizing settings with
  | nil => rfl
  | cons setting given ih =>
    have later := ih (setting.apply settings)
    rw [field.read_apply] at later
    rw [applyAll, List.foldl_cons, ← applyAll, later]
    -- What this setting gives the field is the fallback for all that come after it.
    cases gives : field.given setting with
    | none => rw [List.filterMap_cons_none gives, Option.getD_none]
    | some value =>
      rw [List.filterMap_cons_some gives, List.getLast?_cons, Option.getD_some, Option.getD_some]

theorem ofLines_of_accepted {lines : List Bytes} (accepted : ∀ line ∈ lines, Accepted line) (number : Nat)
    (settings : Settings) : ofLines number settings lines = .ok (applyAll (lines.filterMap given?) settings) := by
  induction lines generalizing number settings with
  | nil => rfl
  | cons line lines ih =>
    have later := ih fun other member => accepted other (.tail _ member)
    obtain ⟨given, taken⟩ := accepted line (.head _)
    have gives : given? line = given := by rw [given?, taken]
    cases given with
    | none =>
      rw [ofLines, taken, List.filterMap_cons_none gives]
      exact later _ _
    | some setting =>
      rw [ofLines, taken, List.filterMap_cons_some gives]
      exact later _ _

theorem ofLines_append (number : Nat) (settings : Settings) (before after : List Bytes) :
    ofLines number settings (before ++ after) =
      (ofLines number settings before).bind fun arrived => ofLines (number + before.length) arrived after := by
  induction before generalizing number settings with
  | nil => rfl
  | cons line before ih =>
    have place : number + (line :: before).length = number + 1 + before.length := by rw [List.length_cons]; omega
    rw [List.cons_append, ofLines, ofLines, place]
    cases Setting.ofLine line with
    | error refusal => rfl
    | ok given =>
      cases given with
      | none => exact ih _ _
      | some setting => exact ih _ _

theorem ofLines_of_refused {before : List Bytes} {line : Bytes} {refusal : Setting.Fault}
    (accepted : ∀ earlier ∈ before, Accepted earlier) (refused : Setting.ofLine line = .error refusal) (number : Nat)
    (settings : Settings) (after : List Bytes) :
    ofLines number settings (before ++ line :: after) =
      .error ⟨refusal.cause, number + before.length, refusal.key⟩ := by
  rw [ofLines_append, ofLines_of_accepted accepted, Except.bind, ofLines, refused]

theorem accepted_or_refused (lines : List Bytes) :
    (∀ line ∈ lines, Accepted line) ∨ ∃ before line after refusal, lines = before ++ line :: after ∧
      (∀ earlier ∈ before, Accepted earlier) ∧ Setting.ofLine line = .error refusal := by
  induction lines with
  | nil => exact .inl fun line member => absurd member List.not_mem_nil
  | cons line lines ih =>
    cases taken : Setting.ofLine line with
    | error refusal =>
      exact .inr ⟨[], line, lines, refusal, rfl, fun earlier member => absurd member List.not_mem_nil, taken⟩
    | ok given =>
      have here : Accepted line := ⟨given, taken⟩
      rcases ih with all | ⟨before, other, after, refusal, rfl, accepted, refused⟩
      · exact .inl (List.forall_mem_cons.mpr ⟨here, all⟩)
      · exact .inr ⟨line :: before, other, after, refusal, rfl, List.forall_mem_cons.mpr ⟨here, accepted⟩, refused⟩

theorem parse_of_accepted {text : Bytes} (accepted : ∀ line ∈ lines text, Accepted line) :
    parse text = .ok (applyAll ((lines text).filterMap given?) {}) :=
  ofLines_of_accepted accepted 1 {}

theorem accepted_of_parse {text : Bytes} {settings : Settings} (parsed : parse text = .ok settings) :
    (∀ line ∈ lines text, Accepted line) ∧ settings = applyAll ((lines text).filterMap given?) {} := by
  rcases accepted_or_refused (lines text) with all | ⟨before, line, after, refusal, cut, accepted, refused⟩
  · rw [parse_of_accepted all] at parsed
    exact ⟨all, (Except.ok.inj parsed).symm⟩
  · rw [parse, cut, ofLines_of_refused accepted refused] at parsed
    cases parsed

theorem refused_of_parse {text : Bytes} {fault : Fault} (parsed : parse text = .error fault) :
    ∃ before line after refusal, lines text = before ++ line :: after ∧ (∀ earlier ∈ before, Accepted earlier) ∧
      Setting.ofLine line = .error refusal ∧ fault = ⟨refusal.cause, 1 + before.length, refusal.key⟩ := by
  rcases accepted_or_refused (lines text) with all | ⟨before, line, after, refusal, cut, accepted, refused⟩
  · rw [parse_of_accepted all] at parsed
    cases parsed
  · rw [parse, cut, ofLines_of_refused accepted refused] at parsed
    exact ⟨before, line, after, refusal, cut, accepted, refused, (Except.error.inj parsed).symm⟩

theorem parse_single_of_refused {line : Bytes} {refusal : Setting.Fault} (single : 10 ∉ line)
    (refused : Setting.ofLine line = .error refusal) : parse line = .error ⟨refusal.cause, 1, refusal.key⟩ := by
  have none_before : ∀ earlier ∈ ([] : List Bytes), Accepted earlier := fun earlier member =>
    absurd member List.not_mem_nil
  rw [parse, lines_of_single single]
  exact ofLines_of_refused none_before refused 1 {} []

theorem parse_single_of_accepted {line : Bytes} (single : 10 ∉ line) (accepted : Accepted line) :
    parse line = .ok ((given? line).elim {} fun setting => setting.apply {}) := by
  have alone : ∀ other ∈ lines line, Accepted other := by
    intro other member
    rw [lines_of_single single, List.mem_singleton] at member
    exact member ▸ accepted
  rw [parse_of_accepted alone, lines_of_single single]
  cases gives : given? line with
  | none => rw [List.filterMap_cons_none gives]; rfl
  | some setting => rw [List.filterMap_cons_some gives]; rfl

theorem parse_single_eq_ok_iff {line : Bytes} (single : 10 ∉ line) :
    (∃ settings, parse line = .ok settings) ↔ Accepted line := by
  constructor
  · rintro ⟨settings, parsed⟩
    exact (accepted_of_parse parsed).1 line (by rw [lines_of_single single]; exact .head _)
  · intro accepted
    exact ⟨_, parse_single_of_accepted single accepted⟩

theorem parse_eq_ok_iff (text : Bytes) :
    (∃ settings, parse text = .ok settings) ↔ ∀ line ∈ lines text, ∃ settings, parse line = .ok settings := by
  constructor
  · rintro ⟨settings, parsed⟩ line member
    exact (parse_single_eq_ok_iff (newline_not_mem member)).mpr ((accepted_of_parse parsed).1 line member)
  · intro each
    refine ⟨_, parse_of_accepted fun line member => ?_⟩
    exact (parse_single_eq_ok_iff (newline_not_mem member)).mp (each line member)

/-- A text is accepted exactly when each of its lines is as a text of its own. Each field then has what the last line
that sets it gives, and otherwise the first line that is refused has the same cause and key as on its own, and is
counted by the newlines before it. -/
theorem parse_line_by_line (text : Bytes) :
    ((∃ settings, parse text = .ok settings) ↔ ∀ line ∈ lines text, ∃ settings, parse line = .ok settings) ∧
    (∀ settings, parse text = .ok settings →
      (∀ line ∈ lines text, parse line = .ok ((given? line).elim {} fun setting => setting.apply {})) ∧
      settings.name = (Field.name.last (lines text)).getD ({} : Settings).name ∧
      settings.version = (Field.version.last (lines text)).getD ({} : Settings).version ∧
      settings.maxPacketSize = (Field.maxPacketSize.last (lines text)).getD ({} : Settings).maxPacketSize ∧
      settings.encoding = (Field.encoding.last (lines text)).getD ({} : Settings).encoding ∧
      settings.verbose = (Field.verbose.last (lines text)).getD ({} : Settings).verbose) ∧
    ∀ fault, parse text = .error fault →
      ∃ before line after, lines text = before ++ line :: after ∧
        (∀ earlier ∈ before, ∃ settings, parse earlier = .ok settings) ∧
        parse line = .error ⟨fault.cause, 1, fault.key⟩ ∧
        ∃ head tail, text = head ++ line ++ tail ∧ lines head = before ++ [[]] ∧ fault.line = 1 + head.count 10 := by
  refine ⟨parse_eq_ok_iff text, ?_, ?_⟩
  · intro settings parsed
    obtain ⟨accepted, rfl⟩ := accepted_of_parse parsed
    refine ⟨?_, Field.name.read_applyAll _ _, Field.version.read_applyAll _ _, Field.maxPacketSize.read_applyAll _ _,
      Field.encoding.read_applyAll _ _, Field.verbose.read_applyAll _ _⟩
    intro line member
    exact parse_single_of_accepted (newline_not_mem member) (accepted line member)
  · intro fault parsed
    obtain ⟨before, line, after, refusal, cut, accepted, refused, rfl⟩ := refused_of_parse parsed
    have single : ∀ other ∈ before ++ line :: after, 10 ∉ other := by
      intro other member
      exact newline_not_mem (cut ▸ member)
    have earlier : ∀ other ∈ before, 10 ∉ other := fun other member => single other (List.mem_append_left _ member)
    have here : 10 ∉ line := single line (List.mem_append_right _ (.head _))
    obtain ⟨tail, whole⟩ := exists_tail_of_lines_eq cut
    refine ⟨before, line, after, cut, ?_, parse_single_of_refused here refused, ended before, tail, whole, ?_, ?_⟩
    · intro other member
      exact (parse_single_eq_ok_iff (earlier other member)).mpr (accepted other member)
    · have closed := lines_ended_append earlier []
      rwa [List.append_nil] at closed
    · rw [count_ended earlier]

theorem parse_line_by_line_of_two :
    let taken := Bytes.ofText "name = a # b\n\nverbose=1\nname = c"
    let refused := Bytes.ofText "name = a\n\nbaud = 9600\nverbose"
    (parse taken = .ok { name := Bytes.ofText "c", verbose := true } ∧
      Bytes.ofText "c" = (Field.name.last (lines taken)).getD ({} : Settings).name) ∧
      parse refused = .error ⟨.unknownKey, 3, Bytes.ofText "baud"⟩ ∧
      ∃ line ∈ lines refused, parse line = .error ⟨.unknownKey, 1, Bytes.ofText "baud"⟩ := by
  intro taken refused
  have good : parse taken = .ok { name := Bytes.ofText "c", verbose := true } := rfl
  have bad : parse refused = .error ⟨.unknownKey, 3, Bytes.ofText "baud"⟩ := rfl
  obtain ⟨-, name, -⟩ := (parse_line_by_line taken).2.1 _ good
  obtain ⟨before, line, after, cut, -, alone, -⟩ := (parse_line_by_line refused).2.2 _ bad
  exact ⟨⟨good, name⟩, bad, line, by rw [cut]; simp, alone⟩

end FramedLink.Settings
