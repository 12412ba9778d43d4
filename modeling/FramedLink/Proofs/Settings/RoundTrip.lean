import Mathlib.Data.Bool.AllAny
import Mathlib.Data.List.Basic
import FramedLink.Proofs.Settings.Lines

/-! Settings as text and back. The names that a line can set are those that fit, hold no newline and no number sign and
have no blank at either end; settings with such a name come back from their five lines in any order, and settings with
another name come from no text. -/

namespace FramedLink

namespace Setting

/-- What can stand after the equals sign of a line and is read back unchanged. -/
structure Legible (value : Bytes) : Prop extends Tidy value where
  single : 10 ∉ value
  unmarked : 35 ∉ value

instance (value : Bytes) : Decidable (Legible value) :=
  decidable_of_iff (Tidy value ∧ 10 ∉ value ∧ 35 ∉ value)
    ⟨fun ⟨tidy, single, unmarked⟩ => ⟨tidy, single, unmarked⟩, fun ⟨tidy, single, unmarked⟩ => ⟨tidy, single, unmarked⟩⟩

structure Writable (name : Bytes) : Prop extends Legible name where
  fits : name.length ≤ Identity.nameSize

instance (name : Bytes) : Decidable (Writable name) :=
  decidable_of_iff (Legible name ∧ name.length ≤ Identity.nameSize)
    ⟨fun ⟨legible, fits⟩ => ⟨legible, fits⟩, fun ⟨legible, fits⟩ => ⟨legible, fits⟩⟩

/-- Only a name can be one that no line sets. -/
def Printable : Setting → Prop
  | .name value => Writable value
  | _ => True

private theorem isBlank_of_above {byte : UInt8} (above : 35 < byte) : isBlank byte = false := by
  simp only [isBlank, Bool.or_eq_false_iff, beq_eq_false_iff_ne]
  refine ⟨⟨?_, ?_⟩, ?_⟩ <;> rintro rfl <;> exact absurd above (by decide)

theorem legible_of_above {value : Bytes} (above : ∀ byte ∈ value, 35 < byte) : Legible value where
  toTidy := tidy_of_no_blank fun byte member => isBlank_of_above (above byte member)
  single member := absurd (above 10 member) (by decide)
  unmarked member := absurd (above 35 member) (by decide)

theorem ofLine_of_pair {key value : Bytes} (letters : ∀ byte ∈ key, 61 < byte) (unmarked : 35 ∉ value) :
    ofLine (key ++ Bytes.ofText " = " ++ value) = (ofPair key (trim value)).map some := by
  have sign : Bytes.ofText " = " = [32] ++ 61 :: [32] := rfl
  have space : Blanks [32] := by decide
  have plain : Legible key := legible_of_above fun byte member => UInt8.lt_trans (by decide) (letters byte member)
  have first : 61 ∉ key := fun member => absurd (letters 61 member) (by decide)
  have cut : key ++ Bytes.ofText " = " ++ value = key ++ [32] ++ 61 :: ([32] ++ value) := by simp [sign]
  rw [cut, ofLine_of_blanks first plain.unmarked space, takeWhile_append_of_unmarked (space.not_mem rfl),
    takeWhile_unmarked unmarked, trim_blanks_append space, trim_eq_self plain.toTidy]

theorem bounded?_decimal {bound number : Nat} (fits : number ≤ bound) :
    bounded? bound (Numeral.decimal number) = some number := by
  rw [bounded?, Numeral.ofDecimal?_decimal, Option.filter_some, if_pos (decide_eq_true fits)]

private theorem dot_not_mem_decimal (number : Nat) : 46 ∉ Numeral.decimal number := fun member =>
  absurd (Numeral.isDigit_of_mem_decimal member) (by decide)

theorem ofVersion?_text (version : Version) : ofVersion? version.text = some version := by
  have apart : version.text.splitOn 46 = [Numeral.decimal version.major.toNat,
      Numeral.decimal version.minor.toNat, Numeral.decimal version.patch.toNat] := by
    rw [Version.text, show Bytes.ofText "." = [46] from rfl, List.append_assoc, List.append_assoc, List.append_assoc,
      List.singleton_append, List.singleton_append,
      List.splitOn_append_cons_self_of_not_mem (dot_not_mem_decimal _),
      List.splitOn_append_cons_self_of_not_mem (dot_not_mem_decimal _),
      List.splitOn_eq_singleton (dot_not_mem_decimal _)]
  have each (part : UInt8) : bounded? 255 (Numeral.decimal part.toNat) = some part.toNat :=
    bounded?_decimal (Nat.le_of_lt_succ part.toNat_lt)
  unfold ofVersion?
  rw [apart]
  simp only [each, Option.bind_eq_bind, Option.bind_some, Option.pure_def, UInt8.ofNat_toNat]

theorem ofBool?_boolText (value : Bool) : ofBool? (boolText value) = some value := by
  cases value <;> decide

theorem ofEncoding?_boolText (encoding : Identity.Encoding) :
    ofEncoding? (boolText (encoding = .text)) = some encoding := by
  cases encoding <;> decide

theorem ofPair_eq_ok_iff {key value : Bytes} {setting : Setting} :
    ofPair key value = .ok setting ↔ ∃ read, reader? key = some read ∧ read value = some setting := by
  constructor
  · intro taken
    unfold ofPair at taken
    split at taken
    · cases taken
    · rename_i read known
      split at taken
      · cases taken
      · rename_i found given
        cases taken
        exact ⟨read, known, given⟩
  · rintro ⟨read, known, given⟩
    rw [ofPair, known]
    simp only [given]

theorem Printable.ofPair {setting : Setting} (printable : setting.Printable) :
    ofPair setting.key setting.valueText = .ok setting := by
  apply ofPair_eq_ok_iff.mpr
  cases setting with
  | name value =>
    have taken : ofName? value = some value := if_pos printable.fits
    exact ⟨_, rfl, by rw [valueText, taken]; rfl⟩
  | version value => exact ⟨_, rfl, by rw [valueText, ofVersion?_text]; rfl⟩
  | maxPacketSize value =>
    have taken := bounded?_decimal (Nat.le_of_lt_succ value.toNat_lt)
    exact ⟨_, rfl, by rw [valueText, taken, Option.map_some, UInt16.ofNat_toNat]⟩
  | encoding value => exact ⟨_, rfl, by rw [valueText, ofEncoding?_boolText]; rfl⟩
  | verbose value => exact ⟨_, rfl, by rw [valueText, ofBool?_boolText]; rfl⟩

theorem letters_key (setting : Setting) : ∀ byte ∈ setting.key, 61 < byte := by
  cases setting <;> exact List.all_iff_forall_prop.mp rfl

theorem Printable.legible {setting : Setting} (printable : setting.Printable) : Legible setting.valueText := by
  have digit {number : Nat} {byte : UInt8} (member : byte ∈ Numeral.decimal number) : 35 < byte := by
    have range := Numeral.isDigit_of_mem_decimal member
    simp only [Numeral.isDigit, Bool.and_eq_true, decide_eq_true_eq] at range
    exact UInt8.lt_of_lt_of_le (by decide) range.1
  cases setting with
  | name value => exact printable.toLegible
  | version value =>
    apply legible_of_above
    intro byte member
    simp only [valueText, Version.text, List.mem_append, show Bytes.ofText "." = [46] from rfl,
      List.mem_singleton] at member
    rcases member with (((major | rfl) | minor) | rfl) | patch
    · exact digit major
    · decide
    · exact digit minor
    · decide
    · exact digit patch
  | maxPacketSize value => exact legible_of_above fun byte member => digit member
  | encoding value => cases value <;> exact legible_of_above (List.all_iff_forall_prop.mp rfl)
  | verbose value => cases value <;> exact legible_of_above (List.all_iff_forall_prop.mp rfl)

theorem Printable.ofLine {setting : Setting} (printable : setting.Printable) :
    ofLine setting.line = .ok (some setting) := by
  have legible := printable.legible
  rw [line, ofLine_of_pair setting.letters_key legible.unmarked, trim_eq_self legible.toTidy,
    printable.ofPair]
  rfl

theorem Printable.single {setting : Setting} (printable : setting.Printable) : 10 ∉ setting.line := by
  simp only [line, List.mem_append, not_or]
  refine ⟨⟨fun member => ?_, by decide⟩, printable.legible.single⟩
  exact absurd (setting.letters_key 10 member) (by decide)

theorem read_of_ofLine {line : Bytes} {setting : Setting} (taken : Setting.ofLine line = .ok (some setting)) :
    ∃ key value read, halves? (content line) = some (key, value) ∧ reader? key = some read ∧
      read value = some setting := by
  unfold Setting.ofLine at taken
  split at taken
  · cases taken
  · split at taken
    · cases taken
    · rename_i key value cut
      cases pair : Setting.ofPair key value with
      | error refusal =>
        rw [pair] at taken
        cases taken
      | ok found =>
        rw [pair] at taken
        cases taken
        obtain ⟨read, known, given⟩ := ofPair_eq_ok_iff.mp pair
        exact ⟨key, value, read, cut, known, given⟩

private theorem name_of_read {key value name : Bytes} {read : Bytes → Option Setting}
    (known : reader? key = some read) (taken : read value = some (.name name)) :
    name = value ∧ value.length ≤ Identity.nameSize := by
  unfold reader? at known
  split at known
  · cases known
    obtain ⟨kept, fits, same⟩ := Option.map_eq_some_iff.mp taken
    cases same
    unfold ofName? at fits
    split at fits
    · rename_i short
      cases fits
      exact ⟨rfl, short⟩
    · cases fits
  · -- The other readers give no name.
    repeat' split at known
    all_goals cases known
    all_goals
      obtain ⟨given, -, other⟩ := Option.map_eq_some_iff.mp taken
      cases other

theorem printable_of_ofLine {line : Bytes} {setting : Setting} (single : 10 ∉ line)
    (taken : Setting.ofLine line = .ok (some setting)) : setting.Printable := by
  cases setting with
  | name name =>
    obtain ⟨key, value, read, cut, known, given⟩ := read_of_ofLine taken
    obtain ⟨rfl, fits⟩ := name_of_read known given
    obtain ⟨tidy, inside⟩ := mem_of_mem_value cut
    exact ⟨⟨tidy, fun member => single (mem_content (inside 10 member)).1,
      fun member => (mem_content (inside 35 member)).2 rfl⟩, fits⟩
  | version | maxPacketSize | encoding | verbose => exact trivial

theorem Printable.apply {setting : Setting} {settings : Settings} (printable : setting.Printable)
    (writable : Writable settings.name) : Writable (setting.apply settings).name := by
  cases setting with
  | name value => exact printable
  | version | maxPacketSize | encoding | verbose => exact writable

end Setting

namespace Settings

open Setting (Writable Printable)

/-- The five lines of the settings in some order, with or without the newline at the end. -/
def Written (settings : Settings) (text : Bytes) : Prop :=
  ∃ order, List.Perm order settings.toList ∧ (text = render order ∨ text ++ Bytes.ofText "\n" = render order)

theorem lines_append_newline (text : Bytes) : lines (text ++ [10]) = lines text ++ [[]] :=
  List.splitOn_append_cons_self text []

theorem lines_render {order : List Setting} (printable : ∀ setting ∈ order, setting.Printable) :
    lines (render order) = order.map Setting.line ++ [[]] := by
  have single : ∀ line ∈ order.map Setting.line, 10 ∉ line := by
    intro line member
    obtain ⟨setting, inside, rfl⟩ := List.mem_map.mp member
    exact (printable setting inside).single
  have apart := lines_ended_append single []
  rwa [List.append_nil, ended, List.flatMap_map] at apart

theorem parse_of_lines {order : List Setting} (printable : ∀ setting ∈ order, setting.Printable) {text : Bytes}
    (cut : lines text = order.map Setting.line ∨ lines text = order.map Setting.line ++ [[]]) :
    parse text = .ok (applyAll order {}) := by
  have none : given? [] = none := rfl
  have gives : ∀ setting ∈ order, given? setting.line = some setting := by
    intro setting member
    rw [given?, (printable setting member).ofLine]
  have taken : ∀ line ∈ order.map Setting.line, Accepted line := by
    intro line member
    obtain ⟨setting, inside, rfl⟩ := List.mem_map.mp member
    exact ⟨_, (printable setting inside).ofLine⟩
  have back : (order.map Setting.line).filterMap given? = order := by
    rw [List.filterMap_map]
    exact (List.filterMap_congr gives).trans List.filterMap_some
  rcases cut with cut | cut
  · rw [parse_of_accepted (cut ▸ taken), cut, back]
  · have accepted : ∀ line ∈ lines text, Accepted line := by
      intro line member
      rw [cut] at member
      rcases List.mem_append.mp member with inside | last
      · exact taken line inside
      · rw [List.mem_singleton.mp last]
        exact ⟨_, rfl⟩
    rw [parse_of_accepted accepted, cut, List.filterMap_append, back, List.filterMap_cons_none none,
      List.filterMap_nil, List.append_nil]

theorem Field.read_applyAll_perm {α : Type} (field : Field α) {order : List Setting} {settings : Settings}
    (perm : List.Perm order settings.toList) (before : Settings) :
    field.read (applyAll order before) = field.read settings := by
  -- Only one of the five sets the field, so the order does not matter to what is last.
  have only := perm.filterMap field.given
  rw [field.given_toList, List.perm_singleton] at only
  rw [field.read_applyAll, only, List.getLast?_singleton, Option.getD_some]

theorem applyAll_of_perm {order : List Setting} {settings : Settings} (perm : List.Perm order settings.toList)
    (before : Settings) : applyAll order before = settings := by
  have name := Field.name.read_applyAll_perm perm before
  have version := Field.version.read_applyAll_perm perm before
  have maxPacketSize := Field.maxPacketSize.read_applyAll_perm perm before
  have encoding := Field.encoding.read_applyAll_perm perm before
  have verbose := Field.verbose.read_applyAll_perm perm before
  cases arrived : applyAll order before
  rw [arrived] at name version maxPacketSize encoding verbose
  cases settings
  simp only [Field.name, Field.version, Field.maxPacketSize, Field.encoding, Field.verbose] at *
  subst name version maxPacketSize encoding verbose
  rfl

theorem printable_toList {settings : Settings} (writable : Writable settings.name) :
    ∀ setting ∈ settings.toList, setting.Printable := by
  simp only [toList, List.forall_mem_cons]
  exact ⟨writable, trivial, trivial, trivial, trivial, by simp⟩

theorem parse_of_written {settings : Settings} (writable : Writable settings.name) {text : Bytes}
    (written : settings.Written text) : parse text = .ok settings := by
  obtain ⟨order, perm, shape⟩ := written
  have printable : ∀ setting ∈ order, setting.Printable := fun setting member =>
    printable_toList writable setting (perm.mem_iff.mp member)
  rw [← applyAll_of_perm perm {}]
  apply parse_of_lines printable
  rcases shape with rfl | unended
  · exact .inr (lines_render printable)
  · have longer : lines text ++ [[]] = order.map Setting.line ++ [[]] := by
      rw [← lines_append_newline, ← lines_render printable, ← unended]
      rfl
    exact .inl (List.append_cancel_right longer)

theorem writable_applyAll {given : List Setting} (printable : ∀ setting ∈ given, setting.Printable)
    {settings : Settings} (writable : Writable settings.name) : Writable (applyAll given settings).name := by
  induction given generalizing settings with
  | nil => exact writable
  | cons setting given ih =>
    have later := (printable setting (.head _)).apply writable
    exact ih (fun other member => printable other (.tail _ member)) later

theorem writable_of_parse {text : Bytes} {settings : Settings} (parsed : parse text = .ok settings) :
    Writable settings.name := by
  obtain ⟨-, rfl⟩ := accepted_of_parse parsed
  apply writable_applyAll
  · intro setting member
    obtain ⟨line, inside, gives⟩ := List.mem_filterMap.mp member
    unfold given? at gives
    split at gives
    · rename_i taken
      exact Setting.printable_of_ofLine (newline_not_mem inside) (gives ▸ taken)
    · cases gives
  · decide

/-- Settings with a name that a line can set are what any text of their five lines is read as, and what is read from a
text are such settings. -/
theorem parse_written (settings : Settings) :
    (Writable settings.name → ∀ text, settings.Written text → parse text = .ok settings) ∧
    ∀ text, parse text = .ok settings →
      Writable settings.name ∧ ∀ other, settings.Written other → parse other = .ok settings := by
  constructor
  · intro writable text written
    exact parse_of_written writable written
  · intro text parsed
    have writable := writable_of_parse parsed
    exact ⟨writable, fun other written => parse_of_written writable written⟩

theorem parse_written_backwards :
    let settings : Settings :=
      { name := Bytes.ofText "a = b", version := ⟨0, 10, 255⟩, maxPacketSize := 65535, verbose := true }
    let text := Bytes.ofText
      "verbose = true\nid_ascii = true\nmax_packet_size = 65535\nversion = 0.10.255\nname = a = b"
    let unnamed : Settings := { name := [], version := ⟨1, 2, 3⟩ }
    let short := Bytes.ofText "name=\t# none\nversion = 01.2.003"
    (Writable settings.name ∧ settings.Written text ∧ parse text = .ok settings) ∧
      parse short = .ok unnamed ∧ parse (render unnamed.toList) = .ok unnamed := by
  intro settings text unnamed short
  have writable : Writable settings.name := by decide
  have written : settings.Written text :=
    ⟨settings.toList.reverse, List.reverse_perm _, .inr (by decide +kernel)⟩
  have parsed : parse short = .ok unnamed := rfl
  refine ⟨⟨writable, written, (parse_written settings).1 writable text written⟩, parsed, ?_⟩
  exact ((parse_written unnamed).2 short parsed).2 _ ⟨unnamed.toList, .refl _, .inl rfl⟩

end Settings

end FramedLink
