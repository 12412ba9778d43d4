import Mathlib.Data.List.Induction
import Mathlib.Data.List.TakeWhile
import Mathlib.Data.Nat.Digits.Defs
import FramedLink.Proofs.Settings.RoundTrip

/-! The numbers of a settings text. Main statement: a number is what a row of decimal digits denotes, however long the
row is; one that its field has no room for is refused like any other text, and so it is in a word of 64 bits. -/

namespace FramedLink

namespace Numeral

/-- The text is a row of decimal digits for the number, the highest one first. -/
structure Denotes (text : Bytes) (number : Nat) : Prop where
  something : text ≠ []
  digits : ∀ byte ∈ text, 48 ≤ byte ∧ byte ≤ 57
  sum : number = Nat.ofDigits 10 (text.reverse.map fun byte => byte.toNat - 48)

theorem value_eq_ofDigits (text : Bytes) :
    value text = Nat.ofDigits 10 (text.reverse.map fun byte => byte.toNat - 48) := by
  induction text using List.reverseRecOn with
  | nil => rfl
  | append_singleton text byte ih =>
    rw [value, List.foldl_append, ← value, List.reverse_append, List.reverse_singleton, List.singleton_append,
      List.map_cons, Nat.ofDigits_cons, ← ih, List.foldl_cons, List.foldl_nil, Nat.add_comm]

theorem all_isDigit_iff {text : Bytes} : text.all isDigit = true ↔ ∀ byte ∈ text, 48 ≤ byte ∧ byte ≤ 57 := by
  simp only [List.all_eq_true, isDigit, Bool.and_eq_true, decide_eq_true_eq]

theorem ofDecimal?_eq_some_iff {text : Bytes} {number : Nat} :
    ofDecimal? text = some number ↔ Denotes text number := by
  unfold ofDecimal?
  constructor
  · intro taken
    split at taken
    · rename_i row
      exact ⟨row.1, all_isDigit_iff.mp row.2, by rw [← value_eq_ofDigits, Option.some.inj taken]⟩
    · cases taken
  · intro denotes
    rw [if_pos ⟨denotes.something, all_isDigit_iff.mpr denotes.digits⟩, value_eq_ofDigits, ← denotes.sum]

theorem Denotes.visible {text : Bytes} {number : Nat} (denotes : Denotes text number) :
    ∀ byte ∈ text, 46 < byte := by
  intro byte member
  exact UInt8.lt_of_lt_of_le (by decide) (denotes.digits byte member).1

/-! The same in a word of 64 bits. -/

def pushDigit? (word : UInt64) (digit : UInt8) : Option UInt64 :=
  let number := 10 * word.toNat + (digit.toNat - 48)
  if number < 2 ^ 64 then some (UInt64.ofNat number) else none

/-- Reads the digits that a text begins with, and tells what comes after them. Nothing is read if there are none, or if
the word cannot hold their number. -/
def readWord? (text : Bytes) : Option (UInt64 × Bytes) :=
  match text.takeWhile isDigit with
  | [] => none
  | digits => (digits.foldlM pushDigit? 0).map fun word => (word, text.dropWhile isDigit)

def valueFrom (number : Nat) (digits : Bytes) : Nat :=
  digits.foldl (fun number digit => 10 * number + (digit.toNat - 48)) number

theorem valueFrom_cons (number : Nat) (digit : UInt8) (digits : Bytes) :
    valueFrom number (digit :: digits) = valueFrom (10 * number + (digit.toNat - 48)) digits :=
  List.foldl_cons ..

theorem le_valueFrom (number : Nat) (digits : Bytes) : number ≤ valueFrom number digits := by
  induction digits generalizing number with
  | nil => exact Nat.le_refl number
  | cons digit digits ih =>
    have later := ih (10 * number + (digit.toNat - 48))
    rw [valueFrom_cons]
    omega

theorem foldlM_pushDigit? (digits : Bytes) (word : UInt64) :
    digits.foldlM pushDigit? word =
      if valueFrom word.toNat digits < 2 ^ 64 then some (UInt64.ofNat (valueFrom word.toNat digits)) else none := by
  induction digits generalizing word with
  | nil =>
    have start : valueFrom word.toNat [] = word.toNat := rfl
    rw [start, if_pos word.toNat_lt, UInt64.ofNat_toNat, List.foldlM_nil]
    rfl
  | cons digit digits ih =>
    rw [List.foldlM_cons, valueFrom_cons]
    by_cases fits : 10 * word.toNat + (digit.toNat - 48) < 2 ^ 64
    · have pushed : pushDigit? word digit = some (UInt64.ofNat (10 * word.toNat + (digit.toNat - 48))) := if_pos fits
      rw [pushed, Option.bind_eq_bind, Option.bind_some, ih, UInt64.toNat_ofNat_of_lt' fits]
    · have grown := le_valueFrom (10 * word.toNat + (digit.toNat - 48)) digits
      have pushed : pushDigit? word digit = none := if_neg fits
      rw [pushed, Option.bind_eq_bind, Option.bind_none, if_neg (by omega)]

theorem readWord?_of_digits {text : Bytes} (something : text ≠ []) (digits : text.all isDigit = true) :
    readWord? text = if value text < 2 ^ 64 then some (UInt64.ofNat (value text), []) else none := by
  have each : ∀ byte ∈ text, isDigit byte = true := List.all_eq_true.mp digits
  have taken : text.takeWhile isDigit = text := List.takeWhile_eq_self_iff.mpr each
  have dropped : text.dropWhile isDigit = [] := List.dropWhile_eq_nil_iff.mpr each
  have word := foldlM_pushDigit? text 0
  have same : valueFrom (0 : UInt64).toNat text = value text := rfl
  rw [same] at word
  unfold readWord?
  rw [taken, dropped]
  split
  · contradiction
  · rw [word]
    split <;> rfl

theorem digits_of_readWord? {text : Bytes} {word : UInt64} (taken : readWord? text = some (word, [])) :
    text ≠ [] ∧ text.all isDigit = true := by
  unfold readWord? at taken
  split at taken
  · cases taken
  · rename_i something
    obtain ⟨found, -, same⟩ := Option.map_eq_some_iff.mp taken
    have dropped : text.dropWhile isDigit = [] := (Prod.mk.inj same).2
    refine ⟨?_, List.all_eq_true.mpr (List.dropWhile_eq_nil_iff.mp dropped)⟩
    rintro rfl
    exact something rfl

end Numeral

namespace Setting

open Numeral (Denotes)

/-- The text is the core with blanks around it at most. -/
def Around (core text : Bytes) : Prop :=
  ∃ left right, (∀ byte ∈ left, isBlank byte = true) ∧ (∀ byte ∈ right, isBlank byte = true) ∧
    text = left ++ core ++ right

theorem around_iff {core text : Bytes} (tidy : Tidy core) : Around core text ↔ trim text = core := by
  constructor
  · rintro ⟨left, right, before, after, rfl⟩
    exact trim_between before tidy after
  · rintro rfl
    exact exists_blanks_around text

theorem tidy_of_visible {text : Bytes} (visible : ∀ byte ∈ text, 46 ≤ byte) : Tidy text := by
  apply tidy_of_no_blank
  intro byte member
  have above := visible byte member
  simp only [isBlank, Bool.or_eq_false_iff, beq_eq_false_iff_ne]
  refine ⟨⟨?_, ?_⟩, ?_⟩ <;> rintro rfl <;> exact absurd above (by decide)

def IsSize (text : Bytes) (size : UInt16) : Prop :=
  ∃ digits, Around digits text ∧ Denotes digits size.toNat

/-- Three rows of digits, of any length, with a dot after each but the last and blanks around them at most. -/
def IsVersion (text : Bytes) (version : Version) : Prop :=
  ∃ major minor patch, Around (major ++ [46] ++ minor ++ [46] ++ patch) text ∧
    Denotes major version.major.toNat ∧ Denotes minor version.minor.toNat ∧ Denotes patch version.patch.toNat

theorem bounded?_eq_some_iff {bound number : Nat} {text : Bytes} :
    bounded? bound text = some number ↔ Denotes text number ∧ number ≤ bound := by
  rw [bounded?, Option.filter_eq_some_iff, Numeral.ofDecimal?_eq_some_iff, decide_eq_true_iff]

theorem isSize_iff {text : Bytes} {size : UInt16} :
    IsSize text size ↔ bounded? 65535 (trim text) = some size.toNat := by
  rw [bounded?_eq_some_iff]
  constructor
  · rintro ⟨digits, around, denotes⟩
    have tidy := tidy_of_visible fun byte member => UInt8.le_of_lt (denotes.visible byte member)
    rw [(around_iff tidy).mp around]
    exact ⟨denotes, Nat.le_of_lt_succ size.toNat_lt⟩
  · rintro ⟨denotes, -⟩
    exact ⟨trim text, (around_iff (tidy_trim text)).mpr rfl, denotes⟩

theorem read_size_iff {text : Bytes} {setting : Setting} :
    (bounded? 65535 (trim text)).map (fun size => maxPacketSize (UInt16.ofNat size)) = some setting ↔
      ∃ size, IsSize text size ∧ setting = .maxPacketSize size := by
  rw [Option.map_eq_some_iff]
  constructor
  · rintro ⟨number, read, rfl⟩
    have small := (bounded?_eq_some_iff.mp read).2
    have same : (UInt16.ofNat number).toNat = number := UInt16.toNat_ofNat_of_lt' (Nat.lt_succ_of_le small)
    exact ⟨UInt16.ofNat number, isSize_iff.mpr (same.symm ▸ read), rfl⟩
  · rintro ⟨size, sized, rfl⟩
    exact ⟨size.toNat, isSize_iff.mp sized, by rw [UInt16.ofNat_toNat]⟩

private theorem bounded?_part_iff {text : Bytes} {part : UInt8} :
    bounded? 255 text = some part.toNat ↔ Denotes text part.toNat := by
  rw [bounded?_eq_some_iff]
  exact ⟨And.left, fun denotes => ⟨denotes, Nat.le_of_lt_succ part.toNat_lt⟩⟩

private theorem exists_part {text : Bytes} {number : Nat} (read : bounded? 255 text = some number) :
    ∃ part : UInt8, Denotes text part.toNat ∧ UInt8.ofNat number = part := by
  obtain ⟨denotes, small⟩ := bounded?_eq_some_iff.mp read
  have same : (UInt8.ofNat number).toNat = number := UInt8.toNat_ofNat_of_lt' (Nat.lt_succ_of_le small)
  exact ⟨UInt8.ofNat number, same.symm ▸ denotes, rfl⟩

theorem ofVersion?_eq_some_iff {text : Bytes} {version : Version} :
    ofVersion? text = some version ↔ ∃ major minor patch, text = major ++ [46] ++ minor ++ [46] ++ patch ∧
      Denotes major version.major.toNat ∧ Denotes minor version.minor.toNat ∧ Denotes patch version.patch.toNat := by
  constructor
  · intro read
    unfold ofVersion? at read
    split at read
    · rename_i major minor patch parts
      simp only [Option.bind_eq_bind, Option.bind_eq_some_iff, Option.pure_def, Option.some.injEq] at read
      obtain ⟨first, readFirst, second, readSecond, third, readThird, rfl⟩ := read
      obtain ⟨_, one, rfl⟩ := exists_part readFirst
      obtain ⟨_, two, rfl⟩ := exists_part readSecond
      obtain ⟨_, three, rfl⟩ := exists_part readThird
      have joined : [46].intercalate [major, minor, patch] = text := by
        rw [← parts]
        exact List.intercalate_splitOn 46
      refine ⟨major, minor, patch, ?_, one, two, three⟩
      rw [← joined]
      simp [List.intercalate_cons_cons]
    · cases read
  · rintro ⟨major, minor, patch, rfl, one, two, three⟩
    have dotless {part : Bytes} {number : Nat} (denotes : Denotes part number) : 46 ∉ part :=
      fun member => absurd (denotes.visible 46 member) (by decide)
    have parts : (major ++ [46] ++ minor ++ [46] ++ patch).splitOn 46 = [major, minor, patch] := by
      rw [List.append_assoc, List.append_assoc, List.append_assoc, List.singleton_append, List.singleton_append,
        List.splitOn_append_cons_self_of_not_mem (dotless one),
        List.splitOn_append_cons_self_of_not_mem (dotless two), List.splitOn_eq_singleton (dotless three)]
    unfold ofVersion?
    rw [parts]
    simp only [bounded?_part_iff.mpr one, bounded?_part_iff.mpr two, bounded?_part_iff.mpr three, Option.bind_eq_bind,
      Option.bind_some, Option.pure_def, UInt8.ofNat_toNat]

theorem read_version_iff {text : Bytes} {setting : Setting} :
    (ofVersion? (trim text)).map version = some setting ↔ ∃ given, IsVersion text given ∧ setting = .version given := by
  rw [Option.map_eq_some_iff]
  constructor
  · rintro ⟨given, read, rfl⟩
    obtain ⟨major, minor, patch, whole, parts⟩ := ofVersion?_eq_some_iff.mp read
    exact ⟨given, ⟨major, minor, patch, (around_iff (whole ▸ tidy_trim text)).mpr whole, parts⟩, rfl⟩
  · rintro ⟨given, ⟨major, minor, patch, around, one, two, three⟩, rfl⟩
    have visible : ∀ byte ∈ major ++ [46] ++ minor ++ [46] ++ patch, 46 ≤ byte := by
      simp only [List.forall_mem_append, List.forall_mem_singleton]
      have digits {part : Bytes} {number : Nat} (denotes : Denotes part number) : ∀ byte ∈ part, 46 ≤ byte :=
        fun byte member => UInt8.le_of_lt (denotes.visible byte member)
      exact ⟨⟨⟨⟨digits one, UInt8.le_refl 46⟩, digits two⟩, UInt8.le_refl 46⟩, digits three⟩
    have whole := (around_iff (tidy_of_visible visible)).mp around
    exact ⟨given, ofVersion?_eq_some_iff.mpr ⟨major, minor, patch, whole, one, two, three⟩, rfl⟩

/-- Reads a number into a word of 64 bits, and refuses it if something follows or if it is beyond the bound. -/
def wordUpTo? (bound : Nat) (text : Bytes) : Option Nat :=
  match Numeral.readWord? text with
  | some (word, []) => if word.toNat ≤ bound then some word.toNat else none
  | _ => none

theorem wordUpTo?_eq_bounded? {bound : Nat} (small : bound < 2 ^ 64) (text : Bytes) :
    wordUpTo? bound text = bounded? bound text := by
  by_cases row : text ≠ [] ∧ text.all Numeral.isDigit = true
  · rw [wordUpTo?, Numeral.readWord?_of_digits row.1 row.2, bounded?, Numeral.ofDecimal?, if_pos row,
      Option.filter_some]
    by_cases fits : Numeral.value text < 2 ^ 64
    · simp only [if_pos fits, UInt64.toNat_ofNat_of_lt' fits, decide_eq_true_eq]
    · rw [if_neg fits, if_neg (by rw [decide_eq_true_iff]; omega)]
  · have refused : bounded? bound text = none := by rw [bounded?, Numeral.ofDecimal?, if_neg row]; rfl
    rw [refused, wordUpTo?]
    split
    · rename_i word taken
      exact absurd (Numeral.digits_of_readWord? taken) row
    · rfl

end Setting

namespace Settings

open Setting (IsSize IsVersion)

section Pair

variable {key value : Bytes} {read : Bytes → Option Setting} (letters : ∀ byte ∈ key, 61 < byte)
  (single : 10 ∉ value) (unmarked : 35 ∉ value) (known : Setting.reader? key = some read)

include letters single unmarked known

theorem parse_pair : parse (key ++ Bytes.ofText " = " ++ value) =
    match read (Setting.trim value) with
    | some setting => .ok (setting.apply {})
    | none => .error ⟨.badValue, 1, key⟩ := by
  have line := Setting.ofLine_of_pair letters unmarked
  have alone : 10 ∉ key ++ Bytes.ofText " = " ++ value := by
    simp only [List.mem_append, not_or]
    exact ⟨⟨fun member => absurd (letters 10 member) (by decide), by decide⟩, single⟩
  rw [Setting.ofPair, known] at line
  cases taken : read (Setting.trim value) with
  | none =>
    simp only [taken] at line
    exact parse_single_of_refused alone line
  | some setting =>
    simp only [taken] at line
    rw [parse_single_of_accepted alone ⟨_, line⟩, given?, line]
    rfl

theorem parse_pair_iff {α : Type} {means : α → Prop} {give : α → Setting}
    (reads : ∀ setting, read (Setting.trim value) = some setting ↔ ∃ meant, means meant ∧ setting = give meant) :
    (∀ settings, parse (key ++ Bytes.ofText " = " ++ value) = .ok settings ↔
      ∃ meant, means meant ∧ settings = (give meant).apply {}) ∧
    ∀ fault, parse (key ++ Bytes.ofText " = " ++ value) = .error fault ↔
      (¬ ∃ meant, means meant) ∧ fault = ⟨.badValue, 1, key⟩ := by
  have parsed := parse_pair letters single unmarked known
  cases taken : read (Setting.trim value) with
  | none =>
    have meaningless : ¬ ∃ meant, means meant := by
      rintro ⟨meant, real⟩
      have given := (reads (give meant)).mpr ⟨meant, real, rfl⟩
      rw [taken] at given
      cases given
    rw [parsed, taken]
    refine ⟨fun settings => ⟨nofun, ?_⟩, fun fault => ?_⟩
    · rintro ⟨meant, real, -⟩
      exact absurd ⟨meant, real⟩ meaningless
    · simp only [Except.error.injEq, meaningless, not_false_eq_true, true_and, eq_comm]
  | some setting =>
    obtain ⟨meant, real, rfl⟩ := (reads setting).mp taken
    rw [parsed, taken]
    refine ⟨fun settings => ⟨?_, ?_⟩, fun fault => ⟨nofun, fun ⟨meaningless, _⟩ => absurd ⟨meant, real⟩ meaningless⟩⟩
    · intro same
      exact ⟨meant, real, (Except.ok.inj same).symm⟩
    · rintro ⟨other, also, rfl⟩
      -- What is read is one setting, so that whatever else is meant gives the same.
      have again := (reads (give other)).mpr ⟨other, also, rfl⟩
      rw [taken] at again
      rw [Option.some.inj again]

end Pair

/-- What stands after the equals sign of a size or a version is accepted just if it is a number, or three of them, in
decimal digits and within the range of the field, with blanks around it at most. That is what the field then holds. All
else is a bad value of its key. A word of 64 bits would do to read the numbers. -/
theorem parse_number_iff (value : Bytes) (single : 10 ∉ value) (unmarked : 35 ∉ value) :
    let sized := parse (Bytes.ofText "max_packet_size = " ++ value)
    let versioned := parse (Bytes.ofText "version = " ++ value)
    (∀ settings, sized = .ok settings ↔ ∃ size, IsSize value size ∧ settings = { maxPacketSize := size }) ∧
    (∀ fault, sized = .error fault ↔
      (¬ ∃ size, IsSize value size) ∧ fault = ⟨.badValue, 1, Bytes.ofText "max_packet_size"⟩) ∧
    (∀ settings, versioned = .ok settings ↔ ∃ version, IsVersion value version ∧ settings = { version := version }) ∧
    (∀ fault, versioned = .error fault ↔
      (¬ ∃ version, IsVersion value version) ∧ fault = ⟨.badValue, 1, Bytes.ofText "version"⟩) ∧
    ∀ bound < 2 ^ 64, ∀ text, Setting.bounded? bound text = Setting.wordUpTo? bound text := by
  intro sized versioned
  have size := parse_pair_iff (Setting.letters_key (.maxPacketSize 0)) single unmarked rfl
    fun setting => Setting.read_size_iff
  have version := parse_pair_iff (Setting.letters_key (.version {})) single unmarked rfl
    fun setting => Setting.read_version_iff
  exact ⟨size.1, size.2, version.1, version.2, fun bound small text => (Setting.wordUpTo?_eq_bounded? small text).symm⟩

theorem parse_number_iff_of_edges :
    let huge := Bytes.ofText "18446744073709551621"
    let padded := Bytes.ofText "\t000000000000000000000065535 \r"
    let triple := Bytes.ofText " 01.002.255"
    let dotted := Bytes.ofText "1.2.3."
    (10 ∉ padded ∧ 35 ∉ padded ∧
      parse (Bytes.ofText "max_packet_size = " ++ padded) = .ok { maxPacketSize := 65535 }) ∧
    (10 ∉ huge ∧ 35 ∉ huge ∧ ¬ ∃ size, IsSize huge size) ∧
    (10 ∉ triple ∧ 35 ∉ triple ∧
      parse (Bytes.ofText "version = " ++ triple) = .ok { version := ⟨1, 2, 255⟩ }) ∧
    (10 ∉ dotted ∧ 35 ∉ dotted ∧ ¬ ∃ version, IsVersion dotted version) ∧
    5 < 2 ^ 64 ∧ Setting.bounded? 5 huge = Setting.wordUpTo? 5 huge := by
  intro huge padded triple dotted
  have plain : (10 ∉ padded ∧ 35 ∉ padded) ∧ (10 ∉ huge ∧ 35 ∉ huge) ∧ (10 ∉ triple ∧ 35 ∉ triple) ∧
      (10 ∉ dotted ∧ 35 ∉ dotted) := by decide +kernel
  obtain ⟨⟨onePadded, twoPadded⟩, ⟨oneHuge, twoHuge⟩, ⟨oneTriple, twoTriple⟩, oneDotted, twoDotted⟩ := plain
  have size : IsSize padded 65535 := Setting.isSize_iff.mpr (by decide +kernel)
  have version : IsVersion triple ⟨1, 2, 255⟩ := by
    have around : Setting.Around (Bytes.ofText "01" ++ [46] ++ Bytes.ofText "002" ++ [46] ++ Bytes.ofText "255") triple :=
      ⟨[32], [], by decide +kernel, by simp, rfl⟩
    refine ⟨_, _, _, around, ?_, ?_, ?_⟩ <;> exact Numeral.ofDecimal?_eq_some_iff.mp (by decide +kernel)
  have overflow : parse (Bytes.ofText "max_packet_size = " ++ huge) =
      .error ⟨.badValue, 1, Bytes.ofText "max_packet_size"⟩ := by decide +kernel
  have dots : parse (Bytes.ofText "version = " ++ dotted) = .error ⟨.badValue, 1, Bytes.ofText "version"⟩ := by
    decide +kernel
  obtain ⟨-, hugeRefused, -, -, words⟩ := parse_number_iff huge oneHuge twoHuge
  obtain ⟨paddedTaken, -⟩ := parse_number_iff padded onePadded twoPadded
  obtain ⟨-, -, tripleTaken, -⟩ := parse_number_iff triple oneTriple twoTriple
  obtain ⟨-, -, -, dottedRefused, -⟩ := parse_number_iff dotted oneDotted twoDotted
  exact ⟨⟨onePadded, twoPadded, (paddedTaken _).mpr ⟨65535, size, rfl⟩⟩,
    ⟨oneHuge, twoHuge, ((hugeRefused _).mp overflow).1⟩,
    ⟨oneTriple, twoTriple, (tripleTaken _).mpr ⟨⟨1, 2, 255⟩, version, rfl⟩⟩,
    ⟨oneDotted, twoDotted, ((dottedRefused _).mp dots).1⟩, by decide, words 5 (by decide) huge⟩

end Settings

end FramedLink
