import Mathlib.Algebra.BigOperators.Group.Finset.Basic
import Mathlib.Data.List.Induction
import Mathlib.Logic.Relation
import FramedLink.Proofs.Settings.Lines

/-! How a settings text is laid out: the blanks in its lines, its remarks, and the lines that hold nothing else. Main
statement: a text that differs in its layout alone gives the same settings or the same refusal, but for the number of
the line that is refused, which grows with the lines that are put in before it. -/

namespace FramedLink

namespace Setting

def Remark (text : Bytes) : Prop :=
  text = [] ∨ text.head? = some 35

/-- A line of blanks and a remark at most. -/
structure Idle (line : Bytes) : Prop where
  single : 10 ∉ line
  bare : ∃ blanks remark, Blanks blanks ∧ Remark remark ∧ line = blanks ++ remark

/-- Blanks put into a line where its content begins or ends or on either side of its first equals sign, whether or not
there are blanks already. -/
inductive Spaced : Bytes → Bytes → Prop
  | start {before blanks rest : Bytes} (leading : Blanks before) (blank : Blanks blanks) :
      Spaced (before ++ rest) (before ++ blanks ++ rest)
  | stop {text blanks after remark : Bytes} (blank : Blanks blanks) (trailing : Blanks after)
      (marked : Remark remark) : Spaced (text ++ after ++ remark) (text ++ blanks ++ after ++ remark)
  | beforeSign {key blanks after value : Bytes} (first : 61 ∉ key) (blank : Blanks blanks) (trailing : Blanks after) :
      Spaced (key ++ after ++ 61 :: value) (key ++ blanks ++ after ++ 61 :: value)
  | afterSign {key before blanks value : Bytes} (first : 61 ∉ key) (leading : Blanks before) (blank : Blanks blanks) :
      Spaced (key ++ 61 :: (before ++ value)) (key ++ 61 :: (before ++ blanks ++ value))

theorem takeWhile_remark {remark : Bytes} (marked : Remark remark) : remark.takeWhile (· ≠ 35) = [] := by
  rcases marked with rfl | marked
  · rfl
  · obtain ⟨rest, rfl⟩ := List.head?_eq_some_iff.mp marked
    exact List.takeWhile_cons_of_neg (by decide)

theorem takeWhile_append_of_mem {text : Bytes} (marked : 35 ∈ text) (rest : Bytes) :
    (text ++ rest).takeWhile (· ≠ 35) = text.takeWhile (· ≠ 35) := by
  induction text with
  | nil => cases marked
  | cons byte text ih =>
    rw [List.cons_append, List.takeWhile_cons, List.takeWhile_cons]
    split
    · rename_i other
      have later : 35 ∈ text := by
        rcases List.mem_cons.mp marked with rfl | later
        · exact absurd other (by decide)
        · exact later
      rw [ih later]
    · rfl

theorem content_append_of_mem {text : Bytes} (marked : 35 ∈ text) (rest : Bytes) :
    content (text ++ rest) = content text := by
  rw [content, takeWhile_append_of_mem marked, content]

theorem content_append_remark (text : Bytes) {remark : Bytes} (marked : Remark remark) :
    content (text ++ remark) = content text := by
  by_cases sign : 35 ∈ text
  · exact content_append_of_mem sign remark
  · rw [content, takeWhile_append_of_unmarked sign, takeWhile_remark marked, List.append_nil, content,
      takeWhile_unmarked sign]

theorem content_append_blanks (text : Bytes) {blanks : Bytes} (blank : Blanks blanks) :
    content (text ++ blanks) = content text := by
  by_cases sign : 35 ∈ text
  · exact content_append_of_mem sign blanks
  · rw [content, takeWhile_append_of_unmarked sign, takeWhile_unmarked (blank.not_mem rfl),
      trim_append_blanks text blank, content, takeWhile_unmarked sign]

theorem content_blanks_append {blanks : Bytes} (blank : Blanks blanks) (text : Bytes) :
    content (blanks ++ text) = content text := by
  rw [content, takeWhile_append_of_unmarked (blank.not_mem rfl), trim_blanks_append blank, content]

theorem ofLine_congr {one two : Bytes} (same : content one = content two) : ofLine one = ofLine two := by
  unfold ofLine
  rw [same]

theorem idle_iff {line : Bytes} : Idle line ↔ 10 ∉ line ∧ content line = [] := by
  constructor
  · rintro ⟨single, blanks, remark, blank, marked, rfl⟩
    refine ⟨single, ?_⟩
    rw [content_append_remark blanks marked, ← List.append_nil blanks, content_blanks_append blank]
    rfl
  · rintro ⟨single, nothing⟩
    refine ⟨single, line.takeWhile (· ≠ 35), line.dropWhile (· ≠ 35), ?_, ?_, List.takeWhile_append_dropWhile.symm⟩
    · obtain ⟨left, right, before, after, split⟩ := exists_blanks_around (line.takeWhile (· ≠ 35))
      rw [← content, nothing, List.append_nil] at split
      rw [split]
      exact before.append after
    · have stopped := List.head?_dropWhile_not (· ≠ (35 : UInt8)) line
      cases split : line.dropWhile (· ≠ 35) with
      | nil => exact .inl rfl
      | cons byte rest =>
        rw [split] at stopped
        have sign : byte = 35 := of_not_not (of_decide_eq_false stopped)
        exact .inr (congrArg some sign)

instance (line : Bytes) : Decidable (Idle line) :=
  decidable_of_iff _ idle_iff.symm

theorem ofLine_eq_none_iff {line : Bytes} : ofLine line = .ok none ↔ content line = [] := by
  constructor
  · intro skipped
    unfold Setting.ofLine at skipped
    split at skipped
    · assumption
    · split at skipped
      · cases skipped
      · rename_i key value cut
        cases pair : ofPair key value with
        | error refusal =>
          rw [pair] at skipped
          cases skipped
        | ok setting =>
          rw [pair] at skipped
          cases skipped
  · intro nothing
    unfold Setting.ofLine
    rw [nothing]

theorem Idle.ofLine {line : Bytes} (idle : Idle line) : ofLine line = .ok none :=
  ofLine_eq_none_iff.mpr (idle_iff.mp idle).2

theorem Spaced.ofLine {line spaced : Bytes} (same : Spaced line spaced) : ofLine spaced = ofLine line := by
  cases same with
  | @start before blanks rest leading blank =>
    apply ofLine_congr
    rw [content_blanks_append (leading.append blank), content_blanks_append leading]
  | @stop text blanks after remark blank trailing marked =>
    apply ofLine_congr
    rw [content_append_remark _ marked, content_append_blanks _ trailing, content_append_blanks _ blank,
      content_append_remark _ marked, content_append_blanks _ trailing]
  | @beforeSign key blanks after value first blank trailing =>
    -- Behind a number sign the equals sign is a part of the remark.
    by_cases sign : 35 ∈ key
    · apply ofLine_congr
      simp only [List.append_assoc, content_append_of_mem sign]
    · rw [List.append_assoc key blanks, ofLine_of_blanks first sign (blank.append trailing),
        ofLine_of_blanks first sign trailing]
  | @afterSign key before blanks value first leading blank =>
    by_cases sign : 35 ∈ key
    · apply ofLine_congr
      rw [content_append_of_mem sign, content_append_of_mem sign]
    · have around := leading.append blank
      rw [ofLine_of_sign first sign, ofLine_of_sign first sign, takeWhile_append_of_unmarked (around.not_mem rfl),
        takeWhile_append_of_unmarked (leading.not_mem rfl), trim_blanks_append around, trim_blanks_append leading]

theorem Spaced.single {line spaced : Bytes} (same : Spaced line spaced) (single : 10 ∉ line) : 10 ∉ spaced := by
  cases same with
  | start leading blank =>
    simp only [List.mem_append, not_or] at single ⊢
    exact ⟨⟨single.1, blank.not_mem rfl⟩, single.2⟩
  | stop blank trailing marked =>
    simp only [List.mem_append, not_or] at single ⊢
    exact ⟨⟨⟨single.1.1, blank.not_mem rfl⟩, single.1.2⟩, single.2⟩
  | beforeSign first blank trailing =>
    simp only [List.mem_append, not_or] at single ⊢
    exact ⟨⟨⟨single.1.1, blank.not_mem rfl⟩, single.1.2⟩, single.2⟩
  | afterSign first leading blank =>
    simp only [List.mem_append, List.mem_cons, not_or] at single ⊢
    exact ⟨single.1, single.2.1, ⟨single.2.2.1, blank.not_mem rfl⟩, single.2.2.2⟩

end Setting

namespace Settings

open Setting (Idle Spaced)

/-- A line in its place: newlines part it from what comes before it and after it. -/
structure LineBetween (before line after : Bytes) : Prop where
  single : 10 ∉ line
  opens : before = [] ∨ before.getLast? = some 10
  closes : after = [] ∨ after.head? = some 10

/-- One change of the layout: a carriage return before a newline, blanks in a line, a remark behind a line, or lines
that set nothing behind the text, which ends with a newline or is given one. -/
inductive Relaid : Bytes → Bytes → Prop
  | returned (before after : Bytes) : Relaid (before ++ 10 :: after) (before ++ 13 :: 10 :: after)
  | spaced {before line spaced after : Bytes} (place : LineBetween before line after) (same : Spaced line spaced) :
      Relaid (before ++ line ++ after) (before ++ spaced ++ after)
  | remarked {before line after : Bytes} (place : LineBetween before line after) {remark : Bytes}
      (single : 10 ∉ remark) : Relaid (before ++ line ++ after) (before ++ (line ++ 35 :: remark) ++ after)
  | continued {text : Bytes} (closed : text = [] ∨ text.getLast? = some 10) {more : List Bytes}
      (idle : ∀ line ∈ more, Idle line) : Relaid text (text ++ ended more)
  | extended (text : Bytes) {more : List Bytes} (idle : ∀ line ∈ more, Idle line) :
      Relaid text (text ++ more.flatMap (10 :: ·))

/-- The lines with other lines put in: at each place those that are given for it. The place of a line is the number of
lines before it, and there is one more place behind the last. -/
def interspersed (inserted : Nat → List Bytes) (place : Nat) : List Bytes → List Bytes
  | [] => inserted place
  | line :: lines => inserted place ++ line :: interspersed inserted (place + 1) lines

theorem lines_append_newline_append (one two : Bytes) : lines (one ++ 10 :: two) = lines one ++ lines two :=
  List.splitOn_append_cons_self one two

theorem exists_lines_before {before : Bytes} (opens : before = [] ∨ before.getLast? = some 10) :
    ∃ earlier, ∀ rest, lines (before ++ rest) = earlier ++ lines rest := by
  rcases opens with rfl | newline
  · exact ⟨[], fun rest => rfl⟩
  · obtain ⟨start, rfl⟩ := List.getLast?_eq_some_iff.mp newline
    refine ⟨lines start, fun rest => ?_⟩
    rw [List.append_assoc, List.singleton_append, lines_append_newline_append]

theorem LineBetween.lines {before line after : Bytes} (place : LineBetween before line after) :
    ∃ earlier later, ∀ other, 10 ∉ other → Settings.lines (before ++ other ++ after) = earlier ++ other :: later := by
  obtain ⟨earlier, split⟩ := exists_lines_before place.opens
  rcases place.closes with rfl | newline
  · refine ⟨earlier, [], fun other single => ?_⟩
    rw [List.append_nil, split, lines_of_single single]
  · obtain ⟨rest, rfl⟩ := List.head?_eq_some_iff.mp newline
    refine ⟨earlier, Settings.lines rest, fun other single => ?_⟩
    rw [List.append_assoc, split, lines_append_newline_append, lines_of_single single, List.singleton_append]

theorem exists_last_line (text : Bytes) : ∃ before line, LineBetween before line [] ∧ text = before ++ line := by
  induction text using List.reverseRecOn with
  | nil => exact ⟨[], [], ⟨List.not_mem_nil, .inl rfl, .inl rfl⟩, rfl⟩
  | append_singleton text byte ih =>
    by_cases newline : byte = 10
    · exact ⟨text ++ [byte], [], ⟨List.not_mem_nil, .inr (by simp [newline]), .inl rfl⟩, (List.append_nil _).symm⟩
    · obtain ⟨before, line, place, rfl⟩ := ih
      refine ⟨before, line ++ [byte], ⟨?_, place.opens, place.closes⟩, List.append_assoc ..⟩
      rw [List.mem_append, not_or, List.mem_singleton]
      exact ⟨place.single, Ne.symm newline⟩

theorem ofLines_congr {one two : List Bytes} (same : one.map Setting.ofLine = two.map Setting.ofLine) (number : Nat)
    (settings : Settings) : ofLines number settings one = ofLines number settings two := by
  induction one generalizing two number settings with
  | nil => rw [List.map_eq_nil_iff.mp same.symm]
  | cons line one ih =>
    obtain ⟨other, two, rfl, first, rest⟩ := List.map_eq_cons_iff.mp same.symm
    rw [ofLines, ofLines, first]
    cases Setting.ofLine line with
    | error refusal => rfl
    | ok given =>
      cases given with
      | none => exact ih rest.symm _ _
      | some setting => exact ih rest.symm _ _

theorem ofLines_idle {idle : List Bytes} (bare : ∀ line ∈ idle, Idle line) (number : Nat) (settings : Settings) :
    ofLines number settings idle = .ok settings := by
  induction idle generalizing number with
  | nil => rfl
  | cons line idle ih =>
    rw [ofLines, (bare line (.head _)).ofLine]
    exact ih (fun other member => bare other (.tail _ member)) (number + 1)

theorem ofLines_append_idle {idle : List Bytes} (bare : ∀ line ∈ idle, Idle line) (number : Nat) (settings : Settings)
    (lines : List Bytes) : ofLines number settings (lines ++ idle) = ofLines number settings lines := by
  rw [ofLines_append]
  cases ofLines number settings lines with
  | error fault => rfl
  | ok arrived => exact ofLines_idle bare _ arrived

theorem LineBetween.parse_congr {before line after other : Bytes} (place : LineBetween before line after)
    (single : 10 ∉ other) (same : Setting.ofLine other = Setting.ofLine line) :
    parse (before ++ other ++ after) = parse (before ++ line ++ after) := by
  obtain ⟨earlier, later, split⟩ := place.lines
  rw [parse, parse, split other single, split line place.single]
  apply ofLines_congr
  simp only [List.map_append, List.map_cons, same]

theorem lines_append_flatMap (text : Bytes) {more : List Bytes} (single : ∀ line ∈ more, 10 ∉ line) :
    lines (text ++ more.flatMap (10 :: ·)) = lines text ++ more := by
  induction more generalizing text with
  | nil => rw [List.flatMap_nil, List.append_nil, List.append_nil]
  | cons line more ih =>
    have later := ih (text ++ 10 :: line) fun other member => single other (.tail _ member)
    rw [lines_append_newline_append, lines_of_single (single line (.head _)), List.append_assoc,
      List.append_assoc] at later
    exact later

theorem Relaid.parse {text relaid : Bytes} (same : Relaid text relaid) : parse relaid = parse text := by
  cases same with
  | returned before after =>
    -- The carriage return is a blank at the end of the line that the newline ends.
    obtain ⟨start, line, last, rfl⟩ := exists_last_line before
    have place : LineBetween start line (10 :: after) := ⟨last.single, last.opens, .inr rfl⟩
    have blank : Setting.Blanks [13] := by decide
    have alike := Setting.ofLine_congr (Setting.content_append_blanks line blank)
    have single : 10 ∉ line ++ [13] := by simp [last.single]
    have moved := place.parse_congr single alike
    simpa using moved
  | spaced place same => exact place.parse_congr (same.single place.single) same.ofLine
  | @remarked before line after place remark single =>
    have marked : Setting.Remark (35 :: remark) := .inr rfl
    have alike := Setting.ofLine_congr (Setting.content_append_remark line marked)
    exact place.parse_congr (by simp [place.single, single]) alike
  | @continued _ closed more idle =>
    -- Behind its last newline the text has an empty line, before which the others come in.
    obtain ⟨earlier, split⟩ := exists_lines_before closed
    have single : ∀ line ∈ more, 10 ∉ line := fun line member => (idle line member).single
    have bare : ∀ line ∈ [[]], Idle line := by decide
    have before := split []
    have after := split (ended more)
    have apart := lines_ended_append single []
    rw [List.append_nil] at before apart
    rw [apart] at after
    have none : lines [] = [[]] := rfl
    rw [Settings.parse, Settings.parse, before, after, none, ofLines_append_idle bare,
      ofLines_append_idle (List.forall_mem_append.mpr ⟨idle, bare⟩)]
  | extended text idle =>
    rw [Settings.parse, Settings.parse, lines_append_flatMap text fun line member => (idle line member).single,
      ofLines_append_idle idle]

theorem parse_of_relaid {text relaid : Bytes} (same : Relation.ReflTransGen Relaid text relaid) :
    parse relaid = parse text := by
  induction same with
  | refl => rfl
  | tail _ step ih => exact step.parse.trans ih

def withReturns (text : Bytes) : Bytes :=
  text.flatMap fun byte => if byte = 10 then [13, 10] else [byte]

theorem relaid_withReturns (before text : Bytes) :
    Relation.ReflTransGen Relaid (before ++ text) (before ++ withReturns text) := by
  induction text generalizing before with
  | nil => exact .refl
  | cons byte text ih =>
    by_cases newline : byte = 10
    · have later := ih (before ++ [13, 10])
      rw [List.append_assoc, List.append_assoc] at later
      rw [newline]
      exact .head (.returned before text) later
    · have later := ih (before ++ [byte])
      rw [List.append_assoc, List.append_assoc] at later
      have kept : withReturns (byte :: text) = byte :: withReturns text := by simp [withReturns, newline]
      rw [kept]
      exact later

theorem ofLines_interspersed {inserted : Nat → List Bytes} (idle : ∀ place, ∀ line ∈ inserted place, Idle line)
    (place : Nat) (settings : Settings) (lines : List Bytes) :
    let before (number : Nat) := ∑ place ∈ Finset.range number, (inserted place).length
    ofLines (place + 1 + before place) settings (interspersed inserted place lines) =
      (ofLines (place + 1) settings lines).mapError fun fault =>
        { fault with line := fault.line + before fault.line } := by
  intro before
  -- Both readers are at the same line, but for the numbers: those differ by what was put in so far.
  induction lines generalizing place settings with
  | nil => exact ofLines_idle (idle place) _ settings
  | cons line lines ih =>
    have one_more : place + 1 + before place + (inserted place).length = place + 1 + before (place + 1) := by
      simp only [before, Finset.sum_range_succ]
      omega
    have next : place + 1 + before (place + 1) + 1 = place + 1 + 1 + before (place + 1) := Nat.add_right_comm ..
    rw [interspersed, ofLines_append, ofLines_idle (idle place), one_more, Except.bind, ofLines, ofLines]
    cases Setting.ofLine line with
    | error refusal => rfl
    | ok given =>
      cases given with
      | none =>
        rw [next]
        exact ih (place + 1) settings
      | some setting =>
        rw [next]
        exact ih (place + 1) (setting.apply settings)

theorem lines_interspersed {inserted : Nat → List Bytes} (idle : ∀ place, ∀ line ∈ inserted place, Idle line)
    (text : Bytes) : lines ([10].intercalate (interspersed inserted 0 (lines text))) =
      interspersed inserted 0 (lines text) := by
  have single (all : List Bytes) (place : Nat) (each : ∀ line ∈ all, 10 ∉ line) :
      ∀ line ∈ interspersed inserted place all, 10 ∉ line := by
    induction all generalizing place with
    | nil => exact fun line member => (idle place line member).single
    | cons first rest ih =>
      have later := ih (place + 1) fun line member => each line (.tail _ member)
      rw [interspersed, List.forall_mem_append, List.forall_mem_cons]
      exact ⟨fun line member => (idle place line member).single, each first (.head _), later⟩
  apply List.splitOn_intercalate 10 (single (lines text) 0 fun line member => newline_not_mem member)
  cases split : lines text with
  | nil => exact absurd split (List.splitOn_ne_nil _ _)
  | cons first rest => simp [interspersed]

/-- The layout of a text makes no difference to what is read from it: neither carriage returns before newlines, nor
blanks around the contents of a line or around its first equals sign, nor remarks, nor lines without anything else.
Only the number of a line that is refused grows, by the lines put in before it. The lines that may be put in are just
those that the reader skips. -/
theorem parse_ignores_layout :
    (∀ text relaid, Relation.ReflTransGen Relaid text relaid → parse relaid = parse text) ∧
    (∀ text, parse (withReturns text) = parse text) ∧
    (∀ (text : Bytes) (inserted : Nat → List Bytes), (∀ place, ∀ line ∈ inserted place, Idle line) →
      parse ([10].intercalate (interspersed inserted 0 (lines text))) =
        (parse text).mapError fun fault =>
          { fault with line := fault.line + ∑ place ∈ Finset.range fault.line, (inserted place).length }) ∧
    ∀ line, Idle line ↔ 10 ∉ line ∧ Setting.ofLine line = .ok none := by
  refine ⟨fun text relaid same => parse_of_relaid same, ?_, ?_, ?_⟩
  · intro text
    exact parse_of_relaid (relaid_withReturns [] text)
  · intro text inserted idle
    rw [parse, lines_interspersed idle]
    exact ofLines_interspersed idle 0 {} (lines text)
  · intro line
    rw [Setting.idle_iff, Setting.ofLine_eq_none_iff]

private def inserted : Nat → List Bytes
  | 0 => [Bytes.ofText "# pump"]
  | 1 => [[], Bytes.ofText " \r"]
  | _ => []

theorem parse_ignores_layout_of_refused :
    let text := Bytes.ofText "name = a\nbaud"
    let relaid := Bytes.ofText "name =\t a\r\nbaud# = 1\n\n\t# end"
    (Relation.ReflTransGen Relaid text relaid ∧ parse relaid = .error ⟨.malformedLine, 2, Bytes.ofText "baud"⟩) ∧
      (∀ place, ∀ line ∈ inserted place, Idle line) ∧
      parse ([10].intercalate (interspersed inserted 0 (lines text))) =
        .error ⟨.malformedLine, 5, Bytes.ofText "baud"⟩ := by
  intro text relaid
  have refused : parse text = .error ⟨.malformedLine, 2, Bytes.ofText "baud"⟩ := rfl
  have first : LineBetween [] (Bytes.ofText "name = a\r") (Bytes.ofText "\nbaud") := ⟨by decide, .inl rfl, .inr rfl⟩
  have second : LineBetween (Bytes.ofText "name =\t a\r\n") (Bytes.ofText "baud") [] :=
    ⟨by decide, .inr rfl, .inl rfl⟩
  have beside : Spaced (Bytes.ofText "name = a\r") (Bytes.ofText "name =\t a\r") :=
    @Spaced.afterSign (Bytes.ofText "name ") [] [9] (Bytes.ofText " a\r") (by decide) (by decide) (by decide)
  have same : Relation.ReflTransGen Relaid text relaid :=
    .head (.returned (Bytes.ofText "name = a") (Bytes.ofText "baud")) <|
      .head (.spaced first beside) <|
      .head (.remarked second (by decide : 10 ∉ Bytes.ofText " = 1")) <|
      .single (@Relaid.extended _ [[], Bytes.ofText "\t# end"] (by decide))
  have idle : ∀ place, ∀ line ∈ inserted place, Idle line := by
    intro place
    match place with
    | 0 => decide
    | 1 => decide
    | _ + 2 => exact fun line member => absurd member List.not_mem_nil
  refine ⟨⟨same, (parse_ignores_layout.1 _ _ same).trans refused⟩, idle, ?_⟩
  rw [parse_ignores_layout.2.2.1 text inserted idle, refused]
  rfl

end Settings

end FramedLink
