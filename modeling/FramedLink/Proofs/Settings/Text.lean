import FramedLink.Settings.Parser

/-! The pieces that a settings text is cut into: lines at the newlines, a key and a value at the first equals sign, and
what is left of each when the blanks around it are gone. -/

namespace FramedLink

namespace Setting

structure Tidy (text : Bytes) : Prop where
  first : ∀ byte ∈ text.head?, isBlank byte = false
  last : ∀ byte ∈ text.getLast?, isBlank byte = false

instance (text : Bytes) : Decidable (Tidy text) :=
  decidable_of_iff (text.head?.all (!isBlank ·) = true ∧ text.getLast?.all (!isBlank ·) = true) (by
    simp only [Option.all_eq_true, Bool.not_eq_true']
    exact ⟨fun ⟨first, last⟩ => ⟨first, last⟩, fun ⟨first, last⟩ => ⟨first, last⟩⟩)

def Blanks (text : Bytes) : Prop :=
  ∀ byte ∈ text, isBlank byte = true

instance (text : Bytes) : Decidable (Blanks text) :=
  decidable_of_iff (text.all isBlank = true) List.all_eq_true

theorem Blanks.append {one two : Bytes} (first : Blanks one) (second : Blanks two) : Blanks (one ++ two) :=
  List.forall_mem_append.mpr ⟨first, second⟩

theorem Blanks.not_mem {text : Bytes} (blank : Blanks text) {byte : UInt8} (visible : isBlank byte = false) :
    byte ∉ text := by
  intro member
  rw [blank byte member] at visible
  cases visible

theorem Blanks.reverse {text : Bytes} (blank : Blanks text) : Blanks text.reverse :=
  fun byte member => blank byte (List.mem_reverse.mp member)

theorem blanks_takeWhile (text : Bytes) : Blanks (text.takeWhile isBlank) :=
  List.all_eq_true.mp List.all_takeWhile

theorem tidy_of_no_blank {text : Bytes} (visible : ∀ byte ∈ text, isBlank byte = false) : Tidy text :=
  ⟨fun byte first => visible byte (List.mem_of_head? first),
    fun byte last => visible byte (List.mem_of_getLast? last)⟩

private theorem dropWhile_of_head {text : Bytes} (first : ∀ byte ∈ text.head?, isBlank byte = false) :
    text.dropWhile isBlank = text := by
  cases text with
  | nil => rfl
  | cons byte text => exact List.dropWhile_cons_of_neg (by rw [first byte rfl]; simp)

theorem trim_blanks {text : Bytes} (blank : Blanks text) : trim text = [] := by
  have nothing : text.dropWhile isBlank = [] := by
    rw [← List.append_nil text, List.dropWhile_append_of_pos blank, List.dropWhile_nil]
  rw [trim, nothing]
  rfl

theorem trim_between {left text right : Bytes} (before : Blanks left) (tidy : Tidy text) (after : Blanks right) :
    trim (left ++ text ++ right) = text := by
  by_cases empty : text = []
  · rw [empty, List.append_nil]
    exact trim_blanks (before.append after)
  · have first : ∀ byte ∈ (text ++ right).head?, isBlank byte = false := by
      rw [List.head?_append, List.head?_eq_some_head empty, Option.some_or, ← List.head?_eq_some_head empty]
      exact tidy.first
    have last : ∀ byte ∈ text.reverse.head?, isBlank byte = false := by
      rw [List.head?_reverse]
      exact tidy.last
    rw [trim, List.append_assoc, List.dropWhile_append_of_pos before, dropWhile_of_head first, List.reverse_append,
      List.dropWhile_append_of_pos after.reverse, dropWhile_of_head last, List.reverse_reverse]

theorem exists_blanks_around (text : Bytes) :
    ∃ left right, Blanks left ∧ Blanks right ∧ text = left ++ trim text ++ right := by
  let rest := text.dropWhile isBlank
  have kept : rest = trim text ++ (rest.reverse.takeWhile isBlank).reverse := by
    rw [trim, ← List.reverse_append, List.takeWhile_append_dropWhile, List.reverse_reverse]
  refine ⟨text.takeWhile isBlank, (rest.reverse.takeWhile isBlank).reverse, blanks_takeWhile text,
    (blanks_takeWhile _).reverse, ?_⟩
  rw [List.append_assoc, ← kept, List.takeWhile_append_dropWhile]

theorem trim_eq_self {text : Bytes} (tidy : Tidy text) : trim text = text := by
  have alone := @trim_between [] text [] (by decide) tidy (by decide)
  rwa [List.nil_append, List.append_nil] at alone

private theorem head?_dropWhile_blank {text : Bytes} {byte : UInt8}
    (first : (text.dropWhile isBlank).head? = some byte) : isBlank byte = false := by
  have stopped := List.head?_dropWhile_not isBlank text
  rwa [first] at stopped

theorem tidy_trim (text : Bytes) : Tidy (trim text) := by
  constructor
  · intro byte first
    rw [trim, List.head?_reverse, Option.mem_def] at first
    -- The first byte that is left was the first one before the blanks at the end went.
    obtain ⟨earlier, split⟩ := List.dropWhile_suffix (l := (text.dropWhile isBlank).reverse) isBlank
    apply @head?_dropWhile_blank text
    rw [← List.getLast?_reverse, ← split, List.getLast?_append, first, Option.some_or]
  · intro byte last
    rw [trim, List.getLast?_reverse, Option.mem_def] at last
    exact head?_dropWhile_blank last

theorem trim_blanks_append {blanks : Bytes} (blank : Blanks blanks) (text : Bytes) :
    trim (blanks ++ text) = trim text := by
  rw [trim, List.dropWhile_append_of_pos blank, trim]

theorem trim_append_blanks (text : Bytes) {blanks : Bytes} (blank : Blanks blanks) :
    trim (text ++ blanks) = trim text := by
  obtain ⟨left, right, before, after, split⟩ := exists_blanks_around text
  have whole : text ++ blanks = left ++ trim text ++ (right ++ blanks) :=
    (congrArg (· ++ blanks) split).trans (List.append_assoc ..)
  rw [whole, trim_between before (tidy_trim text) (after.append blank)]

theorem mem_of_mem_trim {text : Bytes} {byte : UInt8} (member : byte ∈ trim text) : byte ∈ text := by
  have inside := List.dropWhile_subset isBlank (List.mem_reverse.mp member)
  exact List.dropWhile_subset isBlank (List.mem_reverse.mp inside)

theorem mem_content {line : Bytes} {byte : UInt8} (member : byte ∈ content line) : byte ∈ line ∧ byte ≠ 35 := by
  have kept := mem_of_mem_trim member
  have before := List.all_eq_true.mp (List.all_takeWhile (l := line) (p := (· ≠ 35))) byte kept
  exact ⟨List.takeWhile_subset _ kept, of_decide_eq_true before⟩

theorem takeWhile_append_of_unmarked {text : Bytes} (unmarked : 35 ∉ text) (rest : Bytes) :
    (text ++ rest).takeWhile (· ≠ 35) = text ++ rest.takeWhile (· ≠ 35) := by
  apply List.takeWhile_append_of_pos
  intro byte member
  exact decide_eq_true fun same => unmarked (same ▸ member)

theorem takeWhile_unmarked {text : Bytes} (unmarked : 35 ∉ text) : text.takeWhile (· ≠ 35) = text := by
  have kept := takeWhile_append_of_unmarked unmarked []
  rwa [List.append_nil, List.takeWhile_nil, List.append_nil] at kept

theorem halves?_append {key value : Bytes} (first : 61 ∉ key) :
    halves? (key ++ 61 :: value) = some (trim key, trim value) := by
  have before : ∀ byte ∈ key, decide (byte ≠ 61) = true := by
    intro byte member
    exact decide_eq_true fun same => first (same ▸ member)
  have rest : (key ++ 61 :: value).dropWhile (· ≠ 61) = 61 :: value := by
    rw [List.dropWhile_append_of_pos before, List.dropWhile_cons_of_neg (by decide)]
  have taken : (key ++ 61 :: value).takeWhile (· ≠ 61) = key := by
    rw [List.takeWhile_append_of_pos before, List.takeWhile_cons_of_neg (by decide), List.append_nil]
  rw [halves?, rest, taken]

private theorem dropWhile_append_sign (text rest : Bytes) :
    (text ++ 61 :: rest).dropWhile isBlank = text.dropWhile isBlank ++ 61 :: rest := by
  induction text with
  | nil => rfl
  | cons byte text ih =>
    rw [List.cons_append, List.dropWhile_cons, ih, List.dropWhile_cons]
    split <;> rfl

theorem halves?_trim {key : Bytes} (first : 61 ∉ key) (value : Bytes) :
    halves? (trim (key ++ 61 :: value)) = some (trim key, trim value) := by
  let start := key.dropWhile isBlank
  let stop := (value.reverse.dropWhile isBlank).reverse
  -- No blank of one half can be reached past the sign.
  have kept : trim (key ++ 61 :: value) = start ++ 61 :: stop := by
    simp only [trim, dropWhile_append_sign, List.reverse_append, List.reverse_cons, List.append_assoc,
      List.singleton_append, List.reverse_reverse, start, stop]
  have before : trim start = trim key := by
    rw [← trim_blanks_append (blanks_takeWhile key) start, List.takeWhile_append_dropWhile]
  have after : trim stop = trim value := by
    rw [← trim_append_blanks stop (blanks_takeWhile value.reverse).reverse, ← List.reverse_append,
      List.takeWhile_append_dropWhile, List.reverse_reverse]
  rw [kept, halves?_append fun member => first (List.dropWhile_subset isBlank member), before, after]

theorem ofLine_of_sign {key : Bytes} (first : 61 ∉ key) (unmarked : 35 ∉ key) (value : Bytes) :
    ofLine (key ++ 61 :: value) = (ofPair (trim key) (trim (value.takeWhile (· ≠ 35)))).map some := by
  have kept : content (key ++ 61 :: value) = trim (key ++ 61 :: value.takeWhile (· ≠ 35)) := by
    rw [content, takeWhile_append_of_unmarked unmarked, List.takeWhile_cons_of_pos (by decide)]
  have cut := halves?_trim first (value.takeWhile (· ≠ 35))
  rw [← kept] at cut
  unfold ofLine
  split
  · rename_i nothing
    rw [nothing] at cut
    cases cut
  · rw [cut]

theorem ofLine_of_blanks {key blanks : Bytes} (first : 61 ∉ key) (unmarked : 35 ∉ key) (blank : Blanks blanks)
    (value : Bytes) :
    ofLine (key ++ blanks ++ 61 :: value) = (ofPair (trim key) (trim (value.takeWhile (· ≠ 35)))).map some := by
  have unsigned : 61 ∉ key ++ blanks := by
    rw [List.mem_append, not_or]
    exact ⟨first, blank.not_mem rfl⟩
  have unremarked : 35 ∉ key ++ blanks := by
    rw [List.mem_append, not_or]
    exact ⟨unmarked, blank.not_mem rfl⟩
  rw [ofLine_of_sign unsigned unremarked, trim_append_blanks key blank]

theorem mem_of_mem_value {text key value : Bytes} (cut : halves? text = some (key, value)) :
    Tidy value ∧ ∀ byte ∈ value, byte ∈ text := by
  unfold halves? at cut
  split at cut
  · cases cut
  · rename_i sign after rest
    obtain ⟨-, rfl⟩ := Prod.mk.inj (Option.some.inj cut)
    refine ⟨tidy_trim after, fun byte member => ?_⟩
    apply List.dropWhile_subset (· ≠ 61)
    rw [rest]
    exact .tail _ (mem_of_mem_trim member)

end Setting

namespace Settings

theorem lines_cons (byte : UInt8) (text : Bytes) : lines (byte :: text) =
    if byte == 10 then [] :: lines text else (lines text).modifyHead (List.cons byte) :=
  List.splitOn_cons_eq_if_modifyHead ..

theorem newline_not_mem {text line : Bytes} (member : line ∈ lines text) : 10 ∉ line := by
  induction text generalizing line with
  | nil =>
    rw [List.mem_singleton.mp member]
    exact List.not_mem_nil
  | cons byte text ih =>
    rw [lines_cons] at member
    split at member
    · rcases List.mem_cons.mp member with rfl | later
      · exact List.not_mem_nil
      · exact ih later
    · rename_i other
      cases split : lines text with
      | nil => exact absurd split (List.splitOn_ne_nil _ _)
      | cons first rest =>
        rw [split, List.modifyHead_cons] at member
        rcases List.mem_cons.mp member with rfl | later
        · have fresh := ih (by rw [split]; exact .head _)
          simp only [beq_iff_eq] at other
          exact fun inside => (List.mem_cons.mp inside).elim (fun same => other same.symm) fresh
        · exact ih (by rw [split]; exact .tail _ later)

theorem lines_of_single {line : Bytes} (single : 10 ∉ line) : lines line = [line] :=
  List.splitOn_eq_singleton single

def ended (lines : List Bytes) : Bytes :=
  lines.flatMap (· ++ [10])

theorem lines_ended_append {before : List Bytes} (single : ∀ line ∈ before, 10 ∉ line) (rest : Bytes) :
    lines (ended before ++ rest) = before ++ lines rest := by
  induction before with
  | nil => rfl
  | cons line before ih =>
    have later := ih fun other member => single other (.tail _ member)
    have apart : ended (line :: before) ++ rest = line ++ 10 :: (ended before ++ rest) := by simp [ended]
    rw [apart, lines, List.splitOn_append_cons_self_of_not_mem (single line (.head _)), ← lines, later,
      List.cons_append]

theorem count_ended {before : List Bytes} (single : ∀ line ∈ before, 10 ∉ line) :
    (ended before).count 10 = before.length := by
  induction before with
  | nil => rfl
  | cons line before ih =>
    have later := ih fun other member => single other (.tail _ member)
    rw [ended, List.flatMap_cons, ← ended, List.count_append, List.count_append, later,
      List.count_eq_zero_of_not_mem (single line (.head _)), List.count_singleton_self, List.length_cons]
    omega

theorem exists_tail_of_lines_eq {text line : Bytes} {before after : List Bytes}
    (cut : lines text = before ++ line :: after) : ∃ tail, text = ended before ++ line ++ tail := by
  have joined : [10].intercalate (before ++ line :: after) = text := by
    rw [← cut]
    exact List.intercalate_splitOn 10
  rw [← joined]
  clear cut joined
  induction before with
  | nil =>
    cases after with
    | nil => exact ⟨[], by simp [ended]⟩
    | cons next after => exact ⟨10 :: [10].intercalate (next :: after), by simp [ended, List.intercalate_cons_cons]⟩
  | cons first before ih =>
    obtain ⟨tail, rest⟩ := ih
    refine ⟨tail, ?_⟩
    rw [List.cons_append, List.intercalate_cons_of_ne_nil (by simp), rest]
    simp [ended]

end Settings

end FramedLink
