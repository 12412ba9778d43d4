import FramedLink.Dump.Command

/-! The two sources of a dump. Main statement: an argument and the standard input with the same text give the same dump
as long as the text has no blanks but spaces; with any other blank the argument is malformed. -/

namespace FramedLink.Dump

def isControl (byte : UInt8) : Bool :=
  9 ≤ byte && byte ≤ 13

def spaced (byte : UInt8) : UInt8 :=
  if isControl byte then 32 else byte

theorem spaced_of_not_control {byte : UInt8} (plain : isControl byte = false) : spaced byte = byte := by
  rw [spaced, plain]
  rfl

theorem isInputSeparator_eq (byte : UInt8) : isInputSeparator byte = isArgumentSeparator (spaced byte) := by
  cases control : isControl byte with
  | true =>
    rw [spaced, control]
    change (isArgumentSeparator byte || isControl byte) = _
    rw [control, Bool.or_true]
    rfl
  | false =>
    rw [spaced_of_not_control control]
    change (isArgumentSeparator byte || isControl byte) = _
    rw [control, Bool.or_false]

theorem control_bounds {byte : UInt8} (control : isControl byte = true) : 9 ≤ byte.toNat ∧ byte.toNat ≤ 13 := by
  simpa [isControl, UInt8.le_iff_toNat_le] using control

section

variable {text : Bytes} {byte : UInt8} {isSeparator : UInt8 → Bool}

theorem pieces_map (f : UInt8 → UInt8) (kept : ∀ byte, isSeparator (f byte) = false → f byte = byte) :
    pieces isSeparator (text.map f) = pieces (fun byte => isSeparator (f byte)) text := by
  rw [pieces, pieces]
  congr 1
  induction text with
  | nil => rfl
  | cons byte text ih =>
    rw [List.map_cons, List.splitOnP_cons_eq_if_modifyHead, List.splitOnP_cons_eq_if_modifyHead, ih]
    split
    · rfl
    · rename_i plain
      rw [kept byte (by simpa using plain)]

theorem exists_mem_splitOnP (member : byte ∈ text) (plain : isSeparator byte = false) :
    ∃ piece ∈ text.splitOnP isSeparator, byte ∈ piece := by
  induction text with
  | nil => cases member
  | cons first text ih =>
    rw [List.splitOnP_cons_eq_if_modifyHead]
    obtain ⟨piece, pieces, cut⟩ := List.exists_cons_of_ne_nil (List.splitOnP_ne_nil isSeparator text)
    rcases List.mem_cons.mp member with rfl | later
    · rw [if_neg (by simp [plain]), cut, List.modifyHead_cons]
      exact ⟨_, .head _, .head _⟩
    · obtain ⟨found, among, inside⟩ := ih later
      split
      · exact ⟨found, .tail _ among, inside⟩
      · rw [cut, List.modifyHead_cons]
        rw [cut] at among
        rcases List.mem_cons.mp among with rfl | other
        · exact ⟨_, .head _, .tail _ inside⟩
        · exact ⟨found, .tail _ other, inside⟩

theorem exists_mem_pieces (member : byte ∈ text) (plain : isSeparator byte = false) :
    ∃ piece ∈ pieces isSeparator text, byte ∈ piece := by
  obtain ⟨piece, among, inside⟩ := exists_mem_splitOnP member plain
  refine ⟨piece, List.mem_filter.mpr ⟨among, ?_⟩, inside⟩
  simpa using List.ne_nil_of_mem inside

end

section

variable {piece : Bytes} {byte : UInt8}

theorem byte?_of_mem (member : byte ∈ piece) (other : Numeral.hexDigit? byte = none) : byte? piece = none := by
  unfold byte?
  split
  · rw [← List.mem_singleton.mp member, other]
    rfl
  · rename_i one two
    simp only [List.mem_cons, List.not_mem_nil, or_false] at member
    rcases member with rfl | rfl
    · rw [other]
      rfl
    · rw [other]
      cases Numeral.hexDigit? one <;> rfl
  · rfl

theorem readOne_of_mem (member : byte ∈ piece) (other : Numeral.hexDigit? byte = none) :
    (readOne piece).wellFormed = false := by
  rw [readOne, byte?_of_mem member other]

theorem readPairs_of_mem (member : byte ∈ piece) (other : Numeral.hexDigit? byte = none) (before : Array UInt8) :
    (readPairs before piece).wellFormed = false := by
  fun_induction readPairs before piece with
  | case1 before one two digits pair read ih =>
    apply ih
    rcases List.mem_cons.mp member with rfl | later
    · rw [byte?_of_mem (.head _) other] at read
      cases read
    · rcases List.mem_cons.mp later with rfl | last
      · rw [byte?_of_mem (.tail _ (.head _)) other] at read
        cases read
      · exact last
  | case2 | case3 => rfl
  | case4 => cases member

theorem read_of_mem (member : byte ∈ piece) (other : Numeral.hexDigit? byte = none)
    (unmarked : byte ≠ 120 ∧ byte ≠ 88) : (read piece).wellFormed = false := by
  rw [read]
  split
  · rename_i marked
    apply readOne_of_mem _ other
    unfold isMarked at marked
    split at marked
    · rename_i zero mark third digits
      simp only [Bool.and_eq_true, Bool.or_eq_true, beq_iff_eq] at marked
      rcases List.mem_cons.mp member with rfl | later
      · rw [marked.1] at other
        cases other
      · rcases List.mem_cons.mp later with rfl | last
        · exact absurd marked.2 (by simp [unmarked])
        · exact last
    · cases marked
  · split
    · exact readOne_of_mem member other
    · split
      · exact readPairs_of_mem member other _
      · rfl

end

theorem hexDigit?_of_control {byte : UInt8} (control : isControl byte = true) : Numeral.hexDigit? byte = none := by
  have bounds := control_bounds control
  unfold Numeral.hexDigit?
  simp only [UInt8.le_iff_toNat_le]
  rw [if_neg, if_neg, if_neg]
  all_goals
    intro inside
    have low := inside.1
    simp at low
    omega

theorem unmarked_of_control {byte : UInt8} (control : isControl byte = true) : byte ≠ 120 ∧ byte ≠ 88 := by
  constructor <;> rintro rfl <;> cases control

namespace Progress

theorem takePieces_snd_eq_none_iff (progress : Progress) (pieces : List Bytes) :
    (progress.takePieces pieces).2 = none ↔ ∀ piece ∈ pieces, (read piece).wellFormed = true := by
  induction pieces generalizing progress with
  | nil => simp [takePieces]
  | cons piece pieces ih =>
    rw [takePieces, List.forall_mem_cons]
    cases wellFormed : (read piece).wellFormed with
    | true => simp [ih]
    | false => simp

end Progress

theorem exitCode_eq_two_iff (pieces : List Bytes) :
    (ofPieces pieces).exitCode = 2 ↔ ∃ piece ∈ pieces, (read piece).wellFormed = false := by
  have wellFormed := Progress.takePieces_snd_eq_none_iff {} pieces
  unfold ofPieces
  split
  · rename_i progress taken
    rw [taken] at wellFormed
    have all := wellFormed.mp rfl
    constructor
    · intro two
      simp only at two
      split at two <;> cases two
    · rintro ⟨piece, member, malformed⟩
      rw [all piece member] at malformed
      cases malformed
  · rename_i progress piece taken
    rw [taken] at wellFormed
    simp only [reduceCtorEq, false_iff, Classical.not_forall] at wellFormed
    obtain ⟨first, member, malformed⟩ := wellFormed
    exact iff_of_true rfl ⟨first, member, by simpa using malformed⟩

section

variable {text : Bytes}

theorem command_of_argument (unterminated : 0 ∉ text) (input : Bytes) :
    command [text] input = ofPieces (pieces isArgumentSeparator text) := by
  rw [command, if_neg (List.cons_ne_nil _ _), List.map_singleton, Bytes.untilZero_eq_self unterminated, ofArguments,
    List.flatMap_singleton]

theorem command_of_input (text : Bytes) : command [] text = ofPieces (pieces isInputSeparator text) :=
  if_pos rfl

theorem zero_not_mem_spaced (unterminated : 0 ∉ text) : 0 ∉ text.map spaced := by
  intro member
  obtain ⟨byte, inside, zero⟩ := List.mem_map.mp member
  unfold spaced at zero
  split at zero
  · cases zero
  · exact unterminated (zero ▸ inside)

theorem command_spaced (unterminated : 0 ∉ text) (input : Bytes) :
    command [text.map spaced] input = command [] text := by
  have same : isInputSeparator = fun byte => isArgumentSeparator (spaced byte) := funext isInputSeparator_eq
  rw [command_of_argument (zero_not_mem_spaced unterminated), command_of_input, same, pieces_map]
  intro byte plain
  apply spaced_of_not_control
  rw [Bool.eq_false_iff]
  intro control
  rw [spaced, if_pos control] at plain
  cases plain

theorem exitCode_of_control (unterminated : 0 ∉ text) {byte : UInt8} (member : byte ∈ text)
    (control : isControl byte = true) (input : Bytes) : (command [text] input).exitCode = 2 := by
  rw [command_of_argument unterminated, exitCode_eq_two_iff]
  have plain : isArgumentSeparator byte = false := by
    have bounds := control_bounds control
    rw [Bool.eq_false_iff]
    intro separates
    simp only [isArgumentSeparator, Bool.or_eq_true, beq_iff_eq] at separates
    rcases separates with rfl | rfl <;> cases control
  obtain ⟨piece, among, inside⟩ := exists_mem_pieces member plain
  exact ⟨piece, among, read_of_mem inside (hexDigit?_of_control control) (unmarked_of_control control)⟩

end

/-- A text without zero bytes gives the same dump as the one argument and as the standard input if it has no blanks but
spaces, and in any case once spaces stand for its other blanks. An argument with any other blank is malformed, which
the standard input is only if one of its own pieces is. -/
theorem argument_agrees_with_input {text : Bytes} (unterminated : 0 ∉ text) (input : Bytes) :
    ((∀ byte ∈ text, isControl byte = false) → command [text] input = command [] text) ∧
      command [text.map spaced] input = command [] text ∧
      ((∃ byte ∈ text, isControl byte = true) → (command [text] input).exitCode = 2) ∧
      ((command [text] input).exitCode = (command [] text).exitCode ↔
        (∀ byte ∈ text, isControl byte = false) ∨
          ∃ piece ∈ pieces isInputSeparator text, (read piece).wellFormed = false) := by
  have plain (none : ∀ byte ∈ text, isControl byte = false) : command [text] input = command [] text := by
    have same : text.map spaced = text :=
      (List.map_congr_left fun byte member => spaced_of_not_control (none byte member)).trans (List.map_id text)
    rw [← command_spaced unterminated input, same]
  have malformed (some : ∃ byte ∈ text, isControl byte = true) : (command [text] input).exitCode = 2 := by
    obtain ⟨byte, member, control⟩ := some
    exact exitCode_of_control unterminated member control input
  refine ⟨plain, command_spaced unterminated input, malformed, ?_⟩
  by_cases none : ∀ byte ∈ text, isControl byte = false
  · rw [plain none]
    exact iff_of_true rfl (.inl none)
  · have some : ∃ byte ∈ text, isControl byte = true := by simpa using none
    rw [malformed some, ← exitCode_eq_two_iff, ← command_of_input, eq_comm, or_iff_right none]

theorem argument_agrees_with_input_of_commas :
    0 ∉ Bytes.ofText "55,0x55 00" ∧ command [Bytes.ofText "55,0x55 00"] [] = command [] (Bytes.ofText "55,0x55 00") ∧
      command [Bytes.ofText "55,0x55 00"] [] = command [] (Bytes.ofText "55,0x55\t00") ∧
      (command [Bytes.ofText "55,0x55\t00"] []).exitCode = 2 := by
  have spaces : 0 ∉ Bytes.ofText "55,0x55 00" := by decide
  have tabulator : 0 ∉ Bytes.ofText "55,0x55\t00" := by decide
  have agree := (argument_agrees_with_input spaces []).1 (by decide +kernel)
  have replaced := (argument_agrees_with_input tabulator []).2.1
  have refused := (argument_agrees_with_input tabulator []).2.2.1 (by decide +kernel)
  exact ⟨spaces, agree, replaced, refused⟩

/-- Two bytes on lines of their own are well formed in the standard input and malformed as an argument. -/
theorem newline_in_argument :
    0 ∉ Bytes.ofText "55\n55" ∧
      command [] (Bytes.ofText "55\n55") =
        { exitCode := 0, output := Bytes.ofText "@2 truncated frame (2 bytes)\n0 frame(s), 0 error(s)\n" } ∧
      (command [Bytes.ofText "55\n55"] []).exitCode = 2 ∧ (command [Bytes.ofText "55\n55"] []).output = [] := by
  decide +kernel

end FramedLink.Dump
