import FramedLink.Proofs.Dump.Recount
import FramedLink.Proofs.Dump.Sources

/-! The words that a dump is given its bytes in. Main statement: the arguments of a dump are read by a grammar that says
which words stand for which bytes; with any other word among them the dump ends there, after the lines of the bytes
before it. -/

namespace FramedLink.Dump

/-- The digit stands for the value, in lower or upper case. -/
def IsDigit (digit : UInt8) (value : Nat) : Prop :=
  (Bytes.ofText "0123456789abcdef")[value]? = some digit ∨ (Bytes.ofText "0123456789ABCDEF")[value]? = some digit

inductive Single : Bytes → UInt8 → Prop
  | one {digit : UInt8} {value : Nat} (stands : IsDigit digit value) : Single [digit] (.ofNat value)
  | two {first second : UInt8} {high low : Nat} (upper : IsDigit first high) (lower : IsDigit second low) :
    Single [first, second] (.ofNat (16 * high + low))

inductive Row : Bytes → Bytes → Prop
  | nil : Row [] []
  | pair {first second byte : UInt8} {digits bytes : Bytes} (single : Single [first, second] byte)
    (more : Row digits bytes) : Row (first :: second :: digits) (byte :: bytes)

/-- A well formed piece, and the bytes that it stands for. -/
inductive Denotes : Bytes → Bytes → Prop
  | plain {digits : Bytes} {byte : UInt8} (single : Single digits byte) : Denotes digits [byte]
  | marked {mark : UInt8} {digits : Bytes} {byte : UInt8} (isMark : mark = 120 ∨ mark = 88)
    (single : Single digits byte) : Denotes (48 :: mark :: digits) [byte]
  | row {digits bytes : Bytes} (long : 4 ≤ digits.length) (pairs : Row digits bytes) : Denotes digits bytes

def Stuck (rest : Bytes) : Prop :=
  ∀ first second digits byte, rest = first :: second :: digits → ¬ Single [first, second] byte

/-- The bytes that are taken of a malformed piece: those of the pairs that it begins with, if it is of even length. -/
inductive Leads : Bytes → Bytes → Prop
  | odd {piece : Bytes} (length : piece.length % 2 = 1) : Leads piece []
  | even {front rest bytes : Bytes} (length : (front ++ rest).length % 2 = 0) (pairs : Row front bytes)
    (stuck : Stuck rest) : Leads (front ++ rest) bytes

section

variable {piece front rest bytes digits : Bytes} {byte digit mark : UInt8} {value : Nat}

theorem hexDigit?_eq_some_iff : Numeral.hexDigit? digit = some value ↔ IsDigit digit value := by
  have small : ∀ index : Fin 256, ∀ value : Fin 16, Numeral.hexDigit? (UInt8.ofFin index) = some value.val ↔
      (Bytes.ofText "0123456789abcdef")[value.val]? = some (UInt8.ofFin index) ∨
        (Bytes.ofText "0123456789ABCDEF")[value.val]? = some (UInt8.ofFin index) := by decide +kernel
  have bound : ∀ index : Fin 256, ∀ value ∈ Numeral.hexDigit? (UInt8.ofFin index), value < 16 := by decide +kernel
  by_cases inside : value < 16
  · exact small digit.toFin ⟨value, inside⟩
  · refine iff_of_false (fun read => inside (bound digit.toFin value read)) ?_
    have lower : (Bytes.ofText "0123456789abcdef").length ≤ value := Nat.le_of_not_lt inside
    have upper : (Bytes.ofText "0123456789ABCDEF").length ≤ value := Nat.le_of_not_lt inside
    rw [IsDigit, List.getElem?_eq_none lower, List.getElem?_eq_none upper]
    simp

theorem byte?_eq_some_iff : byte? digits = some byte ↔ Single digits byte := by
  constructor
  · intro read
    unfold byte? at read
    split at read
    · obtain ⟨value, stands, rfl⟩ := Option.map_eq_some_iff.mp read
      exact .one (hexDigit?_eq_some_iff.mp stands)
    · obtain ⟨high, upper, rest⟩ := Option.bind_eq_some_iff.mp read
      obtain ⟨low, lower, made⟩ := Option.bind_eq_some_iff.mp rest
      cases made
      exact .two (hexDigit?_eq_some_iff.mp upper) (hexDigit?_eq_some_iff.mp lower)
    · cases read
  · rintro (stands | ⟨upper, lower⟩)
    · rw [byte?, hexDigit?_eq_some_iff.mpr stands]
      rfl
    · rw [byte?, hexDigit?_eq_some_iff.mpr upper, hexDigit?_eq_some_iff.mpr lower]
      rfl

theorem Single.length (single : Single digits byte) : 0 < digits.length ∧ digits.length ≤ 2 := by
  cases single <;> simp

theorem not_single_of_mark (isMark : mark = 120 ∨ mark = 88) : ¬ Single [48, mark] byte := by
  intro single
  rw [← byte?_eq_some_iff] at single
  rcases isMark with rfl | rfl <;> cases single

theorem isMarked_iff : isMarked piece = true ↔
    ∃ mark digits, (mark = 120 ∨ mark = 88) ∧ digits ≠ [] ∧ piece = 48 :: mark :: digits := by
  unfold isMarked
  split
  · rename_i zero mark third digits
    simp only [Bool.and_eq_true, Bool.or_eq_true, beq_iff_eq]
    constructor
    · rintro ⟨rfl, isMark⟩
      exact ⟨mark, third :: digits, isMark, List.cons_ne_nil _ _, rfl⟩
    · rintro ⟨other, others, isMark, -, same⟩
      cases same
      exact ⟨rfl, isMark⟩
  · rename_i short
    refine iff_of_false Bool.false_ne_true ?_
    rintro ⟨mark, digits, -, some, rfl⟩
    obtain ⟨third, others, rfl⟩ := List.exists_cons_of_ne_nil some
    exact short 48 mark third others rfl

theorem readOne_eq_iff : readOne digits = ⟨bytes, true⟩ ↔ ∃ byte, bytes = [byte] ∧ Single digits byte := by
  simp only [← byte?_eq_some_iff]
  unfold readOne
  split
  · rename_i byte read
    simp [read, eq_comm]
  · rename_i none
    simp [none]

theorem readOne_of_malformed (malformed : (readOne digits).wellFormed = false) : readOne digits = ⟨[], false⟩ := by
  unfold readOne at malformed ⊢
  split at malformed
  · cases malformed
  · rfl

theorem stuck_nil : Stuck [] := by
  simp [Stuck]

theorem stuck_singleton (digit : UInt8) : Stuck [digit] := by
  simp [Stuck]

theorem readPairs_eq (pairs : Row front bytes) (stuck : Stuck rest) (before : Array UInt8) :
    readPairs before (front ++ rest) = ⟨before.toList ++ bytes, rest.isEmpty⟩ := by
  induction pairs generalizing before with
  | nil =>
    rw [List.nil_append, List.append_nil]
    unfold readPairs
    split
    · rename_i first second digits
      split
      · rename_i byte read
        exact absurd (byte?_eq_some_iff.mp read) (stuck first second digits byte rfl)
      · rfl
    · rfl
    · rfl
  | @pair first second byte digits bytes single more ih =>
    rw [List.cons_append, List.cons_append, readPairs, byte?_eq_some_iff.mpr single]
    simp only [ih, Array.toList_push, List.append_assoc, List.singleton_append]

theorem exists_row (piece : Bytes) : ∃ front rest bytes, piece = front ++ rest ∧ Row front bytes ∧ Stuck rest := by
  fun_induction readPairs #[] piece with
  | case1 before first second digits byte read ih =>
    obtain ⟨front, rest, bytes, rfl, pairs, stuck⟩ := ih
    exact ⟨first :: second :: front, rest, byte :: bytes, rfl, .pair (byte?_eq_some_iff.mp read) pairs, stuck⟩
  | case2 before first second digits none =>
    refine ⟨[], first :: second :: digits, [], rfl, .nil, ?_⟩
    intro one two others byte same single
    cases same
    rw [← byte?_eq_some_iff, none] at single
    cases single
  | case3 before digit => exact ⟨[], [digit], [], rfl, .nil, stuck_singleton digit⟩
  | case4 before => exact ⟨[], [], [], rfl, .nil, stuck_nil⟩

theorem Row.length (pairs : Row digits bytes) : digits.length = 2 * bytes.length := by
  induction pairs with
  | nil => rfl
  | pair _ _ ih =>
    simp only [List.length_cons, ih]
    omega

theorem Row.not_marked (pairs : Row digits bytes) : isMarked digits = false := by
  rw [Bool.eq_false_iff, Ne, isMarked_iff]
  rintro ⟨mark, others, isMark, -, rfl⟩
  obtain _ | ⟨single, -⟩ := pairs
  exact not_single_of_mark isMark single

theorem denotes_of_readPairs (long : ¬ piece.length ≤ 2) (even : piece.length % 2 = 0)
    (read : readPairs #[] piece = ⟨bytes, true⟩) : Denotes piece bytes := by
  obtain ⟨front, rest, found, rfl, pairs, stuck⟩ := exists_row piece
  rw [readPairs_eq pairs stuck, Reading.mk.injEq, List.isEmpty_iff] at read
  obtain ⟨rfl, rfl⟩ := read
  rw [List.append_nil] at long even ⊢
  exact .row (by omega) pairs

/-- The words that are read whole are those of the grammar, and what is read is what they stand for. -/
theorem read_eq_iff : read piece = ⟨bytes, true⟩ ↔ Denotes piece bytes := by
  constructor
  · intro whole
    unfold read at whole
    split at whole
    · rename_i marked
      obtain ⟨mark, digits, isMark, -, rfl⟩ := isMarked_iff.mp marked
      obtain ⟨byte, rfl, single⟩ := readOne_eq_iff.mp whole
      exact .marked isMark single
    · split at whole
      · obtain ⟨byte, rfl, single⟩ := readOne_eq_iff.mp whole
        exact .plain single
      · rename_i long
        split at whole
        · rename_i even
          exact denotes_of_readPairs long even whole
        · cases whole
  · intro denotes
    cases denotes with
    | plain single =>
      have unmarked : isMarked piece = false := by cases single <;> rfl
      rw [read, unmarked, if_neg Bool.false_ne_true, if_pos single.length.2]
      exact readOne_eq_iff.mpr ⟨_, rfl, single⟩
    | @marked mark digits byte isMark single =>
      have some : digits ≠ [] := List.ne_nil_of_length_pos single.length.1
      rw [read, if_pos (isMarked_iff.mpr ⟨mark, digits, isMark, some, rfl⟩)]
      exact readOne_eq_iff.mpr ⟨_, rfl, single⟩
    | row long pairs =>
      have whole := readPairs_eq pairs stuck_nil #[]
      have even := pairs.length
      rw [List.append_nil] at whole
      rw [read, pairs.not_marked, if_neg Bool.false_ne_true, if_neg (by omega), if_pos (by omega)]
      exact whole

theorem read_of_malformed (malformed : (read piece).wellFormed = false) :
    ((read piece).bytes = [] ∧ (isMarked piece = true ∨ piece.length ≤ 2 ∧ (readOne piece).wellFormed = false ∨
      piece.length % 2 = 1)) ∨ (read piece = readPairs #[] piece ∧ piece.length % 2 = 0) := by
  unfold read at malformed ⊢
  split
  · rename_i marked
    rw [if_pos marked] at malformed
    exact .inl ⟨by rw [readOne_of_malformed malformed], .inl marked⟩
  · rename_i unmarked
    rw [if_neg unmarked] at malformed
    split
    · rename_i short
      rw [if_pos short] at malformed
      exact .inl ⟨by rw [readOne_of_malformed malformed], .inr (.inl ⟨short, malformed⟩)⟩
    · split
      · rename_i even
        exact .inr ⟨rfl, even⟩
      · exact .inl ⟨rfl, .inr (.inr (by omega))⟩

theorem Leads.bytes_eq (leads : Leads piece bytes) (malformed : (read piece).wellFormed = false) :
    (read piece).bytes = bytes := by
  rcases read_of_malformed malformed with ⟨none, why⟩ | ⟨rowed, even⟩
  · rw [none]
    cases leads with
    | odd => rfl
    | @even front rest _ length pairs stuck =>
      -- A piece that is not read as a row does not begin with a pair.
      cases pairs with
      | nil => rfl
      | @pair first second byte front bytes single more =>
        exfalso
        rcases why with marked | ⟨short, refused⟩ | odd
        · obtain ⟨mark, digits, isMark, -, same⟩ := isMarked_iff.mp marked
          cases same
          exact not_single_of_mark isMark single
        · obtain ⟨rfl, rfl⟩ : front = [] ∧ rest = [] := by simpa using short
          rw [List.append_nil, readOne_eq_iff.mpr ⟨byte, rfl, single⟩] at refused
          cases refused
        · omega
  · cases leads with
    | odd odd => omega
    | even length pairs stuck =>
      rw [rowed, readPairs_eq pairs stuck]
      rfl

theorem exists_leads (piece : Bytes) : ∃ bytes, Leads piece bytes := by
  by_cases odd : piece.length % 2 = 1
  · exact ⟨[], .odd odd⟩
  · obtain ⟨front, rest, bytes, rfl, pairs, stuck⟩ := exists_row piece
    exact ⟨bytes, .even (by omega) pairs stuck⟩

theorem Denotes.wellFormed (denotes : Denotes piece bytes) : (read piece).wellFormed = true := by
  rw [read_eq_iff.mpr denotes]

theorem wellFormed_iff : (read piece).wellFormed = true ↔ ∃ bytes, Denotes piece bytes := by
  constructor
  · intro wellFormed
    exact ⟨(read piece).bytes, read_eq_iff.mp (by rw [← wellFormed])⟩
  · rintro ⟨bytes, denotes⟩
    exact denotes.wellFormed

end

/-- A text cut into its longest runs without a separator. -/
inductive Cut (isSeparator : UInt8 → Bool) : Bytes → List Bytes → Prop
  | blank {blanks : Bytes} (separate : ∀ byte ∈ blanks, isSeparator byte = true) : Cut isSeparator blanks []
  | piece {blanks piece rest : Bytes} {more : List Bytes} (separate : ∀ byte ∈ blanks, isSeparator byte = true)
    (some : piece ≠ []) (plain : ∀ byte ∈ piece, isSeparator byte = false)
    (ends : ∀ byte ∈ rest.head?, isSeparator byte = true) (cut : Cut isSeparator rest more) :
    Cut isSeparator (blanks ++ piece ++ rest) (piece :: more)

section

variable {isSeparator : UInt8 → Bool} {text blanks piece rest : Bytes} {byte : UInt8}

theorem pieces_append_cons (separates : isSeparator byte = true) (text rest : Bytes) :
    pieces isSeparator (text ++ byte :: rest) = pieces isSeparator text ++ pieces isSeparator rest := by
  rw [pieces, List.splitOnP_append_cons _ _ separates, List.filter_append]
  rfl

theorem pieces_of_plain (plain : ∀ byte ∈ piece, isSeparator byte = false) :
    pieces isSeparator piece = if piece = [] then [] else [piece] := by
  rw [pieces, List.splitOnP_eq_singleton plain]
  by_cases none : piece = [] <;> simp [none]

theorem pieces_blanks_append (separate : ∀ byte ∈ blanks, isSeparator byte = true) (text : Bytes) :
    pieces isSeparator (blanks ++ text) = pieces isSeparator text := by
  induction blanks with
  | nil => rfl
  | cons byte blanks ih =>
    have separates := separate byte (.head _)
    have first := pieces_append_cons separates [] (blanks ++ text)
    rw [List.nil_append] at first
    rw [List.cons_append, first, ih fun other member => separate other (.tail _ member)]
    rfl

theorem Cut.pieces_eq {cut : List Bytes} (made : Cut isSeparator text cut) : pieces isSeparator text = cut := by
  induction made with
  | @blank blanks separate =>
    rw [← List.append_nil blanks, pieces_blanks_append separate]
    rfl
  | @piece blanks piece rest more separate some plain ends _ ih =>
    have alone := pieces_of_plain plain
    rw [if_neg some] at alone
    rw [List.append_assoc, pieces_blanks_append separate]
    cases rest with
    | nil =>
      rw [← ih, List.append_nil, alone]
      rfl
    | cons byte rest =>
      have separates := ends byte rfl
      have after := pieces_append_cons separates [] rest
      rw [List.nil_append] at after
      rw [pieces_append_cons separates, alone, ← ih, after]
      rfl

theorem head?_dropWhile_eq_false {p : UInt8 → Bool} (member : byte ∈ (text.dropWhile p).head?) : p byte = false := by
  have first := List.head?_dropWhile_not p text
  rw [Option.mem_def.mp member] at first
  exact first

theorem exists_cut (isSeparator : UInt8 → Bool) (text : Bytes) : ∃ cut, Cut isSeparator text cut := by
  let blanks := text.takeWhile isSeparator
  have separate : ∀ byte ∈ blanks, isSeparator byte = true := List.all_eq_true.mp List.all_takeWhile
  have whole : text = blanks ++ text.dropWhile isSeparator := List.takeWhile_append_dropWhile.symm
  cases remaining : text.dropWhile isSeparator with
  | nil =>
    rw [whole, remaining, List.append_nil]
    exact ⟨[], .blank separate⟩
  | cons first others =>
    have begins : isSeparator first = false :=
      head?_dropWhile_eq_false (by rw [remaining, List.head?_cons, Option.mem_some])
    let piece := first :: others.takeWhile fun byte => !isSeparator byte
    let rest := others.dropWhile fun byte => !isSeparator byte
    have split : text = blanks ++ piece ++ rest := by
      rw [whole, remaining, List.append_assoc, List.cons_append, List.takeWhile_append_dropWhile]
    have fewer : rest.length < text.length := by
      rw [split]
      simp only [piece, List.length_append, List.length_cons]
      omega
    obtain ⟨more, cut⟩ := exists_cut isSeparator rest
    rw [split]
    refine ⟨piece :: more, .piece separate (List.cons_ne_nil _ _) ?_ ?_ cut⟩
    · intro byte member
      rcases List.mem_cons.mp member with rfl | later
      · exact begins
      · simpa using List.all_eq_true.mp List.all_takeWhile byte later
    · intro byte member
      simpa using head?_dropWhile_eq_false member
termination_by text.length

theorem cut_iff {cut : List Bytes} : Cut isSeparator text cut ↔ pieces isSeparator text = cut := by
  constructor
  · exact Cut.pieces_eq
  · rintro rfl
    obtain ⟨cut, made⟩ := exists_cut isSeparator text
    rw [made.pieces_eq]
    exact made

end

def isMalformed (piece : Bytes) : Bool :=
  !(read piece).wellFormed

/-- The bytes that pieces give, up to the fault of the first malformed one. -/
def fed : List Bytes → Bytes
  | [] => []
  | piece :: pieces => (read piece).bytes ++ if isMalformed piece then [] else fed pieces

theorem Progress.takePieces_eq (progress : Progress) (pieces : List Bytes) :
    progress.takePieces pieces = (progress.takeAll (fed pieces), pieces.find? isMalformed) := by
  induction pieces generalizing progress with
  | nil => rfl
  | cons piece pieces ih =>
    rw [takePieces, fed, isMalformed]
    cases wellFormed : (read piece).wellFormed with
    | true =>
      rw [List.find?_cons_of_neg (by simp [isMalformed, wellFormed])]
      simp only [if_true, ih, Bool.not_true, Bool.false_eq_true, if_false]
      rw [takeAll, takeAll, takeAll, List.foldl_append]
    | false =>
      rw [List.find?_cons_of_pos (by simp [isMalformed, wellFormed])]
      simp

def report (stream : Bytes) : CommandResult :=
  let progress := Progress.takeAll {} stream
  { exitCode := if progress.faults = 0 then 0 else 1
    output := textOf (progress.lines.toList ++ progress.closing) }

def abandonment (culprit stream : Bytes) : CommandResult :=
  { exitCode := 2
    output := textOf (Progress.takeAll {} stream).lines.toList
    errors := Bytes.ofText "frame_dump: not a hex byte: " ++ culprit ++ Bytes.ofText "\n" }

/-- A dump has reported on the whole stream. -/
structure Reported (stream : Bytes) (done : CommandResult) : Prop where
  output : ∃ lines, Recounts stream lines ∧ Prints (lines ++ closing stream) done.output
  exitCode : done.exitCode =
    if (Receiver.takeAll ({} : Receiver .largest) stream).2.countP Finding.isFault = 0 then 0 else 1
  errors : done.errors = []

/-- A dump has ended at the culprit, with the lines of the stream before it and no others. -/
structure Abandoned (culprit stream : Bytes) (done : CommandResult) : Prop where
  output : ∃ lines, Recounts stream lines ∧ Prints lines done.output
  exitCode : done.exitCode = 2
  errors : done.errors = Bytes.ofText "frame_dump: not a hex byte: " ++ culprit ++ Bytes.ofText "\n"

theorem prints_report (stream : Bytes) :
    Prints ((Progress.takeAll {} stream).lines.toList ++ closing stream) (report stream).output := by
  have regular := List.forall_mem_append.mpr ⟨(recounts_takeAll stream).regular, regular_closing stream⟩
  rw [← closing_takeAll] at regular ⊢
  exact prints_textOf regular

theorem reported_report (stream : Bytes) : Reported stream (report stream) := by
  have recounts := recounts_takeAll stream
  refine ⟨⟨_, recounts, prints_report stream⟩, ?_, rfl⟩
  rw [report, Progress.faults_eq, recounts.counts.2]

theorem abandoned_abandonment (culprit stream : Bytes) : Abandoned culprit stream (abandonment culprit stream) := by
  have recounts := recounts_takeAll stream
  exact ⟨⟨_, recounts, prints_textOf recounts.regular⟩, rfl, rfl⟩

theorem ofPieces_eq (pieces : List Bytes) :
    ofPieces pieces =
      match pieces.find? isMalformed with
      | none => report (fed pieces)
      | some culprit => abandonment culprit (fed pieces) := by
  rw [ofPieces, Progress.takePieces_eq]
  cases pieces.find? isMalformed <;> rfl

section

variable {pieces bytes before after : List Bytes} {culprit part : Bytes}

theorem fed_append (denote : List.Forall₂ Denotes before bytes) (after : List Bytes) :
    fed (before ++ after) = bytes.flatten ++ fed after ∧
      (before ++ after).find? isMalformed = after.find? isMalformed := by
  induction denote with
  | nil => exact ⟨rfl, rfl⟩
  | @cons piece some pieces bytes denotes _ ih =>
    have sound : isMalformed piece = false := by rw [isMalformed, denotes.wellFormed, Bool.not_true]
    rw [List.cons_append, fed, sound, read_eq_iff.mpr denotes, ih.1, List.flatten_cons, List.append_assoc,
      List.find?_cons_of_neg (by simp [sound]), ih.2]
    exact ⟨rfl, rfl⟩

theorem ofPieces_of_denotes (denote : List.Forall₂ Denotes pieces bytes) : ofPieces pieces = report bytes.flatten := by
  obtain ⟨taken, found⟩ := fed_append denote []
  rw [List.append_nil] at taken found
  rw [ofPieces_eq, taken, found, fed, List.append_nil]
  rfl

theorem ofPieces_of_malformed (denote : List.Forall₂ Denotes before bytes) (stray : ∀ any, ¬ Denotes culprit any)
    (leads : Leads culprit part) (after : List Bytes) :
    ofPieces (before ++ culprit :: after) = abandonment culprit (bytes.flatten ++ part) := by
  obtain ⟨taken, found⟩ := fed_append denote (culprit :: after)
  have malformed : (read culprit).wellFormed = false := by
    rw [Bool.eq_false_iff, Ne, wellFormed_iff]
    rintro ⟨any, denotes⟩
    exact stray any denotes
  have bad : isMalformed culprit = true := by rw [isMalformed, malformed, Bool.not_false]
  rw [ofPieces_eq, taken, found, List.find?_cons_of_pos bad, fed, if_pos bad, List.append_nil,
    leads.bytes_eq malformed]

theorem denotes_of_wellFormed (wellFormed : ∀ piece ∈ pieces, (read piece).wellFormed = true) :
    List.Forall₂ Denotes pieces (pieces.map fun piece => (read piece).bytes) := by
  rw [List.forall₂_map_right_iff, List.forall₂_same]
  intro piece member
  rw [← read_eq_iff, ← wellFormed piece member]

theorem denotes_or_malformed (pieces : List Bytes) :
    (∃ bytes, List.Forall₂ Denotes pieces bytes) ∨ ∃ before culprit after bytes, pieces = before ++ culprit :: after ∧
      List.Forall₂ Denotes before bytes ∧ ∀ any, ¬ Denotes culprit any := by
  induction pieces with
  | nil => exact .inl ⟨[], .nil⟩
  | cons piece pieces ih =>
    by_cases denoted : ∃ bytes, Denotes piece bytes
    · obtain ⟨some, denotes⟩ := denoted
      rcases ih with ⟨bytes, all⟩ | ⟨before, culprit, after, bytes, rfl, all, stray⟩
      · exact .inl ⟨some :: bytes, .cons denotes all⟩
      · exact .inr ⟨piece :: before, culprit, after, some :: bytes, rfl, .cons denotes all, stray⟩
    · exact .inr ⟨[], piece, pieces, [], rfl, .nil, fun any denotes => denoted ⟨any, denotes⟩⟩

end

/-- All pieces of the texts stand for bytes, which make up the stream. -/
def Denoted (texts : List Bytes) (stream : Bytes) : Prop :=
  ∃ cuts bytes, List.Forall₂ (Cut isArgumentSeparator) texts cuts ∧ List.Forall₂ Denotes cuts.flatten bytes ∧
    bytes.flatten = stream

/-- The first piece of the texts that stands for nothing is the culprit, before which they give the stream. -/
def Spoiled (texts : List Bytes) (culprit stream : Bytes) : Prop :=
  ∃ cuts before after bytes part, List.Forall₂ (Cut isArgumentSeparator) texts cuts ∧
    cuts.flatten = before ++ culprit :: after ∧ List.Forall₂ Denotes before bytes ∧ (∀ any, ¬ Denotes culprit any) ∧
    Leads culprit part ∧ bytes.flatten ++ part = stream

theorem flatMap_pieces_eq {texts : List Bytes} {cuts : List (List Bytes)}
    (made : List.Forall₂ (Cut isArgumentSeparator) texts cuts) :
    texts.flatMap (pieces isArgumentSeparator) = cuts.flatten := by
  induction made with
  | nil => rfl
  | cons cut _ ih => rw [List.flatMap_cons, List.flatten_cons, cut.pieces_eq, ih]

theorem cuts_map_pieces (texts : List Bytes) :
    List.Forall₂ (Cut isArgumentSeparator) texts (texts.map (pieces isArgumentSeparator)) := by
  rw [List.forall₂_map_right_iff, List.forall₂_same]
  intro text _
  exact cut_iff.mpr rfl

theorem denoted_of_wellFormed {texts : List Bytes} {stream : Bytes}
    (wellFormed : ∀ piece ∈ (texts.map (pieces isArgumentSeparator)).flatten, (read piece).wellFormed = true)
    (reads : ((texts.map (pieces isArgumentSeparator)).flatten.map fun piece => (read piece).bytes).flatten = stream) :
    Denoted texts stream :=
  ⟨_, _, cuts_map_pieces texts, denotes_of_wellFormed wellFormed, reads⟩

theorem denoted_or_spoiled (texts : List Bytes) :
    (∃ stream, Denoted texts stream) ∨ ∃ culprit stream, Spoiled texts culprit stream := by
  have made := cuts_map_pieces texts
  rcases denotes_or_malformed (texts.map (pieces isArgumentSeparator)).flatten with
    ⟨bytes, denote⟩ | ⟨before, culprit, after, bytes, split, denote, stray⟩
  · exact .inl ⟨_, _, bytes, made, denote, rfl⟩
  · obtain ⟨part, leads⟩ := exists_leads culprit
    exact .inr ⟨culprit, _, _, before, after, bytes, part, made, split, denote, stray, leads, rfl⟩

section

variable {arguments : List Bytes} {culprit stream : Bytes}

theorem command_of_denoted (given : arguments ≠ []) (input : Bytes)
    (denoted : Denoted (arguments.map Bytes.untilZero) stream) : command arguments input = report stream := by
  obtain ⟨cuts, bytes, made, denote, rfl⟩ := denoted
  rw [command, if_neg given, ofArguments, flatMap_pieces_eq made, ofPieces_of_denotes denote]

theorem command_of_spoiled (given : arguments ≠ []) (input : Bytes)
    (spoiled : Spoiled (arguments.map Bytes.untilZero) culprit stream) :
    command arguments input = abandonment culprit stream := by
  obtain ⟨cuts, before, after, bytes, part, made, split, denote, stray, leads, rfl⟩ := spoiled
  rw [command, if_neg given, ofArguments, flatMap_pieces_eq made, split, ofPieces_of_malformed denote stray leads]

/-- The bytes that a dump is given in words that are all well formed: by its arguments, or by its input if there are
none. -/
inductive Supplied : List Bytes → Bytes → Bytes → Prop
  | arguments {arguments : List Bytes} {input stream : Bytes} (given : arguments ≠ [])
    (denoted : Denoted (arguments.map Bytes.untilZero) stream) : Supplied arguments input stream
  | input {input : Bytes} {pieces bytes : List Bytes} (cut : Cut isInputSeparator input pieces)
    (denote : List.Forall₂ Denotes pieces bytes) : Supplied [] input bytes.flatten

theorem command_of_supplied {input : Bytes} (supplied : Supplied arguments input stream) :
    command arguments input = report stream := by
  cases supplied with
  | arguments given denoted => exact command_of_denoted given input denoted
  | input cut denote => rw [command_of_input, cut.pieces_eq, ofPieces_of_denotes denote]

/-- A dump of arguments that stand for a stream reports on the stream, and the report is the same for all arguments that
stand for it, however they are cut and written. Any other arguments have a culprit, and the dump ends there with the
lines of the stream before it. -/
theorem command_reads_arguments (given : arguments ≠ []) (input : Bytes) :
    let texts := arguments.map Bytes.untilZero
    (∀ stream, Denoted texts stream → Reported stream (command arguments input) ∧
        ∀ others, others ≠ [] → Denoted (others.map Bytes.untilZero) stream →
          command others input = command arguments input) ∧
      (∀ culprit stream, Spoiled texts culprit stream → Abandoned culprit stream (command arguments input)) ∧
      ((∃ stream, Denoted texts stream) ∨ ∃ culprit stream, Spoiled texts culprit stream) := by
  intro texts
  refine ⟨?_, ?_, denoted_or_spoiled texts⟩
  · intro stream denoted
    have reported := command_of_denoted given input denoted
    rw [reported]
    refine ⟨reported_report stream, ?_⟩
    intro others some same
    exact command_of_denoted some input same
  · intro culprit stream spoiled
    rw [command_of_spoiled given input spoiled]
    exact abandoned_abandonment culprit stream

end

private def grouped : List Bytes :=
  [Bytes.ofText "0x7,  55", Bytes.ofText "", Bytes.ofText "0a5555"]

private def listed : List Bytes :=
  [Bytes.ofText " 07 55 0A,0X55 55"]

private def broken : List Bytes :=
  [Bytes.ofText "7,55zz00 1"]

theorem command_reads_arguments_of_grouped :
    grouped ≠ [] ∧ Reported [7, 0x55, 10, 0x55, 0x55] (command grouped []) ∧ command listed [] = command grouped [] ∧
      (command grouped []).output =
        Bytes.ofText "@0 resync\n@2 resync\n@5 truncated frame (2 bytes)\n0 frame(s), 0 error(s)\n" ∧
      Abandoned (Bytes.ofText "55zz00") [7, 0x55] (command broken []) ∧
      (command broken []).output = Bytes.ofText "@0 resync\n" := by
  have some : grouped ≠ [] := by simp [grouped]
  have reads := command_reads_arguments some []
  have one : Denoted (grouped.map Bytes.untilZero) [7, 0x55, 10, 0x55, 0x55] :=
    denoted_of_wellFormed (by decide +kernel) (by decide +kernel)
  have other : Denoted (listed.map Bytes.untilZero) [7, 0x55, 10, 0x55, 0x55] :=
    denoted_of_wellFormed (by decide +kernel) (by decide +kernel)
  have spoiled : Spoiled (broken.map Bytes.untilZero) (Bytes.ofText "55zz00") [7, 0x55] := by
    have first : Row (Bytes.ofText "55") [0x55] := .pair (byte?_eq_some_iff.mp rfl) .nil
    have stuck : Stuck (Bytes.ofText "zz00") := by
      intro first second digits byte same single
      cases same
      exact nomatch byte?_eq_some_iff.mpr single
    refine ⟨_, [Bytes.ofText "7"], [Bytes.ofText "1"], [[7]], [0x55], cuts_map_pieces _, by decide +kernel,
      .cons (read_eq_iff.mp rfl) .nil, ?_, .even rfl first stuck, rfl⟩
    intro any denotes
    exact nomatch denotes.wellFormed
  obtain ⟨reported, alike⟩ := reads.1 _ one
  have abandoned := (command_reads_arguments (by simp [broken] : broken ≠ []) []).2.1 _ _ spoiled
  exact ⟨some, reported, alike listed (by simp [listed]) other, by decide +kernel, abandoned, by decide +kernel⟩

end FramedLink.Dump
