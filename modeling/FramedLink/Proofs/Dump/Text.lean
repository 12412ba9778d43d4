import FramedLink.Dump.Command
import FramedLink.Proofs.Numerals
import Mathlib.Data.List.Forall2

/-! How the lines of a dump read. Main statement: the text of a dump is of whole lines, each of which names its kind,
its place and all else that it tells in numerals. -/

namespace FramedLink.Dump

open Numeral (IsNumeral IsHexRow)

namespace Line

inductive Calls : Status → Bytes → Prop
  | badChecksum : Calls .badChecksum (Bytes.ofText "checksum_error")
  | badLength : Calls .badLength (Bytes.ofText "invalid_data_length")

inductive Displays : Bytes → Bytes → Prop
  | nothing : Displays [] []
  | data {payload digits : Bytes} (something : payload ≠ []) (row : IsHexRow payload digits) :
    Displays payload (Bytes.ofText " data=" ++ digits)

/-- How a line reads, without its end. -/
inductive Reads : Line → Bytes → Prop
  | gap {place : Nat} {start : Bytes} (starts : IsNumeral 10 place start) :
    Reads (.gap place) (Bytes.ofText "@" ++ start ++ Bytes.ofText " resync")
  | fault {place : Nat} {status : Status} {request : UInt16} {start name code : Bytes}
    (starts : IsNumeral 10 place start) (calls : Calls status name) (asks : IsNumeral 10 request.toNat code) :
    Reads (.fault place status request)
      (Bytes.ofText "@" ++ start ++ Bytes.ofText " error " ++ name ++ Bytes.ofText " request=" ++ code)
  | frame {place : Nat} {checksum : UInt16} {frame : Frame} {start code answer crc size data : Bytes}
    (starts : IsNumeral 10 place start) (asks : IsNumeral 10 frame.request.toNat code)
    (answers : IsNumeral 16 frame.response.toNat answer) (checks : IsNumeral 16 checksum.toNat crc)
    (sized : IsNumeral 10 frame.payload.length size) (displays : Displays frame.payload data) :
    Reads (.frame place checksum frame)
      (Bytes.ofText "@" ++ start ++ Bytes.ofText " frame request=" ++ code ++ Bytes.ofText " response=0x" ++ answer ++
        Bytes.ofText " crc=0x" ++ crc ++ Bytes.ofText " length=" ++ size ++ data)
  | truncated {place received : Nat} {start size : Bytes} (starts : IsNumeral 10 place start)
    (sized : IsNumeral 10 received size) :
    Reads (.truncated place received)
      (Bytes.ofText "@" ++ start ++ Bytes.ofText " truncated frame (" ++ size ++ Bytes.ofText " bytes)")
  | summary {frames faults : Nat} {many failed : Bytes} (counts : IsNumeral 10 frames many)
    (errors : IsNumeral 10 faults failed) :
    Reads (.summary frames faults) (many ++ Bytes.ofText " frame(s), " ++ failed ++ Bytes.ofText " error(s)")

def Regular : Line → Prop
  | fault _ status _ => status = .badChecksum ∨ status = .badLength
  | _ => True

theorem calls_label {status : Status} (regular : status = .badChecksum ∨ status = .badLength) :
    Calls status (Bytes.ofText status.label) := by
  rcases regular with rfl | rfl
  · exact .badChecksum
  · exact .badLength

theorem displays_payloadText (payload : Bytes) : Displays payload (payloadText payload) := by
  unfold payloadText
  split
  · rename_i empty
    rw [empty]
    exact .nothing
  · rename_i something
    exact .data something (Numeral.isHexRow_hexBytes payload)

theorem reads_text {line : Line} (regular : line.Regular) : ∃ text, line.text = text ++ [10] ∧ line.Reads text := by
  have decimal := Numeral.isNumeral_decimal
  have hexadecimal := Numeral.isNumeral_hexadecimal
  cases line with
  | gap place =>
    refine ⟨_, ?_, .gap (decimal place)⟩
    rw [List.append_assoc]
    rfl
  | fault place status request =>
    exact ⟨_, rfl, .fault (decimal place) (calls_label regular) (decimal _)⟩
  | frame place checksum frame =>
    exact ⟨_, rfl, .frame (decimal place) (decimal _) (hexadecimal _) (hexadecimal _) (decimal _)
      (displays_payloadText frame.payload)⟩
  | truncated place received =>
    refine ⟨_, ?_, .truncated (decimal place) (decimal received)⟩
    rw [List.append_assoc]
    rfl
  | summary frames faults =>
    refine ⟨_, ?_, .summary (decimal frames) (decimal faults)⟩
    rw [List.append_assoc]
    rfl

theorem Calls.newline_not_mem {status : Status} {name : Bytes} (calls : Calls status name) : 10 ∉ name := by
  cases calls <;> decide

theorem Displays.newline_not_mem {payload text : Bytes} (displays : Displays payload text) : 10 ∉ text := by
  cases displays with
  | nothing => exact List.not_mem_nil
  | data something row =>
    rw [List.mem_append, not_or]
    exact ⟨by decide, row.newline_not_mem⟩

theorem Reads.newline_not_mem {line : Line} {text : Bytes} (reads : line.Reads text) : 10 ∉ text := by
  cases reads with
  | gap starts =>
    simp only [List.mem_append, not_or, starts.newline_not_mem, not_false_eq_true, and_true]
    decide
  | fault starts calls asks =>
    simp only [List.mem_append, not_or, starts.newline_not_mem, calls.newline_not_mem, asks.newline_not_mem,
      not_false_eq_true, and_true]
    decide
  | frame starts asks answers checks sized displays =>
    simp only [List.mem_append, not_or, starts.newline_not_mem, asks.newline_not_mem, answers.newline_not_mem,
      checks.newline_not_mem, sized.newline_not_mem, displays.newline_not_mem, not_false_eq_true, and_true]
    decide
  | truncated starts sized =>
    simp only [List.mem_append, not_or, starts.newline_not_mem, sized.newline_not_mem, not_false_eq_true, and_true]
    decide
  | summary counts errors =>
    simp only [List.mem_append, not_or, counts.newline_not_mem, errors.newline_not_mem, not_false_eq_true, true_and,
      and_true]
    decide

end Line

/-- The text is that of the lines, each with its end, and nothing else. -/
def Prints (lines : List Line) (text : Bytes) : Prop :=
  ∃ written, text = written.flatMap (· ++ [10]) ∧ (∀ line ∈ written, 10 ∉ line) ∧ List.Forall₂ Line.Reads lines written

theorem prints_textOf {lines : List Line} (regular : ∀ line ∈ lines, line.Regular) : Prints lines (textOf lines) := by
  induction lines with
  | nil => exact ⟨[], rfl, nofun, .nil⟩
  | cons line lines ih =>
    obtain ⟨text, first, reads⟩ := Line.reads_text (regular line (.head _))
    obtain ⟨written, rest, whole, all⟩ := ih fun other member => regular other (.tail _ member)
    refine ⟨text :: written, ?_, ?_, .cons reads all⟩
    · rw [textOf, List.flatMap_cons, first, List.flatMap_cons, ← rest]
      rfl
    · intro other member
      rcases List.mem_cons.mp member with rfl | later
      · exact reads.newline_not_mem
      · exact whole other later

end FramedLink.Dump
