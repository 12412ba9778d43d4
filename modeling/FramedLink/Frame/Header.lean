import FramedLink.Frame.Basic

/-! The ten bytes before a payload, as five words that can also be filled byte by byte. Main statement:
setting a byte of a header sets that byte of its image and no other. -/

namespace FramedLink.Frame

structure Header where
  marker : UInt16 := 0
  checksum : UInt16 := 0
  request : UInt16 := 0
  response : UInt16 := 0
  length : UInt16 := 0
  deriving DecidableEq, Repr, Inhabited

namespace Header

def bytes (header : Header) : Bytes :=
  Word.bytes header.marker ++ Word.bytes header.checksum ++ Word.bytes header.request ++
    Word.bytes header.response ++ Word.bytes header.length

/-- Puts a byte at a position of the image; a position past its end changes nothing. -/
def set (header : Header) (position : Nat) (byte : UInt8) : Header :=
  match position with
  | 0 => { header with marker := Word.setLow header.marker byte }
  | 1 => { header with marker := Word.setHigh header.marker byte }
  | 2 => { header with checksum := Word.setLow header.checksum byte }
  | 3 => { header with checksum := Word.setHigh header.checksum byte }
  | 4 => { header with request := Word.setLow header.request byte }
  | 5 => { header with request := Word.setHigh header.request byte }
  | 6 => { header with response := Word.setLow header.response byte }
  | 7 => { header with response := Word.setHigh header.response byte }
  | 8 => { header with length := Word.setLow header.length byte }
  | 9 => { header with length := Word.setHigh header.length byte }
  | _ => header

@[simp] theorem length_bytes (header : Header) : header.bytes.length = headerSize := rfl

theorem bytes_set (header : Header) (position : Nat) (byte : UInt8) :
    (header.set position byte).bytes = header.bytes.set position byte := by
  match position with
  | 0 | 1 | 2 | 3 | 4 | 5 | 6 | 7 | 8 | 9 => simp [bytes, set, Word.bytes, Word.setLow, Word.setHigh]
  | position + 10 => rfl

theorem bytes_injective {one two : Header} (same : one.bytes = two.bytes) : one = two := by
  simp only [bytes, Word.bytes, List.cons_append, List.nil_append, List.cons.injEq, and_true] at same
  obtain ⟨a, b, c, d, e, f, g, h, i, j⟩ := same
  cases one
  cases two
  simp only [Header.mk.injEq]
  refine ⟨?_, ?_, ?_, ?_, ?_⟩ <;> apply Word.bytes_injective <;> simp_all [Word.bytes]

end Header

end FramedLink.Frame
