/-! Byte strings. All text of this library, in and out, is a list of bytes: names, labels, settings
and reports may hold bytes that are no valid characters, and have to pass through unchanged. -/

namespace FramedLink

abbrev Bytes := List UInt8

namespace Bytes

/-- The bytes of a text whose characters are all below 256. -/
def ofText (text : String) : Bytes :=
  text.toList.map Char.toUInt8

def untilZero (bytes : Bytes) : Bytes :=
  bytes.takeWhile (· ≠ 0)

theorem untilZero_eq_self {bytes : Bytes} (unterminated : 0 ∉ bytes) : untilZero bytes = bytes := by
  induction bytes with
  | nil => rfl
  | cons byte bytes ih =>
    rw [List.mem_cons, not_or] at unterminated
    have kept := ih unterminated.2
    unfold untilZero at kept ⊢
    rw [List.takeWhile_cons_of_pos (by simpa using Ne.symm unterminated.1), kept]

end Bytes

end FramedLink
