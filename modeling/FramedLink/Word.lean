import FramedLink.Bytes

/-! Sixteen-bit words and the two bytes that carry them, low byte first. Main statement: a word and
its pair of bytes determine each other. -/

namespace FramedLink.Word

/-- The byte that is sent first. -/
def low (word : UInt16) : UInt8 :=
  UInt8.ofNat word.toNat

def high (word : UInt16) : UInt8 :=
  UInt8.ofNat (word.toNat / 256)

def ofBytes (first second : UInt8) : UInt16 :=
  UInt16.ofNat (first.toNat + 256 * second.toNat)

def setLow (word : UInt16) (byte : UInt8) : UInt16 :=
  ofBytes byte (high word)

def setHigh (word : UInt16) (byte : UInt8) : UInt16 :=
  ofBytes (low word) byte

def bytes (word : UInt16) : Bytes :=
  [low word, high word]

theorem toNat_low (word : UInt16) : (low word).toNat = word.toNat % 256 := by
  simp [low]

theorem toNat_high (word : UInt16) : (high word).toNat = word.toNat / 256 := by
  have bound := word.toNat_lt
  simp only [high, UInt8.toNat_ofNat']
  omega

theorem toNat_ofBytes (first second : UInt8) :
    (ofBytes first second).toNat = first.toNat + 256 * second.toNat := by
  have one := first.toNat_lt
  have two := second.toNat_lt
  simp only [ofBytes, UInt16.toNat_ofNat']
  omega

@[simp] theorem low_ofBytes (first second : UInt8) : low (ofBytes first second) = first := by
  have one := first.toNat_lt
  apply UInt8.toNat_inj.mp
  rw [toNat_low, toNat_ofBytes]
  omega

@[simp] theorem high_ofBytes (first second : UInt8) : high (ofBytes first second) = second := by
  have one := first.toNat_lt
  apply UInt8.toNat_inj.mp
  rw [toNat_high, toNat_ofBytes]
  omega

@[simp] theorem ofBytes_low_high (word : UInt16) : ofBytes (low word) (high word) = word := by
  apply UInt16.toNat_inj.mp
  rw [toNat_ofBytes, toNat_low, toNat_high]
  omega

theorem bytes_injective {one two : UInt16} (same : bytes one = bytes two) : one = two := by
  simp only [bytes, List.cons.injEq, and_true] at same
  rw [← ofBytes_low_high one, ← ofBytes_low_high two, same.1, same.2]

end FramedLink.Word
