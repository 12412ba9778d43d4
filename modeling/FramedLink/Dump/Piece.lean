import FramedLink.Numeral

/-! The words of a dump. A piece is a run of characters that are no separators; it stands for one byte
in one or two hexadecimal digits, with or without `0x` before them, or for several bytes in a row of
digit pairs. -/

namespace FramedLink.Dump

def pieces (isSeparator : UInt8 → Bool) (text : Bytes) : List Bytes :=
  (text.splitOnP isSeparator).filter (· ≠ [])

def isArgumentSeparator (byte : UInt8) : Bool :=
  byte == 32 || byte == 44

def isInputSeparator (byte : UInt8) : Bool :=
  isArgumentSeparator byte || (9 ≤ byte && byte ≤ 13)

/-- What a piece stands for: bytes, and whether it is well formed. Of a malformed piece, the bytes are
those before its fault. -/
structure Reading where
  bytes : Bytes
  wellFormed : Bool
  deriving DecidableEq, Repr

def byte? : Bytes → Option UInt8
  | [one] => (Numeral.hexDigit? one).map UInt8.ofNat
  | [one, two] => do
    return UInt8.ofNat (16 * (← Numeral.hexDigit? one) + (← Numeral.hexDigit? two))
  | _ => none

def readOne (digits : Bytes) : Reading :=
  match byte? digits with
  | some byte => ⟨[byte], true⟩
  | none => ⟨[], false⟩

def readPairs (before : Array UInt8) : Bytes → Reading
  | one :: two :: digits =>
    match byte? [one, two] with
    | some byte => readPairs (before.push byte) digits
    | none => ⟨before.toList, false⟩
  | [_] => ⟨before.toList, false⟩
  | [] => ⟨before.toList, true⟩

def isMarked : Bytes → Bool
  | zero :: mark :: _ :: _ => zero == 48 && (mark == 120 || mark == 88)
  | _ => false

def read (piece : Bytes) : Reading :=
  if isMarked piece then readOne (piece.drop 2)
  else if piece.length ≤ 2 then readOne piece
  else if piece.length % 2 = 0 then readPairs #[] piece
  else ⟨[], false⟩

end FramedLink.Dump
