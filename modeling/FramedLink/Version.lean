import FramedLink.Numeral

/-! Version numbers of three parts. -/

namespace FramedLink

structure Version where
  major : UInt8 := 0
  minor : UInt8 := 0
  patch : UInt8 := 0
  deriving DecidableEq, Repr, Inhabited

namespace Version

def text (version : Version) : Bytes :=
  Numeral.decimal version.major.toNat ++ Bytes.ofText "." ++
    Numeral.decimal version.minor.toNat ++ Bytes.ofText "." ++
    Numeral.decimal version.patch.toNat

end Version

def release : Version := ⟨0, 6, 2⟩

end FramedLink
