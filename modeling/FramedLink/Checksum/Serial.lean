import FramedLink.Checksum.Basic

/-! The checksum as a shift register that takes one bit at a time: its definition by the generator
polynomial, without a table. Main statement: the table holds what the register leaves of one byte. -/

namespace FramedLink.Checksum.Serial

/-- The register moves one place down; the polynomial is taken off when the bit that left was set. -/
def shift (register : UInt16) : UInt16 :=
  if register &&& 1 = 1 then (register >>> 1) ^^^ polynomial else register >>> 1

def step (register : UInt16) (byte : UInt8) : UInt16 :=
  Nat.repeat shift 8 (register ^^^ byte.toUInt16)

def update (register : UInt16) (bytes : Bytes) : UInt16 :=
  bytes.foldl step register

theorem table_eq_step (byte : Fin 256) : table.get byte = step 0 (UInt8.ofNat byte) := by
  revert byte
  decide +kernel

end FramedLink.Checksum.Serial
