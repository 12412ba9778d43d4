/-! Byte codes that are not assigned. Statuses and events assign the codes below eight. -/

namespace FramedLink

/-- A code from 8 to 255, counted from 8. -/
abbrev ReservedCode := Fin 248

namespace ReservedCode

def ofNumber (number : Nat) : ReservedCode :=
  ⟨(number - 8) % 248, Nat.mod_lt _ (Nat.succ_pos 247)⟩

def toByte (code : ReservedCode) : UInt8 :=
  UInt8.ofNat (8 + code.val)

end ReservedCode

end FramedLink
