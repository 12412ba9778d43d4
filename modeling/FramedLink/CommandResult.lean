import FramedLink.Bytes

/-! What a command leaves behind. -/

namespace FramedLink

structure CommandResult where
  exitCode : UInt8
  output : Bytes
  errors : Bytes := []
  deriving DecidableEq, Repr

end FramedLink
