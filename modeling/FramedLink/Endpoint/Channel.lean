/-! Where an endpoint reads bytes from and writes bytes to. -/

namespace FramedLink

/-- A two-way byte channel as one side sees it. A write may be refused. The backlog bounds the bytes that
can be read before anything arrives; writing does not add to it. -/
class Channel (τ : Type) where
  read : τ → Option (UInt8 × τ)
  write : τ → UInt8 → τ × Bool
  backlog : τ → Nat
  backlog_read : ∀ {port rest : τ} {byte : UInt8},
    read port = some (byte, rest) → backlog rest < backlog port
  backlog_write : ∀ (port : τ) (byte : UInt8), backlog (write port byte).1 ≤ backlog port

end FramedLink
