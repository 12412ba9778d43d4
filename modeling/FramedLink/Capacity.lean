/-! How many payload bytes a packet has room for. -/

namespace FramedLink

/-- A number of payload bytes, at most 65534: the length field of a frame could say one more, which
no packet accepts. -/
abbrev Capacity := Fin 65535

namespace Capacity

def largest : Capacity := 65534

def standard : Capacity := 100

theorem two_lt : 2 < 65535 := by decide

end Capacity

end FramedLink
