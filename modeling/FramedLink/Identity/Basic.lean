import FramedLink.Version

/-! What one side says of itself: a version, the longest payload it takes, and a name in a field of
fixed width. -/

namespace FramedLink

namespace Identity

abbrev nameSize : Nat := 25

inductive Fault where
  | nameTooLong
  | inputTooShort
  deriving DecidableEq, Repr

namespace Fault

def ofCode? : UInt8 → Option Fault
  | 1 => some nameTooLong
  | 2 => some inputTooShort
  | _ => none

def label : Fault → String
  | nameTooLong => "name_too_long"
  | inputTooShort => "input_too_short"

def labelOfCode (code : UInt8) : String :=
  (ofCode? code).elim "unknown" label

end Fault

end Identity

structure Identity where
  version : Version
  maxPacketSize : UInt16
  name : Vector UInt8 Identity.nameSize
  deriving DecidableEq, Repr

namespace Identity

def field (text : Bytes) : Vector UInt8 nameSize :=
  Vector.ofFn fun index => text.getD index 0

def ofName (name : Bytes) (version : Version) (maxPacketSize : UInt16) : Except Fault Identity :=
  if name.length ≤ nameSize then .ok ⟨version, maxPacketSize, field name⟩ else .error .nameTooLong

def shownName (identity : Identity) : Bytes :=
  Bytes.untilZero identity.name.toList

end Identity

end FramedLink
