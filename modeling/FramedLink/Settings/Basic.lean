import FramedLink.Identity.Encoding

/-! How an endpoint is set up. -/

namespace FramedLink

structure Settings where
  name : Bytes := Bytes.ofText "flem endpoint"
  version : Version := {}
  /-- Zero stands for the capacity of the packets. -/
  maxPacketSize : UInt16 := 0
  encoding : Identity.Encoding := .text
  /-- Whether events are printed where nothing else takes them. -/
  verbose : Bool := false
  deriving DecidableEq, Repr, Inhabited

namespace Settings

inductive Cause where
  | fileNotFound
  | malformedLine
  | unknownKey
  | badValue
  deriving DecidableEq, Repr

/-- A refusal: its cause, the number of the line, counted from one, and the text at fault. -/
structure Fault where
  cause : Cause
  line : Nat
  key : Bytes
  deriving DecidableEq, Repr

namespace Cause

def ofCode? : UInt8 → Option Cause
  | 1 => some fileNotFound
  | 2 => some malformedLine
  | 3 => some unknownKey
  | 4 => some badValue
  | _ => none

def label : Cause → String
  | fileNotFound => "file_not_found"
  | malformedLine => "syntax_error"
  | unknownKey => "unknown_key"
  | badValue => "bad_value"

def labelOfCode (code : UInt8) : String :=
  (ofCode? code).elim "unknown" label

end Cause

end Settings

end FramedLink
