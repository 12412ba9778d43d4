import FramedLink.Settings.Basic

/-! One line of a settings text. A line is cut at its first number sign; what is left of it after blanks
at both ends are dropped is nothing, or a key and a value with an equals sign between them. -/

namespace FramedLink

inductive Setting where
  | name (name : Bytes)
  | version (version : Version)
  | maxPacketSize (size : UInt16)
  | encoding (encoding : Identity.Encoding)
  | verbose (verbose : Bool)
  deriving DecidableEq, Repr

namespace Setting

def apply (setting : Setting) (settings : Settings) : Settings :=
  match setting with
  | .name value => { settings with name := value }
  | .version value => { settings with version := value }
  | .maxPacketSize value => { settings with maxPacketSize := value }
  | .encoding value => { settings with encoding := value }
  | .verbose value => { settings with verbose := value }

structure Fault where
  cause : Settings.Cause
  key : Bytes
  deriving DecidableEq, Repr

def isBlank (byte : UInt8) : Bool :=
  byte == 32 || byte == 9 || byte == 13

def trim (text : Bytes) : Bytes :=
  ((text.dropWhile isBlank).reverse.dropWhile isBlank).reverse

def content (line : Bytes) : Bytes :=
  trim (line.takeWhile (· ≠ 35))

def bounded? (bound : Nat) (text : Bytes) : Option Nat :=
  (Numeral.ofDecimal? text).filter (· ≤ bound)

def ofVersion? (text : Bytes) : Option Version :=
  match text.splitOn 46 with
  | [major, minor, patch] => do
    return ⟨UInt8.ofNat (← bounded? 255 major), UInt8.ofNat (← bounded? 255 minor),
      UInt8.ofNat (← bounded? 255 patch)⟩
  | _ => none

def ofBool? (text : Bytes) : Option Bool :=
  if text ∈ [Bytes.ofText "true", Bytes.ofText "1", Bytes.ofText "yes"] then some true
  else if text ∈ [Bytes.ofText "false", Bytes.ofText "0", Bytes.ofText "no"] then some false
  else none

def ofEncoding? (text : Bytes) : Option Identity.Encoding :=
  (ofBool? text).map fun ascii => if ascii then .text else .image

def ofName? (text : Bytes) : Option Bytes :=
  if text.length ≤ Identity.nameSize then some text else none

def nameKey : Bytes := Bytes.ofText "name"
def versionKey : Bytes := Bytes.ofText "version"
def maxPacketSizeKey : Bytes := Bytes.ofText "max_packet_size"
def encodingKey : Bytes := Bytes.ofText "id_ascii"
def verboseKey : Bytes := Bytes.ofText "verbose"

def reader? (key : Bytes) : Option (Bytes → Option Setting) :=
  if key = nameKey then some fun value => (ofName? value).map name
  else if key = versionKey then some fun value => (ofVersion? value).map version
  else if key = maxPacketSizeKey then
    some fun value => (bounded? 65535 value).map fun size => maxPacketSize (UInt16.ofNat size)
  else if key = encodingKey then some fun value => (ofEncoding? value).map encoding
  else if key = verboseKey then some fun value => (ofBool? value).map verbose
  else none

def ofPair (key value : Bytes) : Except Fault Setting :=
  match reader? key with
  | none => .error ⟨.unknownKey, key⟩
  | some read =>
    match read value with
    | none => .error ⟨.badValue, key⟩
    | some setting => .ok setting

def halves? (text : Bytes) : Option (Bytes × Bytes) :=
  match text.dropWhile (· ≠ 61) with
  | [] => none
  | _ :: value => some (trim (text.takeWhile (· ≠ 61)), trim value)

def ofLine (line : Bytes) : Except Fault (Option Setting) :=
  match content line with
  | [] => .ok none
  | text =>
    match halves? text with
    | none => .error ⟨.malformedLine, text⟩
    | some (key, value) => (ofPair key value).map some

end Setting

end FramedLink
