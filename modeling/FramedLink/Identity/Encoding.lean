import FramedLink.Identity.Basic
import FramedLink.Word

/-! The two forms in which an identity travels. The text form puts the fields side by side; the image
form keeps the words at even offsets, with one idle byte before the size and one after the name. -/

namespace FramedLink.Identity

inductive Encoding where
  | text
  | image
  deriving DecidableEq, Repr, Inhabited

def Encoding.size : Encoding → Nat
  | .text => 30
  | .image => 32

def encodeText (identity : Identity) : Bytes :=
  [identity.version.major, identity.version.minor, identity.version.patch] ++
    Word.bytes identity.maxPacketSize ++ identity.name.toList

/-- The idle bytes of the image are written as zeros. -/
def encodeImage (identity : Identity) : Bytes :=
  [identity.version.major, identity.version.minor, identity.version.patch, 0] ++
    Word.bytes identity.maxPacketSize ++ identity.name.toList ++ [0]

def encode (identity : Identity) : Encoding → Bytes
  | .text => identity.encodeText
  | .image => identity.encodeImage

/-- Reads the text form from the start of a byte string; what follows it is ignored. -/
def decodeText : Bytes → Except Fault Identity
  | major :: minor :: patch :: low :: high :: rest =>
    if rest.length < nameSize then .error .inputTooShort
    else .ok ⟨⟨major, minor, patch⟩, Word.ofBytes low high, field rest⟩
  | _ => .error .inputTooShort

/-- Reads the image form from the start of a byte string; the idle bytes may hold anything. -/
def decodeImage : Bytes → Except Fault Identity
  | major :: minor :: patch :: _ :: low :: high :: rest =>
    if rest.length < nameSize + 1 then .error .inputTooShort
    else .ok ⟨⟨major, minor, patch⟩, Word.ofBytes low high, field rest⟩
  | _ => .error .inputTooShort

def decode : Encoding → Bytes → Except Fault Identity
  | .text => decodeText
  | .image => decodeImage

def Encoding.ofSize? (size : Nat) : Option Encoding :=
  if size = Encoding.text.size then some .text
  else if size = Encoding.image.size then some .image
  else none

def ofPayload? (payload : Bytes) : Option Identity :=
  (Encoding.ofSize? payload.length).bind fun encoding => (decode encoding payload).toOption

theorem length_encode (identity : Identity) (encoding : Encoding) :
    (identity.encode encoding).length = encoding.size := by
  cases encoding <;> simp [encode, encodeText, encodeImage, Encoding.size, Word.bytes]

end FramedLink.Identity
