import FramedLink.Identity.Encoding

/-! The two forms of an identity and its name. Main statements: what either form holds is read back, and its size alone
tells which form it is; whatever is read is what was written, but for the idle bytes of an image; a name that fits is
shown up to its first zero byte. -/

namespace FramedLink.Identity

theorem toList_field (text : Bytes) :
    (field text).toList = text.take nameSize ++ List.replicate (nameSize - text.length) 0 := by
  apply List.ext_getElem?
  intro index
  rw [Vector.getElem?_toList, List.getElem?_append, List.length_take, List.getElem?_take, List.getElem?_replicate]
  by_cases inside : index < nameSize
  · have entry : (field text)[index]? = some (text.getD index 0) := by simp [field, inside]
    rw [entry, List.getD_eq_getElem?_getD]
    by_cases given : index < text.length
    · rw [if_pos (by omega), if_pos inside, List.getElem?_eq_getElem given]
      rfl
    · rw [if_neg (by omega), if_pos (by omega), List.getElem?_eq_none (by omega)]
      rfl
  · rw [Vector.getElem?_eq_none (by omega), if_neg (by omega), if_neg (by omega)]

theorem field_append (name : Vector UInt8 nameSize) (more : Bytes) : field (name.toList ++ more) = name := by
  have size : name.toList.length = nameSize := Vector.length_toList
  apply Vector.toList_inj.mp
  rw [toList_field, List.take_left' size, List.length_append, size, Nat.sub_eq_zero_of_le (Nat.le_add_right _ _)]
  exact List.append_nil _

theorem decode_encode (identity : Identity) (encoding : Encoding) :
    decode encoding (identity.encode encoding) = .ok identity := by
  have size : identity.name.toList.length = nameSize := Vector.length_toList
  have name := field_append identity.name
  cases encoding with
  | text =>
    have whole := name []
    rw [List.append_nil] at whole
    simp [decode, encode, encodeText, decodeText, Word.bytes, whole]
  | image => simp [decode, encode, encodeImage, decodeImage, Word.bytes, name]

@[simp] theorem Encoding.ofSize?_size (encoding : Encoding) : ofSize? encoding.size = some encoding := by
  cases encoding <;> rfl

theorem ofPayload?_encode (identity : Identity) (encoding : Encoding) :
    ofPayload? (identity.encode encoding) = some identity := by
  rw [ofPayload?, length_encode, Encoding.ofSize?_size, Option.bind_some, decode_encode]
  rfl

theorem untilZero_toList_field {name : Bytes} (fits : name.length ≤ nameSize) :
    Bytes.untilZero (field name).toList = Bytes.untilZero name := by
  rw [toList_field, List.take_of_length_le fits, Bytes.untilZero, List.takeWhile_append]
  split
  · rename_i unterminated
    have padding : (List.replicate (nameSize - name.length) (0 : UInt8)).takeWhile (· ≠ 0) = [] := by
      cases nameSize - name.length <;> rfl
    have whole := (List.takeWhile_prefix (l := name) (· ≠ 0)).eq_of_length unterminated
    rw [padding, List.append_nil]
    exact whole.symm
  · rfl

theorem untilZero_field {name : Bytes} (fits : name.length ≤ nameSize) (unterminated : 0 ∉ name) :
    Bytes.untilZero (field name).toList = name := by
  rw [untilZero_toList_field fits, Bytes.untilZero_eq_self unterminated]

theorem toList_field_of_long {text : Bytes} (long : nameSize ≤ text.length) :
    (field text).toList = text.take nameSize := by
  rw [toList_field, Nat.sub_eq_zero_of_le long]
  exact List.append_nil _

/-- What a reader goes by in a long enough byte string: its beginning, in which the idle bytes count as zeros. -/
def Encoding.read : Encoding → Bytes → Bytes
  | .text, bytes => bytes.take 30
  | .image, bytes => ((bytes.take 32).set 3 0).set 31 0

section

variable {bytes : Bytes}

theorem decode_of_short {encoding : Encoding} (short : bytes.length < encoding.size) :
    decode encoding bytes = .error .inputTooShort := by
  cases encoding with
  | text =>
    change decodeText bytes = _
    unfold decodeText
    split
    · apply if_pos
      simp only [Encoding.size, nameSize, List.length_cons] at short ⊢
      omega
    · rfl
  | image =>
    change decodeImage bytes = _
    unfold decodeImage
    split
    · apply if_pos
      simp only [Encoding.size, nameSize, List.length_cons] at short ⊢
      omega
    · rfl

private theorem exists_decodeText (long : 30 ≤ bytes.length) :
    ∃ identity, decodeText bytes = .ok identity ∧ identity.encodeText = Encoding.text.read bytes := by
  rcases bytes with _ | ⟨major, _ | ⟨minor, _ | ⟨patch, _ | ⟨low, _ | ⟨high, rest⟩⟩⟩⟩⟩
  case cons.cons.cons.cons.cons =>
    have enough : nameSize ≤ rest.length := by simpa using long
    refine ⟨_, if_neg (Nat.not_lt_of_le enough), ?_⟩
    simp [encodeText, Encoding.read, Word.bytes, toList_field_of_long enough]
  all_goals simp at long

private theorem exists_decodeImage (long : 32 ≤ bytes.length) :
    ∃ identity, decodeImage bytes = .ok identity ∧ identity.encodeImage = Encoding.image.read bytes := by
  rcases bytes with _ | ⟨major, _ | ⟨minor, _ | ⟨patch, _ | ⟨idle, _ | ⟨low, _ | ⟨high, rest⟩⟩⟩⟩⟩⟩
  case cons.cons.cons.cons.cons.cons =>
    have enough : nameSize + 1 ≤ rest.length := by
      simp only [List.length_cons] at long
      rw [nameSize]
      omega
    refine ⟨_, if_neg (Nat.not_lt_of_le enough), ?_⟩
    have name := toList_field_of_long (Nat.le_of_succ_le enough)
    have last : (rest.take (nameSize + 1)).set nameSize 0 = rest.take nameSize ++ [0] := by
      have before : (rest.take nameSize).length = nameSize := List.length_take_of_le (Nat.le_of_succ_le enough)
      rw [List.take_succ_eq_append_getElem enough, List.set_append_right _ _ (Nat.le_of_eq before), before,
        Nat.sub_self]
      rfl
    simp [encodeImage, Encoding.read, Word.bytes, name, last]
  all_goals simp at long

theorem exists_decode_of_long (encoding : Encoding) (long : encoding.size ≤ bytes.length) :
    ∃ identity, decode encoding bytes = .ok identity ∧ identity.encode encoding = encoding.read bytes := by
  cases encoding with
  | text => exact exists_decodeText long
  | image => exact exists_decodeImage long

theorem decode_eq_error_iff {encoding : Encoding} :
    decode encoding bytes = .error .inputTooShort ↔ bytes.length < encoding.size := by
  constructor
  · intro failed
    apply Nat.lt_of_not_le
    intro long
    obtain ⟨identity, decoded, -⟩ := exists_decode_of_long encoding long
    rw [decoded] at failed
    cases failed
  · exact decode_of_short

theorem encode_inj (encoding : Encoding) {one two : Identity} :
    one.encode encoding = two.encode encoding ↔ one = two := by
  constructor
  · intro same
    have decoded := congrArg (decode encoding) same
    rw [decode_encode, decode_encode] at decoded
    exact Except.ok.inj decoded
  · exact congrArg (encode · encoding)

end

theorem ofName_of_fits {name : Bytes} (fits : name.length ≤ nameSize) (version : Version) (maxPacketSize : UInt16) :
    ofName name version maxPacketSize = .ok ⟨version, maxPacketSize, field name⟩ :=
  if_pos fits

/-- Either form gives the identity back that it was made from. A byte string that is long enough gives an identity,
whose form is the beginning of that byte string but for the idle bytes. Identities with the same form are the same. A
name that fits is shown up to its first zero byte. -/
theorem forms_faithful :
    (∀ (identity : Identity) (encoding : Encoding), decode encoding (identity.encode encoding) = .ok identity) ∧
      (∀ bytes : Bytes,
        (decode .text bytes = .error .inputTooShort ↔ bytes.length < 30) ∧
          (30 ≤ bytes.length → ∃ identity, decode .text bytes = .ok identity ∧
            identity.encodeText = bytes.take 30) ∧
          (decode .image bytes = .error .inputTooShort ↔ bytes.length < 32) ∧
          (32 ≤ bytes.length → ∃ identity, decode .image bytes = .ok identity ∧
            identity.encodeImage = ((bytes.take 32).set 3 0).set 31 0)) ∧
      (∀ one two : Identity, ((one == two) = true ↔ one.encodeText = two.encodeText) ∧
        (one.encodeText = two.encodeText ↔ one.encodeImage = two.encodeImage)) ∧
      (∀ (name : Bytes) (version : Version) (maxPacketSize : UInt16),
        (name.length ≤ 25 → ∃ identity, ofName name version maxPacketSize = .ok identity ∧
          identity.version = version ∧ identity.maxPacketSize = maxPacketSize ∧
          identity.shownName = name.takeWhile (· ≠ 0)) ∧
        (25 < name.length → ofName name version maxPacketSize = .error .nameTooLong)) := by
  refine ⟨decode_encode, ?_, ?_, ?_⟩
  · intro bytes
    exact ⟨decode_eq_error_iff, exists_decode_of_long .text, decode_eq_error_iff, exists_decode_of_long .image⟩
  · intro one two
    have text : one.encodeText = two.encodeText ↔ one = two := encode_inj .text
    have image : one.encodeImage = two.encodeImage ↔ one = two := encode_inj .image
    rw [text, image, beq_iff_eq]
    exact ⟨Iff.rfl, Iff.rfl⟩
  · intro name version maxPacketSize
    constructor
    · intro fits
      exact ⟨_, ofName_of_fits fits version maxPacketSize, rfl, rfl, untilZero_toList_field fits⟩
    · intro long
      exact if_neg (Nat.not_le_of_lt long)

theorem forms_faithful_of_idle_bytes :
    (∃ identity, decode .image (List.replicate 33 7) = .ok identity ∧
        identity.encodeImage = [7, 7, 7, 0] ++ List.replicate 27 7 ++ [0]) ∧
      (∃ identity, ofName [65, 66, 0, 67] ⟨1, 2, 3⟩ 9 = .ok identity ∧ identity.version = ⟨1, 2, 3⟩ ∧
        identity.maxPacketSize = 9 ∧ identity.shownName = [65, 66]) ∧
      ofName (List.replicate 26 65) ⟨1, 2, 3⟩ 9 = .error .nameTooLong := by
  obtain ⟨-, reading, -, naming⟩ := forms_faithful
  have read := (reading (List.replicate 33 7)).2.2.2 (by decide)
  have named := (naming [65, 66, 0, 67] ⟨1, 2, 3⟩ 9).1 (by decide)
  have refused := (naming (List.replicate 26 65) ⟨1, 2, 3⟩ 9).2 (by decide)
  exact ⟨read, named, refused⟩

end FramedLink.Identity
