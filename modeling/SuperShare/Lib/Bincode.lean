import SuperShare.Lib.Decoder
import Mathlib.Data.Nat.Notation

/-!
# The bincode 1 default format

Integers are little-endian and of fixed width, a sequence or string carries a 64-bit
length, an enum a 32-bit variant index, and `bincode::deserialize` ignores trailing
input. Each primitive comes with its encoder, its decoder, its encoded length where
that is fixed, and the statements that the decoder reads back what the encoder wrote and
reads nothing else.
-/

namespace Bincode

open ByteCodec

/-- The kinds of error `bincode::deserialize` reports on malformed input. -/
inductive ErrorKind where
  /-- The input ended inside a value. -/
  | unexpectedEof
  /-- A `bool` byte other than 0 and 1. -/
  | invalidBoolEncoding (byte : UInt8)
  /-- An `Option` tag other than 0 and 1. -/
  | invalidTagEncoding (tag : UInt8)
  /-- The bytes of a string are not valid UTF-8. -/
  | invalidUtf8Encoding
  /-- A variant index that the enum does not have. -/
  | invalidVariant (index : UInt32)
  deriving DecidableEq, Repr

/-- A decoder of the bincode format. -/
abbrev Decoder (α : Type) : Type := ByteCodec.Decoder ErrorKind α

variable {α : Type}

/-- Read exactly `n` bytes. -/
def readBytes (n : ℕ) : Decoder {bytes : List UInt8 // bytes.length = n} :=
  ByteCodec.Decoder.take .unexpectedEof n

/-- `u8`: the byte itself. -/
def encodeU8 (x : UInt8) : List UInt8 := [x]

/-- Read a `u8`. -/
def decodeU8 : Decoder UInt8 := do
  let bytes ← readBytes 1
  return UInt8.ofNat (leValue bytes)

/-- `u32`: four little-endian bytes. -/
def encodeU32 (x : UInt32) : List UInt8 := leBytes 4 x.toNat

/-- Read a `u32`. -/
def decodeU32 : Decoder UInt32 := do
  let bytes ← readBytes 4
  return UInt32.ofNat (leValue bytes)

/-- `u64`: eight little-endian bytes. -/
def encodeU64 (x : UInt64) : List UInt8 := leBytes 8 x.toNat

/-- Read a `u64`. -/
def decodeU64 : Decoder UInt64 := do
  let bytes ← readBytes 8
  return UInt64.ofNat (leValue bytes)

/-- `bool`: one byte, 0 or 1. -/
def encodeBool (b : Bool) : List UInt8 := encodeU8 (if b then 1 else 0)

/-- Interpret the byte of a `bool`. -/
def boolOfByte (byte : UInt8) : Decoder Bool :=
  if byte = 0 then pure false
  else if byte = 1 then pure true
  else ByteCodec.Decoder.fail (.invalidBoolEncoding byte)

/-- Read a `bool`. -/
def decodeBool : Decoder Bool := decodeU8 >>= boolOfByte

/-- `Vec<u8>`: a 64-bit length, then the bytes. -/
def encodeVec (bytes : List UInt8) : List UInt8 :=
  encodeU64 (UInt64.ofNat bytes.length) ++ bytes

/-- Read a `Vec<u8>`. -/
def decodeVec : Decoder (List UInt8) := do
  let length ← decodeU64
  let bytes ← readBytes length.toNat
  return bytes

/-- `String`: the length of the UTF-8 encoding, then its bytes. -/
def encodeString (s : String) : List UInt8 := encodeVec s.toByteArray.data.toList

/-- Interpret the bytes of a `String`. -/
def stringOfBytes (bytes : List UInt8) : Decoder String :=
  match String.fromUTF8? ⟨bytes.toArray⟩ with
  | some s => pure s
  | none => ByteCodec.Decoder.fail .invalidUtf8Encoding

/-- Read a `String`. -/
def decodeString : Decoder String := decodeVec >>= stringOfBytes

/-- `[u8; n]`: the bytes, with no length in front. -/
def encodeArray {n : ℕ} (array : Vector UInt8 n) : List UInt8 := array.toList

/-- Read a `[u8; n]`. -/
def decodeArray (n : ℕ) : Decoder (Vector UInt8 n) := do
  let bytes ← readBytes n
  return ⟨bytes.val.toArray, by simp [bytes.property]⟩

/-- `Option<T>`: a tag byte 0 or 1, then the value when there is one. -/
def encodeOption (encode : α → List UInt8) : Option α → List UInt8
  | none => encodeU8 0
  | some a => encodeU8 1 ++ encode a

/-- Read an `Option<T>`. -/
def decodeOption (decode : Decoder α) : Decoder (Option α) := do
  let tag ← decodeU8
  if tag = 0 then return none
  else if tag = 1 then return some (← decode)
  else ByteCodec.Decoder.fail (.invalidTagEncoding tag)

/-- A byte is read back. -/
theorem decodes_u8 (x : UInt8) : Decodes decodeU8 (encodeU8 x) x := by
  have h := (decodes_take ErrorKind.unexpectedEof (encodeU8 x) rfl).map
    fun bytes => UInt8.ofNat (leValue bytes.val)
  have hx : UInt8.ofNat (leValue (encodeU8 x)) = x := by simp [encodeU8, leValue]
  rw [hx] at h
  exact h

/-- A 32-bit integer is read back. -/
theorem decodes_u32 (x : UInt32) : Decodes decodeU32 (encodeU32 x) x := by
  have h := (decodes_take ErrorKind.unexpectedEof (encodeU32 x) (leBytes_length 4 _)).map
    fun bytes => UInt32.ofNat (leValue bytes.val)
  have hx : UInt32.ofNat (leValue (encodeU32 x)) = x := by
    rw [encodeU32, leValue_leBytes (by have := x.toNat_lt; omega), UInt32.ofNat_toNat]
  rw [hx] at h
  exact h

/-- A 64-bit integer is read back. -/
theorem decodes_u64 (x : UInt64) : Decodes decodeU64 (encodeU64 x) x := by
  have h := (decodes_take ErrorKind.unexpectedEof (encodeU64 x) (leBytes_length 8 _)).map
    fun bytes => UInt64.ofNat (leValue bytes.val)
  have hx : UInt64.ofNat (leValue (encodeU64 x)) = x := by
    rw [encodeU64, leValue_leBytes (by have := x.toNat_lt; omega), UInt64.ofNat_toNat]
  rw [hx] at h
  exact h

/-- A boolean is read back. -/
theorem decodes_bool (b : Bool) : Decodes decodeBool (encodeBool b) b := by
  have hbyte : Decodes (boolOfByte (if b then 1 else 0)) [] b := by
    cases b <;> exact Decodes.pure _
  have h := (decodes_u8 (if b then 1 else 0)).bind hbyte
  rwa [List.append_nil] at h

/-- A byte vector whose length fits 64 bits is read back. -/
theorem decodes_vec {bytes : List UInt8} (hfit : bytes.length < 2 ^ 64) :
    Decodes decodeVec (encodeVec bytes) bytes := by
  have hlength : bytes.length = (UInt64.ofNat bytes.length).toNat := by
    rw [UInt64.toNat_ofNat']
    omega
  exact (decodes_u64 _).bind
    ((decodes_take ErrorKind.unexpectedEof bytes hlength).map fun bytes => bytes.val)

/-- A string whose encoding fits a 64-bit length is read back. -/
theorem decodes_string {s : String} (hfit : s.toByteArray.data.toList.length < 2 ^ 64) :
    Decodes decodeString (encodeString s) s := by
  have hutf8 : Decodes (stringOfBytes s.toByteArray.data.toList) [] s := by
    have hbytes : String.fromUTF8? ⟨s.toByteArray.data.toList.toArray⟩ = some s := by
      rw [Array.toArray_toList]
      exact dif_pos s.isValidUTF8
    rw [stringOfBytes, hbytes]
    exact Decodes.pure s
  have h := (decodes_vec hfit).bind hutf8
  rwa [List.append_nil] at h

/-- A fixed-size byte array is read back. -/
theorem decodes_array {n : ℕ} (array : Vector UInt8 n) :
    Decodes (decodeArray n) (encodeArray array) array := by
  have h := (decodes_take ErrorKind.unexpectedEof array.toList array.length_toList).map
    fun bytes => (⟨bytes.val.toArray, by simp [bytes.property]⟩ : Vector UInt8 n)
  have harray : (⟨array.toList.toArray, by simp⟩ : Vector UInt8 n) = array := by
    apply Vector.toArray_inj.mp
    exact Array.toArray_toList
  rw [harray] at h
  exact h

/-- An optional value is read back when the value is. -/
theorem decodes_option {decode : Decoder α} {encode : α → List UInt8} {value : Option α}
    (h : ∀ a, value = some a → Decodes decode (encode a) a) :
    Decodes (decodeOption decode) (encodeOption encode value) value := by
  cases value with
  | none =>
    have hnone := (decodes_u8 0).bind (f := fun tag => if tag = 0 then pure none
      else if tag = 1 then do return some (← decode)
      else ByteCodec.Decoder.fail (.invalidTagEncoding tag)) (Decodes.pure (none : Option α))
    rwa [List.append_nil] at hnone
  | some a => exact (decodes_u8 1).bind ((h a rfl).map some)

/-- A byte that is read was written. -/
theorem canonical_u8 : Canonical decodeU8 encodeU8 := by
  refine (canonical_take _ 1).bind fun bytes => CanonicalAfter.pure ?_
  obtain ⟨bytes, hlength⟩ := bytes
  obtain ⟨b, rfl⟩ := List.length_eq_one_iff.mp hlength
  simp [encodeU8, leValue]

/-- A 32-bit integer that is read was written. -/
theorem canonical_u32 : Canonical decodeU32 encodeU32 := by
  refine (canonical_take _ 4).bind fun bytes => CanonicalAfter.pure ?_
  have hlt : leValue bytes.val < UInt32.size := by
    have h := leValue_lt bytes.val
    rwa [bytes.property] at h
  rw [encodeU32, UInt32.toNat_ofNat_of_lt' hlt, leBytes_leValue bytes.property,
    List.nil_append]

/-- A 64-bit integer that is read was written. -/
theorem canonical_u64 : Canonical decodeU64 encodeU64 := by
  refine (canonical_take _ 8).bind fun bytes => CanonicalAfter.pure ?_
  have hlt : leValue bytes.val < UInt64.size := by
    have h := leValue_lt bytes.val
    rwa [bytes.property] at h
  rw [encodeU64, UInt64.toNat_ofNat_of_lt' hlt, leBytes_leValue bytes.property,
    List.nil_append]

/-- A boolean that is read was written. -/
theorem canonical_bool : Canonical decodeBool encodeBool := by
  refine canonical_u8.bind fun byte => ?_
  unfold boolOfByte
  split
  · rename_i hzero
    exact CanonicalAfter.pure (by rw [hzero]; rfl)
  · split
    · rename_i hone
      exact CanonicalAfter.pure (by rw [hone]; rfl)
    · exact CanonicalAfter.fail _ _ _

/-- A byte vector that is read was written. -/
theorem canonical_vec : Canonical decodeVec encodeVec := by
  refine canonical_u64.bind fun length => ?_
  refine (canonical_take _ length.toNat).bind fun bytes => CanonicalAfter.pure ?_
  rw [encodeVec, bytes.property, UInt64.ofNat_toNat, List.nil_append]

/-- A string that is read was written. -/
theorem canonical_string : Canonical decodeString encodeString := by
  refine canonical_vec.bind fun bytes => ?_
  unfold stringOfBytes
  split
  · rename_i s hs
    refine CanonicalAfter.pure ?_
    have hbytes : s.toByteArray = ⟨bytes.toArray⟩ := by
      unfold String.fromUTF8? at hs
      split at hs
      · rw [← Option.some.inj hs]
        rfl
      · cases hs
    rw [encodeString, hbytes, List.nil_append]
  · exact CanonicalAfter.fail _ _ _

/-- A fixed-size byte array that is read was written. -/
theorem canonical_array (n : ℕ) : Canonical (decodeArray n) encodeArray := by
  refine (canonical_take _ n).bind fun bytes => CanonicalAfter.pure ?_
  simp [encodeArray, Vector.toList]

/-- A `bool` takes one byte. -/
@[simp] theorem encodeBool_length (b : Bool) : (encodeBool b).length = 1 := rfl

/-- An array takes its bytes. -/
@[simp] theorem encodeArray_length {n : ℕ} (array : Vector UInt8 n) :
    (encodeArray array).length = n := array.length_toList

/-- A `u32` takes four bytes. -/
@[simp] theorem encodeU32_length (x : UInt32) : (encodeU32 x).length = 4 := leBytes_length 4 _

/-- A `u64` takes eight bytes. -/
@[simp] theorem encodeU64_length (x : UInt64) : (encodeU64 x).length = 8 := leBytes_length 8 _

/-- A byte vector takes its length field and its bytes. -/
@[simp] theorem encodeVec_length (bytes : List UInt8) :
    (encodeVec bytes).length = 8 + bytes.length := by simp [encodeVec]

/-- A string takes its length field and its UTF-8 bytes. -/
@[simp] theorem encodeString_length (s : String) :
    (encodeString s).length = 8 + s.toByteArray.data.toList.length := encodeVec_length _

end Bincode
