import SuperShare.Lib.Bincode

/-!
# Protocol messages and frames

The message type of `ss-core`, its type tags, and its payload encoding. The tag table of
`MessageType` follows neither the declaration order of `Message` nor the variant indices
bincode derives from it, so both numberings are kept apart here. An `f32` field is its
32-bit pattern.
-/

namespace SuperShare

open Bincode ByteCodec

/-- An `f32` as it travels: its bit pattern. -/
abbrev F32 : Type := UInt32

/-- Magic bytes in front of every frame. -/
def frameMagic : List UInt8 := [0x53, 0x53]

/-- Largest payload a reader accepts (16 MB). -/
def maxPayloadSize : UInt32 := 16 * 1024 * 1024

/-- Message type identifiers. -/
inductive MessageType where
  | mouseMove | mouseButton | mouseScroll | keyPress
  | clipboardData | clipboardBegin | clipboardChunk | clipboardEnd
  | handshake | heartbeat | screenConfig | boundaryEnter | boundaryLeave | mouseDelta
  | pairRequest | pairSpake | pairConfirm | pairResult | pairError
  deriving DecidableEq, Repr

/-- The tag byte of a message type. -/
def MessageType.toByte : MessageType → UInt8
  | mouseMove => 0x01
  | mouseButton => 0x02
  | mouseScroll => 0x03
  | keyPress => 0x04
  | clipboardData => 0x05
  | clipboardBegin => 0x06
  | clipboardChunk => 0x07
  | clipboardEnd => 0x08
  | handshake => 0x09
  | heartbeat => 0x0A
  | screenConfig => 0x0B
  | boundaryEnter => 0x0C
  | boundaryLeave => 0x0D
  | mouseDelta => 0x0E
  | pairRequest => 0x0F
  | pairSpake => 0x10
  | pairConfirm => 0x11
  | pairResult => 0x12
  | pairError => 0x13

/-- The message type of a tag byte, or the unknown byte. -/
def MessageType.tryFrom (value : UInt8) : Except UInt8 MessageType :=
  match value.toNat with
  | 0x01 => .ok mouseMove
  | 0x02 => .ok mouseButton
  | 0x03 => .ok mouseScroll
  | 0x04 => .ok keyPress
  | 0x05 => .ok clipboardData
  | 0x06 => .ok clipboardBegin
  | 0x07 => .ok clipboardChunk
  | 0x08 => .ok clipboardEnd
  | 0x09 => .ok handshake
  | 0x0A => .ok heartbeat
  | 0x0B => .ok screenConfig
  | 0x0C => .ok boundaryEnter
  | 0x0D => .ok boundaryLeave
  | 0x0E => .ok mouseDelta
  | 0x0F => .ok pairRequest
  | 0x10 => .ok pairSpake
  | 0x11 => .ok pairConfirm
  | 0x12 => .ok pairResult
  | 0x13 => .ok pairError
  | _ => .error value

/-- The tag table is read back entry by entry. -/
@[simp] theorem MessageType.tryFrom_toByte (t : MessageType) : tryFrom t.toByte = .ok t := by
  cases t <;> rfl

/-- Mouse button identifiers. -/
inductive Button where
  | left | right | middle
  deriving DecidableEq, Repr

/-- Clipboard content format. -/
inductive ClipboardFormat where
  | text | image
  deriving DecidableEq, Repr

/-- All protocol messages, in declaration order. -/
inductive Message where
  /-- Absolute position on the global coordinate system. -/
  | mouseMove (x y : F32)
  /-- Relative movement. -/
  | mouseDelta (dx dy : F32)
  | mouseButton (button : Button) (pressed : Bool)
  | mouseScroll (dx dy : F32)
  | keyPress (keycode : UInt32) (pressed : Bool)
  /-- Small clipboard data that fits in one message. -/
  | clipboardData (format : ClipboardFormat) (data : List UInt8)
  /-- Start of a large clipboard transfer. -/
  | clipboardBegin (format : ClipboardFormat) (totalSize width height : UInt32)
  | clipboardChunk (seq : UInt32) (data : List UInt8)
  /-- End of a clipboard transfer, with the hash of its content. -/
  | clipboardEnd (hash : Vector UInt8 32)
  /-- Protocol version, device name and screen dimensions of a client. -/
  | handshake (version : UInt8) (name : String) (screenWidth screenHeight : UInt32)
  | heartbeat
  /-- Screen dimensions of the server. -/
  | screenConfig (width height : UInt32)
  | boundaryEnter (targetScreen : UInt8) (enterX enterY : F32)
  | boundaryLeave (sourceScreen : UInt8)
  | pairRequest (version : UInt8) (name : String)
  /-- A SPAKE2 protocol message. -/
  | pairSpake (msg : List UInt8)
  /-- The encrypted provisioning request of a client. -/
  | pairConfirm (nonce ciphertext : List UInt8)
  /-- The encrypted provisioning response of the server. -/
  | pairResult (nonce ciphertext : List UInt8)
  | pairError (reason : String)
  deriving DecidableEq

namespace Message

/-- The message type identifier of a message. -/
def msgType : Message → MessageType
  | mouseMove .. => .mouseMove
  | mouseDelta .. => .mouseDelta
  | mouseButton .. => .mouseButton
  | mouseScroll .. => .mouseScroll
  | keyPress .. => .keyPress
  | clipboardData .. => .clipboardData
  | clipboardBegin .. => .clipboardBegin
  | clipboardChunk .. => .clipboardChunk
  | clipboardEnd .. => .clipboardEnd
  | handshake .. => .handshake
  | heartbeat => .heartbeat
  | screenConfig .. => .screenConfig
  | boundaryEnter .. => .boundaryEnter
  | boundaryLeave .. => .boundaryLeave
  | pairRequest .. => .pairRequest
  | pairSpake .. => .pairSpake
  | pairConfirm .. => .pairConfirm
  | pairResult .. => .pairResult
  | pairError .. => .pairError

end Message

/-- An enum without fields is its variant index. -/
def Button.encode : Button → List UInt8
  | left => encodeU32 0
  | right => encodeU32 1
  | middle => encodeU32 2

/-- The button of a variant index. -/
def Button.ofIndex (index : UInt32) : Decoder Button :=
  match index.toNat with
  | 0 => pure left
  | 1 => pure right
  | 2 => pure middle
  | _ => ByteCodec.Decoder.fail (.invalidVariant index)

/-- Read a button. -/
def Button.decode : Decoder Button := decodeU32 >>= Button.ofIndex

/-- An enum without fields is its variant index. -/
def ClipboardFormat.encode : ClipboardFormat → List UInt8
  | text => encodeU32 0
  | image => encodeU32 1

/-- The clipboard format of a variant index. -/
def ClipboardFormat.ofIndex (index : UInt32) : Decoder ClipboardFormat :=
  match index.toNat with
  | 0 => pure text
  | 1 => pure image
  | _ => ByteCodec.Decoder.fail (.invalidVariant index)

/-- Read a clipboard format. -/
def ClipboardFormat.decode : Decoder ClipboardFormat := decodeU32 >>= ClipboardFormat.ofIndex

namespace Message

/-- Serialize the payload: the variant index in declaration order, then the fields.
The bincode serializer has no failing case on these types. -/
def encode : Message → List UInt8
  | mouseMove x y => encodeU32 0 ++ (encodeU32 x ++ encodeU32 y)
  | mouseDelta dx dy => encodeU32 1 ++ (encodeU32 dx ++ encodeU32 dy)
  | mouseButton button pressed => encodeU32 2 ++ (button.encode ++ encodeBool pressed)
  | mouseScroll dx dy => encodeU32 3 ++ (encodeU32 dx ++ encodeU32 dy)
  | keyPress keycode pressed => encodeU32 4 ++ (encodeU32 keycode ++ encodeBool pressed)
  | clipboardData format data => encodeU32 5 ++ (format.encode ++ encodeVec data)
  | clipboardBegin format totalSize width height =>
      encodeU32 6 ++ (format.encode ++ (encodeU32 totalSize ++
        (encodeU32 width ++ encodeU32 height)))
  | clipboardChunk seq data => encodeU32 7 ++ (encodeU32 seq ++ encodeVec data)
  | clipboardEnd hash => encodeU32 8 ++ encodeArray hash
  | handshake version name screenWidth screenHeight =>
      encodeU32 9 ++ (encodeU8 version ++ (encodeString name ++
        (encodeU32 screenWidth ++ encodeU32 screenHeight)))
  | heartbeat => encodeU32 10
  | screenConfig width height => encodeU32 11 ++ (encodeU32 width ++ encodeU32 height)
  | boundaryEnter targetScreen enterX enterY =>
      encodeU32 12 ++ (encodeU8 targetScreen ++ (encodeU32 enterX ++ encodeU32 enterY))
  | boundaryLeave sourceScreen => encodeU32 13 ++ encodeU8 sourceScreen
  | pairRequest version name => encodeU32 14 ++ (encodeU8 version ++ encodeString name)
  | pairSpake msg => encodeU32 15 ++ encodeVec msg
  | pairConfirm nonce ciphertext => encodeU32 16 ++ (encodeVec nonce ++ encodeVec ciphertext)
  | pairResult nonce ciphertext => encodeU32 17 ++ (encodeVec nonce ++ encodeVec ciphertext)
  | pairError reason => encodeU32 18 ++ encodeString reason

/-- Read the fields of the variant with a given index. -/
def decodeVariant (index : UInt32) : Decoder Message :=
  match index.toNat with
  | 0 => do
    let x ← decodeU32
    let y ← decodeU32
    return mouseMove x y
  | 1 => do
    let dx ← decodeU32
    let dy ← decodeU32
    return mouseDelta dx dy
  | 2 => do
    let button ← Button.decode
    let pressed ← decodeBool
    return mouseButton button pressed
  | 3 => do
    let dx ← decodeU32
    let dy ← decodeU32
    return mouseScroll dx dy
  | 4 => do
    let keycode ← decodeU32
    let pressed ← decodeBool
    return keyPress keycode pressed
  | 5 => do
    let format ← ClipboardFormat.decode
    let data ← decodeVec
    return clipboardData format data
  | 6 => do
    let format ← ClipboardFormat.decode
    let totalSize ← decodeU32
    let width ← decodeU32
    let height ← decodeU32
    return clipboardBegin format totalSize width height
  | 7 => do
    let seq ← decodeU32
    let data ← decodeVec
    return clipboardChunk seq data
  | 8 => do
    let hash ← decodeArray 32
    return clipboardEnd hash
  | 9 => do
    let version ← decodeU8
    let name ← decodeString
    let screenWidth ← decodeU32
    let screenHeight ← decodeU32
    return handshake version name screenWidth screenHeight
  | 10 => return heartbeat
  | 11 => do
    let width ← decodeU32
    let height ← decodeU32
    return screenConfig width height
  | 12 => do
    let targetScreen ← decodeU8
    let enterX ← decodeU32
    let enterY ← decodeU32
    return boundaryEnter targetScreen enterX enterY
  | 13 => do
    let sourceScreen ← decodeU8
    return boundaryLeave sourceScreen
  | 14 => do
    let version ← decodeU8
    let name ← decodeString
    return pairRequest version name
  | 15 => do
    let msg ← decodeVec
    return pairSpake msg
  | 16 => do
    let nonce ← decodeVec
    let ciphertext ← decodeVec
    return pairConfirm nonce ciphertext
  | 17 => do
    let nonce ← decodeVec
    let ciphertext ← decodeVec
    return pairResult nonce ciphertext
  | 18 => do
    let reason ← decodeString
    return pairError reason
  | _ => ByteCodec.Decoder.fail (.invalidVariant index)

/-- Read a message. -/
def decoder : Decoder Message := decodeU32 >>= decodeVariant

/-- Deserialize a payload. Only the payload decides the message: the type tag of the frame
is named in the error and otherwise unused. -/
def decode (msgType : MessageType) (data : List UInt8) :
    Except (MessageType × ErrorKind) Message :=
  match decoder.runPrefix data with
  | .ok message => .ok message
  | .error kind => .error (msgType, kind)

end Message

/-- A complete wire frame: header and payload. -/
structure Frame where
  msgType : MessageType
  payload : List UInt8

/-- Magic, type and length take seven bytes. -/
def Frame.headerSize : ℕ := 7

/-- Encode a frame: magic, type, length as a `u32`, payload. -/
def Frame.toBytes (frame : Frame) : List UInt8 :=
  frameMagic ++ (frame.msgType.toByte ::
    (encodeU32 (UInt32.ofNat frame.payload.length) ++ frame.payload))

/-- A button is read back. -/
theorem Button.decodes (button : Button) : Decodes Button.decode button.encode button := by
  cases button <;> exact (decodes_u32 _).bind (Decodes.pure _)

/-- A clipboard format is read back. -/
theorem ClipboardFormat.decodes (format : ClipboardFormat) :
    Decodes ClipboardFormat.decode format.encode format := by
  cases format <;> exact (decodes_u32 _).bind (Decodes.pure _)

/-- A variant index is its number. -/
theorem encodeU32_of_toNat {index : UInt32} (value : UInt32) (h : index.toNat = value.toNat) :
    encodeU32 index = encodeU32 value := by rw [encodeU32, encodeU32, h]

/-- A button that is read was written. -/
theorem Button.canonical : Canonical Button.decode Button.encode := by
  refine canonical_u32.bind fun index => ?_
  unfold Button.ofIndex
  split <;> rename_i h
  · exact .pure (encodeU32_of_toNat 0 h)
  · exact .pure (encodeU32_of_toNat 1 h)
  · exact .pure (encodeU32_of_toNat 2 h)
  · exact CanonicalAfter.fail _ _ _

/-- A clipboard format that is read was written. -/
theorem ClipboardFormat.canonical : Canonical ClipboardFormat.decode ClipboardFormat.encode := by
  refine canonical_u32.bind fun index => ?_
  unfold ClipboardFormat.ofIndex
  split <;> rename_i h
  · exact .pure (encodeU32_of_toNat 0 h)
  · exact .pure (encodeU32_of_toNat 1 h)
  · exact CanonicalAfter.fail _ _ _

/-- An encoded button takes four bytes. -/
@[simp] theorem Button.encode_length (button : Button) : button.encode.length = 4 := by
  cases button <;> rfl

/-- An encoded clipboard format takes four bytes. -/
@[simp] theorem ClipboardFormat.encode_length (format : ClipboardFormat) :
    format.encode.length = 4 := by
  cases format <;> rfl

namespace Message

/-- The payload decoder reads back every message whose payload fits 64-bit lengths. Each
variant is the sequence of its fields, so the cases follow the declaration. -/
theorem decodes {m : Message} (hfit : m.encode.length < 2 ^ 64) :
    Decodes decoder m.encode m := by
  cases m with
  | mouseMove x y =>
    exact (decodes_u32 0).bind ((decodes_u32 x).bind ((decodes_u32 y).map _))
  | mouseDelta dx dy =>
    exact (decodes_u32 1).bind ((decodes_u32 dx).bind ((decodes_u32 dy).map _))
  | mouseButton button pressed =>
    exact (decodes_u32 2).bind (button.decodes.bind ((decodes_bool pressed).map _))
  | mouseScroll dx dy =>
    exact (decodes_u32 3).bind ((decodes_u32 dx).bind ((decodes_u32 dy).map _))
  | keyPress keycode pressed =>
    exact (decodes_u32 4).bind ((decodes_u32 keycode).bind ((decodes_bool pressed).map _))
  | clipboardData format data =>
    have hdata : data.length < 2 ^ 64 := by
      simp only [encode, List.length_append, encodeVec_length] at hfit
      omega
    exact (decodes_u32 5).bind (format.decodes.bind ((decodes_vec hdata).map _))
  | clipboardBegin format totalSize width height =>
    exact (decodes_u32 6).bind (format.decodes.bind ((decodes_u32 totalSize).bind
      ((decodes_u32 width).bind ((decodes_u32 height).map _))))
  | clipboardChunk seq data =>
    have hdata : data.length < 2 ^ 64 := by
      simp only [encode, List.length_append, encodeVec_length] at hfit
      omega
    exact (decodes_u32 7).bind ((decodes_u32 seq).bind ((decodes_vec hdata).map _))
  | clipboardEnd hash => exact (decodes_u32 8).bind ((decodes_array hash).map _)
  | handshake version name screenWidth screenHeight =>
    have hname : name.toByteArray.data.toList.length < 2 ^ 64 := by
      simp only [encode, List.length_append, encodeString_length] at hfit
      omega
    exact (decodes_u32 9).bind ((decodes_u8 version).bind ((decodes_string hname).bind
      ((decodes_u32 screenWidth).bind ((decodes_u32 screenHeight).map _))))
  | heartbeat =>
    have h : Decodes decoder (encodeU32 10 ++ []) heartbeat :=
      (decodes_u32 10).bind (Decodes.pure _)
    rwa [List.append_nil] at h
  | screenConfig width height =>
    exact (decodes_u32 11).bind ((decodes_u32 width).bind ((decodes_u32 height).map _))
  | boundaryEnter targetScreen enterX enterY =>
    exact (decodes_u32 12).bind ((decodes_u8 targetScreen).bind
      ((decodes_u32 enterX).bind ((decodes_u32 enterY).map _)))
  | boundaryLeave sourceScreen =>
    exact (decodes_u32 13).bind ((decodes_u8 sourceScreen).map _)
  | pairRequest version name =>
    have hname : name.toByteArray.data.toList.length < 2 ^ 64 := by
      simp only [encode, List.length_append, encodeString_length] at hfit
      omega
    exact (decodes_u32 14).bind ((decodes_u8 version).bind ((decodes_string hname).map _))
  | pairSpake msg =>
    have hmsg : msg.length < 2 ^ 64 := by
      simp only [encode, List.length_append, encodeVec_length] at hfit
      omega
    exact (decodes_u32 15).bind ((decodes_vec hmsg).map _)
  | pairConfirm nonce ciphertext =>
    have hfits : nonce.length < 2 ^ 64 ∧ ciphertext.length < 2 ^ 64 := by
      simp only [encode, List.length_append, encodeVec_length] at hfit
      omega
    exact (decodes_u32 16).bind ((decodes_vec hfits.1).bind ((decodes_vec hfits.2).map _))
  | pairResult nonce ciphertext =>
    have hfits : nonce.length < 2 ^ 64 ∧ ciphertext.length < 2 ^ 64 := by
      simp only [encode, List.length_append, encodeVec_length] at hfit
      omega
    exact (decodes_u32 17).bind ((decodes_vec hfits.1).bind ((decodes_vec hfits.2).map _))
  | pairError reason =>
    have hreason : reason.toByteArray.data.toList.length < 2 ^ 64 := by
      simp only [encode, List.length_append, encodeString_length] at hfit
      omega
    exact (decodes_u32 18).bind ((decodes_string hreason).map _)

/-- A message that is read was written: the bytes read are its encoding. -/
theorem canonical : Canonical decoder encode := by
  refine canonical_u32.bind fun index => ?_
  rw [List.nil_append]
  unfold decodeVariant
  -- One case a variant, with its index in front of the fields.
  split <;> rename_i h
  · rw [encodeU32_of_toNat 0 h]
    exact canonical_u32.bind fun x => canonical_u32.bind fun y => .pure (by simp [encode])
  · rw [encodeU32_of_toNat 1 h]
    exact canonical_u32.bind fun dx => canonical_u32.bind fun dy => .pure (by simp [encode])
  · rw [encodeU32_of_toNat 2 h]
    exact Button.canonical.bind fun button => canonical_bool.bind fun pressed =>
      .pure (by simp [encode])
  · rw [encodeU32_of_toNat 3 h]
    exact canonical_u32.bind fun dx => canonical_u32.bind fun dy => .pure (by simp [encode])
  · rw [encodeU32_of_toNat 4 h]
    exact canonical_u32.bind fun keycode => canonical_bool.bind fun pressed =>
      .pure (by simp [encode])
  · rw [encodeU32_of_toNat 5 h]
    exact ClipboardFormat.canonical.bind fun format => canonical_vec.bind fun data =>
      .pure (by simp [encode])
  · rw [encodeU32_of_toNat 6 h]
    exact ClipboardFormat.canonical.bind fun format => canonical_u32.bind fun totalSize =>
      canonical_u32.bind fun width => canonical_u32.bind fun height => .pure (by simp [encode])
  · rw [encodeU32_of_toNat 7 h]
    exact canonical_u32.bind fun seq => canonical_vec.bind fun data => .pure (by simp [encode])
  · rw [encodeU32_of_toNat 8 h]
    exact (canonical_array 32).bind fun hash => .pure (by simp [encode])
  · rw [encodeU32_of_toNat 9 h]
    exact canonical_u8.bind fun version => canonical_string.bind fun name =>
      canonical_u32.bind fun screenWidth => canonical_u32.bind fun screenHeight =>
        .pure (by simp [encode])
  · rw [encodeU32_of_toNat 10 h]
    exact .pure (by simp [encode])
  · rw [encodeU32_of_toNat 11 h]
    exact canonical_u32.bind fun width => canonical_u32.bind fun height => .pure (by simp [encode])
  · rw [encodeU32_of_toNat 12 h]
    exact canonical_u8.bind fun targetScreen => canonical_u32.bind fun enterX =>
      canonical_u32.bind fun enterY => .pure (by simp [encode])
  · rw [encodeU32_of_toNat 13 h]
    exact canonical_u8.bind fun sourceScreen => .pure (by simp [encode])
  · rw [encodeU32_of_toNat 14 h]
    exact canonical_u8.bind fun version => canonical_string.bind fun name =>
      .pure (by simp [encode])
  · rw [encodeU32_of_toNat 15 h]
    exact canonical_vec.bind fun msg => .pure (by simp [encode])
  · rw [encodeU32_of_toNat 16 h]
    exact canonical_vec.bind fun nonce => canonical_vec.bind fun ciphertext =>
      .pure (by simp [encode])
  · rw [encodeU32_of_toNat 17 h]
    exact canonical_vec.bind fun nonce => canonical_vec.bind fun ciphertext =>
      .pure (by simp [encode])
  · rw [encodeU32_of_toNat 18 h]
    exact canonical_string.bind fun reason => .pure (by simp [encode])
  · exact CanonicalAfter.fail _ _ _

/-- Decoding the encoding of a message gives the message back, under any type tag. -/
theorem decode_encode {m : Message} (hfit : m.encode.length < 2 ^ 64) (t : MessageType) :
    decode t m.encode = .ok m := by
  have h := (decodes hfit).runPrefix []
  rw [List.append_nil] at h
  rw [decode, h]

end Message

end SuperShare
