import SuperShare.Clipboard.Reassembly
import SuperShare.Network.Framing

/-!
# Frame limits of clipboard transfers

A receiver refuses a payload of more than 16 MiB. The chunks of an image stay far below the
limit. A text is sent as one message and its length is not checked, so that a text fits
exactly when it leaves room for the sixteen bytes that its encoding adds.
-/

namespace SuperShare

open Bincode ByteCodec

/-- The frame of the message announces the length of its payload, which is within the limit,
and the peer reads it as the message. -/
structure Message.Accepted (m : Message) : Prop where
  length_exact : frameLength (writeFrame m) = m.encode.length
  length_le : m.encode.length ≤ maxPayloadSize.toNat
  read : ∀ rest, readFrame.attempt (writeFrame m ++ rest) = some (.ok (some m), rest)

/-- The text leaves room in a frame for its encoding. -/
def ClipboardContent.WithinFrame : ClipboardContent → Prop
  | text s => (utf8 s).length ≤ maxPayloadSize.toNat - 16
  | image .. => True

/-- A payload within the limit is accepted, and no other. -/
theorem Message.accepted_iff {m : Message} : m.Accepted ↔ m.Fits := by
  constructor
  · intro h
    exact h.length_le
  · intro hfit
    exact ⟨frameLength_toBytes hfit.lt, hfit, readFrame_attempt hfit⟩

/-- The encoding of a text message adds sixteen bytes. -/
theorem fits_text {data : List UInt8} :
    (Message.clipboardData .text data).Fits ↔ data.length ≤ maxPayloadSize.toNat - 16 := by
  have hlength : (Message.clipboardData .text data).encode.length = 16 + data.length := by
    simp only [Message.encode, List.length_append, encodeU32_length, encodeVec_length,
      ClipboardFormat.encode_length]
    omega
  have hmax : maxPayloadSize.toNat = 16777216 := rfl
  rw [Message.Fits, hlength]
  omega

/-- Every message of an image fits. -/
theorem fits_of_mem_image {lib : ClipboardLib} {width height : UInt32}
    {rgba compressed : List UInt8} {m : Message}
    (hm : m ∈ imageMessages lib width height rgba compressed) : m.Fits := by
  have hmax : maxPayloadSize.toNat = 16777216 := rfl
  rcases List.mem_cons.mp hm with rfl | hm
  · simp only [Message.Fits, Message.encode, List.length_append, encodeU32_length,
      ClipboardFormat.encode_length]
    omega
  rcases List.mem_append.mp hm with hchunk | hend
  · obtain ⟨⟨chunk, seq⟩, hmem, rfl⟩ := List.mem_map.mp hchunk
    have hpiece : chunk ∈ Chunks.chunks clipboardChunkSize compressed :=
      (List.mem_zipIdx' hmem).2 ▸ List.getElem_mem _
    have hsize : chunk.length ≤ 65536 := Chunks.length_le_of_mem_chunks hpiece
    simp only [Message.Fits, Message.encode, List.length_append, encodeU32_length,
      encodeVec_length]
    omega
  · obtain rfl := List.mem_singleton.mp hend
    have hhash : (encodeArray (lib.blake3 rgba)).length = 32 := Vector.length_toList
    simp only [Message.Fits, Message.encode, List.length_append, encodeU32_length, hhash]
    omega

/-- **Frame limits.** All messages of a transfer are accepted exactly when the content is an
image or a text that leaves room for its encoding. -/
theorem prepareTransfer_accepted_iff {lib : ClipboardLib} {content : ClipboardContent}
    {messages : List Message} (hprepare : prepareTransfer lib content = .ok messages) :
    (∀ m ∈ messages, m.Accepted) ↔ content.WithinFrame := by
  cases content with
  | text text =>
    obtain rfl : [.clipboardData .text (utf8 text)] = messages := Except.ok.inj hprepare
    rw [List.forall_mem_singleton, Message.accepted_iff, fits_text]
    rfl
  | image width height rgba =>
    obtain ⟨compressed, -, -, rfl⟩ := prepareTransfer_image hprepare
    constructor
    · intro _
      trivial
    · intro _ m hm
      exact Message.accepted_iff.mpr (fits_of_mem_image hm)

/-- The limits at a text of five bytes. -/
theorem prepareTransfer_accepted_iff_hello :
    (∀ m ∈ [Message.clipboardData .text (utf8 "hello")], m.Accepted) ↔
      (ClipboardContent.text "hello").WithinFrame :=
  @prepareTransfer_accepted_iff pixelLib (.text "hello") _ rfl

/-- A text of so many letters. -/
def letters (n : ℕ) : String := String.ofList (List.replicate n 'a')

/-- A letter is one byte. -/
theorem length_utf8_letters (n : ℕ) : (utf8 (letters n)).length = n := by
  have hletter : String.utf8EncodeChar 'a' = [97] := by decide
  have hbytes : (List.replicate n 'a').flatMap String.utf8EncodeChar = List.replicate n 97 := by
    induction n with
    | zero => rfl
    | succ n ih => rw [List.replicate_succ, List.flatMap_cons, ih, hletter]; rfl
  rw [utf8, letters, String.toByteArray_ofList, List.utf8Encode, hbytes]
  simp

/-- A text of 16 MiB less fifteen bytes is prepared, but its frame is refused. -/
theorem prepareTransfer_letters_refused :
    ∃ messages, prepareTransfer pixelLib (.text (letters 16777201)) = .ok messages ∧
      ¬ ∀ m ∈ messages, m.Accepted := by
  refine ⟨[.clipboardData .text (utf8 (letters 16777201))], rfl, ?_⟩
  have hmax : maxPayloadSize.toNat = 16777216 := rfl
  rw [List.forall_mem_singleton, Message.accepted_iff, fits_text, length_utf8_letters]
  omega

end SuperShare
