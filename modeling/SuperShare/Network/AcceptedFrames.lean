import SuperShare.Network.Framing

/-!
# Which frames are accepted

A frame names the kind of its message twice: in the type byte of the header, and in the variant
index in front of the payload. It gives its length twice: in the header, and by what the payload
implies. The reader decodes the payload alone. The main result is that what it has consumed for
a message is what the writer writes for it exactly if the header agrees with the payload.
-/

namespace SuperShare

open Bincode ByteCodec

/-- The variant index in the payload of a message, which follows the declaration order. -/
def MessageType.variantIndex : MessageType → UInt32
  | mouseMove => 0
  | mouseDelta => 1
  | mouseButton => 2
  | mouseScroll => 3
  | keyPress => 4
  | clipboardData => 5
  | clipboardBegin => 6
  | clipboardChunk => 7
  | clipboardEnd => 8
  | handshake => 9
  | heartbeat => 10
  | screenConfig => 11
  | boundaryEnter => 12
  | boundaryLeave => 13
  | pairRequest => 14
  | pairSpake => 15
  | pairConfirm => 16
  | pairResult => 17
  | pairError => 18

/-- The variant index in front of a payload. -/
def payloadVariant (payload : List UInt8) : UInt32 := UInt32.ofNat (leValue (payload.take 4))

/-- The 64-bit length field at an offset. -/
def lengthAt (payload : List UInt8) (offset : ℕ) : ℕ := leValue ((payload.drop offset).take 8)

/-- The length that a payload implies: by its variant, and by the length fields in front of its
strings and vectors. -/
def impliedLength (payload : List UInt8) : ℕ :=
  match (payloadVariant payload).toNat with
  | 0 | 1 | 3 | 11 => 12
  | 2 | 4 => 9
  | 5 | 7 => 16 + lengthAt payload 8
  | 6 => 20
  | 8 => 36
  | 9 => 21 + lengthAt payload 5
  | 12 => 13
  | 13 => 5
  | 14 => 13 + lengthAt payload 5
  | 15 | 18 => 12 + lengthAt payload 4
  | 16 | 17 => 20 + lengthAt payload 4 + lengthAt payload (12 + lengthAt payload 4)
  | _ => 4

/-- The header of a frame agrees with its payload: the type byte is that of the payload's variant,
and the length is the one that the payload implies. -/
structure HeaderAgrees (frame : List UInt8) : Prop where
  type : ∀ t, MessageType.tryFrom (frame.getD 2 0) = .ok t →
    t.variantIndex = payloadVariant (frame.drop Frame.headerSize)
  length : frameLength frame = impliedLength (frame.drop Frame.headerSize)

/-- The types are numbered apart. -/
theorem MessageType.variantIndex_injective : Function.Injective variantIndex := by
  intro t u h
  cases t <;> cases u <;> first | rfl | exact absurd h (by decide)

/-- A tag byte that is known is the one of its type. -/
theorem MessageType.eq_toByte {value : UInt8} {t : MessageType} (h : tryFrom value = .ok t) :
    value = t.toByte := by
  unfold tryFrom at h
  split at h <;> cases h
  all_goals
    rename_i hvalue
    exact UInt8.toNat_inj.mp hvalue

/-- A payload starts with the index of its variant. -/
theorem Message.encode_variant (m : Message) :
    ∃ fields, m.encode = encodeU32 m.msgType.variantIndex ++ fields := by
  cases m with
  | heartbeat => exact ⟨[], (List.append_nil _).symm⟩
  | _ => exact ⟨_, rfl⟩

/-- The variant of a payload that starts with a message. -/
theorem payloadVariant_encode (m : Message) (trailing : List UInt8) :
    payloadVariant (m.encode ++ trailing) = m.msgType.variantIndex := by
  obtain ⟨fields, hfields⟩ := m.encode_variant
  have hlt := m.msgType.variantIndex.toNat_lt
  rw [payloadVariant, hfields, List.append_assoc, List.take_left' (encodeU32_length _), encodeU32,
    leValue_leBytes (by omega), UInt32.ofNat_toNat]

/-- The length field of a vector holds its length. -/
theorem lengthAt_vec (first data rest : List UInt8) (hdata : data.length < 2 ^ 64) :
    lengthAt (first ++ (encodeVec data ++ rest)) first.length = data.length := by
  have hfield : (encodeVec data ++ rest).take 8 = encodeU64 (UInt64.ofNat data.length) := by
    rw [encodeVec, List.append_assoc, List.take_left' (encodeU64_length _)]
  have hlength : (UInt64.ofNat data.length).toNat = data.length :=
    UInt64.toNat_ofNat_of_lt' hdata
  rw [lengthAt, List.drop_left, hfield, encodeU64, hlength, leValue_leBytes (by omega)]

/-- The length field of a string holds its length. -/
theorem lengthAt_string (first : List UInt8) (s : String) (rest : List UInt8)
    (hs : s.toByteArray.data.toList.length < 2 ^ 64) :
    lengthAt (first ++ (encodeString s ++ rest)) first.length =
      s.toByteArray.data.toList.length := lengthAt_vec first _ rest hs

/-- The two length fields of a pair of vectors after a variant index. -/
theorem lengthAt_pair (index : UInt32) (nonce ciphertext rest : List UInt8)
    (hnonce : nonce.length < 2 ^ 64) (hciphertext : ciphertext.length < 2 ^ 64) :
    let payload := encodeU32 index ++ (encodeVec nonce ++ (encodeVec ciphertext ++ rest))
    lengthAt payload 4 = nonce.length ∧
      lengthAt payload (12 + nonce.length) = ciphertext.length := by
  intro payload
  have hsecond := lengthAt_vec (encodeU32 index ++ encodeVec nonce) ciphertext rest hciphertext
  have hoffset : (encodeU32 index ++ encodeVec nonce).length = 12 + nonce.length := by
    rw [List.length_append, encodeU32_length, encodeVec_length]
    omega
  rw [List.append_assoc, hoffset] at hsecond
  exact ⟨lengthAt_vec (encodeU32 index) nonce _ hnonce, hsecond⟩

/-- A payload that starts with a message implies the length of its encoding. -/
theorem impliedLength_encode {m : Message} (hfit : m.encode.length < 2 ^ 64)
    (trailing : List UInt8) : impliedLength (m.encode ++ trailing) = m.encode.length := by
  unfold impliedLength
  rw [payloadVariant_encode m trailing]
  cases m with
  | clipboardData format data =>
    simp only [Message.encode, List.length_append, encodeVec_length] at hfit
    have hat := lengthAt_vec (encodeU32 5 ++ format.encode) data trailing (by omega)
    simp [Message.msgType, MessageType.variantIndex, Message.encode] at hat ⊢
    omega
  | clipboardChunk seq data =>
    simp only [Message.encode, List.length_append, encodeVec_length] at hfit
    have hat := lengthAt_vec (encodeU32 7 ++ encodeU32 seq) data trailing (by omega)
    simp [Message.msgType, MessageType.variantIndex, Message.encode] at hat ⊢
    omega
  | handshake version name screenWidth screenHeight =>
    simp only [Message.encode, List.length_append, encodeString_length] at hfit
    have hat := lengthAt_string (encodeU32 9 ++ encodeU8 version) name
      (encodeU32 screenWidth ++ encodeU32 screenHeight ++ trailing) (by omega)
    simp [Message.msgType, MessageType.variantIndex, Message.encode, encodeU8] at hat ⊢
    omega
  | pairRequest version name =>
    simp only [Message.encode, List.length_append, encodeString_length] at hfit
    have hat := lengthAt_string (encodeU32 14 ++ encodeU8 version) name trailing (by omega)
    simp [Message.msgType, MessageType.variantIndex, Message.encode, encodeU8] at hat ⊢
    omega
  | pairSpake msg =>
    simp only [Message.encode, List.length_append, encodeVec_length] at hfit
    have hat := lengthAt_vec (encodeU32 15) msg trailing (by omega)
    simp [Message.msgType, MessageType.variantIndex, Message.encode] at hat ⊢
    omega
  | pairError reason =>
    simp only [Message.encode, List.length_append, encodeString_length] at hfit
    have hat := lengthAt_string (encodeU32 18) reason trailing (by omega)
    simp [Message.msgType, MessageType.variantIndex, Message.encode] at hat ⊢
    omega
  | pairConfirm nonce ciphertext =>
    simp only [Message.encode, List.length_append, encodeVec_length] at hfit
    obtain ⟨hnonce, hciphertext⟩ :=
      lengthAt_pair 16 nonce ciphertext trailing (by omega) (by omega)
    simp [Message.msgType, MessageType.variantIndex, Message.encode, hnonce, hciphertext]
    omega
  | pairResult nonce ciphertext =>
    simp only [Message.encode, List.length_append, encodeVec_length] at hfit
    obtain ⟨hnonce, hciphertext⟩ :=
      lengthAt_pair 17 nonce ciphertext trailing (by omega) (by omega)
    simp [Message.msgType, MessageType.variantIndex, Message.encode, hnonce, hciphertext]
    omega
  | _ => simp [Message.msgType, MessageType.variantIndex, Message.encode, encodeU8]

/-- A header that is accepted is the magic, the tag of its type and its length. -/
theorem eq_of_parseHeader {header : List UInt8} (hheader : header.length = Frame.headerSize)
    {t : MessageType} {length : UInt32} (h : parseHeader header = .ok (t, length)) :
    header = frameMagic ++ (t.toByte :: encodeU32 length) ∧ length ≤ maxPayloadSize := by
  unfold parseHeader at h
  split at h
  · cases h
  · rename_i hmagic
    cases htype : MessageType.tryFrom (header.getD 2 0) with
    | error value =>
      rw [htype] at h
      cases h
    | ok u =>
      simp only [htype] at h
      split at h
      · cases h
      · rename_i hsmall
        obtain ⟨rfl, rfl⟩ := Prod.mk.inj (Except.ok.inj h)
        have hlast : (header.drop 3).length = 4 := by
          rw [List.length_drop, hheader]
          rfl
        have htake : (header.drop 3).take 4 = header.drop 3 :=
          List.take_of_length_le (Nat.le_of_eq hlast)
        have hlt : leValue (header.drop 3) < UInt32.size := by
          have hlt := leValue_lt (header.drop 3)
          rwa [hlast] at hlt
        have hlength : header.drop 3 =
            encodeU32 (UInt32.ofNat (leValue ((header.drop 3).take 4))) := by
          rw [htake, encodeU32, UInt32.toNat_ofNat_of_lt' hlt, leBytes_leValue hlast]
        have htwo : 2 < header.length := by
          rw [hheader]
          decide
        have htag : header.drop 2 = u.toByte :: header.drop 3 := by
          rw [← MessageType.eq_toByte htype, List.getD_eq_getElem?_getD,
            List.getElem?_eq_getElem htwo, Option.getD_some]
          exact List.drop_eq_getElem_cons htwo
        refine ⟨?_, UInt32.not_lt.mp hsmall⟩
        rw [← hlength, ← htag, ← not_not.mp hmagic, List.take_append_drop]

/-- What the reader has consumed for a message is a frame, whose payload is within the limit and is
decoded as the message. -/
theorem readFrame_run_some {bytes rest : List UInt8} {m : Message}
    (h : readFrame.run bytes = (.ok (some m), rest)) :
    ∃ frame : Frame, bytes = frame.toBytes ++ rest ∧
      frame.payload.length ≤ maxPayloadSize.toNat ∧
      Message.decode frame.msgType frame.payload = .ok m := by
  change (ByteReader.readExact Frame.headerSize _).run bytes = _ at h
  rw [ByteReader.run] at h
  split at h
  · rename_i hheader
    simp only [ByteReader.bind] at h
    cases hparse : parseHeader (bytes.take Frame.headerSize) with
    | error e =>
      simp only [hparse] at h
      cases h
    | ok result =>
      obtain ⟨t, length⟩ := result
      simp only [hparse] at h
      change (ByteReader.readExact length.toNat _).run _ = _ at h
      rw [ByteReader.run] at h
      split at h
      · rename_i hpayload
        simp only [ByteReader.bind] at h
        cases hdecode : Message.decode t ((bytes.drop Frame.headerSize).take length.toNat) with
        | error e =>
          simp only [hdecode] at h
          cases h
        | ok message =>
          simp only [hdecode] at h
          obtain ⟨hm, hrest⟩ := Prod.mk.inj h
          obtain rfl : message = m := Option.some.inj (Except.ok.inj hm)
          have hlength : ((bytes.drop Frame.headerSize).take length.toNat).length =
              length.toNat := List.length_take_of_le hpayload
          obtain ⟨hform, hsmall⟩ :=
            eq_of_parseHeader (List.length_take_of_le hheader) hparse
          refine ⟨⟨t, (bytes.drop Frame.headerSize).take length.toNat⟩, ?_, ?_, hdecode⟩
          · have hbytes : Frame.toBytes ⟨t, (bytes.drop Frame.headerSize).take length.toNat⟩ =
                bytes.take Frame.headerSize ++ (bytes.drop Frame.headerSize).take length.toNat := by
              rw [hform, Frame.toBytes, hlength, UInt32.ofNat_toNat, List.append_assoc,
                List.cons_append]
            rw [hbytes, ← hrest, List.append_assoc, List.take_append_drop, List.take_append_drop]
          · rw [hlength]
            exact UInt32.le_iff_toNat_le.mp hsmall
      · cases h
  · cases h

/-- A payload that is decoded starts with the encoding of the message. -/
theorem eq_of_decode {t : MessageType} {payload : List UInt8} {m : Message}
    (h : Message.decode t payload = .ok m) : ∃ trailing, payload = m.encode ++ trailing := by
  unfold Message.decode Decoder.runPrefix at h
  cases hdecode : Message.decoder payload with
  | error kind =>
    rw [hdecode] at h
    cases h
  | ok result =>
    rw [hdecode] at h
    obtain rfl := Except.ok.inj h
    exact ⟨result.2, Message.canonical payload result.1 result.2 hdecode⟩

/-- **Accepted frames.** What the reader consumes for a message is what the writer writes for it
exactly if the header agrees with the payload: its type byte is that of the payload's variant, and
its length is the one that the payload implies. -/
theorem readFrame_eq_writeFrame_iff {bytes rest : List UInt8} {m : Message}
    (h : readFrame.run bytes = (.ok (some m), rest)) :
    ∃ consumed, bytes = consumed ++ rest ∧ (consumed = writeFrame m ↔ HeaderAgrees consumed) := by
  obtain ⟨⟨t, payload⟩, hbytes, hsize, hdecode⟩ := readFrame_run_some h
  obtain ⟨trailing, rfl⟩ := eq_of_decode hdecode
  have hmax : maxPayloadSize.toNat = 16777216 := rfl
  have hpayload : (Frame.toBytes ⟨t, m.encode ++ trailing⟩).drop Frame.headerSize =
      m.encode ++ trailing := rfl
  have hlength : frameLength (Frame.toBytes ⟨t, m.encode ++ trailing⟩) =
      (m.encode ++ trailing).length := frameLength_toBytes (by omega)
  rw [List.length_append] at hsize hlength
  have himplied : impliedLength (m.encode ++ trailing) = m.encode.length :=
    impliedLength_encode (by omega) trailing
  refine ⟨_, hbytes, ?_⟩
  constructor
  · intro hframe
    have htag : t.toByte = m.msgType.toByte := congrArg (fun bytes => bytes.getD 2 0) hframe
    have hfields : m.encode ++ trailing = m.encode :=
      congrArg (List.drop Frame.headerSize) hframe
    have htype : t = m.msgType := by
      have hread := MessageType.tryFrom_toByte t
      rw [htag, MessageType.tryFrom_toByte] at hread
      exact (Except.ok.inj hread).symm
    constructor
    · intro u hu
      obtain rfl : t = u := by
        have hread : MessageType.tryFrom t.toByte = .ok u := hu
        rw [MessageType.tryFrom_toByte] at hread
        exact Except.ok.inj hread
      rw [hpayload, payloadVariant_encode, htype]
    · rw [hlength, hpayload, himplied, ← List.length_append, hfields]
  · intro hagrees
    have htype : t = m.msgType := by
      have hvariant := hagrees.type t (MessageType.tryFrom_toByte t)
      rw [hpayload, payloadVariant_encode] at hvariant
      exact MessageType.variantIndex_injective hvariant
    have htrailing : trailing = [] := by
      have hsame := hagrees.length
      rw [hlength, hpayload, himplied] at hsame
      exact List.eq_nil_of_length_eq_zero (by omega)
    rw [htype, htrailing, List.append_nil, writeFrame]

/-- What is consumed at a heartbeat. -/
theorem readFrame_eq_writeFrame_iff_heartbeat :
    ∃ consumed, writeFrame .heartbeat ++ [1, 2] = consumed ++ [1, 2] ∧
      (consumed = writeFrame .heartbeat ↔ HeaderAgrees consumed) :=
  readFrame_eq_writeFrame_iff (ByteReader.run_of_attempt (readFrame_attempt (by decide) [1, 2]))

/-- A frame whose header announces a heartbeat, with a request to leave as its payload, is read as
that request. -/
theorem readFrame_leave_as_heartbeat :
    ∃ frame : Frame, readFrame.run frame.toBytes = (.ok (some (.boundaryLeave 1)), []) ∧
      frame.toBytes ≠ writeFrame (.boundaryLeave 1) :=
  ⟨⟨.heartbeat, (Message.boundaryLeave 1).encode⟩, by decide, by decide⟩

end SuperShare
