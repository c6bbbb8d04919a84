import SuperShare.Core.Protocol
import SuperShare.Lib.ByteReader

/-!
# Reading and writing frames

`read_frame` and `write_frame`. The reader is a program over the byte stream, so that the
same text serves a connection that is read to its end, one that arrives in pieces, and one
whose pending read is dropped. The main result is that reading frames to the end of the
stream undoes writing them, however the bytes arrive.
-/

namespace SuperShare

open Bincode ByteCodec

/-- What `read_frame` reports as an error. -/
inductive FrameError where
  /-- `Invalid frame magic`, with the two bytes found. -/
  | invalidMagic (got : List UInt8)
  /-- `Unknown message type`, with the tag byte. -/
  | unknownMessageType (value : UInt8)
  /-- `Frame payload too large`, with the length announced. -/
  | payloadTooLarge (length : UInt32)
  /-- The stream ended inside a payload. -/
  | unexpectedEof
  /-- `bincode deserialize error`, with the type tag and the kind of error. -/
  | decode (msgType : MessageType) (kind : ErrorKind)
  deriving DecidableEq

/-- Check the seven header bytes in the order of the source: magic, type, length. -/
def parseHeader (header : List UInt8) : Except FrameError (MessageType × UInt32) :=
  if header.take 2 ≠ frameMagic then .error (.invalidMagic (header.take 2))
  else
    match MessageType.tryFrom (header.getD 2 0) with
    | .error value => .error (.unknownMessageType value)
    | .ok msgType =>
      let length := UInt32.ofNat (leValue ((header.drop 3).take 4))
      if length > maxPayloadSize then .error (.payloadTooLarge length)
      else .ok (msgType, length)

/-- Read a single framed message, or `none` when the stream ends in a header. -/
def readFrame : ByteReader (Except FrameError (Option Message)) := do
  match ← ByteReader.read Frame.headerSize with
  | none => return .ok none
  | some header =>
    match parseHeader header with
    | .error e => return .error e
    | .ok (msgType, length) =>
      match ← ByteReader.read length.toNat with
      | none => return .error .unexpectedEof
      | some payload =>
        match Message.decode msgType payload with
        | .error (msgType, kind) => return .error (.decode msgType kind)
        | .ok message => return .ok (some message)

/-- The bytes `write_frame` puts on the stream for a message. -/
def writeFrame (message : Message) : List UInt8 :=
  Frame.toBytes ⟨message.msgType, message.encode⟩

/-- The bytes a list of messages puts on the stream. -/
def writeFrames (messages : List Message) : List UInt8 := messages.flatMap writeFrame

/-- The payload length in the header of a frame. -/
def frameLength (bytes : List UInt8) : ℕ := leValue ((bytes.drop 3).take 4)

/-- The payload is one the reader's size check lets through. -/
def Message.Fits (m : Message) : Prop := m.encode.length ≤ maxPayloadSize.toNat

instance (m : Message) : Decidable m.Fits := Nat.decLe _ _

/-- The results of up to `calls` successive `read_frame` calls on a stream that arrives in
pieces and then ends. A caller stops at the first result that is not a message. -/
def readFrames : ℕ → List (List UInt8) → List (Except FrameError (Option Message))
  | 0, _ => []
  | calls + 1, pieces =>
      match readFrame.runPieces pieces with
      | (.ok (some message), rest) => .ok (some message) :: readFrames calls rest
      | (stop, _) => [stop]

/-- A message that fits has a payload below 2^32 bytes. -/
theorem Message.Fits.lt {m : Message} (h : m.Fits) : m.encode.length < 2 ^ 32 := by
  have hmax : maxPayloadSize.toNat = 16777216 := rfl
  unfold Message.Fits at h
  omega

/-- The header of a frame announces the length of its payload. -/
theorem frameLength_toBytes {frame : Frame} (hlt : frame.payload.length < 2 ^ 32) :
    frameLength frame.toBytes = frame.payload.length := by
  have hlength : (UInt32.ofNat frame.payload.length).toNat = frame.payload.length :=
    UInt32.toNat_ofNat_of_lt' hlt
  have hdrop : frame.toBytes.drop 3 =
      encodeU32 (UInt32.ofNat frame.payload.length) ++ frame.payload := rfl
  rw [frameLength, hdrop, List.take_left' (encodeU32_length _), encodeU32, hlength,
    leValue_leBytes hlt]

/-- The header of a written frame is read with the type and the exact length, and refused if
the length is too large. -/
theorem parseHeader_frame {m : Message} (hlt : m.encode.length < 2 ^ 32) :
    parseHeader (frameMagic ++ (m.msgType.toByte :: encodeU32 (UInt32.ofNat m.encode.length))) =
      if UInt32.ofNat m.encode.length > maxPayloadSize then
        .error (.payloadTooLarge (UInt32.ofNat m.encode.length))
      else .ok (m.msgType, UInt32.ofNat m.encode.length) := by
  have hlength : (UInt32.ofNat m.encode.length).toNat = m.encode.length := by
    rw [UInt32.toNat_ofNat']
    exact Nat.mod_eq_of_lt hlt
  have htake : (encodeU32 (UInt32.ofNat m.encode.length)).take 4 =
      encodeU32 (UInt32.ofNat m.encode.length) :=
    List.take_of_length_le (by rw [encodeU32_length])
  have hread : UInt32.ofNat (leValue (encodeU32 (UInt32.ofNat m.encode.length))) =
      UInt32.ofNat m.encode.length := by
    rw [encodeU32, leValue_leBytes (by have := (UInt32.ofNat m.encode.length).toNat_lt; omega),
      hlength]
  have hmagic : ¬ (frameMagic ++ (m.msgType.toByte ::
      encodeU32 (UInt32.ofNat m.encode.length))).take 2 ≠ frameMagic := by
    simp [frameMagic]
  have htype : (frameMagic ++ (m.msgType.toByte ::
      encodeU32 (UInt32.ofNat m.encode.length))).getD 2 0 = m.msgType.toByte := rfl
  have hdrop : (frameMagic ++ (m.msgType.toByte ::
      encodeU32 (UInt32.ofNat m.encode.length))).drop 3 =
        encodeU32 (UInt32.ofNat m.encode.length) := rfl
  unfold parseHeader
  rw [if_neg hmagic, htype, MessageType.tryFrom_toByte, hdrop]
  simp only [htake, hread]

/-- The length in the header of a frame is too large exactly if the message does not fit. -/
theorem lengthTooLarge_iff {m : Message} (hlt : m.encode.length < 2 ^ 32) :
    UInt32.ofNat m.encode.length > maxPayloadSize ↔ ¬ m.Fits := by
  rw [gt_iff_lt, UInt32.lt_iff_toNat_lt, UInt32.toNat_ofNat', Nat.mod_eq_of_lt hlt, Message.Fits,
    Nat.not_le]

/-- The header of a frame that fits is accepted. -/
theorem parseHeader_writeFrame {m : Message} (hfit : m.Fits) :
    parseHeader (frameMagic ++ (m.msgType.toByte :: encodeU32 (UInt32.ofNat m.encode.length))) =
      .ok (m.msgType, UInt32.ofNat m.encode.length) := by
  have hsmall : ¬ UInt32.ofNat m.encode.length > maxPayloadSize := by
    rw [lengthTooLarge_iff hfit.lt, not_not]
    exact hfit
  rw [parseHeader_frame hfit.lt, if_neg hsmall]

/-- A reader that has a whole written frame in front of it returns its message and leaves exactly
the bytes after it, or refuses a frame that is too large once its header is there. -/
theorem readFrame_attempt_frame {m : Message} (hlt : m.encode.length < 2 ^ 32)
    (rest : List UInt8) :
    readFrame.attempt (writeFrame m ++ rest) =
      if UInt32.ofNat m.encode.length > maxPayloadSize then
        some (.error (.payloadTooLarge (UInt32.ofNat m.encode.length)), m.encode ++ rest)
      else some (.ok (some m), rest) := by
  let header := frameMagic ++ (m.msgType.toByte :: encodeU32 (UInt32.ofNat m.encode.length))
  have hheader : header.length = Frame.headerSize := by
    simp [header, frameMagic, Frame.headerSize]
  have hbytes : writeFrame m ++ rest = header ++ (m.encode ++ rest) := by
    simp [writeFrame, Frame.toBytes, header]
  have hle : Frame.headerSize ≤ (header ++ (m.encode ++ rest)).length := by
    rw [List.length_append]
    omega
  have hparse : parseHeader header = _ := parseHeader_frame hlt
  rw [hbytes]
  change (ByteReader.readExact Frame.headerSize _).attempt _ = _
  rw [ByteReader.attempt, if_pos hle, List.take_left' hheader, List.drop_left' hheader]
  by_cases hlarge : UInt32.ofNat m.encode.length > maxPayloadSize
  · rw [if_pos hlarge] at hparse ⊢
    simp only [ByteReader.bind, hparse]
    rfl
  · have hlength : (UInt32.ofNat m.encode.length).toNat = m.encode.length := by
      rw [UInt32.toNat_ofNat']
      exact Nat.mod_eq_of_lt hlt
    have hle' : (UInt32.ofNat m.encode.length).toNat ≤ (m.encode ++ rest).length := by
      rw [hlength, List.length_append]
      omega
    have hdecode : Message.decode m.msgType m.encode = .ok m :=
      Message.decode_encode (by omega) m.msgType
    rw [if_neg hlarge] at hparse ⊢
    simp only [ByteReader.bind, hparse]
    change (ByteReader.readExact (UInt32.ofNat m.encode.length).toNat _).attempt _ = _
    rw [ByteReader.attempt, if_pos hle', List.take_left' hlength.symm, List.drop_left' hlength.symm]
    simp only [ByteReader.bind, hdecode]
    rfl

/-- A frame that is too large is refused once its header is there. -/
theorem readFrame_attempt_oversized {m : Message} (hlarge : ¬ m.Fits)
    (hlt : m.encode.length < 2 ^ 32) (rest : List UInt8) :
    readFrame.attempt (writeFrame m ++ rest) =
      some (.error (.payloadTooLarge (UInt32.ofNat m.encode.length)), m.encode ++ rest) := by
  rw [readFrame_attempt_frame hlt, if_pos ((lengthTooLarge_iff hlt).mpr hlarge)]

/-- A reader that has a whole written frame in front of it returns its message and leaves
exactly the bytes after it. -/
theorem readFrame_attempt {m : Message} (hfit : m.Fits) (rest : List UInt8) :
    readFrame.attempt (writeFrame m ++ rest) = some (.ok (some m), rest) := by
  have hsmall : ¬ UInt32.ofNat m.encode.length > maxPayloadSize := by
    rw [lengthTooLarge_iff hfit.lt, not_not]
    exact hfit
  rw [readFrame_attempt_frame hfit.lt, if_neg hsmall]

/-- Writing a list of messages writes the first frame and then the others. -/
@[simp] theorem writeFrames_cons (m : Message) (messages : List Message) :
    writeFrames (m :: messages) = writeFrame m ++ writeFrames messages := List.flatMap_cons

/-- Calls on a stream that starts with a written frame return its message first, whatever
pieces the frame is cut into. -/
theorem readFrames_writeFrame {m : Message} (hfit : m.Fits) {rest : List UInt8}
    {pieces : List (List UInt8)} (hpieces : pieces.flatten = writeFrame m ++ rest) (calls : ℕ) :
    ∃ left, left.flatten = rest ∧
      readFrames (calls + 1) pieces = .ok (some m) :: readFrames calls left := by
  have hrun := readFrame.runPieces_eq_run pieces
  rw [hpieces, ByteReader.run_of_attempt (readFrame_attempt hfit rest), Prod.mk.injEq] at hrun
  refine ⟨(readFrame.runPieces pieces).2, hrun.2, ?_⟩
  have hresult : readFrame.runPieces pieces =
      (.ok (some m), (readFrame.runPieces pieces).2) := Prod.ext hrun.1 rfl
  rw [readFrames, hresult]

/-- Calls on an exhausted stream report a clean end. -/
theorem readFrames_nil {pieces : List (List UInt8)} (hpieces : pieces.flatten = []) (calls : ℕ) :
    readFrames (calls + 1) pieces = [.ok none] := by
  have hrun := readFrame.runPieces_eq_run pieces
  have hnil : readFrame.run [] = (.ok none, []) := rfl
  rw [hpieces, hnil, Prod.mk.injEq] at hrun
  have hresult : readFrame.runPieces pieces =
      (.ok none, (readFrame.runPieces pieces).2) := Prod.ext hrun.1 rfl
  rw [readFrames, hresult]

/-- **Framing round trip.** Reading to the end of a stream returns exactly the messages that
were written, in order, and then a clean end, however the bytes are cut into pieces. -/
theorem readFrames_writeFrames {messages : List Message} (hfit : ∀ m ∈ messages, m.Fits)
    {pieces : List (List UInt8)} (hpieces : pieces.flatten = writeFrames messages)
    {calls : ℕ} (hcalls : messages.length < calls) :
    readFrames calls pieces = messages.map (fun m => .ok (some m)) ++ [.ok none] := by
  induction messages generalizing pieces calls with
  | nil =>
    obtain ⟨calls, rfl⟩ := Nat.exists_eq_add_of_lt hcalls
    rw [List.map_nil, List.nil_append]
    exact readFrames_nil hpieces _
  | cons m messages ih =>
    obtain ⟨hm, hmessages⟩ := List.forall_mem_cons.mp hfit
    obtain ⟨calls, rfl⟩ : ∃ c, calls = c + 1 := ⟨calls - 1, by omega⟩
    rw [writeFrames_cons] at hpieces
    obtain ⟨left, hleft, hread⟩ := readFrames_writeFrame hm hpieces calls
    rw [hread, ih hmessages hleft (by rw [List.length_cons] at hcalls; omega)]
    rfl

/-- The round trip at a handshake and a heartbeat, cut inside a header and inside a payload. -/
theorem readFrames_writeFrames_handshake_heartbeat :
    readFrames 3 ((writeFrames [.handshake 1 "laptop" 1920 1080, .heartbeat]).take 3 ::
        ((writeFrames [.handshake 1 "laptop" 1920 1080, .heartbeat]).drop 3).take 20 ::
        [(writeFrames [.handshake 1 "laptop" 1920 1080, .heartbeat]).drop 23]) =
      [.ok (some (.handshake 1 "laptop" 1920 1080)), .ok (some .heartbeat), .ok none] :=
  @readFrames_writeFrames [.handshake 1 "laptop" 1920 1080, .heartbeat] (by decide) _
    (by decide) _ (by decide)

end SuperShare
