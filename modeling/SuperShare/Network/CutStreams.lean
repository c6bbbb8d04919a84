import SuperShare.Network.Framing

/-!
# Streams that are cut off

A connection can be lost at any byte. The reader returns the messages whose frames have arrived
in whole, and then reports a clean end or an error. It takes the end of the stream inside a
header for a clean end, so that the report is right exactly if the cut is not there.
-/

namespace SuperShare

open Bincode ByteCodec

/-- The messages whose frames lie within the first bytes of their stream, and how many bytes
follow the last of these frames. -/
def wholeFrames : ℕ → List Message → List Message × ℕ
  | length, [] => ([], length)
  | length, m :: messages =>
      if (writeFrame m).length ≤ length then
        let (whole, left) := wholeFrames (length - (writeFrame m).length) messages
        (m :: whole, left)
      else ([], length)

/-- What the reader should return for a stream that is cut off: the messages that have arrived in
whole, and then a clean end if the cut is at the end of a frame and an error otherwise. -/
def ReportsCut (messages : List Message) (length : ℕ)
    (results : List (Except FrameError (Option Message))) : Prop :=
  ∃ last, results = (wholeFrames length messages).1.map (fun m => .ok (some m)) ++ [last] ∧
    if (wholeFrames length messages).2 = 0 then last = .ok none else ∃ e, last = .error e

/-- The cut is at the end of a frame, or after a whole header. -/
def CutOutsideHeader (messages : List Message) (length : ℕ) : Prop :=
  (wholeFrames length messages).2 = 0 ∨
    Frame.headerSize ≤ (wholeFrames length messages).2

/-- A stream that ends in a header is taken for a clean end. -/
theorem readFrame_run_header {cut : List UInt8} (hcut : cut.length < Frame.headerSize) :
    readFrame.run cut = (.ok none, []) := by
  change (ByteReader.readExact Frame.headerSize _).run cut = _
  rw [ByteReader.run, if_neg (Nat.not_le.mpr hcut)]
  rfl

/-- A stream that ends in a payload is an error. -/
theorem readFrame_run_payload {m : Message} (hfit : m.Fits) {cut : List UInt8}
    (hcut : cut <+: writeFrame m) (hlt : cut.length < (writeFrame m).length)
    (hheader : Frame.headerSize ≤ cut.length) :
    readFrame.run cut = (.error .unexpectedEof, []) := by
  obtain ⟨more, hmore⟩ := hcut
  let header := frameMagic ++ (m.msgType.toByte :: encodeU32 (UInt32.ofNat m.encode.length))
  have hlength : header.length = Frame.headerSize := by
    simp [header, frameMagic, Frame.headerSize]
  have hframe : writeFrame m = header ++ m.encode := by
    simp [writeFrame, Frame.toBytes, header]
  have htake : cut.take Frame.headerSize = header := by
    rw [← List.take_append_of_le_length hheader, hmore, hframe, List.take_left' hlength]
  have hparse : parseHeader header = .ok (m.msgType, UInt32.ofNat m.encode.length) :=
    parseHeader_writeFrame hfit
  have hpayload : (UInt32.ofNat m.encode.length).toNat = m.encode.length :=
    UInt32.toNat_ofNat_of_lt' hfit.lt
  have hshort : ¬ (UInt32.ofNat m.encode.length).toNat ≤
      (cut.drop Frame.headerSize).length := by
    rw [hframe, List.length_append, hlength] at hlt
    rw [hpayload, List.length_drop]
    omega
  change (ByteReader.readExact Frame.headerSize _).run cut = _
  rw [ByteReader.run, if_pos hheader, htake]
  simp only [ByteReader.bind, hparse]
  change (ByteReader.readExact (UInt32.ofNat m.encode.length).toNat _).run _ = _
  rw [ByteReader.run, if_neg hshort]
  rfl

/-- A call on a stream that has ended returns its result as the last one. -/
theorem readFrames_stop {pieces : List (List UInt8)} {stop : Except FrameError (Option Message)}
    (hstop : ∀ m, stop ≠ .ok (some m)) (h : readFrame.run pieces.flatten = (stop, []))
    (calls : ℕ) : readFrames (calls + 1) pieces = [stop] := by
  have hrun := readFrame.runPieces_eq_run pieces
  rw [h, Prod.mk.injEq] at hrun
  have hresult : readFrame.runPieces pieces = (stop, (readFrame.runPieces pieces).2) :=
    Prod.ext hrun.1 rfl
  rw [readFrames, hresult]
  split
  · rename_i m _ heq
    exact absurd (Prod.mk.inj heq).1 (hstop m)
  · rename_i heq
    rw [(Prod.mk.inj heq).1]

/-- What the reader returns for a stream that is cut off: an error exactly when a whole header
has arrived after the last whole frame. -/
theorem readFrames_cut {messages : List Message} (hfit : ∀ m ∈ messages, m.Fits)
    {pieces : List (List UInt8)} (hstream : pieces.flatten <+: writeFrames messages) {calls : ℕ}
    (hcalls : messages.length < calls) :
    readFrames calls pieces =
      (wholeFrames pieces.flatten.length messages).1.map (fun m => .ok (some m)) ++
        [if (wholeFrames pieces.flatten.length messages).2 < Frame.headerSize then .ok none
          else .error .unexpectedEof] := by
  induction messages generalizing pieces calls with
  | nil =>
    obtain ⟨calls, rfl⟩ := Nat.exists_eq_add_of_lt hcalls
    have hnil : pieces.flatten = [] := List.prefix_nil.mp hstream
    rw [hnil]
    exact readFrames_nil hnil _
  | cons m messages ih =>
    obtain ⟨hm, hmessages⟩ := List.forall_mem_cons.mp hfit
    obtain ⟨calls, rfl⟩ : ∃ c, calls = c + 1 := ⟨calls - 1, by omega⟩
    rw [writeFrames_cons] at hstream
    by_cases hwhole : (writeFrame m).length ≤ pieces.flatten.length
    · -- The first frame has arrived in whole.
      obtain ⟨rest, hrest⟩ : writeFrame m <+: pieces.flatten :=
        List.prefix_of_prefix_length_le (List.prefix_append ..) hstream hwhole
      have hnext : rest <+: writeFrames messages := by
        rw [← hrest] at hstream
        exact (List.prefix_append_right_inj _).mp hstream
      obtain ⟨left, hleft, hread⟩ := readFrames_writeFrame hm hrest.symm calls
      have hlength : pieces.flatten.length - (writeFrame m).length = left.flatten.length := by
        rw [← hrest, List.length_append, hleft]
        omega
      rw [hread, wholeFrames, if_pos hwhole, hlength,
        ih hmessages (by rwa [hleft]) (by rw [List.length_cons] at hcalls; omega)]
      rfl
    · -- The stream ends in the first frame.
      have hcut : pieces.flatten <+: writeFrame m :=
        List.prefix_of_prefix_length_le hstream (List.prefix_append ..) (by omega)
      rw [wholeFrames, if_neg hwhole]
      by_cases hheader : pieces.flatten.length < Frame.headerSize
      · rw [if_pos hheader]
        exact readFrames_stop (by simp) (readFrame_run_header hheader) calls
      · rw [if_neg hheader]
        exact readFrames_stop (by simp)
          (readFrame_run_payload hm hcut (by omega) (Nat.le_of_not_lt hheader)) calls

/-- **Cut streams.** However a stream of frames is cut off and arrives in pieces, reading it to
its end returns the messages that have arrived in whole and then a clean end or an error as it
should, exactly if the cut is not inside a header. -/
theorem readFrames_reports_cut_iff {messages : List Message} (hfit : ∀ m ∈ messages, m.Fits)
    {pieces : List (List UInt8)} (hstream : pieces.flatten <+: writeFrames messages) {calls : ℕ}
    (hcalls : messages.length < calls) :
    ReportsCut messages pieces.flatten.length (readFrames calls pieces) ↔
      CutOutsideHeader messages pieces.flatten.length := by
  have hsize : 0 < Frame.headerSize := by decide
  rw [readFrames_cut hfit hstream hcalls, CutOutsideHeader]
  constructor
  · rintro ⟨last, hlast, hreport⟩
    obtain rfl := List.singleton_inj.mp (List.append_cancel_left hlast)
    by_contra hinside
    obtain ⟨hnonzero, hheader⟩ := not_or.mp hinside
    rw [if_neg hnonzero, if_pos (Nat.lt_of_not_le hheader)] at hreport
    obtain ⟨e, he⟩ := hreport
    cases he
  · intro houtside
    refine ⟨_, rfl, ?_⟩
    rcases houtside with hend | hheader
    · rw [if_pos hend, if_pos (by omega)]
    · rw [if_neg (by omega), if_neg (Nat.not_lt.mpr hheader)]
      exact ⟨_, rfl⟩

/-- A handshake cut off in its payload, in two pieces. -/
theorem readFrames_reports_cut_iff_handshake :
    let frame := writeFrame (.handshake 1 "laptop" 1920 1080)
    ReportsCut [.handshake 1 "laptop" 1920 1080] 12
        (readFrames 2 [frame.take 5, (frame.drop 5).take 7]) ↔
      CutOutsideHeader [.handshake 1 "laptop" 1920 1080] 12 :=
  @readFrames_reports_cut_iff [.handshake 1 "laptop" 1920 1080] (by decide)
    [(writeFrame (.handshake 1 "laptop" 1920 1080)).take 5,
      ((writeFrame (.handshake 1 "laptop" 1920 1080)).drop 5).take 7] (by decide) 2 (by decide)

/-- Three bytes of a heartbeat are reported as a clean end. -/
theorem heartbeat_cut_in_header :
    readFrames 2 [(writeFrame .heartbeat).take 3] = [.ok none] ∧
      ¬ ReportsCut [.heartbeat] 3 (readFrames 2 [(writeFrame .heartbeat).take 3]) := by
  have hread : readFrames 2 [(writeFrame .heartbeat).take 3] = [.ok none] := by decide
  have hwhole : (wholeFrames 3 [.heartbeat]).1 = [] := by decide
  refine ⟨hread, ?_⟩
  rintro ⟨last, hlast, hreport⟩
  obtain ⟨e, he⟩ := hreport
  rw [hread, hwhole, he] at hlast
  cases List.singleton_inj.mp hlast

end SuperShare
