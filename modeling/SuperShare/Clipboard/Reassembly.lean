import Mathlib.Data.List.Perm.Basic
import Mathlib.Data.Set.List
import SuperShare.Clipboard.Transfer

/-!
# Reassembly of a clipboard transfer

The messages of one transfer give its content back: whatever the reassembler holds before,
in whatever order the chunks arrive, and whatever other messages come between them.
-/

namespace SuperShare

open ByteCodec

/-- The messages that a reassembler takes part in. -/
def Message.isTransfer : Message → Bool
  | clipboardBegin .. | clipboardChunk .. | clipboardEnd .. => true
  | _ => false

/-- A message other than a chunk. -/
def Message.hideChunk : Message → Option Message
  | clipboardChunk .. => none
  | m => some m

/-- The chunk messages have changed places among themselves. -/
structure ChunksReordered (messages arrived : List Message) : Prop where
  perm : arrived.Perm messages
  others : arrived.map Message.hideChunk = messages.map Message.hideChunk

/-- A message that arrives, of the transfer in question or not. -/
structure Arrival where
  own : Bool
  msg : Message

/-- The messages of the transfer, as they arrive. -/
def ownMessages (stream : List Arrival) : List Message :=
  (stream.filter Arrival.own).map Arrival.msg

/-- What is returned at the messages of the transfer. -/
def ownResults (lib : ClipboardLib) (reassembler : Option ClipboardReassembler)
    (stream : List Arrival) : List (Option ClipboardContent) :=
  ((stream.zip (receiveClipboard lib reassembler (stream.map Arrival.msg))).filter
    fun p => p.1.own).map Prod.snd

/-- The reassembler after a list of messages. -/
def reassemblerAfter (lib : ClipboardLib) (reassembler : Option ClipboardReassembler)
    (messages : List Message) : Option ClipboardReassembler :=
  Run.final (handleClipboardMessage lib) reassembler messages

/-- A chunk with its number, as a message. -/
def chunkMessage (chunk : UInt32 × List UInt8) : Message := .clipboardChunk chunk.1 chunk.2

/-- The numbered chunks of compressed data. -/
def numberedChunks (compressed : List UInt8) : List (UInt32 × List UInt8) :=
  (Chunks.chunks clipboardChunkSize compressed).zipIdx.map fun (chunk, seq) =>
    (UInt32.ofNat seq, chunk)

variable {lib : ClipboardLib}

/-- The bytes of a text are read as the text. -/
@[simp] theorem fromUtf8Lossy_utf8 (text : String) : fromUtf8Lossy (utf8 text) = text := by
  have hbytes : String.fromUTF8? ⟨(utf8 text).toArray⟩ = some text := by
    rw [utf8, Array.toArray_toList]
    exact dif_pos text.isValidUTF8
  rw [fromUtf8Lossy, hbytes]

/-- A message that is not of a transfer leaves the reassembler alone. -/
theorem handle_of_not_transfer {m : Message} (h : m.isTransfer = false)
    (reassembler : Option ClipboardReassembler) :
    (handleClipboardMessage lib reassembler m).1 = reassembler := by
  cases m with
  | clipboardBegin | clipboardChunk | clipboardEnd => exact absurd h (by simp [Message.isTransfer])
  | clipboardData format data => cases format <;> rfl
  | _ => rfl

/-- Other messages do not show in what the messages of the transfer do. -/
theorem ownResults_eq {stream : List Arrival}
    (hother : ∀ a ∈ stream, a.own = false → a.msg.isTransfer = false)
    (reassembler : Option ClipboardReassembler) :
    ownResults lib reassembler stream = receiveClipboard lib reassembler (ownMessages stream) ∧
      reassemblerAfter lib reassembler (stream.map Arrival.msg) =
        reassemblerAfter lib reassembler (ownMessages stream) := by
  have hskip : ∀ a ∈ stream, a.own = false → ∀ r : Option ClipboardReassembler,
      (handleClipboardMessage lib r a.msg).1 = r :=
    fun a ha hown r => handle_of_not_transfer (hother a ha hown) r
  let react := fun (r : Option ClipboardReassembler) (a : Arrival) =>
    handleClipboardMessage lib r a.msg
  have hrun := @Run.outputs_filter _ _ _ react Arrival.own reassembler stream hskip
  constructor
  · rw [ownResults, receiveClipboard, Run.outputs_map, hrun.1, receiveClipboard, ownMessages,
      Run.outputs_map]
  · simp only [reassemblerAfter, Run.final, ownMessages, List.foldl_map]
    exact hrun.2

/-- The chunk messages are the numbered chunks. -/
theorem chunkMessages_eq (compressed : List UInt8) :
    chunkMessages compressed = (numberedChunks compressed).map chunkMessage := by
  rw [chunkMessages, numberedChunks, List.map_map]
  rfl

/-- A compressed image within the limit has few chunks. -/
theorem length_chunks_le {compressed : List UInt8}
    (hsize : compressed.length ≤ maxClipboardImageSize) :
    (Chunks.chunks clipboardChunkSize compressed).length ≤ 160 := by
  rw [Chunks.length_chunks]
  exact Chunks.count_le (by decide) hsize

/-- The numbers of the chunks increase. -/
theorem pairwise_numberedChunks {compressed : List UInt8}
    (hsize : compressed.length ≤ maxClipboardImageSize) :
    (numberedChunks compressed).Pairwise fun a b => a.1.toNat < b.1.toNat := by
  have hlength := length_chunks_le hsize
  have hnumbers : (numberedChunks compressed).map (fun chunk => chunk.1.toNat) =
      List.range' 0 (Chunks.chunks clipboardChunkSize compressed).length := by
    rw [numberedChunks, List.map_map, ← List.zipIdx_map_snd]
    refine List.map_congr_left fun chunk hchunk => ?_
    have hlt := List.snd_lt_of_mem_zipIdx hchunk
    simp only [Function.comp_apply, UInt32.toNat_ofNat']
    omega
  rw [← List.pairwise_map (f := fun chunk : UInt32 × List UInt8 => chunk.1.toNat), hnumbers]
  exact List.pairwise_lt_range'

/-- The numbered chunks make up the data. -/
theorem flatMap_numberedChunks (compressed : List UInt8) :
    (numberedChunks compressed).flatMap Prod.snd = compressed := by
  have hsnd : (numberedChunks compressed).map Prod.snd =
      Chunks.chunks clipboardChunkSize compressed := by
    rw [numberedChunks, List.map_map]
    exact List.zipIdx_map_fst 0 _
  rw [List.flatMap_def, hsnd]
  exact Chunks.flatten_chunks (by decide) compressed

/-- Decompression undoes compression. -/
theorem decompress_compress (hzstd : lib.Inverse) {rgba compressed : List UInt8}
    (hcompress : compressImage lib rgba = .ok compressed) :
    decompressImage lib compressed = .ok rgba := by
  have hencode : lib.zstdEncode rgba = .ok compressed := by
    unfold compressImage at hcompress
    cases h : lib.zstdEncode rgba with
    | error e => rw [h] at hcompress; exact absurd hcompress (by simp [Except.mapError])
    | ok encoded =>
      rw [h] at hcompress
      exact congrArg _ (Except.ok.inj hcompress)
  rw [decompressImage, hzstd rgba compressed hencode]
  rfl

/-- A reassembler with the chunks of an image, in any order, gives the image. -/
theorem finish_of_perm (hzstd : lib.Inverse) {rgba compressed : List UInt8}
    (hcompress : compressImage lib rgba = .ok compressed)
    (hsize : compressed.length ≤ maxClipboardImageSize) {r : ClipboardReassembler}
    (hperm : r.chunks.Perm (numberedChunks compressed)) :
    r.finish lib (lib.blake3 rgba) = .ok (r.width, r.height, rgba) := by
  have hsorted : Chunks.sortByKey (fun chunk => chunk.1.toNat) r.chunks =
      numberedChunks compressed :=
    Chunks.sortByKey_of_perm hperm (pairwise_numberedChunks hsize)
  simp only [ClipboardReassembler.finish, hsorted, flatMap_numberedChunks,
    decompress_compress hzstd hcompress, ne_eq, not_true_eq_false, if_false]

/-- Chunks are collected, and return nothing. -/
theorem receive_chunks (r : ClipboardReassembler) (chunks : List (UInt32 × List UInt8)) :
    receiveClipboard lib (some r) (chunks.map chunkMessage) =
        List.replicate chunks.length none ∧
      ∃ received, reassemblerAfter lib (some r) (chunks.map chunkMessage) =
        some { r with chunks := r.chunks ++ chunks, received := received } := by
  induction chunks generalizing r with
  | nil => exact ⟨rfl, r.received, by simp [reassemblerAfter, Run.final]⟩
  | cons chunk chunks ih =>
    obtain ⟨hnone, received, hafter⟩ := ih (r.addChunk chunk.1 chunk.2).1
    constructor
    · rw [List.length_cons, List.replicate_succ, ← hnone]
      rfl
    · refine ⟨received, ?_⟩
      rw [show r.chunks ++ chunk :: chunks = r.chunks ++ [chunk] ++ chunks by simp]
      exact hafter

/-- **One image.** From any state, the begin, the chunks in any order and the end of an image
return it at the end and leave the reassembler empty. -/
theorem receive_image (hzstd : lib.Inverse) {width height : UInt32} {rgba compressed : List UInt8}
    (hcompress : compressImage lib rgba = .ok compressed)
    (hsize : compressed.length ≤ maxClipboardImageSize) {chunks : List (UInt32 × List UInt8)}
    (hperm : chunks.Perm (numberedChunks compressed)) (initial : Option ClipboardReassembler)
    (totalSize : UInt32) :
    let messages := .clipboardBegin .image totalSize width height ::
      (chunks.map chunkMessage ++ [.clipboardEnd (lib.blake3 rgba)])
    receiveClipboard lib initial messages =
        List.replicate (messages.length - 1) none ++ [some (.image width height rgba)] ∧
      reassemblerAfter lib initial messages = none := by
  intro messages
  let r := ClipboardReassembler.new totalSize width height
  obtain ⟨hnone, received, hafter⟩ := @receive_chunks lib r chunks
  have hfinish : ({ r with chunks := r.chunks ++ chunks, received := received }).finish lib
      (lib.blake3 rgba) = .ok (width, height, rgba) :=
    finish_of_perm hzstd hcompress hsize hperm
  have hend : handleClipboardMessage lib
      (some { r with chunks := r.chunks ++ chunks, received := received })
      (.clipboardEnd (lib.blake3 rgba)) = (none, some (.image width height rgba)) := by
    simp only [handleClipboardMessage, hfinish]
  have hlength : messages.length - 1 = chunks.length + 1 := by simp [messages]
  have hbegin : receiveClipboard lib initial messages = none ::
      receiveClipboard lib (some r)
        (chunks.map chunkMessage ++ [.clipboardEnd (lib.blake3 rgba)]) := rfl
  constructor
  · rw [hlength, hbegin, receiveClipboard, Run.outputs_append, ← receiveClipboard, hnone,
      ← reassemblerAfter, hafter, Run.outputs, hend, List.replicate_succ]
    rfl
  · have hsplit : reassemblerAfter lib initial messages =
        Run.final (handleClipboardMessage lib)
          (reassemblerAfter lib (some r) (chunks.map chunkMessage))
          [.clipboardEnd (lib.blake3 rgba)] := List.foldl_append ..
    rw [hsplit, hafter, Run.final, List.foldl_cons, hend]
    rfl

/-- A reordered image is still a begin, its chunks in some order, and the end. -/
theorem ChunksReordered.image {width height : UInt32} {rgba compressed : List UInt8}
    {arrived : List Message}
    (h : ChunksReordered (imageMessages lib width height rgba compressed) arrived) :
    ∃ chunks : List (UInt32 × List UInt8), chunks.Perm (numberedChunks compressed) ∧
      arrived = .clipboardBegin .image (UInt32.ofNat compressed.length) width height ::
        (chunks.map chunkMessage ++ [.clipboardEnd (lib.blake3 rgba)]) := by
  have hinj : Function.Injective chunkMessage := by
    rintro ⟨seq, data⟩ ⟨seq', data'⟩ heq
    simpa [chunkMessage] using heq
  have hhide : ∀ {m m' : Message}, m.hideChunk = some m' → m = m' := by
    intro m m' hm
    cases m <;> simp_all [Message.hideChunk]
  have hothers := h.others
  rw [imageMessages, List.map_cons, List.map_append, List.map_eq_cons_iff] at hothers
  obtain ⟨first, rest, rfl, hfirst, hrest⟩ := hothers
  obtain ⟨middle, last, rfl, hmiddle, hlast⟩ := List.map_eq_append_iff.mp hrest
  obtain ⟨final, rfl, hfinal⟩ := List.map_eq_singleton_iff.mp hlast
  obtain rfl := hhide hfirst
  obtain rfl := hhide hfinal
  have hperm : middle.Perm ((numberedChunks compressed).map chunkMessage) := by
    rw [← chunkMessages_eq]
    exact (List.perm_append_right_iff _).mp (List.perm_cons _ |>.mp h.perm)
  obtain ⟨chunks, rfl⟩ : middle ∈ Set.range (List.map chunkMessage) := by
    rw [Set.range_list_map]
    intro m hm
    obtain ⟨chunk, -, hchunk⟩ := List.mem_map.mp (hperm.mem_iff.mp hm)
    exact ⟨chunk, hchunk⟩
  exact ⟨chunks, (List.map_perm_map_iff hinj).mp hperm, rfl⟩

/-- A text is returned at its message, and leaves the reassembler alone. -/
theorem receive_text (initial : Option ClipboardReassembler) (text : String) :
    receiveClipboard lib initial [.clipboardData .text (utf8 text)] = [some (.text text)] ∧
      reassemblerAfter lib initial [.clipboardData .text (utf8 text)] = initial := by
  constructor
  · simp [receiveClipboard, Run.outputs, handleClipboardMessage]
  · rfl

/-- A list with one message has no other order. -/
theorem ChunksReordered.singleton {m : Message} {arrived : List Message}
    (h : ChunksReordered [m] arrived) : arrived = [m] :=
  List.perm_singleton.mp h.perm

/-- A successful transfer of an image sends its compressed form, which is within the limit. -/
theorem prepareTransfer_image {width height : UInt32} {rgba : List UInt8}
    {messages : List Message}
    (h : prepareTransfer lib (.image width height rgba) = .ok messages) :
    ∃ compressed, compressImage lib rgba = .ok compressed ∧
      compressed.length ≤ maxClipboardImageSize ∧
      messages = imageMessages lib width height rgba compressed := by
  rw [prepareTransfer] at h
  cases hcompress : compressImage lib rgba with
  | error e => rw [hcompress] at h; exact absurd h (by simp)
  | ok compressed =>
    simp only [hcompress] at h
    by_cases hsize : compressed.length > maxClipboardImageSize
    · rw [if_pos hsize] at h
      exact absurd h (by simp)
    · rw [if_neg hsize] at h
      exact ⟨compressed, rfl, by omega, (Except.ok.inj h).symm⟩

/-- **Reassembly.** The messages of a transfer return its content at the last of them and
nothing at the others, from any reassembler, with the chunks in any order and other messages
anywhere between. An image leaves the reassembler empty, a text leaves it as it was. -/
theorem transfer_received (hzstd : lib.Inverse) {content : ClipboardContent}
    {messages : List Message} (hprepare : prepareTransfer lib content = .ok messages)
    (initial : Option ClipboardReassembler) {stream : List Arrival}
    (hreordered : ChunksReordered messages (ownMessages stream))
    (hother : ∀ a ∈ stream, a.own = false → a.msg.isTransfer = false) :
    ownResults lib initial stream =
        List.replicate (messages.length - 1) none ++ [some content] ∧
      reassemblerAfter lib initial (stream.map Arrival.msg) =
        match content with
        | .text _ => initial
        | .image .. => none := by
  obtain ⟨hresults, hafter⟩ := @ownResults_eq lib stream hother initial
  rw [hresults, hafter]
  cases content with
  | text text =>
    obtain rfl : [.clipboardData .text (utf8 text)] = messages := Except.ok.inj hprepare
    rw [hreordered.singleton]
    exact receive_text initial text
  | image width height rgba =>
    obtain ⟨compressed, hcompress, hsize, rfl⟩ := prepareTransfer_image hprepare
    have hlength := hreordered.perm.length_eq
    obtain ⟨chunks, hperm, harrived⟩ := hreordered.image
    rw [← hlength, harrived]
    exact receive_image hzstd hcompress hsize hperm initial _

/-- The frame header that zstd writes to a stream: magic number, flags and window. -/
def zstdFrameHeader : List UInt8 := [0x28, 0xB5, 0x2F, 0xFD, 0x00, 0x58]

/-- The functions on data as small as two pixels, which zstd stores in one raw block. The digests
of the two pixels in the examples are those of BLAKE3, and the first bytes of other data stand for
its digest. -/
def pixelLib : ClipboardLib where
  zstdEncode data := .ok (zstdFrameHeader ++ (leBytes 3 (8 * data.length + 1) ++ data))
  zstdDecode encoded :=
    if zstdFrameHeader <+: encoded then .ok (encoded.drop 9)
    else .error "Unknown frame descriptor"
  blake3 data :=
    if data = [9, 9, 9, 255] then
      #v[50, 76, 213, 176, 237, 232, 233, 113, 186, 134, 31, 213, 17, 69, 77, 1,
        170, 74, 174, 160, 20, 221, 247, 223, 205, 134, 91, 108, 246, 15, 72, 207]
    else if data = [1, 2, 3, 255] then
      #v[36, 224, 174, 26, 170, 95, 45, 19, 236, 203, 163, 194, 147, 200, 29, 235,
        216, 149, 131, 152, 46, 183, 85, 125, 19, 70, 237, 216, 51, 138, 8, 66]
    else .ofFn fun i => data.getD i.val 0

/-- Stored data is read back. -/
theorem pixelLib_inverse : pixelLib.Inverse := by
  intro data encoded hencode
  obtain rfl := Except.ok.inj hencode
  have hprefix : zstdFrameHeader <+: zstdFrameHeader ++
      (leBytes 3 (8 * data.length + 1) ++ data) := List.prefix_append ..
  have hdrop : (zstdFrameHeader ++ (leBytes 3 (8 * data.length + 1) ++ data)).drop 9 = data := by
    rw [← List.append_assoc]
    exact List.drop_left' (by rw [List.length_append, leBytes_length]; rfl)
  simp only [pixelLib, hprefix, if_true, hdrop]

/-- The messages of a pixel. -/
def pixelMessages (rgba : List UInt8) : List Message :=
  imageMessages pixelLib 1 1 rgba
    (zstdFrameHeader ++ (leBytes 3 (8 * rgba.length + 1) ++ rgba))

/-- Bytes of a linear congruential generator, which zstd finds nothing to compress in. -/
def noise : ℕ → UInt32 → List UInt8
  | 0, _ => []
  | n + 1, x => (x >>> 24).toUInt8 :: noise n (x * 1664525 + 1013904223)

/-- An image of noise, of 128 times 129 pixels. -/
def noiseImage : List UInt8 := noise 66048 1

/-- The functions on the image of noise too, which is stored in one raw block as well. -/
def noiseLib : ClipboardLib :=
  { pixelLib with
    blake3 := fun data =>
      if data = noiseImage then
        #v[252, 58, 230, 48, 221, 111, 246, 146, 135, 198, 143, 169, 50, 14, 246, 125,
          57, 26, 70, 81, 252, 215, 248, 124, 186, 77, 205, 36, 182, 180, 93, 123]
      else pixelLib.blake3 data }

/-- The image of noise in its raw block. -/
def noiseBlock : List UInt8 :=
  zstdFrameHeader ++ (leBytes 3 (8 * noiseImage.length + 1) ++ noiseImage)

/-- The generator gives as many bytes as asked for. -/
theorem length_noise (n : ℕ) (x : UInt32) : (noise n x).length = n := by
  induction n generalizing x with
  | zero => rfl
  | succ n ih => rw [noise, List.length_cons, ih]

/-- The block is longer than one chunk. -/
theorem length_noiseBlock : noiseBlock.length = 66057 := by
  rw [noiseBlock, List.length_append, List.length_append, leBytes_length, noiseImage, length_noise]
  rfl

/-- The block is cut into two chunks. -/
theorem chunkMessages_noiseBlock :
    chunkMessages noiseBlock =
      [.clipboardChunk 0 (noiseBlock.take 65536), .clipboardChunk 1 (noiseBlock.drop 65536)] := by
  have hcount : Chunks.count clipboardChunkSize noiseBlock.length = 2 := by
    rw [length_noiseBlock]
    rfl
  have hsecond : (noiseBlock.drop 65536).take 65536 = noiseBlock.drop 65536 := by
    refine List.take_of_length_le ?_
    rw [List.length_drop, length_noiseBlock]
    decide
  rw [chunkMessages, Chunks.chunks, hcount]
  simp [List.range_succ, clipboardChunkSize, hsecond]

/-- An image is received over the rest of an aborted transfer, with its second chunk before the
first and a heartbeat between them. -/
theorem transfer_received_noise :
    let stream : List Arrival :=
      [⟨true, .clipboardBegin .image (UInt32.ofNat noiseBlock.length) 128 129⟩,
        ⟨true, .clipboardChunk 1 (noiseBlock.drop 65536)⟩, ⟨false, .heartbeat⟩,
        ⟨true, .clipboardChunk 0 (noiseBlock.take 65536)⟩,
        ⟨true, .clipboardEnd (noiseLib.blake3 noiseImage)⟩]
    ownResults noiseLib (some ⟨100, 5, 5, [(0, [1, 2])], 2⟩) stream =
        [none, none, none, some (.image 128 129 noiseImage)] ∧
      reassemblerAfter noiseLib (some ⟨100, 5, 5, [(0, [1, 2])], 2⟩) (stream.map Arrival.msg) =
        none := by
  intro stream
  have hprepare : prepareTransfer noiseLib (.image 128 129 noiseImage) =
      .ok (imageMessages noiseLib 128 129 noiseImage noiseBlock) := by
    have hcompress : compressImage noiseLib noiseImage = .ok noiseBlock := rfl
    have hsize : ¬ noiseBlock.length > maxClipboardImageSize := by
      rw [length_noiseBlock]
      decide
    simp only [prepareTransfer, hcompress, if_neg hsize]
  have hmessages : imageMessages noiseLib 128 129 noiseImage noiseBlock =
      [.clipboardBegin .image (UInt32.ofNat noiseBlock.length) 128 129,
        .clipboardChunk 0 (noiseBlock.take 65536), .clipboardChunk 1 (noiseBlock.drop 65536),
        .clipboardEnd (noiseLib.blake3 noiseImage)] := by
    rw [imageMessages, chunkMessages_noiseBlock]
    rfl
  rw [hmessages] at hprepare
  exact @transfer_received noiseLib pixelLib_inverse (.image 128 129 noiseImage) _ hprepare _
    stream ⟨.cons _ (.swap ..), rfl⟩ (by simp [stream, Message.isTransfer])

end SuperShare
