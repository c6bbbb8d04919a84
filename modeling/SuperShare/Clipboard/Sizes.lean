import SuperShare.Clipboard.Receiver
import SuperShare.Network.Framing

/-!
# Sizes of received images

The begin of an image announces the number of its compressed bytes, its width and its height. The
receiver counts the bytes of the chunks but does nothing with the count, and compares neither the
compressed bytes nor the pixels with what was announced. This file says for which messages the
sizes are right nevertheless, and for which the counter is.
-/

namespace SuperShare

variable {lib : ClipboardLib}

/-- How many bytes chunks have together. -/
def chunkBytes (chunks : List (UInt32 × List UInt8)) : ℕ :=
  (chunks.map fun chunk => chunk.2.length).sum

section Image

/-- An image that a message returns after others is complete and well formed: it has four bytes
for each pixel, and was decoded from as many bytes as the begin announced. -/
def ReturnsWellFormed (lib : ClipboardLib) (before : List Message) (m : Message) : Prop :=
  ∀ width height rgba,
    (handleClipboardMessage lib (reassemblerAfter lib none before) m).2 =
      some (.image width height rgba) →
    rgba.length = 4 * width.toNat * height.toNat ∧
      ∃ totalSize since compressed, LastBegin before totalSize width height since ∧
        CompressedBytes (since.filterMap Message.chunk?) compressed ∧
        decompressImage lib compressed = .ok rgba ∧ compressed.length = totalSize.toNat

/-- The peer has announced the sizes of a transfer that it ends with a hash: if what it sent
decompresses to bytes with this hash, the chunks have as many bytes, and the image as many pixels,
as the begin says. -/
def AnnouncedSizes (lib : ClipboardLib) (before : List Message) (hash : Vector UInt8 32) : Prop :=
  ∀ totalSize width height since compressed rgba,
    LastBegin before totalSize width height since →
    CompressedBytes (since.filterMap Message.chunk?) compressed →
    decompressImage lib compressed = .ok rgba → lib.blake3 rgba = hash →
    chunkBytes (since.filterMap Message.chunk?) = totalSize.toNat ∧
      rgba.length = 4 * width.toNat * height.toNat

/-- Chunks have as many bytes in order as they came. -/
theorem CompressedBytes.length_eq {chunks : List (UInt32 × List UInt8)} {compressed : List UInt8}
    (h : CompressedBytes chunks compressed) : compressed.length = chunkBytes chunks := by
  rw [compressedBytes_iff.mp h, List.length_flatMap, chunkBytes]
  exact ((List.perm_insertionSort _ chunks).map _).sum_nat

/-- Only an end returns an image. -/
theorem eq_end_of_image {reassembler : Option ClipboardReassembler} {m : Message}
    {width height : UInt32} {rgba : List UInt8}
    (h : (handleClipboardMessage lib reassembler m).2 = some (.image width height rgba)) :
    ∃ hash, m = .clipboardEnd hash := by
  cases m with
  | clipboardEnd hash => exact ⟨hash, rfl⟩
  | clipboardData format data =>
    cases format <;> exact absurd h (by simp [handleClipboardMessage])
  | clipboardBegin format totalSize width height =>
    cases format <;> exact absurd h (by simp [handleClipboardMessage])
  | _ => exact absurd h (by simp [handleClipboardMessage])

/-- Messages have one last begin of an image, with its sizes and the chunks since. -/
theorem LastBegin.unique {messages since since' : List Message}
    {totalSize width height totalSize' width' height' : UInt32}
    (h : LastBegin messages totalSize width height since)
    (h' : LastBegin messages totalSize' width' height' since') :
    (totalSize = totalSize' ∧ width = width' ∧ height = height') ∧
      since.filterMap Message.chunk? = since'.filterMap Message.chunk? := by
  obtain ⟨received, hafter⟩ := @reassembler_of_lastBegin pixelLib _ _ _ _ _ h none
  obtain ⟨received', hafter'⟩ := @reassembler_of_lastBegin pixelLib _ _ _ _ _ h' none
  have hsame := Option.some.inj (hafter.symm.trans hafter')
  simp only [ClipboardReassembler.mk.injEq] at hsame
  obtain ⟨hsize, hwidth, hheight, hchunks, -⟩ := hsame
  exact ⟨⟨hsize, hwidth, hheight⟩, hchunks⟩

/-- What an end returns is well formed exactly if the peer has announced its sizes. -/
theorem returnsWellFormed_end_iff (before : List Message) (hash : Vector UInt8 32) :
    ReturnsWellFormed lib before (.clipboardEnd hash) ↔ AnnouncedSizes lib before hash := by
  constructor
  · intro h totalSize width height since compressed rgba hbegin hcompressed hrgba hhash
    obtain ⟨hpixels, totalSize', since', compressed', hbegin', hcompressed', -, hsize⟩ :=
      h width height rgba ((end_image_iff lib before hash width height rgba).mpr
        ⟨totalSize, since, compressed, hbegin, hcompressed, hrgba, hhash⟩)
    obtain ⟨⟨rfl, -, -⟩, hchunks⟩ := hbegin.unique hbegin'
    rw [hchunks, ← hcompressed'.length_eq]
    exact ⟨hsize, hpixels⟩
  · intro h width height rgba himage
    obtain ⟨totalSize, since, compressed, hbegin, hcompressed, hrgba, hhash⟩ :=
      (end_image_iff lib before hash width height rgba).mp himage
    obtain ⟨hsize, hpixels⟩ :=
      h totalSize width height since compressed rgba hbegin hcompressed hrgba hhash
    exact ⟨hpixels, totalSize, since, compressed, hbegin, hcompressed, hrgba,
      hcompressed.length_eq.trans hsize⟩

/-- **Images.** In a run every image returned is complete and well formed exactly if the peer has
announced the sizes of every transfer that it ends. -/
theorem wellFormed_iff_announced (lib : ClipboardLib) (messages : List Message) :
    (∀ before m, before ++ [m] <+: messages → ReturnsWellFormed lib before m) ↔
      ∀ before hash, before ++ [.clipboardEnd hash] <+: messages →
        AnnouncedSizes lib before hash := by
  constructor
  · intro h before hash hrun
    exact (returnsWellFormed_end_iff before hash).mp (h before _ hrun)
  · intro h before m hrun width height rgba himage
    obtain ⟨hash, rfl⟩ := eq_end_of_image himage
    exact (returnsWellFormed_end_iff before hash).mpr (h before hash hrun) width height rgba himage

/-- A pixel announced as an image of five by five pixels, compressed to a hundred bytes. -/
def misannounced : List Message :=
  [.clipboardBegin .image 100 5 5,
    .clipboardChunk 0 (zstdFrameHeader ++ (ByteCodec.leBytes 3 33 ++ [9, 9, 9, 255]))]

/-- The pixel is returned with the announced size. -/
theorem misannounced_returned :
    (handleClipboardMessage pixelLib (reassemblerAfter pixelLib none misannounced)
        (.clipboardEnd (pixelLib.blake3 [9, 9, 9, 255]))).2 = some (.image 5 5 [9, 9, 9, 255]) ∧
      ¬ ReturnsWellFormed pixelLib misannounced
        (.clipboardEnd (pixelLib.blake3 [9, 9, 9, 255])) := by
  have hreturned : (handleClipboardMessage pixelLib (reassemblerAfter pixelLib none misannounced)
      (.clipboardEnd (pixelLib.blake3 [9, 9, 9, 255]))).2 = some (.image 5 5 [9, 9, 9, 255]) := by
    decide
  refine ⟨hreturned, fun h => ?_⟩
  exact absurd (h 5 5 [9, 9, 9, 255] hreturned).1 (by decide)

end Image

section Counter

/-- The counter of a reassembler is exact, and what it holds is within the limit. -/
structure ClipboardReassembler.Counted (r : ClipboardReassembler) : Prop where
  exact : r.received.toNat = chunkBytes r.chunks
  bounded : chunkBytes r.chunks ≤ maxClipboardImageSize

/-- Adding a chunk neither overflows the counter nor cuts the length of the chunk, and reports
exactly whether as many bytes are present as were announced. -/
def ChunkCounted (reassembler : Option ClipboardReassembler) : Message → Prop
  | .clipboardChunk seq data => ∀ r ∈ reassembler,
      r.received.toNat + data.length < 2 ^ 32 ∧
        ((r.addChunk seq data).2 = true ↔
          r.totalSize.toNat ≤ chunkBytes (r.addChunk seq data).1.chunks)
  | _ => True

/-- A chunk for an open transfer keeps what is held within the limit. -/
def WithinLimit (reassembler : Option ClipboardReassembler) : Message → Prop
  | .clipboardChunk _ data => ∀ r ∈ reassembler,
      chunkBytes r.chunks + data.length ≤ maxClipboardImageSize
  | _ => True

/-- A chunk adds its bytes. -/
@[simp] theorem chunkBytes_addChunk (r : ClipboardReassembler) (seq : UInt32)
    (data : List UInt8) :
    chunkBytes (r.addChunk seq data).1.chunks = chunkBytes r.chunks + data.length := by
  simp [ClipboardReassembler.addChunk, chunkBytes]

/-- Within the limit the counter counts a chunk in full. -/
theorem ClipboardReassembler.Counted.received_addChunk {r : ClipboardReassembler}
    (h : r.Counted) {data : List UInt8}
    (hlimit : chunkBytes r.chunks + data.length ≤ maxClipboardImageSize) (seq : UInt32) :
    r.received.toNat + data.length < 2 ^ 32 ∧
      (r.addChunk seq data).1.received.toNat = chunkBytes r.chunks + data.length := by
  have hmax : maxClipboardImageSize = 10485760 := rfl
  have hexact := h.exact
  have hlength : (UInt32.ofNat data.length).toNat = data.length :=
    UInt32.toNat_ofNat_of_lt' (by rw [UInt32.size]; omega)
  have hsum : (r.addChunk seq data).1.received.toNat =
      (r.received.toNat + (UInt32.ofNat data.length).toNat) % 2 ^ 32 := rfl
  rw [hlength] at hsum
  omega

/-- A reassembler that is counted stays so with a chunk exactly if the chunk is within the
limit. -/
theorem ClipboardReassembler.Counted.addChunk_iff {r : ClipboardReassembler} (h : r.Counted)
    (seq : UInt32) (data : List UInt8) :
    (r.addChunk seq data).1.Counted ↔
      chunkBytes r.chunks + data.length ≤ maxClipboardImageSize := by
  rw [← chunkBytes_addChunk r seq data]
  constructor
  · exact fun hcounted => hcounted.bounded
  · intro hlimit
    refine ⟨?_, hlimit⟩
    rw [chunkBytes_addChunk] at hlimit ⊢
    exact (h.received_addChunk hlimit seq).2

/-- A step leaves a counted reassembler exactly if it keeps within the limit. -/
theorem counted_step_iff (lib : ClipboardLib) {reassembler : Option ClipboardReassembler}
    (h : ∀ r ∈ reassembler, r.Counted) (m : Message) :
    (∀ r ∈ (handleClipboardMessage lib reassembler m).1, r.Counted) ↔
      WithinLimit reassembler m := by
  cases m with
  | clipboardChunk seq data =>
    cases reassembler with
    | none => simp [handleClipboardMessage, WithinLimit]
    | some r =>
      simp only [handleClipboardMessage, WithinLimit, Option.map_some, Option.mem_def,
        Option.some.injEq, forall_eq']
      exact (h r rfl).addChunk_iff seq data
  | clipboardBegin format totalSize width height =>
    cases format with
    | text => exact iff_of_true h trivial
    | image =>
      refine iff_of_true ?_ trivial
      rintro r ⟨⟩
      exact ⟨rfl, Nat.zero_le _⟩
  | clipboardEnd hash =>
    rw [handle_end]
    exact iff_of_true (by simp) trivial
  | _ =>
    rw [handle_of_not_transfer rfl]
    exact iff_of_true h trivial

/-- **Counter.** In a run every reassembler reached is counted, and every chunk, exactly if every
chunk for an open transfer keeps what is held within the limit. -/
theorem counted_iff_within (lib : ClipboardLib) (messages : List Message) :
    ((∀ first, first <+: messages → ∀ r ∈ reassemblerAfter lib none first, r.Counted) ∧
        Run.Along (fun r m => (handleClipboardMessage lib r m).1) ChunkCounted none messages) ↔
      Run.Along (fun r m => (handleClipboardMessage lib r m).1) WithinLimit none messages := by
  let step := fun (r : Option ClipboardReassembler) m => (handleClipboardMessage lib r m).1
  let counted := fun r : Option ClipboardReassembler => ∀ asm ∈ r, asm.Counted
  have hkeep : ∀ r m, WithinLimit r m → counted r → counted (step r m) :=
    fun r m hlimit hcounted => (counted_step_iff lib hcounted m).mpr hlimit
  have hempty : counted none := by simp [counted]
  have hreached : (∀ first, first <+: messages → counted (first.foldl step none)) ↔
      Run.Along step WithinLimit none messages :=
    @Run.forall_reached_iff_along _ _ step WithinLimit counted counted hkeep
      (fun r m hcounted => counted_step_iff lib hcounted m) none hempty hempty messages
  refine (and_congr_left' hreached).trans (and_iff_left_of_imp fun hlimits => ?_)
  refine hlimits.imp counted ?_ hempty
  intro r m hlimit hcounted
  refine ⟨hkeep r m hlimit hcounted, ?_⟩
  cases m with
  | clipboardChunk seq data =>
    intro asm hasm
    obtain ⟨hroom, hreceived⟩ := (hcounted asm hasm).received_addChunk (hlimit asm hasm) seq
    refine ⟨hroom, ?_⟩
    rw [chunkBytes_addChunk, ← hreceived]
    exact decide_eq_true_iff.trans UInt32.le_iff_toNat_le
  | _ => trivial

/-- An image of one byte more than the limit, in one chunk. -/
def oversized : List Message :=
  [.clipboardBegin .image 10485761 1 1, .clipboardChunk 0 (List.replicate 10485761 0)]

/-- The messages fit into frames, and are held beyond the limit. -/
theorem oversized_held :
    (∀ m ∈ oversized, m.Fits) ∧
      ∃ r ∈ reassemblerAfter pixelLib none oversized,
        maxClipboardImageSize < chunkBytes r.chunks := by
  have hmax : maxPayloadSize.toNat = 16777216 := rfl
  constructor
  · intro m hm
    rcases List.mem_cons.mp hm with rfl | hm
    · decide
    · obtain rfl := List.mem_singleton.mp hm
      simp only [Message.Fits, Message.encode, List.length_append, Bincode.encodeU32_length,
        Bincode.encodeVec_length, List.length_replicate]
      omega
  · refine ⟨_, rfl, ?_⟩
    rw [chunkBytes_addChunk, List.length_replicate]
    exact Nat.lt_add_left _ (by decide)

end Counter

end SuperShare
