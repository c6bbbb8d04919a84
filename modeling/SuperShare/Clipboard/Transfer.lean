import SuperShare.Core.Protocol
import SuperShare.Lib.Chunks
import SuperShare.Lib.Run

/-!
# Clipboard transfers

Clipboard content is sent as messages and put together again by the receiver. A text is one
message. An image is compressed and cut into numbered chunks between a begin and an end that
carries its hash. The receiver keeps one optional reassembler. zstd and blake3 are
parameters.
-/

namespace SuperShare

/-- Clipboard chunk size (64 KB). -/
def clipboardChunkSize : ℕ := 64 * 1024

/-- Maximum clipboard image size (10 MB compressed). -/
def maxClipboardImageSize : ℕ := 10 * 1024 * 1024

/-- Clipboard content for change detection. -/
inductive ClipboardContent where
  | text (text : String)
  | image (width height : UInt32) (rgba : List UInt8)
  deriving DecidableEq

/-- Third-party functions that clipboard transfers use. An error is its text. -/
structure ClipboardLib where
  /-- `zstd::encode_all` at level 3. -/
  zstdEncode : List UInt8 → Except String (List UInt8)
  /-- `zstd::decode_all`. -/
  zstdDecode : List UInt8 → Except String (List UInt8)
  blake3 : List UInt8 → Vector UInt8 32

/-- Decoding undoes encoding. -/
def ClipboardLib.Inverse (lib : ClipboardLib) : Prop :=
  ∀ data encoded, lib.zstdEncode data = .ok encoded → lib.zstdDecode encoded = .ok data

/-- The UTF-8 bytes of a text. -/
def utf8 (text : String) : List UInt8 := text.toByteArray.data.toList

/-- Compute the blake3 hash of the content. -/
def ClipboardContent.hash (lib : ClipboardLib) : ClipboardContent → Vector UInt8 32
  | text s => lib.blake3 (utf8 s)
  | image _ _ rgba => lib.blake3 rgba

/-- Compress image data with zstd. -/
def compressImage (lib : ClipboardLib) (rgba : List UInt8) : Except String (List UInt8) :=
  (lib.zstdEncode rgba).mapError fun e => "zstd compress error: " ++ e

/-- Decompress image data with zstd. -/
def decompressImage (lib : ClipboardLib) (compressed : List UInt8) :
    Except String (List UInt8) :=
  (lib.zstdDecode compressed).mapError fun e => "zstd decompress error: " ++ e

/-- The chunk messages of compressed data, numbered from zero. -/
def chunkMessages (compressed : List UInt8) : List Message :=
  (Chunks.chunks clipboardChunkSize compressed).zipIdx.map fun (chunk, seq) =>
    .clipboardChunk (UInt32.ofNat seq) chunk

/-- The messages of an image. -/
def imageMessages (lib : ClipboardLib) (width height : UInt32) (rgba compressed : List UInt8) :
    List Message :=
  .clipboardBegin .image (UInt32.ofNat compressed.length) width height ::
    (chunkMessages compressed ++ [.clipboardEnd (lib.blake3 rgba)])

/-- Prepare clipboard content for network transfer: the messages to send. -/
def prepareTransfer (lib : ClipboardLib) : ClipboardContent → Except String (List Message)
  | .text text => .ok [.clipboardData .text (utf8 text)]
  | .image width height rgba =>
      match compressImage lib rgba with
      | .error e => .error e
      | .ok compressed =>
          if compressed.length > maxClipboardImageSize then
            .error ("Compressed image too large: " ++ toString compressed.length ++
              " bytes (max " ++ toString maxClipboardImageSize ++ ")")
          else .ok (imageMessages lib width height rgba compressed)

/-- What a lead byte announces in UTF-8: the length of its sequence and the bounds of the
second byte. -/
def utf8Lead (b : UInt8) : Option (ℕ × UInt8 × UInt8) :=
  if 0xC2 ≤ b ∧ b ≤ 0xDF then some (2, 0x80, 0xBF)
  else if b = 0xE0 then some (3, 0xA0, 0xBF)
  else if b = 0xED then some (3, 0x80, 0x9F)
  else if 0xE1 ≤ b ∧ b ≤ 0xEF then some (3, 0x80, 0xBF)
  else if b = 0xF0 then some (4, 0x90, 0xBF)
  else if 0xF1 ≤ b ∧ b ≤ 0xF3 then some (4, 0x80, 0xBF)
  else if b = 0xF4 then some (4, 0x80, 0x8F)
  else none

/-- The character at the front of a byte string, and how many bytes after the first it takes.
An invalid sequence is taken as far as it could begin a valid one, and gives the replacement
character. -/
def utf8LossyStep (b : UInt8) (rest : List UInt8) : Char × ℕ :=
  if b < 0x80 then (Char.ofNat b.toNat, 0)
  else
    match utf8Lead b, rest with
    | some (width, lo, hi), second :: rest =>
        if lo ≤ second ∧ second ≤ hi then
          let tail := (rest.take (width - 2)).takeWhile fun c => 0x80 ≤ c ∧ c ≤ 0xBF
          if tail.length = width - 2 then
            (Char.ofNat ((second :: tail).foldl (fun value c => value * 64 + c.toNat % 64)
              (b.toNat % 2 ^ (7 - width))), width - 1)
          else ('\uFFFD', 1 + tail.length)
        else ('\uFFFD', 0)
    | _, _ => ('\uFFFD', 0)

/-- The characters of a byte string, with replacements for what is not UTF-8. -/
def utf8LossyChars : List UInt8 → List Char
  | [] => []
  | b :: rest =>
      (utf8LossyStep b rest).1 :: utf8LossyChars (rest.drop (utf8LossyStep b rest).2)
termination_by bytes => bytes.length
decreasing_by
  simp only [List.length_drop, List.length_cons]
  omega

/-- `String::from_utf8_lossy`: valid bytes as they are, others with replacements. -/
def fromUtf8Lossy (bytes : List UInt8) : String :=
  match String.fromUTF8? ⟨bytes.toArray⟩ with
  | some text => text
  | none => String.ofList (utf8LossyChars bytes)

/-- State for reassembling chunked clipboard transfers. -/
structure ClipboardReassembler where
  /-- Expected total compressed size. -/
  totalSize : UInt32
  width : UInt32
  height : UInt32
  /-- Collected chunks with their sequence numbers. -/
  chunks : List (UInt32 × List UInt8)
  /-- Total bytes received so far. -/
  received : UInt32
  deriving DecidableEq

namespace ClipboardReassembler

/-- A reassembler without chunks. -/
def new (totalSize width height : UInt32) : ClipboardReassembler :=
  ⟨totalSize, width, height, [], 0⟩

/-- Add a chunk, and say whether all chunks have been received. -/
def addChunk (r : ClipboardReassembler) (seq : UInt32) (data : List UInt8) :
    ClipboardReassembler × Bool :=
  let received := r.received + UInt32.ofNat data.length
  ({ r with received := received, chunks := r.chunks ++ [(seq, data)] },
    received ≥ r.totalSize)

/-- Reassemble and decompress the image, and check its hash. -/
def finish (lib : ClipboardLib) (r : ClipboardReassembler) (expectedHash : Vector UInt8 32) :
    Except String (UInt32 × UInt32 × List UInt8) :=
  let sorted := Chunks.sortByKey (fun chunk => chunk.1.toNat) r.chunks
  match decompressImage lib (sorted.flatMap Prod.snd) with
  | .error e => .error e
  | .ok rgba =>
      if lib.blake3 rgba ≠ expectedHash then
        .error "Clipboard hash mismatch: data may be corrupted"
      else .ok (r.width, r.height, rgba)

end ClipboardReassembler

/-- Handle an incoming clipboard message: the reassembler after it, and the content of a
transfer that it completes. -/
def handleClipboardMessage (lib : ClipboardLib) (reassembler : Option ClipboardReassembler) :
    Message → Option ClipboardReassembler × Option ClipboardContent
  | .clipboardData .text data => (reassembler, some (.text (fromUtf8Lossy data)))
  | .clipboardData .image _ => (reassembler, none)
  | .clipboardBegin .image totalSize width height =>
      (some (.new totalSize width height), none)
  | .clipboardBegin .text .. => (reassembler, none)
  | .clipboardChunk seq data => (reassembler.map fun r => (r.addChunk seq data).1, none)
  | .clipboardEnd hash =>
      match reassembler with
      | some r =>
          match r.finish lib hash with
          | .ok (width, height, rgba) => (none, some (.image width height rgba))
          | .error _ => (none, none)
      | none => (none, none)
  | _ => (reassembler, none)

/-- The contents that messages complete, message by message. -/
def receiveClipboard (lib : ClipboardLib) (reassembler : Option ClipboardReassembler)
    (messages : List Message) : List (Option ClipboardContent) :=
  Run.outputs (handleClipboardMessage lib) reassembler messages

end SuperShare
