import Mathlib.Data.List.Induction
import SuperShare.Clipboard.Reassembly

/-!
# What a receiver makes of any messages

A peer can send clipboard messages in any order: ends without a begin, begins without an end,
chunks that are repeated, missing or out of order. The reassembler holds what was sent since the
last begin of an image, if no end came after it. So an end returns the image that this begin
announced and the chunks after it make up, or nothing.
-/

namespace SuperShare

/-- The chunk that a message carries, with its number. -/
def Message.chunk? : Message → Option (UInt32 × List UInt8)
  | clipboardChunk seq data => some (seq, data)
  | _ => none

/-- A message that opens or ends the transfer of an image. -/
def Message.opensOrEnds : Message → Bool
  | clipboardBegin .image .. | clipboardEnd .. => true
  | _ => false

/-- The last begin of an image among messages, with what it announces and the messages since,
when no end came after it. -/
structure LastBegin (messages : List Message) (totalSize width height : UInt32)
    (since : List Message) : Prop where
  split : ∃ before, messages = before ++ .clipboardBegin .image totalSize width height :: since
  open_since : ∀ m ∈ since, m.opensOrEnds = false

/-- The compressed bytes of chunks: put in the order of their numbers, those with one number as
they came, and concatenated. -/
def CompressedBytes (chunks : List (UInt32 × List UInt8)) (compressed : List UInt8) : Prop :=
  ∃ sorted, Chunks.IsStableSort (fun chunk => chunk.1.toNat) chunks sorted ∧
    compressed = sorted.flatMap Prod.snd

/-- An end with a hash completes an image after messages: the chunks since the last begin
decompress to bytes with this hash, and the begin has the size of the image. -/
def Completes (lib : ClipboardLib) (messages : List Message) (hash : Vector UInt8 32)
    (width height : UInt32) (rgba : List UInt8) : Prop :=
  ∃ totalSize since compressed, LastBegin messages totalSize width height since ∧
    CompressedBytes (since.filterMap Message.chunk?) compressed ∧
    decompressImage lib compressed = .ok rgba ∧ lib.blake3 rgba = hash

variable {lib : ClipboardLib}

/-- A message that neither opens nor ends a transfer adds its chunk, if it has one, to an open
transfer. -/
theorem handle_of_open {m : Message} (h : m.opensOrEnds = false) (r : ClipboardReassembler) :
    ∃ received, (handleClipboardMessage lib (some r) m).1 =
      some { r with chunks := r.chunks ++ m.chunk?.toList, received := received } := by
  cases m with
  | clipboardEnd hash => exact absurd h (by simp [Message.opensOrEnds])
  | clipboardChunk seq data => exact ⟨_, rfl⟩
  | clipboardBegin format totalSize width height =>
    cases format with
    | text => exact ⟨r.received, by simp [handleClipboardMessage, Message.chunk?]⟩
    | image => exact absurd h (by simp [Message.opensOrEnds])
  | clipboardData format data =>
    cases format <;> exact ⟨r.received, by simp [handleClipboardMessage, Message.chunk?]⟩
  | _ => exact ⟨r.received, by simp [handleClipboardMessage, Message.chunk?]⟩

/-- Without an open transfer, such a message opens none. -/
theorem handle_of_closed {m : Message} (h : m.opensOrEnds = false) :
    (handleClipboardMessage lib none m).1 = none := by
  cases m with
  | clipboardEnd hash => exact absurd h (by simp [Message.opensOrEnds])
  | clipboardBegin format totalSize width height =>
    cases format with
    | text => rfl
    | image => exact absurd h (by simp [Message.opensOrEnds])
  | clipboardData format data => cases format <;> rfl
  | _ => rfl

/-- An end leaves the reassembler empty. -/
theorem handle_end (lib : ClipboardLib) (reassembler : Option ClipboardReassembler)
    (hash : Vector UInt8 32) :
    (handleClipboardMessage lib reassembler (.clipboardEnd hash)).1 = none := by
  cases reassembler with
  | none => rfl
  | some r =>
    simp only [handleClipboardMessage]
    split <;> rfl

/-- One message more is handled after the others. -/
theorem reassemblerAfter_concat (reassembler : Option ClipboardReassembler)
    (messages : List Message) (m : Message) :
    reassemblerAfter lib reassembler (messages ++ [m]) =
      (handleClipboardMessage lib (reassemblerAfter lib reassembler messages) m).1 := by
  simp only [reassemblerAfter, Run.final, List.foldl_append, List.foldl_cons, List.foldl_nil]

/-- What is held after the last begin of an image: what it announces, and the chunks since. -/
theorem reassembler_of_lastBegin {messages since : List Message}
    {totalSize width height : UInt32} (h : LastBegin messages totalSize width height since)
    (reassembler : Option ClipboardReassembler) :
    ∃ received, reassemblerAfter lib reassembler messages =
      some ⟨totalSize, width, height, since.filterMap Message.chunk?, received⟩ := by
  obtain ⟨⟨before, rfl⟩, hsince⟩ := h
  induction since using List.reverseRecOn with
  | nil => exact ⟨0, by rw [reassemblerAfter_concat]; rfl⟩
  | append_singleton since m ih =>
    obtain ⟨received, hbefore⟩ := ih fun m' hm' => hsince m' (List.mem_append_left _ hm')
    obtain ⟨received', hafter⟩ := @handle_of_open lib m (hsince m (by simp))
      ⟨totalSize, width, height, since.filterMap Message.chunk?, received⟩
    refine ⟨received', ?_⟩
    rw [← List.cons_append, ← List.append_assoc, reassemblerAfter_concat, hbefore, hafter,
      List.filterMap_append]
    cases h : m.chunk? <;> simp [h]

/-- Whatever is held was announced and sent since the last begin of an image. -/
theorem lastBegin_of_reassembler {messages : List Message} {r : ClipboardReassembler}
    (h : reassemblerAfter lib none messages = some r) :
    ∃ since, LastBegin messages r.totalSize r.width r.height since ∧
      r.chunks = since.filterMap Message.chunk? := by
  induction messages using List.reverseRecOn generalizing r with
  | nil => exact absurd h (by simp [reassemblerAfter, Run.final])
  | append_singleton messages m ih =>
    rw [reassemblerAfter_concat] at h
    cases hm : m.opensOrEnds with
    | false =>
      cases hbefore : reassemblerAfter lib none messages with
      | none =>
        rw [hbefore, handle_of_closed hm] at h
        exact absurd h (by simp)
      | some r' =>
        obtain ⟨since, ⟨⟨before, rfl⟩, hsince⟩, hchunks⟩ := ih hbefore
        obtain ⟨received, hafter⟩ := @handle_of_open lib m hm r'
        rw [hbefore, hafter, Option.some.injEq] at h
        subst h
        refine ⟨since ++ [m], ⟨⟨before, by simp⟩, ?_⟩, ?_⟩
        · exact List.forall_mem_append.mpr ⟨hsince, List.forall_mem_singleton.mpr hm⟩
        · rw [List.filterMap_append, ← hchunks]
          cases h : m.chunk? <;> simp [h]
    | true =>
      cases m with
      | clipboardEnd hash =>
        rw [handle_end] at h
        exact absurd h (by simp)
      | clipboardBegin format totalSize width height =>
        cases format with
        | text => exact absurd hm (by simp [Message.opensOrEnds])
        | image =>
          obtain rfl := Option.some.inj h
          exact ⟨[], ⟨⟨messages, rfl⟩, by simp⟩, rfl⟩
      | _ => exact absurd hm (by simp [Message.opensOrEnds])

/-- The compressed bytes are those that the reassembler concatenates. -/
theorem compressedBytes_iff {chunks : List (UInt32 × List UInt8)} {compressed : List UInt8} :
    CompressedBytes chunks compressed ↔ compressed =
      (Chunks.sortByKey (fun chunk => chunk.1.toNat) chunks).flatMap Prod.snd := by
  constructor
  · rintro ⟨sorted, hsorted, rfl⟩
    rw [Chunks.isStableSort_iff.mp hsorted]
  · rintro rfl
    exact ⟨_, Chunks.isStableSort_sortByKey _ _, rfl⟩

/-- The reassembler finishes with its size and the bytes that its chunks decompress to, if these
have the hash. -/
theorem finish_ok_iff (r : ClipboardReassembler) (hash : Vector UInt8 32) (width height : UInt32)
    (rgba : List UInt8) :
    r.finish lib hash = .ok (width, height, rgba) ↔
      (r.width = width ∧ r.height = height) ∧ ∃ compressed, CompressedBytes r.chunks compressed ∧
        decompressImage lib compressed = .ok rgba ∧ lib.blake3 rgba = hash := by
  simp only [compressedBytes_iff, exists_eq_left, ClipboardReassembler.finish]
  cases hdecompress : decompressImage lib
    ((Chunks.sortByKey (fun chunk => chunk.1.toNat) r.chunks).flatMap Prod.snd) with
  | error e => simp
  | ok bytes =>
    by_cases hhash : lib.blake3 bytes = hash
    · simp only [hhash, ne_eq, not_true_eq_false, if_false, Except.ok.injEq, Prod.mk.injEq]
      constructor
      · rintro ⟨hwidth, hheight, rfl⟩
        exact ⟨⟨hwidth, hheight⟩, rfl, hhash⟩
      · rintro ⟨⟨hwidth, hheight⟩, rfl, -⟩
        exact ⟨hwidth, hheight, rfl⟩
    · simp only [ne_eq, hhash, not_false_eq_true, if_true, Except.ok.injEq]
      constructor
      · exact fun h => absurd h (by simp)
      · rintro ⟨-, rfl, h⟩
        exact absurd h hhash

/-- An end returns nothing, or the image with which an open transfer finishes. -/
theorem handle_end_cases (lib : ClipboardLib) (reassembler : Option ClipboardReassembler)
    (hash : Vector UInt8 32) :
    let result := (handleClipboardMessage lib reassembler (.clipboardEnd hash)).2
    (result = none ∧ ∀ r ∈ reassembler, ∀ image, r.finish lib hash ≠ .ok image) ∨
      ∃ r ∈ reassembler, ∃ width height rgba, r.finish lib hash = .ok (width, height, rgba) ∧
        result = some (.image width height rgba) := by
  cases reassembler with
  | none => exact .inl ⟨rfl, by simp⟩
  | some r =>
    simp only [handleClipboardMessage]
    cases hfinish : r.finish lib hash with
    | error e => exact .inl ⟨rfl, by simp [hfinish]⟩
    | ok image => exact .inr ⟨r, rfl, image.1, image.2.1, image.2.2, hfinish, rfl⟩

/-- The transfer that an end completes is the open one. -/
theorem completes_iff (lib : ClipboardLib) (messages : List Message) (hash : Vector UInt8 32)
    (width height : UInt32) (rgba : List UInt8) :
    Completes lib messages hash width height rgba ↔
      ∃ r ∈ reassemblerAfter lib none messages, r.finish lib hash = .ok (width, height, rgba) := by
  constructor
  · rintro ⟨totalSize, since, compressed, hbegin, hcompressed, hrgba⟩
    obtain ⟨received, hafter⟩ := @reassembler_of_lastBegin lib _ _ _ _ _ hbegin none
    refine ⟨_, hafter, (finish_ok_iff _ _ _ _ _).mpr ⟨⟨rfl, rfl⟩, compressed, ?_⟩⟩
    exact ⟨hcompressed, hrgba⟩
  · rintro ⟨r, hr, hfinish⟩
    obtain ⟨⟨rfl, rfl⟩, compressed, hcompressed, hrgba⟩ := (finish_ok_iff _ _ _ _ _).mp hfinish
    obtain ⟨since, hbegin, hchunks⟩ := lastBegin_of_reassembler hr
    exact ⟨r.totalSize, since, compressed, hbegin, hchunks ▸ hcompressed, hrgba⟩

/-- An end returns the image that it completes. -/
theorem end_image_iff (lib : ClipboardLib) (messages : List Message) (hash : Vector UInt8 32)
    (width height : UInt32) (rgba : List UInt8) :
    (handleClipboardMessage lib (reassemblerAfter lib none messages) (.clipboardEnd hash)).2 =
      some (.image width height rgba) ↔ Completes lib messages hash width height rgba := by
  rw [completes_iff]
  rcases handle_end_cases lib (reassemblerAfter lib none messages) hash with
    ⟨hnone, hfails⟩ | ⟨asm, hasm, width', height', rgba', hfinish, hsome⟩
  · rw [hnone]
    refine iff_of_false (by simp) ?_
    rintro ⟨asm, hasm, hfinish⟩
    exact hfails asm hasm _ hfinish
  · rw [hsome]
    constructor
    · intro h
      obtain ⟨rfl, rfl, rfl⟩ := ClipboardContent.image.inj (Option.some.inj h)
      exact ⟨asm, hasm, hfinish⟩
    · rintro ⟨asm', hasm', hfinish'⟩
      obtain rfl := Option.mem_unique hasm hasm'
      have heq := Except.ok.inj (hfinish.symm.trans hfinish')
      obtain ⟨rfl, hrest⟩ := Prod.mk.inj heq
      obtain ⟨rfl, rfl⟩ := Prod.mk.inj hrest
      rfl

/-- **Receiver.** After any messages, an end returns exactly the image that it completes and else
nothing, and leaves the reassembler empty. -/
theorem end_returns (lib : ClipboardLib) (messages : List Message) (hash : Vector UInt8 32) :
    let r := handleClipboardMessage lib (reassemblerAfter lib none messages) (.clipboardEnd hash)
    r.1 = none ∧
      (∀ width height rgba, r.2 = some (.image width height rgba) ↔
        Completes lib messages hash width height rgba) ∧
      ((∀ width height rgba, ¬ Completes lib messages hash width height rgba) → r.2 = none) := by
  intro r
  refine ⟨handle_end lib _ hash, end_image_iff lib messages hash, ?_⟩
  intro hnot
  rcases handle_end_cases lib (reassemblerAfter lib none messages) hash with
    ⟨hnone, -⟩ | ⟨-, -, width, height, rgba, -, hsome⟩
  · exact hnone
  · exact absurd ((end_image_iff lib messages hash width height rgba).mp hsome)
      (hnot width height rgba)

end SuperShare
