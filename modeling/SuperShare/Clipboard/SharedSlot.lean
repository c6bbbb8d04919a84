import SuperShare.Clipboard.Reassembly
import SuperShare.Lib.Interleave

/-!
# Transfers of several clients at the server

One task of the server receives the messages of all clients from the broadcast channel and
keeps one reassembler for them, although every message comes with the name of its client. It
gives every image back exactly when the transfers come one after the other.
-/

namespace SuperShare

open Interleave

/-- What the receiving task of the server keeps: its reassembler, and the request to leave
remote mode that it passes on. -/
structure ReceiveTask where
  reassembler : Option ClipboardReassembler
  exitRemote : Bool

/-- The task when the server starts. -/
def ReceiveTask.start : ReceiveTask := ⟨none, false⟩

/-- Handle a message of a client, and return the content that it completes. The name of the
client is only logged. -/
def ReceiveTask.recv (lib : ClipboardLib) (task : ReceiveTask) (event : String × Message) :
    ReceiveTask × Option ClipboardContent :=
  match event.2 with
  | .boundaryLeave _ => ({ task with exitRemote := true }, none)
  | .clipboardData .. | .clipboardBegin .. | .clipboardChunk .. | .clipboardEnd .. =>
      let (reassembler, content) := handleClipboardMessage lib task.reassembler event.2
      ({ task with reassembler := reassembler }, content)
  | _ => (task, none)

/-- The contents that the task completes. -/
def reconstructed (lib : ClipboardLib) (events : List (String × Message)) :
    List ClipboardContent :=
  (Run.outputs (ReceiveTask.recv lib) .start events).filterMap id

/-- A client with the image it copied, and the messages prepared for it. -/
structure ImageTransfer (lib : ClipboardLib) where
  client : String
  width : UInt32
  height : UInt32
  rgba : List UInt8
  messages : List Message
  prepared : prepareTransfer lib (.image width height rgba) = .ok messages

/-- The image. -/
def ImageTransfer.content {lib : ClipboardLib} (t : ImageTransfer lib) : ClipboardContent :=
  .image t.width t.height t.rgba

/-- The messages, as the block of their client. -/
def ImageTransfer.block {lib : ClipboardLib} (t : ImageTransfer lib) : String × List Message :=
  (t.client, t.messages)

/-- A message that starts a transfer. -/
def Message.isBegin : Message → Bool
  | clipboardBegin .. => true
  | _ => false

/-- A message that ends a transfer. -/
def Message.isEnd : Message → Bool
  | clipboardEnd .. => true
  | _ => false

/-- The contents that a list of messages completes. -/
def produced (lib : ClipboardLib) (reassembler : Option ClipboardReassembler)
    (messages : List Message) : List ClipboardContent :=
  (receiveClipboard lib reassembler messages).filterMap id

variable {lib : ClipboardLib}

/-- The task handles every message as `handleClipboardMessage` does. -/
theorem recv_eq (task : ReceiveTask) (event : String × Message) :
    (task.recv lib event).1.reassembler =
        (handleClipboardMessage lib task.reassembler event.2).1 ∧
      (task.recv lib event).2 = (handleClipboardMessage lib task.reassembler event.2).2 := by
  obtain ⟨client, m⟩ := event
  cases m <;> exact ⟨rfl, rfl⟩

/-- The contents of the task are those of its messages. -/
theorem reconstructed_eq (events : List (String × Message)) :
    reconstructed lib events = produced lib none (events.map Prod.snd) := by
  have houtputs : ∀ (task : ReceiveTask), Run.outputs (ReceiveTask.recv lib) task events =
      receiveClipboard lib task.reassembler (events.map Prod.snd) := by
    induction events with
    | nil => intro task; rfl
    | cons event events ih =>
      intro task
      obtain ⟨hstate, hcontent⟩ := @recv_eq lib task event
      rw [Run.outputs, ih, hstate, hcontent]
      rfl
  rw [reconstructed, houtputs]
  rfl

/-- A list of messages goes on from the reassembler that its first part leaves. -/
theorem produced_append (reassembler : Option ClipboardReassembler)
    (first second : List Message) :
    produced lib reassembler (first ++ second) = produced lib reassembler first ++
      produced lib (reassemblerAfter lib reassembler first) second := by
  rw [produced, receiveClipboard, Run.outputs_append, List.filterMap_append]
  rfl

/-- One message more. -/
theorem produced_cons (reassembler : Option ClipboardReassembler) (m : Message)
    (messages : List Message) :
    produced lib reassembler (m :: messages) =
      (handleClipboardMessage lib reassembler m).2.toList ++
        produced lib (handleClipboardMessage lib reassembler m).1 messages := by
  rw [produced, receiveClipboard, Run.outputs, List.filterMap_cons]
  cases (handleClipboardMessage lib reassembler m).2 <;> rfl

/-- How many reassemblers the slot holds. -/
def occupied (reassembler : Option ClipboardReassembler) : ℕ :=
  if reassembler.isSome then 1 else 0

/-- A message of a transfer that completes a content empties the slot, and only a begin fills
it. -/
theorem handle_budget (reassembler : Option ClipboardReassembler) {m : Message}
    (hm : m.isTransfer) :
    (handleClipboardMessage lib reassembler m).2.toList.length +
        occupied (handleClipboardMessage lib reassembler m).1 ≤
      occupied reassembler + if m.isBegin then 1 else 0 := by
  cases m with
  | clipboardBegin format =>
    cases format with
    | text => change 0 + occupied reassembler ≤ occupied reassembler + 1; omega
    | image => change 0 + 1 ≤ occupied reassembler + 1; omega
  | clipboardChunk seq data => simp [handleClipboardMessage, occupied]
  | clipboardEnd hash =>
    cases reassembler with
    | none => simp [handleClipboardMessage]
    | some r =>
      cases hfinish : r.finish lib hash <;> simp [handleClipboardMessage, hfinish, occupied]
  | _ => exact absurd hm (by simp [Message.isTransfer])

/-- A list of messages completes at most one content for each begin, and one more when the
slot was taken. -/
theorem length_produced_le (reassembler : Option ClipboardReassembler) {messages : List Message}
    (hmessages : ∀ m ∈ messages, m.isTransfer) :
    (produced lib reassembler messages).length ≤
      messages.countP Message.isBegin + occupied reassembler := by
  induction messages generalizing reassembler with
  | nil => simp [produced, receiveClipboard, Run.outputs]
  | cons m messages ih =>
    obtain ⟨hm, hrest⟩ := List.forall_mem_cons.mp hmessages
    have hstep := @handle_budget lib reassembler m hm
    have hnext := ih (handleClipboardMessage lib reassembler m).1 hrest
    rw [produced_cons, List.length_append, List.countP_cons]
    omega

/-- Messages that neither begin nor end a transfer complete nothing and leave the slot as it
is. -/
theorem produced_quiet (reassembler : Option ClipboardReassembler) {messages : List Message}
    (hmessages : ∀ m ∈ messages, m.isTransfer)
    (hquiet : ∀ m ∈ messages, m.isBegin = false ∧ m.isEnd = false) :
    produced lib reassembler messages = [] ∧
      occupied (reassemblerAfter lib reassembler messages) = occupied reassembler := by
  induction messages generalizing reassembler with
  | nil => exact ⟨rfl, rfl⟩
  | cons m messages ih =>
    obtain ⟨hm, hrest⟩ := List.forall_mem_cons.mp hmessages
    obtain ⟨⟨hbegin, hend⟩, hothers⟩ := List.forall_mem_cons.mp hquiet
    cases m with
    | clipboardChunk seq data =>
      obtain ⟨hnone, hafter⟩ := ih (handleClipboardMessage lib reassembler _).1 hrest hothers
      refine ⟨?_, hafter.trans (by simp [handleClipboardMessage, occupied])⟩
      rw [produced_cons, hnone]
      rfl
    | clipboardBegin => exact absurd hbegin (by simp [Message.isBegin])
    | clipboardEnd => exact absurd hend (by simp [Message.isEnd])
    | _ => exact absurd hm (by simp [Message.isTransfer])

/-- A begin completes nothing, and leaves at most one reassembler for what follows. -/
theorem length_produced_begin (reassembler : Option ClipboardReassembler) {m : Message}
    {messages : List Message} (hbegin : m.isBegin) (hmessages : ∀ m ∈ messages, m.isTransfer) :
    (produced lib reassembler (m :: messages)).length ≤
      messages.countP Message.isBegin + 1 := by
  have hnone : (handleClipboardMessage lib reassembler m).2 = none := by
    cases m with
    | clipboardBegin format => cases format <;> rfl
    | _ => exact absurd hbegin (by simp [Message.isBegin])
  have hnext := @length_produced_le lib (handleClipboardMessage lib reassembler m).1 messages
    hmessages
  have hoccupied : occupied (handleClipboardMessage lib reassembler m).1 ≤ 1 := by
    unfold occupied
    split <;> omega
  rw [produced_cons, hnone]
  simp only [Option.toList_none, List.nil_append]
  omega

/-- When a second transfer begins before the first has ended, a content is lost. -/
theorem length_produced_lt {first second : Message} {middle tail : List Message}
    (hfirst : first.isBegin) (hsecond : second.isBegin)
    (hquiet : ∀ m ∈ middle, m.isBegin = false ∧ m.isEnd = false)
    (hmessages : ∀ m ∈ first :: (middle ++ second :: tail), m.isTransfer) :
    (produced lib none (first :: (middle ++ second :: tail))).length <
      (first :: (middle ++ second :: tail)).countP Message.isBegin := by
  have hmiddle : ∀ m ∈ middle, m.isTransfer := fun m hm => hmessages m (by simp [hm])
  have htail : ∀ m ∈ tail, m.isTransfer := fun m hm => hmessages m (by simp [hm])
  have hnone : (handleClipboardMessage lib none first).2 = none := by
    cases first with
    | clipboardBegin format => cases format <;> rfl
    | _ => exact absurd hfirst (by simp [Message.isBegin])
  have hskip := (@produced_quiet lib (handleClipboardMessage lib none first).1 middle hmiddle
    hquiet).1
  have hlast := @length_produced_begin lib
    (reassemblerAfter lib (handleClipboardMessage lib none first).1 middle) second tail hsecond
    htail
  rw [produced_cons, hnone, produced_append, hskip]
  simp only [Option.toList_none, List.nil_append, List.countP_cons, List.countP_append, hfirst,
    hsecond, if_true]
  omega

/-- The end of a transfer empties the slot. -/
theorem handle_isEnd (reassembler : Option ClipboardReassembler) {m : Message} (hm : m.isEnd) :
    (handleClipboardMessage lib reassembler m).1 = none := by
  cases m with
  | clipboardEnd hash =>
    cases reassembler with
    | none => rfl
    | some r => cases hfinish : r.finish lib hash <;> simp [handleClipboardMessage, hfinish]
  | _ => exact absurd hm (by simp [Message.isEnd])

/-- Blocks that are the messages of image transfers: sections of transfer messages. -/
structure TransferBlocks (blocks : List (String × List Message)) : Prop where
  sections : Sections Message.isBegin Message.isEnd blocks
  transfers : ∀ b ∈ blocks, ∀ m ∈ b.2, m.isTransfer

/-- A block leaves the slot empty. -/
theorem TransferBlocks.after {blocks : List (String × List Message)} (h : TransferBlocks blocks)
    {b : String × List Message} (hb : b ∈ blocks) (reassembler : Option ClipboardReassembler) :
    reassemblerAfter lib reassembler b.2 = none := by
  obtain ⟨first, inner, last, hsection⟩ := h.sections b hb
  rw [hsection.shape, ← List.cons_append, reassemblerAfter, Run.final, List.foldl_append]
  exact handle_isEnd _ hsection.last_closes

/-- The messages of an interleaving are messages of its blocks. -/
theorem TransferBlocks.isTransfer {blocks : List (String × List Message)}
    (h : TransferBlocks blocks) {events : List (String × Message)}
    (hmerges : Merges blocks events) : ∀ m ∈ events.map Prod.snd, m.isTransfer := by
  intro m hm
  obtain ⟨e, he, rfl⟩ := List.mem_map.mp hm
  obtain ⟨b, hb, hkey⟩ := List.mem_map.mp (hmerges.known e he)
  refine h.transfers b hb e.2 ?_
  rw [← hmerges.own b hb, hkey]
  exact List.mem_map.mpr ⟨e, List.mem_filter.mpr ⟨he, by simp⟩, rfl⟩

/-- An interleaving that completes as many contents as it has blocks has them one after the
other. The induction is on the blocks: the first block must be whole before another begins,
since the slot holds one transfer. -/
theorem sequential_of_length_le {n : ℕ} {blocks : List (String × List Message)}
    {events : List (String × Message)} (hn : blocks.length = n)
    (hnodup : (blocks.map Prod.fst).Nodup) (hblocks : TransferBlocks blocks)
    (hmerges : Merges blocks events)
    (hcount : n ≤ (produced lib none (events.map Prod.snd)).length) :
    ∃ order, order.Perm blocks ∧ events = Interleave.sequence order := by
  induction n generalizing blocks events with
  | zero =>
    obtain rfl := List.eq_nil_of_length_eq_zero hn
    exact ⟨[], List.Perm.refl _, hmerges.eq_nil⟩
  | succ n ih =>
    have hbegins := hmerges.countP_opens hnodup hblocks.sections
    have htransfer := hblocks.isTransfer hmerges
    have hne : blocks ≠ [] := List.ne_nil_of_length_eq_add_one hn
    obtain ⟨k, a, middle, e, tail, rfl, hopens, -, hmiddle, he⟩ :=
      hmerges.exists_front hblocks.sections hne
    by_cases hbegin : e.2.isBegin = true
    · -- The second begin loses the first transfer.
      exfalso
      have hmap : ((k, a) :: (middle ++ e :: tail)).map Prod.snd =
          a :: (middle.map Prod.snd ++ e.2 :: tail.map Prod.snd) := by simp
      have hbegins' : (((k, a) :: (middle ++ e :: tail)).map Prod.snd).countP
          Message.isBegin = n + 1 := by
        rw [List.countP_map, ← hn, ← hbegins]
        rfl
      rw [hmap] at hcount htransfer hbegins'
      have hlost := @length_produced_lt lib a e.2 _ _ hopens hbegin
        (List.forall_mem_map.mpr hmiddle) htransfer
      omega
    · have hend : e.2.isEnd = true := he.resolve_left hbegin
      obtain ⟨block, hblock, hfront⟩ := hmerges.front_section hblocks.sections
        (fun x hx => (hmiddle x hx).1) (by simpa using hbegin) hend
      obtain ⟨before, after, rfl⟩ := List.append_of_mem hblock
      rw [hfront] at hmerges hcount ⊢
      have hrest := hmerges.of_front hnodup
      have hsub : ∀ b ∈ before ++ after, b ∈ before ++ (k, block) :: after := by
        intro b hb
        simp only [List.mem_append, List.mem_cons] at hb ⊢
        tauto
      have hothers : TransferBlocks (before ++ after) :=
        ⟨fun b hb => hblocks.sections b (hsub b hb), fun b hb => hblocks.transfers b (hsub b hb)⟩
      have hnodup' : ((before ++ after).map Prod.fst).Nodup := by
        rw [List.map_append, List.map_cons, List.nodup_middle, List.nodup_cons,
          ← List.map_append] at hnodup
        exact hnodup.2
      have hsnd : (tagged k block).map Prod.snd = block := by
        rw [tagged, List.map_map]
        exact List.map_id block
      have hone : (produced lib none block).length ≤ 1 := by
        obtain ⟨first, inner, last, hsection⟩ := hblocks.sections _ hblock
        have hle := @length_produced_le lib none block (hblocks.transfers _ hblock)
        rw [hsection.countP_opens] at hle
        exact hle
      rw [List.map_append, hsnd, produced_append, hblocks.after hblock, List.length_append]
        at hcount
      obtain ⟨order, hperm, htail⟩ := ih (by simp at hn ⊢; omega) hnodup' hothers hrest
        (by omega)
      refine ⟨(k, block) :: order, ?_, ?_⟩
      · exact (List.Perm.cons _ hperm).trans List.perm_middle.symm
      · rw [htail, Interleave.sequence, Interleave.sequence, List.flatMap_cons]

/-- Blocks that come one after the other complete what each completes on its own. -/
theorem produced_sequence {blocks : List (String × List Message)}
    (hblocks : TransferBlocks blocks) :
    produced lib none ((Interleave.sequence blocks).map Prod.snd) =
      blocks.flatMap fun b => produced lib none b.2 := by
  induction blocks with
  | nil => rfl
  | cons b blocks ih =>
    have hothers : TransferBlocks blocks :=
      ⟨fun b hb => hblocks.sections b (List.mem_cons_of_mem _ hb),
        fun b hb => hblocks.transfers b (List.mem_cons_of_mem _ hb)⟩
    have hsnd : (tagged b.1 b.2).map Prod.snd = b.2 := by
      rw [tagged, List.map_map]
      exact List.map_id b.2
    rw [Interleave.sequence, List.flatMap_cons, ← Interleave.sequence, List.map_append, hsnd,
      produced_append, hblocks.after List.mem_cons_self, ih hothers, List.flatMap_cons]

/-- The messages of an image are a section of transfer messages. -/
theorem imageMessages_section (width height : UInt32) (rgba compressed : List UInt8) :
    IsSection Message.isBegin Message.isEnd (imageMessages lib width height rgba compressed)
        (.clipboardBegin .image (UInt32.ofNat compressed.length) width height)
        (chunkMessages compressed) (.clipboardEnd (lib.blake3 rgba)) ∧
      ∀ m ∈ imageMessages lib width height rgba compressed, m.isTransfer := by
  have hchunk : ∀ m ∈ chunkMessages compressed, ∃ chunk, m = chunkMessage chunk := by
    intro m hm
    rw [chunkMessages_eq] at hm
    obtain ⟨chunk, -, rfl⟩ := List.mem_map.mp hm
    exact ⟨chunk, rfl⟩
  refine ⟨⟨rfl, rfl, rfl, ?_, ?_, rfl, rfl⟩, ?_⟩
  · intro m hm
    obtain ⟨chunk, rfl⟩ := hchunk m hm
    rfl
  · intro m hm
    obtain ⟨chunk, rfl⟩ := hchunk m hm
    rfl
  · intro m hm
    rcases List.mem_cons.mp hm with rfl | hm
    · rfl
    rcases List.mem_append.mp hm with hm | hm
    · obtain ⟨chunk, rfl⟩ := hchunk m hm
      rfl
    · obtain rfl := List.mem_singleton.mp hm
      rfl

/-- The blocks of image transfers. -/
theorem transferBlocks (transfers : List (ImageTransfer lib)) :
    TransferBlocks (transfers.map ImageTransfer.block) := by
  have hblock : ∀ t ∈ transfers, ∃ compressed,
      t.messages = imageMessages lib t.width t.height t.rgba compressed := by
    intro t _
    obtain ⟨compressed, -, -, hmessages⟩ := prepareTransfer_image t.prepared
    exact ⟨compressed, hmessages⟩
  constructor
  · refine List.forall_mem_map.mpr fun t ht => ?_
    obtain ⟨compressed, hmessages⟩ := hblock t ht
    have hsection := (@imageMessages_section lib t.width t.height t.rgba compressed).1
    rw [← hmessages] at hsection
    exact ⟨_, _, _, hsection⟩
  · refine List.forall_mem_map.mpr fun t ht => ?_
    obtain ⟨compressed, hmessages⟩ := hblock t ht
    rw [ImageTransfer.block, hmessages]
    exact (imageMessages_section t.width t.height t.rgba compressed).2

/-- On its own, a block completes its image. -/
theorem produced_block (hzstd : lib.Inverse) (t : ImageTransfer lib) :
    produced lib none t.block.2 = [t.content] := by
  obtain ⟨compressed, hcompress, hsize, hmessages⟩ := prepareTransfer_image t.prepared
  have hreceive := (@receive_image lib hzstd t.width t.height t.rgba compressed hcompress hsize
    _ (List.Perm.refl _) none (UInt32.ofNat compressed.length)).1
  rw [← chunkMessages_eq] at hreceive
  rw [produced, ImageTransfer.block, hmessages, imageMessages, hreceive, List.filterMap_append]
  simp [ImageTransfer.content]

/-- **One slot for all clients.** The server gives every image back exactly once if and only
if the transfers arrive one after the other. -/
theorem reconstructed_perm_iff (hzstd : lib.Inverse) {transfers : List (ImageTransfer lib)}
    (hnames : (transfers.map ImageTransfer.client).Nodup) {events : List (String × Message)}
    (hmerges : Merges (transfers.map ImageTransfer.block) events) :
    (reconstructed lib events).Perm (transfers.map ImageTransfer.content) ↔
      ∃ order : List (String × List Message),
        order.Perm (transfers.map ImageTransfer.block) ∧ events = Interleave.sequence order := by
  have hblocks := transferBlocks transfers
  rw [reconstructed_eq]
  constructor
  · intro hperm
    have hlength := hperm.length_eq
    have hnodup : ((transfers.map ImageTransfer.block).map Prod.fst).Nodup := by
      rw [List.map_map]
      exact hnames
    refine @sequential_of_length_le lib _ _ _ rfl hnodup hblocks hmerges ?_
    rw [hlength, List.length_map, List.length_map]
  · rintro ⟨order, hperm, rfl⟩
    have horder : TransferBlocks order :=
      ⟨fun b hb => hblocks.sections b (hperm.mem_iff.mp hb),
        fun b hb => hblocks.transfers b (hperm.mem_iff.mp hb)⟩
    have hcontents : (transfers.map ImageTransfer.block).flatMap
        (fun b => produced lib none b.2) = transfers.map ImageTransfer.content := by
      rw [List.flatMap_map, List.map_eq_flatMap]
      exact List.flatMap_congr fun t _ => produced_block hzstd t
    rw [produced_sequence horder, ← hcontents]
    exact hperm.flatMap_right _

/-- A pixel that one client copied. -/
def laptopPixel : ImageTransfer pixelLib :=
  ⟨"laptop", 1, 1, [9, 9, 9, 255], pixelMessages [9, 9, 9, 255], rfl⟩

/-- A pixel that another client copied. -/
def tabletPixel : ImageTransfer pixelLib :=
  ⟨"tablet", 1, 1, [1, 2, 3, 255], pixelMessages [1, 2, 3, 255], rfl⟩

/-- Two pixels, one after the other, are both given back. -/
theorem reconstructed_perm_iff_sequence :
    (reconstructed pixelLib
        (Interleave.sequence ([laptopPixel, tabletPixel].map ImageTransfer.block))).Perm
      ([laptopPixel, tabletPixel].map ImageTransfer.content) :=
  (@reconstructed_perm_iff pixelLib pixelLib_inverse [laptopPixel, tabletPixel] (by decide) _
    ⟨by decide, by decide⟩).mpr ⟨_, List.Perm.refl _, rfl⟩

/-- The second transfer begins before the first has sent its chunk. -/
def crossing : List (String × Message) :=
  tagged "laptop" (laptopPixel.messages.take 1) ++
    (tagged "tablet" (tabletPixel.messages.take 1) ++
      (tagged "laptop" (laptopPixel.messages.drop 1) ++
        tagged "tablet" (tabletPixel.messages.drop 1)))

/-- Two transfers that cross give back one image only. -/
theorem reconstructed_crossing :
    Merges ([laptopPixel, tabletPixel].map ImageTransfer.block) crossing ∧
      ¬ (reconstructed pixelLib crossing).Perm
        ([laptopPixel, tabletPixel].map ImageTransfer.content) :=
  ⟨⟨by decide, by decide⟩, by decide⟩

end SuperShare
