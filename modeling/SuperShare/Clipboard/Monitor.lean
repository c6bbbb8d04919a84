import SuperShare.Clipboard.Reassembly

/-!
# The clipboard monitor

The monitor polls the clipboard and emits what it finds, unless it has emitted it last, or has
received it last from the network, or a remote write is too recent. In a run of local copies,
remote writes and late polls, a poll emits the content of a local copy when it is neither the
last received nor the last emitted content.
-/

namespace SuperShare

/-- After a remote write, clipboard changes are ignored for a while (in milliseconds). -/
def clipboardSuppressionMs : ℕ := 1000

/-- What the clipboard of the system offers. -/
structure SystemClipboard where
  text : Option String
  image : Option (UInt32 × UInt32 × List UInt8)
  deriving DecidableEq

namespace SystemClipboard

/-- `get_text`, with the check that the text is not empty. -/
def getText (clipboard : SystemClipboard) : Option ClipboardContent :=
  match clipboard.text with
  | some text => if text.isEmpty then none else some (.text text)
  | none => none

/-- `get_image`. -/
def getImage (clipboard : SystemClipboard) : Option ClipboardContent :=
  clipboard.image.map fun (width, height, rgba) => .image width height rgba

/-- Read current clipboard content: text first, then image. -/
def readClipboard (clipboard : SystemClipboard) : Option ClipboardContent :=
  clipboard.getText <|> clipboard.getImage

/-- Write a content to the clipboard. -/
def writeClipboard : ClipboardContent → SystemClipboard
  | .text text => ⟨some text, none⟩
  | .image width height rgba => ⟨none, some (width, height, rgba)⟩

/-- The text found after a write is what was written. -/
theorem eq_of_getText_write {content found : ClipboardContent}
    (h : (writeClipboard content).getText = some found) : found = content := by
  cases content with
  | text text =>
    by_cases hempty : text.isEmpty
    · simp [writeClipboard, getText, hempty] at h
    · simp only [writeClipboard, getText, hempty] at h
      exact (Option.some.inj h).symm
  | image width height rgba => exact absurd h (by simp [writeClipboard, getText])

/-- The image found after a write is what was written. -/
theorem eq_of_getImage_write {content found : ClipboardContent}
    (h : (writeClipboard content).getImage = some found) : found = content := by
  cases content with
  | text text => exact absurd h (by simp [writeClipboard, getImage])
  | image width height rgba => exact (Option.some.inj h).symm

/-- What is read after a write is what was written. -/
theorem eq_of_read_write {content found : ClipboardContent}
    (h : (writeClipboard content).readClipboard = some found) : found = content := by
  cases htext : (writeClipboard content).getText with
  | none =>
    rw [readClipboard, htext] at h
    exact eq_of_getImage_write h
  | some text =>
    rw [readClipboard, htext] at h
    obtain rfl : text = found := Option.some.inj h
    exact eq_of_getText_write htext

end SystemClipboard

/-- A clipboard change detected by the monitor. -/
structure ClipboardChange where
  content : ClipboardContent
  hash : Vector UInt8 32
  deriving DecidableEq

/-- Clipboard monitor that polls for changes and emits events. Times are in milliseconds. -/
structure ClipboardMonitor where
  /-- Last known clipboard content hash. -/
  lastHash : Option (Vector UInt8 32)
  /-- Timestamp of the last remote write. -/
  lastRemoteWrite : Option ℕ
  /-- Remote hash to suppress. -/
  remoteHash : Option (Vector UInt8 32)

namespace ClipboardMonitor

/-- A monitor that has seen nothing. -/
def new : ClipboardMonitor := ⟨none, none, none⟩

/-- Mark that a remote write just happened. -/
def suppress (monitor : ClipboardMonitor) (now : ℕ) (hash : Vector UInt8 32) :
    ClipboardMonitor :=
  { monitor with lastRemoteWrite := some now, remoteHash := some hash }

/-- The last remote write is less than the suppression time ago. -/
def WindowOpen (monitor : ClipboardMonitor) (now : ℕ) : Prop :=
  ∃ t ∈ monitor.lastRemoteWrite, now - t < clipboardSuppressionMs

instance (monitor : ClipboardMonitor) (now : ℕ) : Decidable (monitor.WindowOpen now) :=
  inferInstanceAs (Decidable (∃ t ∈ monitor.lastRemoteWrite, now - t < clipboardSuppressionMs))

/-- Check if we should suppress local clipboard changes. -/
def isSuppressed (monitor : ClipboardMonitor) (now : ℕ) (hash : Vector UInt8 32) : Bool :=
  if monitor.remoteHash = some hash then true
  else if monitor.WindowOpen now then true
  else false

/-- The part of a poll after the clipboard has been read. -/
def pollContent (lib : ClipboardLib) (monitor : ClipboardMonitor) (now : ℕ)
    (content : ClipboardContent) : ClipboardMonitor × Option ClipboardChange :=
  let hash := content.hash lib
  if monitor.isSuppressed now hash then (monitor, none)
  else if monitor.lastHash = some hash then (monitor, none)
  else ({ monitor with lastHash := some hash }, some ⟨content, hash⟩)

/-- Poll the clipboard once and return a change if detected. -/
def poll (lib : ClipboardLib) (monitor : ClipboardMonitor) (now : ℕ)
    (clipboard : SystemClipboard) : ClipboardMonitor × Option ClipboardChange :=
  match clipboard.readClipboard with
  | none => (monitor, none)
  | some content => monitor.pollContent lib now content

/-- What makes a poll silent on a content: it was received last, or a remote write is too
recent, or it was emitted last. -/
def Silences (lib : ClipboardLib) (monitor : ClipboardMonitor) (now : ℕ)
    (content : ClipboardContent) : Prop :=
  monitor.remoteHash = some (content.hash lib) ∨ monitor.WindowOpen now ∨
    monitor.lastHash = some (content.hash lib)

/-- A poll with a reason to be silent changes nothing. -/
theorem pollContent_of_silences {lib : ClipboardLib} {monitor : ClipboardMonitor} {now : ℕ}
    {content : ClipboardContent} (h : monitor.Silences lib now content) :
    monitor.pollContent lib now content = (monitor, none) := by
  rcases h with hremote | hwindow | hlast
  · simp [pollContent, isSuppressed, hremote]
  · simp [pollContent, isSuppressed, hwindow]
  · simp [pollContent, hlast]

/-- Any other poll emits the content and remembers it. -/
theorem pollContent_of_not_silences {lib : ClipboardLib} {monitor : ClipboardMonitor} {now : ℕ}
    {content : ClipboardContent} (h : ¬ monitor.Silences lib now content) :
    monitor.pollContent lib now content =
      ({ monitor with lastHash := some (content.hash lib) },
        some ⟨content, content.hash lib⟩) := by
  simp only [Silences, not_or] at h
  obtain ⟨hremote, hwindow, hlast⟩ := h
  simp [pollContent, isSuppressed, hremote, hwindow, hlast]

/-- A poll leaves the remote hash alone. -/
theorem pollContent_remoteHash (lib : ClipboardLib) (monitor : ClipboardMonitor) (now : ℕ)
    (content : ClipboardContent) :
    (monitor.pollContent lib now content).1.remoteHash = monitor.remoteHash := by
  by_cases hsilent : monitor.Silences lib now content
  · rw [pollContent_of_silences hsilent]
  · rw [pollContent_of_not_silences hsilent]

end ClipboardMonitor

/-- What happens to a monitor and its clipboard. -/
inductive MonitorEvent where
  | localCopy (clipboard : SystemClipboard)
  /-- Write received content to the clipboard, then suppress its hash. -/
  | remoteWrite (content : ClipboardContent)
  | poll
  | advance (milliseconds : ℕ)
  deriving DecidableEq

/-- Content exchanged with the network. -/
inductive Exchange where
  | received (content : ClipboardContent)
  | emitted (content : ClipboardContent)
  deriving DecidableEq

/-- A monitor with its clipboard, the time, and the contents exchanged, the newest first. -/
structure MonitorRun where
  clipboard : SystemClipboard
  monitor : ClipboardMonitor
  now : ℕ
  exchanges : List Exchange

namespace MonitorRun

/-- A new monitor on a clipboard. -/
def start (clipboard : SystemClipboard) : MonitorRun := ⟨clipboard, .new, 0, []⟩

/-- What a poll would return. -/
def emission (lib : ClipboardLib) (s : MonitorRun) : Option ClipboardChange :=
  (s.monitor.poll lib s.now s.clipboard).2

/-- The state after an event. -/
def step (lib : ClipboardLib) (s : MonitorRun) : MonitorEvent → MonitorRun
  | .localCopy clipboard => { s with clipboard := clipboard }
  | .remoteWrite content =>
      { s with
        clipboard := .writeClipboard content
        monitor := s.monitor.suppress s.now (content.hash lib)
        exchanges := .received content :: s.exchanges }
  | .poll =>
      { s with
        monitor := (s.monitor.poll lib s.now s.clipboard).1
        exchanges := ((s.emission lib).map fun change => .emitted change.content).toList ++
          s.exchanges }
  | .advance milliseconds => { s with now := s.now + milliseconds }

/-- The state after a list of events. -/
def run (lib : ClipboardLib) (clipboard : SystemClipboard) (events : List MonitorEvent) :
    MonitorRun :=
  events.foldl (step lib) (start clipboard)

/-- The content of the last remote write. -/
def lastReceived (s : MonitorRun) : Option ClipboardContent :=
  s.exchanges.findSome? fun
    | .received content => some content
    | .emitted _ => none

/-- The content emitted last. -/
def lastEmitted (s : MonitorRun) : Option ClipboardContent :=
  s.exchanges.findSome? fun
    | .received _ => none
    | .emitted content => some content

/-- A poll comes later than the suppression time after every remote write. -/
def PollsLate (s : MonitorRun) (event : MonitorEvent) : Prop :=
  event = .poll → ∀ t ∈ s.monitor.lastRemoteWrite, clipboardSuppressionMs < s.now - t

instance (s : MonitorRun) (event : MonitorEvent) : Decidable (s.PollsLate event) :=
  inferInstanceAs (Decidable (event = .poll → _))

end MonitorRun

/-- The content that an event brings. -/
def MonitorEvent.contentOf : MonitorEvent → Option ClipboardContent
  | localCopy clipboard => clipboard.readClipboard
  | remoteWrite content => some content
  | poll | advance _ => none

/-- The contents of a run. -/
def runContents (clipboard : SystemClipboard) (events : List MonitorEvent) :
    List ClipboardContent :=
  clipboard.readClipboard.toList ++ events.filterMap MonitorEvent.contentOf

/-- Different contents have different hashes. -/
def DistinctHashes (lib : ClipboardLib) (contents : List ClipboardContent) : Prop :=
  ∀ c ∈ contents, ∀ c' ∈ contents, c.hash lib = c'.hash lib → c = c'

instance (lib : ClipboardLib) (contents : List ClipboardContent) :
    Decidable (DistinctHashes lib contents) :=
  List.decidableBAll _ _

/-- What the memories of the monitor stand for: they are the hashes of the contents received
and emitted last, and all contents are among the given ones. -/
structure MonitorRun.Remembers (lib : ClipboardLib) (contents : List ClipboardContent)
    (s : MonitorRun) : Prop where
  remote : s.monitor.remoteHash = s.lastReceived.map (ClipboardContent.hash lib)
  last : s.monitor.lastHash = s.lastEmitted.map (ClipboardContent.hash lib)
  clipboard : ∀ c ∈ s.clipboard.readClipboard, c ∈ contents
  received : ∀ c ∈ s.lastReceived, c ∈ contents
  emitted : ∀ c ∈ s.lastEmitted, c ∈ contents

namespace MonitorRun

variable {lib : ClipboardLib} {contents : List ClipboardContent} {s : MonitorRun}

/-- Every event with content among the given keeps what the memories stand for. -/
theorem Remembers.step (h : s.Remembers lib contents) {event : MonitorEvent}
    (hevent : ∀ c ∈ event.contentOf, c ∈ contents) :
    (s.step lib event).Remembers lib contents := by
  cases event with
  | localCopy clipboard => exact ⟨h.remote, h.last, hevent, h.received, h.emitted⟩
  | remoteWrite content =>
    have hcontent : content ∈ contents := hevent content rfl
    refine ⟨rfl, h.last, ?_, ?_, h.emitted⟩
    · intro c hc
      rwa [SystemClipboard.eq_of_read_write hc]
    · intro c hc
      exact (Option.some.inj hc) ▸ hcontent
  | advance milliseconds => exact ⟨h.remote, h.last, h.clipboard, h.received, h.emitted⟩
  | poll =>
    cases hread : s.clipboard.readClipboard with
    | none =>
      have hsame : s.step lib .poll = s := by
        simp [MonitorRun.step, emission, ClipboardMonitor.poll, hread]
      rwa [hsame]
    | some content =>
      by_cases hsilent : s.monitor.Silences lib s.now content
      · have hsame : s.step lib .poll = s := by
          simp [MonitorRun.step, emission, ClipboardMonitor.poll, hread,
            ClipboardMonitor.pollContent_of_silences hsilent]
        rwa [hsame]
      · have hstep : s.step lib .poll =
            { s with
              monitor := { s.monitor with lastHash := some (content.hash lib) }
              exchanges := .emitted content :: s.exchanges } := by
          simp [MonitorRun.step, emission, ClipboardMonitor.poll, hread,
            ClipboardMonitor.pollContent_of_not_silences hsilent]
        rw [hstep]
        refine ⟨h.remote, rfl, h.clipboard, h.received, ?_⟩
        intro c hc
        exact (Option.some.inj hc) ▸ h.clipboard content hread

/-- The memories stand for what was exchanged in the whole run. -/
theorem remembers_run (clipboard : SystemClipboard) (events : List MonitorEvent) :
    (run lib clipboard events).Remembers lib (runContents clipboard events) := by
  have hall : ∀ event ∈ events, ∀ c ∈ event.contentOf, c ∈ runContents clipboard events := by
    intro event hevent c hc
    exact List.mem_append_right _ (List.mem_filterMap.mpr ⟨event, hevent, hc⟩)
  have hstart : (start clipboard).Remembers lib (runContents clipboard events) := by
    refine ⟨rfl, rfl, ?_, by simp [start, lastReceived], by simp [start, lastEmitted]⟩
    intro c hc
    exact List.mem_append_left _ (Option.mem_toList.mpr hc)
  exact List.foldlRecOn events (step lib) hstart
    fun s hs event hevent => hs.step (hall event hevent)

/-- A hash that is remembered is the hash of one content only. -/
theorem hash_eq_iff {c : ClipboardContent} {remembered : Option ClipboardContent}
    (hdistinct : DistinctHashes lib contents) (hc : c ∈ contents)
    (hremembered : ∀ c ∈ remembered, c ∈ contents) :
    remembered.map (ClipboardContent.hash lib) = some (c.hash lib) ↔ remembered = some c := by
  constructor
  · intro h
    obtain ⟨found, rfl, hhash⟩ := Option.map_eq_some_iff.mp h
    rw [hdistinct found (hremembered found rfl) c hc hhash]
  · rintro rfl
    rfl

/-- A late poll is silent on a content exactly when it was received last or emitted last. -/
theorem Remembers.silences_iff (h : s.Remembers lib contents) {c : ClipboardContent}
    (hdistinct : DistinctHashes lib contents)
    (hlate : s.PollsLate .poll) (hread : s.clipboard.readClipboard = some c) :
    s.monitor.Silences lib s.now c ↔ s.lastReceived = some c ∨ s.lastEmitted = some c := by
  have hc : c ∈ contents := h.clipboard c hread
  have hwindow : ¬ s.monitor.WindowOpen s.now := by
    rintro ⟨t, ht, hlt⟩
    have := hlate rfl t ht
    omega
  rw [ClipboardMonitor.Silences, h.remote, h.last, hash_eq_iff hdistinct hc h.received,
    hash_eq_iff hdistinct hc h.emitted]
  tauto

/-- **Local copies are emitted.** In a run of contents with different hashes whose polls come
late after remote writes, a poll that still finds what a local copy put on the clipboard emits
it, unless it was received last or emitted last. It emits nothing if the content was received
last, or was emitted last with no remote write since. -/
theorem localCopy_emitted {clipboard copied : SystemClipboard} {c : ClipboardContent}
    {before between : List MonitorEvent}
    (hdistinct : DistinctHashes lib
      (runContents clipboard (before ++ .localCopy copied :: between)))
    (hlate : Run.Along (step lib) PollsLate (start clipboard)
      ((before ++ .localCopy copied :: between) ++ [.poll]))
    (hcopied : copied.readClipboard = some c)
    (hstill : (run lib clipboard (before ++ .localCopy copied :: between)).clipboard.readClipboard =
      copied.readClipboard) :
    let s := run lib clipboard (before ++ .localCopy copied :: between)
    (s.lastReceived ≠ some c → s.lastEmitted ≠ some c →
        s.emission lib = some ⟨c, c.hash lib⟩) ∧
      (s.lastReceived = some c → s.emission lib = none) ∧
      (s.exchanges.head? = some (.emitted c) → s.emission lib = none) := by
  intro s
  have hread : s.clipboard.readClipboard = some c := hstill.trans hcopied
  have hremembers : s.Remembers lib _ := remembers_run _ _
  have hpoll : s.PollsLate .poll := (Run.along_append.mp hlate).2.1
  have hsilent := hremembers.silences_iff hdistinct hpoll hread
  have hemission : s.emission lib = (s.monitor.pollContent lib s.now c).2 := by
    rw [emission, ClipboardMonitor.poll, hread]
  refine ⟨fun hreceived hemitted => ?_, fun hreceived => ?_, fun hhead => ?_⟩
  · have hloud : ¬ s.monitor.Silences lib s.now c := by
      rw [hsilent, not_or]
      exact ⟨hreceived, hemitted⟩
    rw [hemission, ClipboardMonitor.pollContent_of_not_silences hloud]
  · rw [hemission, ClipboardMonitor.pollContent_of_silences (hsilent.mpr (Or.inl hreceived))]
  · have hemitted : s.lastEmitted = some c := by
      obtain ⟨older, hexchanges⟩ := List.head?_eq_some_iff.mp hhead
      rw [lastEmitted, hexchanges]
      rfl
    rw [hemission, ClipboardMonitor.pollContent_of_silences (hsilent.mpr (Or.inr hemitted))]

/-- A pixel on the clipboard. -/
def pixel (rgba : List UInt8) : SystemClipboard := ⟨none, some (1, 1, rgba)⟩

/-- A pixel copied after another was received is emitted. -/
theorem localCopy_emitted_pixel :
    (run pixelLib ⟨none, none⟩ [.remoteWrite (.image 1 1 [1, 2, 3, 255]), .advance 1001,
      .localCopy (pixel [9, 9, 9, 255])]).emission pixelLib =
        some ⟨.image 1 1 [9, 9, 9, 255], pixelLib.blake3 [9, 9, 9, 255]⟩ :=
  (@localCopy_emitted pixelLib ⟨none, none⟩ (pixel [9, 9, 9, 255]) (.image 1 1 [9, 9, 9, 255])
    [.remoteWrite (.image 1 1 [1, 2, 3, 255]), .advance 1001] [] (by decide) (by decide)
    rfl rfl).1 (by decide) (by decide)

/-- A pixel is received; another is copied and emitted; then the first is copied. -/
def recopied : List MonitorEvent :=
  [.remoteWrite (.image 1 1 [1, 2, 3, 255]), .advance 1001, .localCopy (pixel [9, 9, 9, 255]),
    .poll, .localCopy (pixel [1, 2, 3, 255])]

/-- The copy of a pixel that was received earlier changes the clipboard, and is not emitted by
the poll that follows it. -/
theorem localCopy_received_earlier :
    DistinctHashes pixelLib (runContents ⟨none, none⟩ recopied) ∧
      Run.Along (step pixelLib) PollsLate (start ⟨none, none⟩) (recopied ++ [.poll]) ∧
      (run pixelLib ⟨none, none⟩ recopied.dropLast).clipboard = pixel [9, 9, 9, 255] ∧
      (run pixelLib ⟨none, none⟩ recopied).clipboard = pixel [1, 2, 3, 255] ∧
      (run pixelLib ⟨none, none⟩ recopied).emission pixelLib = none := by
  decide

end MonitorRun

end SuperShare
