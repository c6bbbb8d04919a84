import SuperShare.Clipboard.Monitor
import SuperShare.Lib.Changes

/-!
# Local copies

A run of the monitor without remote writes: contents are put on the clipboard one after the
other, and each is polled at least once while it is there. The monitor is a detector of changes
by the hash, and the hash is that of the text or of the pixels only.
-/

namespace SuperShare

/-- The bytes of which the hash of a content is computed. -/
def ClipboardContent.hashedBytes : ClipboardContent → List UInt8
  | text s => utf8 s
  | image _ _ rgba => rgba

/-- A content as long as it is on the clipboard: the times waited before each of its polls. -/
structure LocalStay where
  clipboard : SystemClipboard
  waits : List ℕ
  polled : waits ≠ []

/-- The events of a stay. -/
def LocalStay.events (stay : LocalStay) : List MonitorEvent :=
  .localCopy stay.clipboard :: stay.waits.flatMap fun ms => [.advance ms, .poll]

/-- The contents of the clipboard, one after the other. -/
def localContents (stays : List LocalStay) : List ClipboardContent :=
  stays.filterMap fun stay => stay.clipboard.readClipboard

namespace MonitorRun

/-- The contents emitted in a run, in order. -/
def emitted (s : MonitorRun) : List ClipboardContent :=
  s.exchanges.reverse.filterMap fun
    | .received _ => none
    | .emitted content => some content

/-- The monitor has received nothing, and `last` is the hash that it has emitted last. -/
def Local (s : MonitorRun) (last : Option (Vector UInt8 32)) : Prop :=
  s.monitor = ⟨last, none, none⟩

variable {lib : ClipboardLib} {s : MonitorRun} {last : Option (Vector UInt8 32)}

/-- A local content is not emitted exactly if its hash has been emitted last. -/
theorem Local.silences_iff (h : s.Local last) (c : ClipboardContent) :
    s.monitor.Silences lib s.now c ↔ last = some (c.hash lib) := by
  rw [h]
  simp [ClipboardMonitor.Silences, ClipboardMonitor.WindowOpen]

/-- A poll changes nothing where the clipboard is empty or its hash has been emitted last. -/
theorem Local.poll_old (h : s.Local last)
    (hold : ∀ c ∈ s.clipboard.readClipboard, last = some (c.hash lib)) :
    s.step lib .poll = s := by
  cases hread : s.clipboard.readClipboard with
  | none => simp [step, emission, ClipboardMonitor.poll, hread]
  | some c =>
    have hsilent : s.monitor.Silences lib s.now c := (h.silences_iff c).mpr (hold c hread)
    simp [step, emission, ClipboardMonitor.poll, hread,
      ClipboardMonitor.pollContent_of_silences hsilent]

/-- A poll emits a content with another hash. -/
theorem Local.poll_new (h : s.Local last) {c : ClipboardContent}
    (hread : s.clipboard.readClipboard = some c) (hnew : last ≠ some (c.hash lib)) :
    s.step lib .poll =
      { s with
        monitor := ⟨some (c.hash lib), none, none⟩
        exchanges := .emitted c :: s.exchanges } := by
  have hloud : ¬ s.monitor.Silences lib s.now c := fun hsilent =>
    hnew ((h.silences_iff c).mp hsilent)
  simp only [step, emission, ClipboardMonitor.poll, hread,
    ClipboardMonitor.pollContent_of_not_silences hloud]
  rw [h]
  rfl

/-- Polls with nothing new leave everything but the time. -/
theorem Local.polls_old (h : s.Local last)
    (hold : ∀ c ∈ s.clipboard.readClipboard, last = some (c.hash lib)) (waits : List ℕ) :
    ∃ now, (waits.flatMap fun ms => [MonitorEvent.advance ms, .poll]).foldl (step lib) s =
      { s with now := now } := by
  induction waits generalizing s with
  | nil => exact ⟨s.now, rfl⟩
  | cons ms waits ih =>
    have hlater : (s.step lib (.advance ms)).Local last := h
    rw [List.flatMap_cons, List.foldl_append, List.foldl_cons, List.foldl_cons,
      hlater.poll_old hold]
    exact ih hlater hold

/-- Stay step: an empty clipboard, or a hash that has been emitted last, changes nothing else. -/
theorem Local.stay_old (h : s.Local last) {stay : LocalStay}
    (hold : ∀ c ∈ stay.clipboard.readClipboard, last = some (c.hash lib)) :
    ∃ now, stay.events.foldl (step lib) s =
      { s with clipboard := stay.clipboard, now := now } := by
  have hcopied : (s.step lib (.localCopy stay.clipboard)).Local last := h
  exact hcopied.polls_old hold stay.waits

/-- Stay step: a content with another hash is emitted by the first poll, and only by this. -/
theorem Local.stay_new (h : s.Local last) {stay : LocalStay} {c : ClipboardContent}
    (hread : stay.clipboard.readClipboard = some c) (hnew : last ≠ some (c.hash lib)) :
    ∃ now, stay.events.foldl (step lib) s =
      ⟨stay.clipboard, ⟨some (c.hash lib), none, none⟩, now, .emitted c :: s.exchanges⟩ := by
  obtain ⟨ms, waits, hwaits⟩ := List.exists_cons_of_ne_nil stay.polled
  have hfirst : ((s.step lib (.localCopy stay.clipboard)).step lib (.advance ms)).Local last := h
  rw [LocalStay.events, hwaits, List.flatMap_cons, List.foldl_cons, List.foldl_append,
    List.foldl_cons, List.foldl_cons, hfirst.poll_new hread hnew]
  have hemitted : Local ⟨stay.clipboard, ⟨some (c.hash lib), none, none⟩, s.now + ms,
      .emitted c :: s.exchanges⟩ (some (c.hash lib)) := rfl
  refine hemitted.polls_old (fun c' hc' => ?_) waits
  obtain rfl : c = c' := Option.some.inj (hread.symm.trans hc')
  rfl

/-- Stay run: what is exchanged is what a detector of changes by the hash reports. -/
theorem Local.exchanges_stays (h : s.Local last) (stays : List LocalStay) :
    ((stays.flatMap LocalStay.events).foldl (step lib) s).exchanges =
      ((Changes.detect (ClipboardContent.hash lib) last (localContents stays)).map
        Exchange.emitted).reverse ++ s.exchanges := by
  induction stays generalizing s last with
  | nil => rfl
  | cons stay stays ih =>
    rw [List.flatMap_cons, List.foldl_append]
    cases hread : stay.clipboard.readClipboard with
    | none =>
      have hold : ∀ c ∈ stay.clipboard.readClipboard, last = some (c.hash lib) := by
        simp [hread]
      obtain ⟨now, hstay⟩ := h.stay_old hold
      have hnext : Local { s with clipboard := stay.clipboard, now := now } last := h
      have hcontents : localContents (stay :: stays) = localContents stays := by
        simp [localContents, hread]
      rw [hstay, ih hnext, hcontents]
    | some c =>
      have hcontents : localContents (stay :: stays) = c :: localContents stays := by
        simp [localContents, hread]
      rw [hcontents, Changes.detect]
      by_cases hsame : last = some (c.hash lib)
      · have hold : ∀ c ∈ stay.clipboard.readClipboard, last = some (c.hash lib) := by
          simp [hread, hsame]
        obtain ⟨now, hstay⟩ := h.stay_old hold
        have hnext : Local { s with clipboard := stay.clipboard, now := now } last := h
        rw [hstay, ih hnext, if_pos hsame]
      · obtain ⟨now, hstay⟩ := h.stay_new hread hsame
        have hnext : Local ⟨stay.clipboard, ⟨some (c.hash lib), none, none⟩, now,
            .emitted c :: s.exchanges⟩ (some (c.hash lib)) := rfl
        rw [hstay, ih hnext, if_neg hsame, List.map_cons, List.reverse_cons, List.append_assoc]
        rfl

/-- The contents emitted are those that a detector of changes by the hash reports. -/
theorem emitted_run_stays (lib : ClipboardLib) (clipboard : SystemClipboard)
    (stays : List LocalStay) :
    (run lib clipboard (stays.flatMap LocalStay.events)).emitted =
      Changes.detect (ClipboardContent.hash lib) none (localContents stays) := by
  have hstart : (start clipboard).Local none := rfl
  rw [run, emitted, hstart.exchanges_stays]
  simp [start, List.filterMap_map]

/-- **Local copies.** Without remote writes, the contents emitted are the contents of the clipboard
without adjacent repetitions, if and only if the adjacent ones of which the same bytes are hashed
are the same. -/
theorem emitted_eq_destutter_iff {lib : ClipboardLib} (clipboard : SystemClipboard)
    {stays : List LocalStay}
    (hinjective : ∀ c ∈ localContents stays, ∀ c' ∈ localContents stays,
      lib.blake3 c.hashedBytes = lib.blake3 c'.hashedBytes → c.hashedBytes = c'.hashedBytes) :
    (run lib clipboard (stays.flatMap LocalStay.events)).emitted =
        (localContents stays).destutter (· ≠ ·) ↔
      (localContents stays).IsChain fun c c' => c.hashedBytes = c'.hashedBytes → c = c' := by
  have hhash : ∀ c : ClipboardContent, c.hash lib = lib.blake3 c.hashedBytes := by
    intro c
    cases c <;> rfl
  rw [emitted_run_stays, Changes.detect_eq_destutter_iff, Changes.Separates]
  refine List.IsChain.iff_of_mem_imp fun c c' hc hc' => ?_
  rw [hhash, hhash]
  constructor
  · exact fun hsame hbytes => hsame (congrArg lib.blake3 hbytes)
  · exact fun hsame hdigest => hsame (hinjective c hc c' hc' hdigest)

/-- Two pixels one above the other and side by side. -/
def turned : List LocalStay :=
  [⟨⟨none, some (1, 2, [0, 0, 0, 255, 9, 9, 9, 255])⟩, [500], by decide⟩,
    ⟨⟨none, some (2, 1, [0, 0, 0, 255, 9, 9, 9, 255])⟩, [500, 500], by decide⟩]

/-- Two pixels are copied, the second of them twice. -/
def twoPixels : List LocalStay :=
  [⟨pixel [9, 9, 9, 255], [500], by decide⟩, ⟨pixel [1, 2, 3, 255], [500, 500], by decide⟩,
    ⟨pixel [1, 2, 3, 255], [500], by decide⟩]

/-- Each is emitted once. -/
theorem emitted_eq_destutter_pixels :
    (run pixelLib ⟨none, none⟩ (twoPixels.flatMap LocalStay.events)).emitted =
      (localContents twoPixels).destutter (· ≠ ·) := by
  have hinjective : ∀ c ∈ localContents twoPixels, ∀ c' ∈ localContents twoPixels,
      pixelLib.blake3 c.hashedBytes = pixelLib.blake3 c'.hashedBytes →
        c.hashedBytes = c'.hashedBytes := by
    decide
  exact (emitted_eq_destutter_iff ⟨none, none⟩ hinjective).mpr (by decide)

/-- The second of two different images with the same pixels is not emitted. -/
theorem turned_not_emitted :
    (∀ c ∈ localContents turned, ∀ c' ∈ localContents turned,
      pixelLib.blake3 c.hashedBytes = pixelLib.blake3 c'.hashedBytes →
        c.hashedBytes = c'.hashedBytes) ∧
      (run pixelLib ⟨none, none⟩ (turned.flatMap LocalStay.events)).emitted ≠
        (localContents turned).destutter (· ≠ ·) := by
  decide

end MonitorRun

end SuperShare
