import SuperShare.Clipboard.Monitor

/-!
# Echoes of received content

A task writes received content to the local clipboard and then sends its hash to the monitor.
The monitor task applies hashes from its channel and polls the clipboard, and a poll may fall
between the write and the hash. No received content is emitted exactly when every poll that
finds received content decides after the suppression of that content has been applied, or has
another reason to be silent.
-/

namespace SuperShare

/-- Time between two polls of the clipboard (in milliseconds). -/
def clipboardPollIntervalMs : ℕ := 200

/-- Capacity of the channel of suppressions. -/
def suppressCapacity : ℕ := 16

/-- Where the monitor task stands. -/
inductive MonitorPhase where
  /-- It selects between a suppression and the next poll, which is due at a time. -/
  | waiting (due : ℕ)
  /-- A poll has started. -/
  | polling
  /-- The poll has found no text and goes on to the image. -/
  | noText
  /-- The poll has read a content, put there by the write with a number or by a local copy. -/
  | found (content : ClipboardContent) (origin : Option ℕ)
  /-- The poll has returned. -/
  | polled
  deriving DecidableEq

/-- The local clipboard, the task that receives clipboard content and the monitor task. The
contents written, the write that the clipboard is due to and the number of suppressions applied
are recorded besides. -/
structure EchoState where
  clipboard : SystemClipboard
  origin : Option ℕ
  written : List ClipboardContent
  /-- The hash that the receiving task is about to send. -/
  pending : Option (Vector UInt8 32)
  queue : List (Vector UInt8 32)
  monitor : ClipboardMonitor
  phase : MonitorPhase
  applied : ℕ
  now : ℕ

/-- A step of a task, a local copy, or the passage of time. -/
inductive EchoEvent where
  | localCopy (clipboard : SystemClipboard)
  /-- The receiving task writes a content. -/
  | write (content : ClipboardContent)
  /-- The receiving task sends the hash. -/
  | send
  /-- The monitor task applies the first suppression of the channel. -/
  | suppress
  | startPoll
  | getText
  | getImage
  /-- The poll decides what it returns. -/
  | finishPoll
  /-- The monitor task starts over. -/
  | resume
  | advance (milliseconds : ℕ)
  deriving DecidableEq

/-- A change that a poll returns, with the number of the remote write that its content is due
to, if it is. -/
structure Emission where
  change : ClipboardChange
  origin : Option ℕ
  deriving DecidableEq

namespace EchoState

/-- The tasks start on a clipboard. -/
def start (clipboard : SystemClipboard) : EchoState :=
  ⟨clipboard, none, [], none, [], .new, .waiting clipboardPollIntervalMs, 0, 0⟩

/-- A step that a task cannot take changes nothing. -/
def react (lib : ClipboardLib) (s : EchoState) : EchoEvent → EchoState × Option Emission
  | .localCopy clipboard => ({ s with clipboard := clipboard, origin := none }, none)
  | .write content =>
      if s.pending.isSome then (s, none)
      else
        ({ s with
          clipboard := .writeClipboard content
          origin := some s.written.length
          written := s.written ++ [content]
          pending := some (content.hash lib) }, none)
  | .send =>
      match s.pending with
      | some hash =>
          if s.queue.length < suppressCapacity then
            ({ s with pending := none, queue := s.queue ++ [hash] }, none)
          else (s, none)
      | none => (s, none)
  | .suppress =>
      match s.phase, s.queue with
      | .waiting _, hash :: queue =>
          ({ s with
            queue := queue
            monitor := s.monitor.suppress s.now hash
            phase := .waiting (s.now + clipboardPollIntervalMs)
            applied := s.applied + 1 }, none)
      | _, _ => (s, none)
  | .startPoll =>
      match s.phase with
      | .waiting due => if due ≤ s.now then ({ s with phase := .polling }, none) else (s, none)
      | _ => (s, none)
  | .getText =>
      match s.phase with
      | .polling =>
          match s.clipboard.getText with
          | some content => ({ s with phase := .found content s.origin }, none)
          | none => ({ s with phase := .noText }, none)
      | _ => (s, none)
  | .getImage =>
      match s.phase with
      | .noText =>
          match s.clipboard.getImage with
          | some content => ({ s with phase := .found content s.origin }, none)
          | none => ({ s with phase := .polled }, none)
      | _ => (s, none)
  | .finishPoll =>
      match s.phase with
      | .found content origin =>
          let (monitor, change) := s.monitor.pollContent lib s.now content
          ({ s with monitor := monitor, phase := .polled },
            change.map fun change => ⟨change, origin⟩)
      | _ => (s, none)
  | .resume =>
      match s.phase with
      | .polled => ({ s with phase := .waiting (s.now + clipboardPollIntervalMs) }, none)
      | _ => (s, none)
  | .advance milliseconds => ({ s with now := s.now + milliseconds }, none)

/-- The state after an event. -/
def step (lib : ClipboardLib) (s : EchoState) (event : EchoEvent) : EchoState :=
  (s.react lib event).1

/-- What the polls of a run return. -/
def emissions (lib : ClipboardLib) (clipboard : SystemClipboard) (events : List EchoEvent) :
    List (Option Emission) :=
  Run.outputs (react lib) (start clipboard) events

/-- Nothing is emitted that is due to a remote write. -/
def NotEchoed (emission : Option Emission) : Prop :=
  ∀ e ∈ emission, e.origin = none

/-- A poll that decides about received content finds its suppression applied, or the window of
an earlier suppression still open, or a content that was suppressed last or emitted last. -/
def SuppressedInTime (lib : ClipboardLib) (s : EchoState) (event : EchoEvent) : Prop :=
  event = .finishPoll → ∀ content i, s.phase = .found content (some i) →
    i < s.applied ∨ s.monitor.Silences lib s.now content

/-- The suppressions applied, in the channel and about to be sent are those of the writes, in
order. What the poll has read is due to the write that was last when it read. -/
structure Ordered (lib : ClipboardLib) (s : EchoState) : Prop where
  applied_le : s.applied ≤ s.written.length
  rest : (s.written.drop s.applied).map (ClipboardContent.hash lib) = s.queue ++ s.pending.toList
  last : ∀ i, s.applied = i + 1 →
    s.monitor.remoteHash = s.written[i]?.map (ClipboardContent.hash lib)
  clipboard : ∀ i, s.origin = some i → i + 1 = s.written.length ∧
    s.written[i]?.map SystemClipboard.writeClipboard = some s.clipboard
  found : ∀ content i, s.phase = .found content (some i) →
    s.applied ≤ i + 1 ∧ s.written[i]? = some content

variable {lib : ClipboardLib} {s : EchoState}

/-- The tasks start in order. -/
theorem ordered_start (clipboard : SystemClipboard) : (start clipboard).Ordered lib := by
  refine ⟨Nat.le_refl 0, rfl, ?_, ?_, ?_⟩
  · intro i hi
    exact absurd hi (by simp [start])
  · intro i hi
    exact absurd hi (by simp [start])
  · intro content i hi
    exact absurd hi (by simp [start])

/-- A write adds the hash that is about to be sent. -/
theorem Ordered.write (h : s.Ordered lib) (content : ClipboardContent) :
    (s.step lib (.write content)).Ordered lib := by
  by_cases hpending : s.pending.isSome = true
  · rwa [step, react, if_pos hpending]
  have hnone : s.pending = none := by simpa using hpending
  have hle := h.applied_le
  rw [step, react, if_neg hpending]
  refine ⟨?_, ?_, ?_, ?_, ?_⟩
  · change s.applied ≤ (s.written ++ [content]).length
    rw [List.length_append]
    omega
  · change ((s.written ++ [content]).drop s.applied).map _ = s.queue ++ [content.hash lib]
    rw [List.drop_append_of_le_length hle, List.map_append, h.rest, hnone]
    simp
  · intro i hi
    have hlt : i < s.written.length := by
      have : s.applied = i + 1 := hi
      omega
    change s.monitor.remoteHash = (s.written ++ [content])[i]?.map _
    rw [List.getElem?_append_left hlt]
    exact h.last i hi
  · intro i hi
    obtain rfl : s.written.length = i := Option.some.inj hi
    constructor
    · change s.written.length + 1 = (s.written ++ [content]).length
      rw [List.length_append, List.length_singleton]
    · change (s.written ++ [content])[s.written.length]?.map _ = _
      rw [List.getElem?_concat_length]
      rfl
  · intro found i hi
    obtain ⟨happlied, hfound⟩ := h.found found i hi
    refine ⟨happlied, ?_⟩
    have hlt : i < s.written.length := (List.getElem?_eq_some_iff.mp hfound).1
    change (s.written ++ [content])[i]? = some found
    rwa [List.getElem?_append_left hlt]

/-- Sending a hash moves it to the channel. -/
theorem Ordered.send (h : s.Ordered lib) : (s.step lib .send).Ordered lib := by
  cases hpending : s.pending with
  | none => simpa only [step, react, hpending] using h
  | some hash =>
    by_cases hroom : s.queue.length < suppressCapacity
    · simp only [step, react, hpending, if_pos hroom]
      refine ⟨h.applied_le, ?_, h.last, h.clipboard, h.found⟩
      rw [h.rest, hpending]
      simp
    · simpa only [step, react, hpending, if_neg hroom] using h

/-- Applying a suppression makes it the one that the monitor remembers. -/
theorem Ordered.suppress (h : s.Ordered lib) : (s.step lib .suppress).Ordered lib := by
  cases hphase : s.phase with
  | waiting due =>
    cases hqueue : s.queue with
    | nil => simpa only [step, react, hphase, hqueue] using h
    | cons hash queue =>
      have hrest := h.rest
      rw [hqueue, List.cons_append] at hrest
      obtain ⟨written, later, hdrop, hhash, hlater⟩ := List.map_eq_cons_iff.mp hrest
      have hget : s.written[s.applied]? = some written := by
        rw [← List.head?_drop, hdrop]
        rfl
      have hlt : s.applied < s.written.length := (List.getElem?_eq_some_iff.mp hget).1
      simp only [step, react, hphase, hqueue]
      refine ⟨hlt, ?_, ?_, h.clipboard, ?_⟩
      · rw [← List.tail_drop, hdrop]
        exact hlater
      · intro i hi
        have hsucc : s.applied + 1 = i + 1 := hi
        obtain rfl : s.applied = i := by omega
        rw [hget, ClipboardMonitor.suppress, ← hhash]
        rfl
      · intro content i hi
        exact absurd hi (by simp)
  | _ => simpa only [step, react, hphase] using h

/-- A phase without content read keeps the order. -/
theorem Ordered.setPhase (h : s.Ordered lib) {phase : MonitorPhase}
    (hphase : ∀ content i, phase ≠ .found content (some i)) :
    ({ s with phase := phase } : EchoState).Ordered lib := by
  refine ⟨h.applied_le, h.rest, h.last, h.clipboard, ?_⟩
  intro content i hi
  exact absurd hi (hphase content i)

/-- What the poll reads is what the last write has put there, if it is due to a write. -/
theorem Ordered.read (h : s.Ordered lib) {content : ClipboardContent}
    (hread : ∀ written, s.clipboard = .writeClipboard written → content = written) :
    ({ s with phase := .found content s.origin } : EchoState).Ordered lib := by
  refine ⟨h.applied_le, h.rest, h.last, h.clipboard, ?_⟩
  intro found i hi
  obtain ⟨rfl, horigin⟩ := MonitorPhase.found.inj hi
  obtain ⟨hlast, hclipboard⟩ := h.clipboard i horigin
  obtain ⟨written, hwritten, heq⟩ := Option.map_eq_some_iff.mp hclipboard
  have hle := h.applied_le
  refine ⟨?_, ?_⟩
  · change s.applied ≤ i + 1
    omega
  · change s.written[i]? = some content
    rw [hwritten, hread written heq.symm]

/-- Every event keeps the order. -/
theorem Ordered.step (h : s.Ordered lib) (event : EchoEvent) :
    (s.step lib event).Ordered lib := by
  cases event with
  | localCopy clipboard =>
    refine ⟨h.applied_le, h.rest, h.last, ?_, h.found⟩
    intro i hi
    exact absurd hi (by simp [EchoState.step, react])
  | write content => exact h.write content
  | send => exact h.send
  | suppress => exact h.suppress
  | startPoll =>
    cases hphase : s.phase with
    | waiting due =>
      by_cases hdue : due ≤ s.now
      · simpa only [EchoState.step, react, hphase, if_pos hdue] using h.setPhase (by simp)
      · simpa only [EchoState.step, react, hphase, if_neg hdue] using h
    | _ => simpa only [EchoState.step, react, hphase] using h
  | getText =>
    cases hphase : s.phase with
    | polling =>
      cases htext : s.clipboard.getText with
      | none => simpa only [EchoState.step, react, hphase, htext] using h.setPhase (by simp)
      | some content =>
        simp only [EchoState.step, react, hphase, htext]
        refine h.read fun written hwritten => ?_
        exact SystemClipboard.eq_of_getText_write (hwritten ▸ htext)
    | _ => simpa only [EchoState.step, react, hphase] using h
  | getImage =>
    cases hphase : s.phase with
    | noText =>
      cases himage : s.clipboard.getImage with
      | none => simpa only [EchoState.step, react, hphase, himage] using h.setPhase (by simp)
      | some content =>
        simp only [EchoState.step, react, hphase, himage]
        refine h.read fun written hwritten => ?_
        exact SystemClipboard.eq_of_getImage_write (hwritten ▸ himage)
    | _ => simpa only [EchoState.step, react, hphase] using h
  | finishPoll =>
    cases hphase : s.phase with
    | found content origin =>
      simp only [EchoState.step, react, hphase]
      refine ⟨h.applied_le, h.rest, ?_, h.clipboard, ?_⟩
      · intro i hi
        rw [ClipboardMonitor.pollContent_remoteHash]
        exact h.last i hi
      · intro found i hi
        exact absurd hi (by simp)
    | _ => simpa only [EchoState.step, react, hphase] using h
  | resume =>
    cases hphase : s.phase with
    | polled => simpa only [EchoState.step, react, hphase] using h.setPhase (by simp)
    | _ => simpa only [EchoState.step, react, hphase] using h
  | advance milliseconds => exact ⟨h.applied_le, h.rest, h.last, h.clipboard, h.found⟩

/-- Only a poll that finishes returns anything. -/
theorem react_quiet {event : EchoEvent} (hevent : event ≠ .finishPoll) :
    (s.react lib event).2 = none := by
  cases event with
  | finishPoll => exact absurd rfl hevent
  | localCopy | advance => rfl
  | write content => rw [react]; split <;> rfl
  | send =>
    cases hpending : s.pending with
    | none => rw [react, hpending]
    | some hash => rw [react, hpending]; simp only; split <;> rfl
  | suppress =>
    cases hphase : s.phase <;> cases hqueue : s.queue <;> simp only [react, hphase, hqueue]
  | startPoll =>
    cases hphase : s.phase <;> simp only [react, hphase]
    split <;> rfl
  | getText =>
    cases hphase : s.phase <;> simp only [react, hphase]
    split <;> rfl
  | getImage =>
    cases hphase : s.phase <;> simp only [react, hphase]
    split <;> rfl
  | resume => cases hphase : s.phase <;> simp only [react, hphase]

/-- A poll that decides about received content emits it unless its suppression has come in
time: once applied, the suppression is the one that the monitor remembers. -/
theorem Ordered.notEchoed_iff (h : s.Ordered lib) (event : EchoEvent) :
    NotEchoed (s.react lib event).2 ↔ s.SuppressedInTime lib event := by
  by_cases hfinish : event = .finishPoll
  · subst hfinish
    cases hphase : s.phase with
    | found content origin =>
      by_cases hsilent : s.monitor.Silences lib s.now content
      · have hquiet : (s.react lib .finishPoll).2 = none := by
          simp [react, hphase, ClipboardMonitor.pollContent_of_silences hsilent]
        constructor
        · rintro - - found i hfound
          obtain ⟨rfl, -⟩ := MonitorPhase.found.inj (hphase.symm.trans hfound)
          exact Or.inr hsilent
        · rintro - e he
          exact absurd he (by simp [hquiet])
      · have hemit : (s.react lib .finishPoll).2 =
            some ⟨⟨content, content.hash lib⟩, origin⟩ := by
          simp [react, hphase, ClipboardMonitor.pollContent_of_not_silences hsilent]
        constructor
        · rintro hnot - found i hfound
          obtain ⟨-, rfl⟩ := MonitorPhase.found.inj (hphase.symm.trans hfound)
          exact absurd (hnot _ hemit) (by simp)
        · intro hintime e he
          obtain rfl := Option.some.inj (hemit.symm.trans he)
          cases origin with
          | none => rfl
          | some i =>
            rcases hintime rfl content i hphase with happlied | hsilent'
            · obtain ⟨hle, hget⟩ := h.found content i hphase
              have hremote := h.last i (by omega)
              rw [hget] at hremote
              exact absurd (Or.inl hremote) hsilent
            · exact absurd hsilent' hsilent
    | _ =>
      constructor
      · rintro - - content i hfound
        exact absurd (hphase.symm.trans hfound) (by simp)
      · rintro - e he
        exact absurd he (by simp [react, hphase])
  · have hquiet := @react_quiet lib s event hfinish
    constructor
    · rintro - hevent
      exact absurd hevent hfinish
    · rintro - e he
      exact absurd he (by simp [hquiet])

/-- **No echo.** Nothing received is emitted in a run exactly when every poll of the run that
decides about received content finds its suppression applied, or is silent for another
reason. -/
theorem not_echoed_iff (clipboard : SystemClipboard) (events : List EchoEvent) :
    (∀ emission ∈ emissions lib clipboard events, NotEchoed emission) ↔
      Run.Along (step lib) (SuppressedInTime lib) (start clipboard) events :=
  Run.forall_outputs_iff_along (Ordered lib) (fun _ event _ hs => hs.step event)
    (fun _ event hs => hs.notEchoed_iff event) (ordered_start clipboard) events

/-- A poll falls between the write of a pixel and its suppression. -/
def earlyPoll : List EchoEvent :=
  [.advance 200, .write (.image 1 1 [9, 9, 9, 255]), .startPoll, .getText, .getImage,
    .finishPoll, .send, .resume, .suppress]

/-- The poll emits the pixel that was received. -/
theorem earlyPoll_echoed : ¬ ∀ emission ∈ emissions pixelLib ⟨none, none⟩ earlyPoll,
    NotEchoed emission := by
  have hemitted : some ⟨⟨.image 1 1 [9, 9, 9, 255], pixelLib.blake3 [9, 9, 9, 255]⟩, some 0⟩ ∈
      emissions pixelLib ⟨none, none⟩ earlyPoll := by decide
  intro h
  exact absurd (h _ hemitted _ rfl) (by simp)

end EchoState

end SuperShare
